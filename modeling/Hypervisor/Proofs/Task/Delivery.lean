/-
What a handle gets of the outcome: each outcome is sent at most once, is not lost on the way, and stays the same.

All of it is read off the invariant of `Reachable`: the result channel holds what was sent until the handle takes it,
and the handle takes it only from a poller that has sent or died, for which it can then wait without another check.
-/
import Hypervisor.Proofs.Task.Reachable

namespace Hypervisor.Task

open List (replicate)

theorem verdict_ne_pollerLost {id : Id} {last : CheckResult} (h : last ≠ .died) (name : String) :
    verdict id last ≠ .failed (.pollerLost name) := by
  rcases verdict_cases id last with ⟨-, hverdict⟩ | ⟨hdied, -⟩ | hneither
  · simp [hverdict]
  · exact absurd hdied h
  · exact (hneither name).2

namespace Machine

variable {m : Machine} {sent : List Outcome}

/-! ## The handle -/

/-- nothing but a drop drops the handle -/
theorem handle_ne_dropped (h : m.handle ≠ .dropped) {actions : List Action} (hdrop : .drop ∉ actions) :
    (m.run actions).handle ≠ .dropped := by
  refine kept_by_run (P := fun n => n.handle ≠ .dropped) h fun a ha n hn => ?_
  refine kept_by_step (P := fun n' => n'.handle ≠ .dropped) hn fun n' hm => ?_
  cases hm with
  | drop => exact absurd ha hdrop
  | take | join => simp [take, answer]
  | _ => exact hn

/-- a handle that joins a poller which has sent or died is done when the poller ends -/
theorem answers_of_join {outcome : Outcome} (hjoining : m.handle = .joining outcome)
    (htold : m.phase = .sent ∨ m.phase = .ended) :
    (m.run [.exit, .join]).answers = m.answers ++ [some outcome] := by
  rcases htold with hphase | hphase <;> simp [run, step, hjoining, hphase, answer]

/-- a free handle has settled on nothing and answered nothing, or on what was sent -/
theorem idle_cases (h : Sound m sent) (hidle : m.handle = .idle) :
    (m.settled = none ∧ m.reported = sent.head? ∧ ∃ n, m.answers = replicate n none) ∨
      (m.settled = some (delivery m.id sent) ∧ m.phase = .ended ∧ some (delivery m.id sent) ∈ m.answers) := by
  obtain ⟨-, -, hh⟩ := h
  obtain ⟨id, phase, started, results, cancelWaiting, cancelOpen, reported, handle, settled, answers⟩ := m
  dsimp only at hh hidle ⊢
  subst hidle
  cases hh with
  | waiting n => exact .inl ⟨rfl, rfl, n, rfl⟩
  | settled n j ended => exact .inr ⟨rfl, ended, by simp⟩

/-- once the poller has sent or died there is something to take -/
theorem available_of_told (h : Sound m sent) (hreported : m.reported = sent.head?)
    (htold : m.phase = .sent ∨ m.phase = .ended) : m.available? = some (delivery m.id sent) := by
  obtain ⟨hp, -, -⟩ := h
  obtain ⟨id, phase, started, results, cancelWaiting, cancelOpen, reported, handle, settled, answers⟩ := m
  dsimp only at hp hreported htold
  subst hreported
  cases hp with
  | sent | ended | died => rfl
  | _ => rcases htold with h | h <;> cases h

/-- no outcome is lost: once the poller has sent or died, the next call gets it -/
theorem answers_of_call (h : Sound m sent) (hidle : m.handle = .idle) (htold : m.phase = .sent ∨ m.phase = .ended)
    {call : Action} (hcall : call.IsCall) :
    (m.run [call, .exit, .join]).answers = m.answers ++ [some (delivery m.id sent)] := by
  rw [run_cons]
  rcases idle_cases h hidle with ⟨hunsettled, hreported, -⟩ | ⟨hsettled, hended, -⟩
  · rw [(Moves.take call _ hcall hidle hunsettled (available_of_told h hreported htold)).step_eq]
    exact answers_of_join rfl htold
  · rw [(Moves.again call _ hcall hidle hsettled).step_eq]
    simp [run, step, answer, hended, hidle]

/-- a look finds nothing just when there is no outcome yet -/
theorem tryWait_nothing_iff (h : Sound m sent) (hidle : m.handle = .idle) :
    (m.step .tryWait).answers = m.answers ++ [none] ↔
      (∀ outcome, some outcome ∉ m.answers) ∧ m.reported = none ∧ m.phase ≠ .ended := by
  rcases idle_cases h hidle with ⟨hunsettled, -, n, hanswers⟩ | ⟨hsettled, hended, hmem⟩
  · have hnone : ∀ outcome, some outcome ∉ m.answers := by simp [hanswers]
    cases havailable : m.available? with
    | some outcome =>
      rw [(Moves.take .tryWait outcome .tryWait hidle hunsettled havailable).step_eq]
      refine iff_of_false (by simp [take]) ?_
      rintro ⟨-, hreported, hended⟩
      simp [available?, hreported, hended] at havailable
    | none =>
      rw [(Moves.nothing hidle hunsettled havailable).step_eq]
      refine iff_of_true rfl ⟨hnone, ?_⟩
      cases hreported : m.reported with
      | some outcome => simp [available?, hreported] at havailable
      | none => exact ⟨rfl, fun hended => by simp [available?, hreported, hended] at havailable⟩
  · rw [(Moves.again .tryWait _ .tryWait hidle hsettled).step_eq]
    refine iff_of_false ?_ fun hnothing => hnothing.1 _ hmem
    simp [answer]

/-! ## What was sent -/

theorem length_sent_le (h : Sound m sent) : sent.length ≤ 1 := by
  by_cases hsome : sent = []
  · simp [hsome]
  · obtain ⟨last, -, -, heq⟩ := h.outcome (List.append_ne_nil_of_left_ne_nil hsome _)
    have hlength := congrArg List.length heq
    rw [List.length_append, List.length_singleton] at hlength
    omega

/-- a poller that is about to send finds the channel empty -/
theorem reported_of_reporting (h : Sound m sent) {outcome : Outcome} (hreporting : m.phase = .reporting outcome) :
    m.reported = none := by
  have hsent : sent = [] := by
    by_contra hsome
    rcases told_of_sent_ne_nil h.poller hsome with hphase | hphase <;> simp [hphase] at hreporting
  rcases h.reported_eq with hreported | hreported
  · exact hreported
  · rw [hreported, hsent, List.head?_nil]

/-- an answer is what was sent; that the poller is lost is answered where nothing was, and is never sent -/
theorem sent_of_answered (h : Sound m sent) {outcome : Outcome} (hmem : some outcome ∈ m.answers) :
    (sent = [outcome] ∧ outcome ≠ .failed (.pollerLost m.id.text)) ∨
      (sent = [] ∧ m.phase = .ended ∧ outcome = .failed (.pollerLost m.id.text)) := by
  obtain ⟨hended, rfl⟩ := h.answered hmem
  by_cases hsome : sent = []
  · exact .inr ⟨hsome, hended, by rw [hsome]; rfl⟩
  · obtain ⟨last, -, hdied, heq⟩ := h.outcome (List.append_ne_nil_of_left_ne_nil hsome _)
    have hpending : m.pending = [] := by simp [pending, hended]
    rw [hpending, List.append_nil] at heq
    rw [heq]
    exact .inl ⟨rfl, verdict_ne_pollerLost hdied _⟩

/-- until the handle is dropped, all answers after the first outcome are that outcome -/
theorem answers_stable (h : Sound m sent) (hkept : m.handle ≠ .dropped) :
    ∃ n j outcome, m.answers = replicate n none ++ replicate j (some outcome) := by
  obtain ⟨-, -, hh⟩ := h
  obtain ⟨id, phase, started, results, cancelWaiting, cancelOpen, reported, handle, settled, answers⟩ := m
  dsimp only at hh hkept ⊢
  cases hh with
  | waiting n => exact ⟨n, 0, delivery id sent, by simp⟩
  | joining n told => exact ⟨n, 0, delivery id sent, by simp⟩
  | settled n j ended => exact ⟨n, j + 1, delivery id sent, rfl⟩
  | dropped => exact absurd rfl hkept

/-- a call after the outcome is given gives it at once -/
theorem answers_again (h : Sound m sent) {outcome : Outcome} (hmem : some outcome ∈ m.answers)
    (hidle : m.handle = .idle) {call : Action} (hcall : call.IsCall) :
    (m.step call).answers = m.answers ++ [some outcome] := by
  obtain ⟨hended, rfl⟩ := h.answered hmem
  rcases idle_cases h hidle with ⟨-, -, n, hanswers⟩ | ⟨hsettled, -, -⟩
  · simp [hanswers] at hmem
  · rw [(Moves.again call _ hcall hidle hsettled).step_eq]
    rfl

/-- the handle joins only a poller that has sent or died -/
theorem told_of_joining (h : Sound m sent) {outcome : Outcome} (hjoining : m.handle = .joining outcome) :
    m.phase = .sent ∨ m.phase = .ended := by
  obtain ⟨-, -, hh⟩ := h
  obtain ⟨id, phase, started, results, cancelWaiting, cancelOpen, reported, handle, settled, answers⟩ := m
  dsimp only at hh hjoining ⊢
  subst hjoining
  cases hh with
  | joining n told => exact told

/-! ## What a handle gets -/

/-- what the poller has sent reaches the handle -/
structure Delivers (m : Machine) (sent : List Outcome) : Prop where
  once : sent.length ≤ 1
  /-- a send finds the channel empty -/
  room : ∀ outcome, m.phase = .reporting outcome → m.reported = none
  /-- an answer is what was sent, and that the poller is lost just where it has ended and sent nothing -/
  answered : ∀ outcome, some outcome ∈ m.answers →
    (sent = [outcome] ∧ outcome ≠ .failed (.pollerLost m.id.text)) ∨
      (sent = [] ∧ m.phase = .ended ∧ outcome = .failed (.pollerLost m.id.text))
  /-- once the poller has sent or died, the next call gets the outcome as the poller ends -/
  kept : m.handle = .idle → m.phase = .sent ∨ m.phase = .ended → ∀ call : Action, call.IsCall →
    (m.run [call, .exit, .join]).answers = m.answers ++ [some (delivery m.id sent)]
  /-- all answers after the first outcome are that outcome -/
  stable : ∃ n j outcome, m.answers = replicate n none ++ replicate j (some outcome)
  /-- a later call gives the same outcome at once -/
  again : ∀ outcome, some outcome ∈ m.answers → m.handle = .idle → ∀ call : Action, call.IsCall →
    (m.step call).answers = m.answers ++ [some outcome]
  /-- a look finds nothing only while no outcome is delivered or waits and the poller has not ended -/
  nothing : m.handle = .idle → ((m.step .tryWait).answers = m.answers ++ [none] ↔
    (∀ outcome, some outcome ∉ m.answers) ∧ m.reported = none ∧ m.phase ≠ .ended)
  /-- the handle joins a poller that has sent or died, and so waits for no further check -/
  joins : ∀ outcome, m.handle = .joining outcome → (m.phase = .sent ∨ m.phase = .ended) ∧
    (∀ actions, (m.run actions).started = m.started) ∧ (m.run [.exit, .join]).answers = m.answers ++ [some outcome]

/-- **At most one outcome is delivered, and it stays the same.** In every machine that is reached without a drop, by
waits, looks and cancels in any interleaving with the poller, the poller has sent at most one outcome, into an empty
channel; the first answer with an outcome is the one sent, or that the poller is lost where it died; every later answer
is the same; a look finds nothing only before that; and the handle joins only a poller that is done. -/
theorem outcome_delivered (id : Id) (actions : List Action) (hdrop : .drop ∉ actions) :
    Delivers ((submit id).run actions) ((submit id).sends actions) := by
  have h := sound_reached id actions
  refine
    { once := length_sent_le h
      room := fun outcome hreporting => reported_of_reporting h hreporting
      answered := fun outcome hmem => sent_of_answered h hmem
      kept := fun hidle htold call hcall => answers_of_call h hidle htold hcall
      stable := answers_stable h (handle_ne_dropped (by simp [submit]) hdrop)
      again := fun outcome hmem hidle call hcall => answers_again h hmem hidle hcall
      nothing := fun hidle => tryWait_nothing_iff h hidle
      joins := fun outcome hjoining => ?_ }
  have htold := told_of_joining h hjoining
  have hover : ((submit id).run actions).phase.Over := by
    rcases htold with hphase | hphase <;> simp [hphase, Phase.Over]
  exact ⟨htold, started_of_over hover, answers_of_join hjoining htold⟩

/-- a look during the check, a cancel when the outcome is sent, a wait, and a look after another cancel -/
def lateCancels : List Action :=
  [.start, .tryWait, .complete (.status (.stopped "OK")), .report, .cancel, .wait, .exit, .join, .cancel, .tryWait]

theorem outcome_delivered_lateCancels :
    .drop ∉ lateCancels ∧ Delivers ((submit guestStart).run lateCancels) [.succeeded] ∧
      ((submit guestStart).run lateCancels).answers = [none, some .succeeded, some .succeeded] := by
  have hkept : .drop ∉ lateCancels := by decide
  exact ⟨hkept, outcome_delivered guestStart lateCancels hkept, by decide⟩

end Machine

end Hypervisor.Task
