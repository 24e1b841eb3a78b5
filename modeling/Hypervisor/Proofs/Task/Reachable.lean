/-
What the poller and the handle have done by the time that a machine is reached.

`Polled` says where the poller can be: every check but the last said that the task runs, and the last one decides what
is sent. `Attended` says where the handle can be: before the outcome is taken all answers are empty, and afterwards all
of them are the outcome that was sent, or that the poller is lost where nothing was. Both hold in every machine that is
reached from a submitted task, by whatever interleaving (`sound_run`).
-/
import Hypervisor.Proofs.Task.Moves

namespace Hypervisor.Task

open List (replicate)

/-- the outcome of a wait whose last check had this result -/
def verdict (id : Id) : CheckResult → Outcome
  -- the task runs, so the wait was cut short
  | .status .running => .failed (.cancelled id.text)
  | .status (.stopped exitStatus) => if exitStatus = "OK" then .succeeded else .failed (.remote id.text exitStatus)
  | .transport fault => .failed (.transport fault)
  | .died => .failed (.pollerLost id.text)

/-- a verdict tells of a wait cut short, of a lost poller, or of neither -/
theorem verdict_cases (id : Id) (last : CheckResult) :
    (last = .running ∧ verdict id last = .failed (.cancelled id.text)) ∨
      (last = .died ∧ verdict id last = .failed (.pollerLost id.text)) ∨
      ∀ name, verdict id last ≠ .failed (.cancelled name) ∧ verdict id last ≠ .failed (.pollerLost name) := by
  cases last with
  | status s =>
    cases s with
    | running => exact .inl ⟨rfl, rfl⟩
    | stopped exitStatus =>
      refine .inr (.inr fun name => ?_)
      simp only [verdict]
      split_ifs <;> simp
  | transport fault => exact .inr (.inr fun name => by simp [verdict])
  | died => exact .inr (.inl ⟨rfl, rfl⟩)

/-- what a handle makes of what the poller has sent -/
def delivery (id : Id) (sent : List Outcome) : Outcome := sent.head?.getD (.failed (.pollerLost id.text))

/-- the result ends the polling: one that says that the task runs does so only where the poller is asked to stop -/
structure Concludes (cancelOpen : Bool) (last : CheckResult) : Prop where
  alive : last ≠ .died
  asked : last = .running → cancelOpen = false

/-- the poller has an outcome or is gone -/
def Phase.Over : Phase → Prop
  | .reporting _ | .sent | .ended => True
  | .ready | .checking | .pausing => False

/-- where the poller is, how many checks it has started, what they said and what it has sent -/
inductive Polled (id : Id) (cancelOpen : Bool) : Phase → ℕ → List CheckResult → List Outcome → Prop
  | ready (k : ℕ) : Polled id cancelOpen .ready k (replicate k .running) []
  | checking (k : ℕ) : Polled id cancelOpen .checking (k + 1) (replicate k .running) []
  | pausing (k : ℕ) : Polled id cancelOpen .pausing (k + 1) (replicate k .running ++ [.running]) []
  | reporting (k : ℕ) (last : CheckResult) (concludes : Concludes cancelOpen last) :
    Polled id cancelOpen (.reporting (verdict id last)) (k + 1) (replicate k .running ++ [last]) []
  | sent (k : ℕ) (last : CheckResult) (concludes : Concludes cancelOpen last) :
    Polled id cancelOpen .sent (k + 1) (replicate k .running ++ [last]) [verdict id last]
  | ended (k : ℕ) (last : CheckResult) (concludes : Concludes cancelOpen last) :
    Polled id cancelOpen .ended (k + 1) (replicate k .running ++ [last]) [verdict id last]
  | died (k : ℕ) : Polled id cancelOpen .ended (k + 1) (replicate k .running ++ [.died]) []

/-- where the handle is, what waits for it, what it has settled on and what it has answered -/
inductive Attended (id : Id) (cancelOpen : Bool) (phase : Phase) (sent : List Outcome) :
    HandlePhase → Option Outcome → Option Outcome → List (Option Outcome) → Prop
  /-- what was sent waits in the channel -/
  | waiting (n : ℕ) : Attended id cancelOpen phase sent .idle sent.head? none (replicate n none)
  | joining (n : ℕ) (told : phase = .sent ∨ phase = .ended) :
    Attended id cancelOpen phase sent (.joining (delivery id sent)) none none (replicate n none)
  | settled (n j : ℕ) (ended : phase = .ended) :
    Attended id cancelOpen phase sent .idle none (some (delivery id sent))
      (replicate n none ++ replicate (j + 1) (some (delivery id sent)))
  | dropped (settled : Option Outcome) (answers : List (Option Outcome)) (closed : cancelOpen = false)
    (delivered : ∀ outcome, some outcome ∈ answers → phase = .ended ∧ outcome = delivery id sent) :
    Attended id cancelOpen phase sent .dropped none settled answers

/-- both sides are where they can be -/
structure Sound (m : Machine) (sent : List Outcome) : Prop where
  poller : Polled m.id m.cancelOpen m.phase m.started m.results sent
  /-- a cancel message is the last thing that the channel carries -/
  message : m.cancelWaiting = true → m.cancelOpen = false
  handle : Attended m.id m.cancelOpen m.phase sent m.handle m.reported m.settled m.answers

/-! ## Single moves -/

section

variable {id : Id} {cancelOpen : Bool} {phase : Phase} {sent : List Outcome} {handle : HandlePhase}
  {reported settled : Option Outcome} {answers : List (Option Outcome)}

theorem Concludes.close {last : CheckResult} (h : Concludes cancelOpen last) : Concludes false last :=
  ⟨h.alive, fun _ => rfl⟩

/-- closing the cancel channel takes nothing back -/
theorem Polled.close {started : ℕ} {results : List CheckResult} (h : Polled id cancelOpen phase started results sent) :
    Polled id false phase started results sent := by
  cases h with
  | ready => exact .ready started
  | checking k => exact .checking k
  | pausing k => exact .pausing k
  | reporting k last concludes => exact .reporting k last concludes.close
  | sent k last concludes => exact .sent k last concludes.close
  | ended k last concludes => exact .ended k last concludes.close
  | died k => exact .died k

theorem Attended.close (h : Attended id cancelOpen phase sent handle reported settled answers) :
    Attended id false phase sent handle reported settled answers := by
  cases h with
  | waiting n => exact .waiting n
  | joining n told => exact .joining n told
  | settled n j ended => exact .settled n j ended
  | dropped settled answers closed delivered => exact .dropped settled answers rfl delivered

/-- nothing is taken before the poller has sent or died, so the poller is free to move on -/
theorem Attended.advance (h : Attended id cancelOpen phase sent handle reported settled answers)
    (hsent : phase ≠ .sent) (hended : phase ≠ .ended) (next : Phase) :
    Attended id cancelOpen next sent handle reported settled answers := by
  cases h with
  | waiting n => exact .waiting n
  | joining n told =>
    rcases told with told | told
    · exact absurd told hsent
    · exact absurd told hended
  | settled n j ended => exact absurd ended hended
  | dropped settled answers closed delivered =>
    exact .dropped settled answers closed fun outcome hmem => absurd (delivered outcome hmem).1 hended

/-- the poller comes to its end -/
theorem Attended.exit (h : Attended id cancelOpen .sent sent handle reported settled answers) :
    Attended id cancelOpen .ended sent handle reported settled answers := by
  cases h with
  | waiting n => exact .waiting n
  | joining n told => exact .joining n (.inr rfl)
  | settled n j ended => cases ended
  | dropped settled answers closed delivered =>
    exact .dropped settled answers closed fun outcome hmem => absurd (delivered outcome hmem).1 (by simp)

end

namespace Machine

/-- where a check leads -/
theorem afterCheck_cases (id : Id) (result : CheckResult) :
    (result = .running ∧ Phase.afterCheck id result = .pausing) ∨
      (result = .died ∧ Phase.afterCheck id result = .ended) ∨
      result ≠ .running ∧ result ≠ .died ∧ Phase.afterCheck id result = .reporting (verdict id result) := by
  cases result with
  | status s =>
    cases s with
    | running => exact .inl ⟨rfl, rfl⟩
    | stopped exitStatus => exact .inr (.inr ⟨by simp, by simp, rfl⟩)
  | transport fault => exact .inr (.inr ⟨by simp, by simp, rfl⟩)
  | died => exact .inr (.inl ⟨rfl, rfl⟩)

variable {m m' : Machine} {a : Action} {sent : List Outcome}

/-- the steps of the poller: each takes it on by what the last check said -/
theorem polled_move (h : Sound m sent) (hm : Moves m a m') :
    Polled m'.id m'.cancelOpen m'.phase m'.started m'.results (sent ++ m.sentBy a) := by
  obtain ⟨hp, hmessage, -⟩ := h
  obtain ⟨id, phase, started, results, cancelWaiting, cancelOpen, reported, handle, settled, answers⟩ := m
  dsimp only at hp hmessage
  cases hm with
  | start ready =>
    obtain rfl : phase = .ready := ready
    cases hp with
    | ready => exact .checking started
  | complete result checking =>
    obtain rfl : phase = .checking := checking
    cases hp with
    | checking k =>
      rcases afterCheck_cases id result with ⟨rfl, hnext⟩ | ⟨rfl, hnext⟩ | ⟨hrunning, hdied, hnext⟩
      · exact .pausing k
      · exact .died k
      · simp only [hnext]
        exact .reporting k result ⟨hdied, fun h => absurd h hrunning⟩
  | timeout pausing unasked =>
    obtain rfl : phase = .pausing := pausing
    cases hp with
    | pausing k =>
      have hready : Polled id cancelOpen .ready (k + 1) (replicate (k + 1) .running) [] := .ready (k + 1)
      rwa [List.replicate_succ'] at hready
  | heed pausing asked =>
    obtain rfl : phase = .pausing := pausing
    cases hp with
    | pausing k =>
      have hclosed : cancelOpen = false := by
        cases hw : cancelWaiting with
        | true => exact hmessage hw
        | false => simpa [stopAsked, hw] using asked
      exact .reporting k .running ⟨by simp, fun _ => hclosed⟩
  | report outcome reporting heard =>
    obtain rfl : phase = .reporting outcome := reporting
    cases hp with
    | reporting k last concludes => exact .sent k last concludes
  | reportUnheard outcome reporting unheard =>
    obtain rfl : phase = .reporting outcome := reporting
    cases hp with
    | reporting k last concludes => exact .sent k last concludes
  | exit sent =>
    obtain rfl : phase = .sent := sent
    cases hp with
    | sent k last concludes => exact .ended k last concludes
  | cancel idle able => simpa [sentBy] using hp.close
  | drop idle => simpa [sentBy] using hp.close
  | again call outcome isCall idle settled => cases isCall <;> simpa [sentBy, answer] using hp
  | take call outcome isCall idle unsettled available => cases isCall <;> simpa [sentBy, take] using hp
  | nothing idle unsettled unavailable => simpa [sentBy, answer] using hp
  | join outcome joining ended => simpa [sentBy, answer] using hp

/-- what is sent by an action that the poller does not report by -/
theorem sentBy_eq_nil (ha : a ≠ .report) : m.sentBy a = [] := by
  cases a <;> first | rfl | exact absurd rfl ha

/-- what was sent is told only once the poller has sent it -/
theorem told_of_sent_ne_nil (h : Polled m.id m.cancelOpen m.phase m.started m.results sent) (hsent : sent ≠ []) :
    m.phase = .sent ∨ m.phase = .ended := by
  obtain ⟨id, phase, started, results, cancelWaiting, cancelOpen, reported, handle, settled, answers⟩ := m
  dsimp only at h ⊢
  cases h with
  | sent => exact .inl rfl
  | ended => exact .inr rfl
  | _ => exact absurd rfl hsent

/-- what the handle can take is what was sent, or the news that nothing will be -/
theorem told_of_available (hreported : m.reported = sent.head?) {outcome : Outcome} (h : m.available? = some outcome)
    (htold : sent ≠ [] → m.phase = .sent ∨ m.phase = .ended) :
    outcome = delivery m.id sent ∧ (m.phase = .sent ∨ m.phase = .ended) := by
  unfold available? at h
  rw [hreported] at h
  cases sent with
  | nil =>
    simp only [List.head?_nil] at h
    split_ifs at h with hended
    exact ⟨(Option.some.inj h).symm, .inr hended⟩
  | cons first rest =>
    exact ⟨(Option.some.inj h).symm, htold (by simp)⟩

/-- the handle waits for what is sent, takes it once, and gives it again ever after -/
theorem attended_move (h : Sound m sent) (hm : Moves m a m') :
    Attended m'.id m'.cancelOpen m'.phase (sent ++ m.sentBy a) m'.handle m'.reported m'.settled m'.answers := by
  obtain ⟨hp, -, hh⟩ := h
  have htold := told_of_sent_ne_nil hp
  have hnone : ∀ {n : ℕ} {outcome : Outcome}, some outcome ∉ replicate n none := by simp
  have havailable := @told_of_available m sent
  obtain ⟨id, phase, started, results, cancelWaiting, cancelOpen, reported, handle, settled, answers⟩ := m
  dsimp only at hp hh htold havailable
  by_cases hreport : a = .report
  · subst hreport
    cases hm with
    | report outcome reporting heard =>
      obtain rfl : phase = .reporting outcome := reporting
      cases hp with
      | reporting k last concludes =>
        cases hh with
        | waiting n => exact .waiting n
        | joining n told => rcases told with told | told <;> cases told
        | settled n j ended => cases ended
        | dropped => exact absurd rfl heard
    | reportUnheard outcome reporting unheard =>
      obtain rfl : phase = .reporting outcome := reporting
      obtain rfl : handle = .dropped := unheard
      cases hp with
      | reporting k last concludes =>
        cases hh with
        | dropped settled answers closed delivered =>
          exact .dropped settled answers closed fun outcome hmem => by cases (delivered outcome hmem).1
    | again call outcome isCall idle settled => cases isCall
    | take call outcome isCall idle unsettled available => cases isCall
  · rw [sentBy_eq_nil hreport, List.append_nil]
    cases hm with
    | start ready =>
      obtain rfl : phase = .ready := ready
      exact hh.advance (by simp) (by simp) .checking
    | complete result checking =>
      obtain rfl : phase = .checking := checking
      exact hh.advance (by simp) (by simp) _
    | timeout pausing unasked =>
      obtain rfl : phase = .pausing := pausing
      exact hh.advance (by simp) (by simp) .ready
    | heed pausing asked =>
      obtain rfl : phase = .pausing := pausing
      exact hh.advance (by simp) (by simp) _
    | report outcome reporting heard => exact absurd rfl hreport
    | reportUnheard outcome reporting unheard => exact absurd rfl hreport
    | exit sent =>
      obtain rfl : phase = .sent := sent
      exact hh.exit
    | cancel idle able => exact hh.close
    | drop idle =>
      obtain rfl : handle = .idle := idle
      cases hh with
      | waiting n => exact .dropped none _ rfl fun outcome hmem => absurd hmem hnone
      | settled n j ended =>
        refine .dropped _ _ rfl fun outcome hmem => ⟨ended, ?_⟩
        rcases List.mem_append.1 hmem with hmem | hmem
        · exact absurd hmem hnone
        · exact Option.some.inj (List.eq_of_mem_replicate hmem)
    | again call outcome isCall idle settled =>
      obtain rfl : handle = .idle := idle
      cases hh with
      | waiting n => cases settled
      | settled n j ended =>
        obtain rfl := Option.some.inj settled
        have hagain : Attended id cancelOpen phase sent .idle none (some (delivery id sent))
            (replicate n none ++ replicate (j + 1 + 1) (some (delivery id sent))) := .settled n (j + 1) ended
        rwa [List.replicate_succ' (n := j + 1), ← List.append_assoc] at hagain
    | take call outcome isCall idle unsettled available =>
      obtain rfl : handle = .idle := idle
      cases hh with
      | waiting n =>
        obtain ⟨rfl, told⟩ := havailable rfl available htold
        exact .joining n told
      | settled n j ended => cases unsettled
    | nothing idle unsettled unavailable =>
      obtain rfl : handle = .idle := idle
      cases hh with
      | waiting n =>
        have hwaiting : Attended id cancelOpen phase sent .idle sent.head? none (replicate (n + 1) none) :=
          .waiting (n + 1)
        rwa [List.replicate_succ'] at hwaiting
      | settled n j ended => cases unsettled
    | join outcome joining ended =>
      obtain rfl : handle = .joining outcome := joining
      cases hh with
      | joining n told => exact .settled n 0 ended

/-! ## Runs -/

theorem message_move (h : Sound m sent) (hm : Moves m a m') : m'.cancelWaiting = true → m'.cancelOpen = false := by
  have hmessage := h.message
  cases hm with
  | heed pausing asked => intro hw; cases hw
  | cancel idle able => exact fun _ => rfl
  | drop idle => exact fun _ => rfl
  | _ => exact hmessage

theorem sound_step (h : Sound m sent) (a : Action) : Sound (m.step a) (sent ++ m.sentBy a) := by
  rcases m.step_moves a with ⟨hstay, hsent⟩ | hm
  · rwa [hstay, hsent, List.append_nil]
  · exact ⟨polled_move h hm, message_move h hm, attended_move h hm⟩

theorem sound_submit (id : Id) : Sound (submit id) [] := by
  refine ⟨.ready 0, ?_, .waiting 0⟩
  intro h
  cases h

theorem sound_run (h : Sound m sent) (actions : List Action) : Sound (m.run actions) (sent ++ m.sends actions) := by
  induction actions generalizing m sent with
  | nil => simpa [sends, run] using h
  | cons a actions ih =>
    rw [run_cons, sends, ← List.append_assoc]
    exact ih (sound_step h a)

/-- every machine that is reached is where it can be -/
theorem sound_reached (id : Id) (actions : List Action) : Sound ((submit id).run actions) ((submit id).sends actions) :=
  sound_run (sound_submit id) actions

theorem id_run (m : Machine) (actions : List Action) : (m.run actions).id = m.id := by
  refine kept_by_run (P := fun n => n.id = m.id) rfl fun a _ n hn => ?_
  refine kept_by_step (P := fun n' => n'.id = m.id) hn fun n' hm => ?_
  cases hm <;> exact hn

/-! ## What a reached machine tells -/

/-- the polling is over: every check but the last said that the task runs, and if the last one did so too, the poller
was asked to stop -/
structure Concluded (m : Machine) (last : CheckResult) : Prop where
  results : ∃ k, m.results = replicate k .running ++ [last] ∧ m.started = k + 1
  asked : last = .running → m.cancelOpen = false

end Machine

open Machine

variable {m : Machine} {sent : List Outcome}

/-- the checks before the last that was started all said that the task runs -/
theorem Sound.checks (h : Sound m sent) : ∃ k, replicate k .running <+: m.results ∧ m.started ≤ k + 1 := by
  obtain ⟨hp, -, -⟩ := h
  obtain ⟨id, phase, started, results, cancelWaiting, cancelOpen, reported, handle, settled, answers⟩ := m
  dsimp only at hp ⊢
  cases hp with
  | ready => exact ⟨started, List.prefix_refl _, Nat.le_succ started⟩
  | checking k => exact ⟨k, List.prefix_refl _, le_refl _⟩
  | pausing k => exact ⟨k, List.prefix_append _ _, le_refl _⟩
  | reporting k last => exact ⟨k, List.prefix_append _ _, le_refl _⟩
  | sent k last => exact ⟨k, List.prefix_append _ _, le_refl _⟩
  | ended k last => exact ⟨k, List.prefix_append _ _, le_refl _⟩
  | died k => exact ⟨k, List.prefix_append _ _, le_refl _⟩

theorem Sound.pausing (h : Sound m sent) (hpausing : m.phase = .pausing) : ∃ k, m.results = replicate k .running := by
  obtain ⟨hp, -, -⟩ := h
  obtain ⟨id, phase, started, results, cancelWaiting, cancelOpen, reported, handle, settled, answers⟩ := m
  dsimp only at hp hpausing ⊢
  subst hpausing
  cases hp with
  | pausing k => exact ⟨k + 1, List.replicate_succ'.symm⟩

/-- there is one outcome at most, and it is the verdict on the last check -/
theorem Sound.outcome (h : Sound m sent) (hsome : sent ++ m.pending ≠ []) :
    ∃ last, Concluded m last ∧ last ≠ .died ∧ sent ++ m.pending = [verdict m.id last] := by
  obtain ⟨hp, -, -⟩ := h
  obtain ⟨id, phase, started, results, cancelWaiting, cancelOpen, reported, handle, settled, answers⟩ := m
  dsimp only at hp ⊢
  cases hp with
  | reporting k last concludes => exact ⟨last, ⟨⟨k, rfl, rfl⟩, concludes.asked⟩, concludes.alive, rfl⟩
  | sent k last concludes => exact ⟨last, ⟨⟨k, rfl, rfl⟩, concludes.asked⟩, concludes.alive, rfl⟩
  | ended k last concludes => exact ⟨last, ⟨⟨k, rfl, rfl⟩, concludes.asked⟩, concludes.alive, rfl⟩
  | _ => exact absurd rfl hsome

/-- once the poller has ended, the handle gets the verdict on the last check -/
theorem Sound.ended (h : Sound m sent) (hended : m.phase = .ended) :
    ∃ last, Concluded m last ∧ delivery m.id sent = verdict m.id last := by
  obtain ⟨hp, -, -⟩ := h
  obtain ⟨id, phase, started, results, cancelWaiting, cancelOpen, reported, handle, settled, answers⟩ := m
  dsimp only at hp hended ⊢
  subst hended
  cases hp with
  | ended k last concludes => exact ⟨last, ⟨⟨k, rfl, rfl⟩, concludes.asked⟩, rfl⟩
  | died k => exact ⟨.died, ⟨⟨k, rfl, rfl⟩, nofun⟩, rfl⟩

/-- an answer is given only after the poller has ended, and is what the poller has sent -/
theorem Sound.answered (h : Sound m sent) {outcome : Outcome} (hmem : some outcome ∈ m.answers) :
    m.phase = .ended ∧ outcome = delivery m.id sent := by
  obtain ⟨-, -, hh⟩ := h
  obtain ⟨id, phase, started, results, cancelWaiting, cancelOpen, reported, handle, settled, answers⟩ := m
  dsimp only at hh hmem ⊢
  cases hh with
  | waiting n => exact absurd hmem (by simp)
  | joining n told => exact absurd hmem (by simp)
  | settled n j ended =>
    rcases List.mem_append.1 hmem with hmem | hmem
    · exact absurd hmem (by simp)
    · exact ⟨ended, Option.some.inj (List.eq_of_mem_replicate hmem)⟩
  | dropped settled answers closed delivered => exact delivered outcome hmem

/-- the one outcome is the one that is answered -/
theorem Sound.answer_eq (h : Sound m sent) {outcome answer : Outcome} (hone : sent ++ m.pending = [outcome])
    (hmem : some answer ∈ m.answers) : answer = outcome := by
  obtain ⟨hended, rfl⟩ := h.answered hmem
  have hpending : m.pending = [] := by simp [pending, hended]
  rw [hpending, List.append_nil] at hone
  rw [hone]
  rfl

/-- nothing waits in the result channel that was not sent -/
theorem Sound.reported_eq (h : Sound m sent) : m.reported = none ∨ m.reported = sent.head? := by
  obtain ⟨-, -, hh⟩ := h
  obtain ⟨id, phase, started, results, cancelWaiting, cancelOpen, reported, handle, settled, answers⟩ := m
  dsimp only at hh ⊢
  cases hh with
  | waiting n => exact .inr rfl
  | _ => exact .inl rfl

namespace Machine

/-! ## Closing the cancel channel -/

variable {a : Action}

theorem call_of_closed_step (hopen : m.cancelOpen = true) (hclosed : (m.step a).cancelOpen = false) :
    (a = .cancel ∨ a = .drop) ∧ m.handle = .idle := by
  rcases m.step_moves a with ⟨hstay, -⟩ | hm
  · rw [hstay, hopen] at hclosed
    cases hclosed
  · generalize m.step a = m' at hm hclosed
    cases hm with
    | cancel idle able => exact ⟨.inl rfl, idle⟩
    | drop idle => exact ⟨.inr rfl, idle⟩
    | _ => simp [hopen, answer, take] at hclosed

/-- the cancel channel is closed by nothing but a call that the handle is free to make -/
theorem call_of_closed {actions : List Action} (hopen : m.cancelOpen = true)
    (hclosed : (m.run actions).cancelOpen = false) :
    ∃ before call after, actions = before ++ call :: after ∧ (call = .cancel ∨ call = .drop) ∧
      (m.run before).handle = .idle := by
  induction actions generalizing m with
  | nil =>
    rw [run, List.foldl_nil, hopen] at hclosed
    cases hclosed
  | cons a actions ih =>
    rw [run_cons] at hclosed
    cases hnext : (m.step a).cancelOpen with
    | true =>
      obtain ⟨before, call, after, rfl, hcall, hidle⟩ := ih hnext hclosed
      exact ⟨a :: before, call, after, rfl, hcall, by rwa [run_cons]⟩
    | false =>
      obtain ⟨hcall, hidle⟩ := call_of_closed_step hopen hnext
      exact ⟨[], a, actions, rfl, hcall, hidle⟩

/-- the cancel channel of a handle that is neither cancelled nor dropped stays open -/
theorem cancelOpen_run {actions : List Action} (hopen : m.cancelOpen = true) (hcancel : .cancel ∉ actions)
    (hdrop : .drop ∉ actions) : (m.run actions).cancelOpen = true := by
  by_contra hclosed
  obtain ⟨before, call, after, rfl, rfl | rfl, -⟩ := call_of_closed hopen (Bool.eq_false_of_not_eq_true hclosed)
  · exact hcancel (by simp)
  · exact hdrop (by simp)

/-! ## Pollers with an outcome -/

/-- a poller with an outcome starts no check and keeps one -/
theorem over_step (h : m.phase.Over) (a : Action) : (m.step a).phase.Over ∧ (m.step a).started = m.started := by
  refine kept_by_step (P := fun m' => m'.phase.Over ∧ m'.started = m.started) ⟨h, rfl⟩ fun m' hm => ?_
  cases hm with
  | reportUnheard | report | exit => exact ⟨trivial, rfl⟩
  | cancel | drop | again | take | nothing | join => exact ⟨h, rfl⟩
  | start hphase | complete _ hphase | timeout hphase | heed hphase => simp [hphase, Phase.Over] at h

theorem started_of_over (h : m.phase.Over) (actions : List Action) : (m.run actions).started = m.started := by
  refine (kept_by_run (P := fun n => n.phase.Over ∧ n.started = m.started) ⟨h, rfl⟩ fun a _ n hn => ?_).2
  obtain ⟨hover, hstarted⟩ := over_step hn.1 a
  exact ⟨hover, hstarted.trans hn.2⟩

/-- the poller stays ended and checks no more -/
theorem ended_step (hended : m.phase = .ended) (a : Action) :
    (m.step a).phase = .ended ∧ (m.step a).results = m.results := by
  refine kept_by_step (P := fun m' => m'.phase = .ended ∧ m'.results = m.results) ⟨hended, rfl⟩ fun m' hm => ?_
  cases hm with
  | cancel | drop | again | take | nothing | join => exact ⟨hended, rfl⟩
  | start hphase | complete _ hphase | timeout hphase | heed hphase | report _ hphase | reportUnheard _ hphase
  | exit hphase => simp [hended] at hphase

/-- the start of a guest -/
def guestStart : Id where
  text := "UPID:pve1:0000C530:001B7D4D:65A5B9E0:qmstart:100:root@pam:"
  node := "pve1"
  pid := 50480
  startTime := 1705359840
  type := "qmstart"
  subject := "100"
  user := "root@pam"

end Machine

end Hypervisor.Task
