/-
Cancelling a wait, by a call or by dropping the handle, in every interleaving with the poller.

A poller that has been asked to stop and one that has its outcome are both `Closing`: neither begins another round of
checks. A cancel on a closing machine changes at most the cancel channel, which a poller with an outcome no longer
reads; `quiet` forgets that channel, and machines that are equal without it stay so.
-/
import Hypervisor.Proofs.Task.Reachable

namespace Hypervisor.Task

theorem verdict_eq_cancelled {id : Id} {last : CheckResult} {name : String}
    (h : verdict id last = .failed (.cancelled name)) : last = .running ∧ id.text = name := by
  rcases verdict_cases id last with ⟨hrunning, hverdict⟩ | ⟨-, hverdict⟩ | hneither
  · rw [hverdict] at h
    cases h
    exact ⟨hrunning, rfl⟩
  · rw [hverdict] at h
    cases h
  · exact absurd h (hneither name).1

namespace Machine

variable {m m' : Machine} {a : Action} {sent : List Outcome}

/-! ## No further round -/

/-- the poller has been asked to stop, or has an outcome -/
def Closing (m : Machine) : Prop := m.cancelOpen = false ∨ m.phase.Over

/-- the checks that were started, and the one that the poller is about to start -/
def committed (m : Machine) : ℕ := m.started + if m.phase = .ready then 1 else 0

theorem closing_step (h : m.Closing) (a : Action) : (m.step a).Closing := by
  rcases h with hclosed | hover
  · refine .inl (kept_by_step (P := fun m' => m'.cancelOpen = false) hclosed fun m' hm => ?_)
    cases hm with
    | cancel | drop => rfl
    | _ => exact hclosed
  · exact .inr (over_step hover a).1

/-- a closing machine commits to no further check -/
theorem committed_step_le (h : m.Closing) (a : Action) : (m.step a).committed ≤ m.committed := by
  refine kept_by_step (P := fun m' => m'.committed ≤ m.committed) (le_refl _) fun m' hm => ?_
  cases hm with
  | start ready => simp [committed, ready]
  | complete result checking =>
    rcases afterCheck_cases m.id result with ⟨-, hnext⟩ | ⟨-, hnext⟩ | ⟨-, -, hnext⟩ <;> simp [committed, hnext]
  | timeout pausing unasked =>
    -- the only way back to a check, and it is barred
    rcases h with hclosed | hover
    · simp [stopAsked, hclosed] at unasked
    · simp [pausing, Phase.Over] at hover
  | cancel | drop | again | take | nothing | join => exact le_refl _
  | _ => simp [committed]

theorem closing_run (h : m.Closing) (actions : List Action) : (m.run actions).Closing :=
  kept_by_run h fun a _ _ hn => closing_step hn a

theorem committed_run_le (h : m.Closing) (actions : List Action) : (m.run actions).committed ≤ m.committed := by
  refine (kept_by_run (P := fun n => n.Closing ∧ n.committed ≤ m.committed) ⟨h, le_refl _⟩ fun a _ n hn => ?_).2
  exact ⟨closing_step hn.1 a, (committed_step_le hn.1 a).trans hn.2⟩

/-- a handle that cannot be called is dropped, or waits for a poller that has its outcome -/
theorem closing_of_busy (h : Sound m sent) (hbusy : m.handle ≠ .idle) : m.Closing := by
  obtain ⟨-, -, hh⟩ := h
  obtain ⟨id, phase, started, results, cancelWaiting, cancelOpen, reported, handle, settled, answers⟩ := m
  dsimp only at hh hbusy
  cases hh with
  | waiting => exact absurd rfl hbusy
  | settled => exact absurd rfl hbusy
  | joining n told => rcases told with rfl | rfl <;> exact .inr trivial
  | dropped settled answers closed delivered => exact .inl closed

/-- a stop leaves the checks alone and the machine closing -/
theorem closing_of_stop (h : Sound m sent) {stop : Action} (hstop : stop = .cancel ∨ stop = .drop) :
    (m.step stop).Closing ∧ (m.step stop).committed = m.committed := by
  by_cases hidle : m.handle = .idle
  · rcases hstop with rfl | rfl
    · cases hopen : m.cancelOpen with
      | true =>
        rw [(Moves.cancel hidle hopen).step_eq]
        exact ⟨.inl rfl, rfl⟩
      | false => simp [step, hopen, Closing]
    · rw [(Moves.drop hidle).step_eq]
      exact ⟨.inl rfl, rfl⟩
  · have hstay : m.step stop = m := by rcases hstop with rfl | rfl <;> simp [step, hidle]
    rw [hstay]
    exact ⟨closing_of_busy h hidle, rfl⟩

/-! ## Without the cancel channel -/

/-- the machine without its cancel channel -/
def quiet (m : Machine) : Machine := { m with cancelWaiting := false, cancelOpen := false }

theorem eq_of_quiet (h : m'.quiet = m.quiet) :
    m'.phase = m.phase ∧ m'.started = m.started ∧ m'.answers = m.answers := by
  simp only [quiet, mk.injEq] at h
  obtain ⟨-, hphase, hstarted, -, -, -, -, -, -, hanswers⟩ := h
  exact ⟨hphase, hstarted, hanswers⟩

/-- a poller with an outcome does not read the cancel channel -/
theorem quiet_step (h : m.phase.Over) (a : Action) : (m.step a).quiet = (m.quiet.step a).quiet := by
  have hready : m.phase ≠ .ready := fun hp => by simp [hp, Phase.Over] at h
  have hchecking : m.phase ≠ .checking := fun hp => by simp [hp, Phase.Over] at h
  have hpausing : m.phase ≠ .pausing := fun hp => by simp [hp, Phase.Over] at h
  cases a with
  | start => simp [step, quiet, hready]
  | complete result => simp [step, quiet, hchecking]
  | timeout | heed => simp [step, quiet, hpausing]
  | report =>
    cases hphase : m.phase with
    | reporting outcome => by_cases hdropped : m.handle = .dropped <;> simp [step, quiet, hphase, hdropped]
    | _ => simp [step, quiet, hphase]
  | exit => by_cases hsent : m.phase = .sent <;> simp [step, quiet, hsent]
  | cancel => cases hopen : m.cancelOpen <;> by_cases hidle : m.handle = .idle <;> simp [step, quiet, hopen, hidle]
  | drop => by_cases hidle : m.handle = .idle <;> simp [step, quiet, hidle]
  | wait | tryWait =>
    have havailable : m.quiet.available? = m.available? := rfl
    by_cases hidle : m.handle = .idle
    · cases hsettled : m.settled <;> cases hoffer : m.available? <;>
        simp_all [step, quiet, answer, take]
    · simp [step, quiet, hidle]
  | join =>
    cases hhandle : m.handle with
    | joining outcome => by_cases hended : m.phase = .ended <;> simp [step, quiet, hhandle, hended, answer]
    | _ => simp [step, quiet, hhandle]

theorem quiet_run (h : m.phase.Over) (hquiet : m'.quiet = m.quiet) (actions : List Action) :
    (m'.run actions).quiet = (m.run actions).quiet ∧ m'.sends actions = m.sends actions := by
  induction actions generalizing m m' with
  | nil => exact ⟨hquiet, rfl⟩
  | cons a actions ih =>
    obtain ⟨hphase, -, -⟩ := eq_of_quiet hquiet
    have hstep : (m'.step a).quiet = (m.step a).quiet := by
      rw [quiet_step h, quiet_step (hphase ▸ h), hquiet]
    have hsent : m'.sentBy a = m.sentBy a := by cases a <;> simp [sentBy, hphase]
    obtain ⟨hrun, hsends⟩ := ih (over_step h a).1 hstep
    exact ⟨hrun, by rw [sends, sends, hsent, hsends]⟩

/-- a cancel adds nothing to a machine that is closing -/
theorem cancel_of_closing (h : m.Closing) (actions : List Action) :
    (m.step .cancel).outcomes actions = m.outcomes actions ∧
      ((m.step .cancel).run actions).started = (m.run actions).started ∧
      ((m.step .cancel).run actions).answers = (m.run actions).answers := by
  rcases h with hclosed | hover
  · have hstay : m.step .cancel = m := by simp [step, hclosed]
    rw [hstay]
    exact ⟨rfl, rfl, rfl⟩
  · have hquiet : (m.step .cancel).quiet = m.quiet := by
      simp only [step]
      split_ifs <;> rfl
    obtain ⟨hrun, hsends⟩ := quiet_run hover hquiet actions
    obtain ⟨hphase, hstarted, hanswers⟩ := eq_of_quiet hrun
    have hpending : ((m.step .cancel).run actions).pending = (m.run actions).pending := by rw [pending, pending, hphase]
    exact ⟨by rw [outcomes, outcomes, hsends, hpending], hstarted, hanswers⟩

/-! ## Checks in flight -/

/-- a check stays in flight until it completes -/
theorem checking_run (h : m.phase = .checking) {actions : List Action}
    (hflight : ∀ result, .complete result ∉ actions) :
    (m.run actions).phase = .checking := by
  refine kept_by_run (P := fun n => n.phase = .checking) h fun a ha n hn => ?_
  refine kept_by_step (P := fun n' => n'.phase = .checking) hn fun n' hm => ?_
  cases hm with
  | complete result => exact absurd ha (hflight result)
  | cancel | drop | again | take | nothing | join => exact hn
  | start hphase | timeout hphase | heed hphase | report _ hphase | reportUnheard _ hphase | exit hphase =>
    simp [hn] at hphase

/-- a check that comes back with news is the last, and decides the outcome -/
theorem outcomes_of_complete (id : Id) {before : List Action} (hchecking : ((submit id).run before).phase = .checking)
    {result : CheckResult} (hrunning : result ≠ .running) (hdied : result ≠ .died) (after : List Action) :
    (submit id).outcomes (before ++ .complete result :: after) = [verdict id result] := by
  have hnews : (((submit id).run before).step (.complete result)).pending = [verdict id result] := by
    have hid : ((submit id).run before).id = id := id_run _ _
    rcases afterCheck_cases id result with ⟨heq, -⟩ | ⟨heq, -⟩ | ⟨-, -, hnext⟩
    · exact absurd heq hrunning
    · exact absurd heq hdied
    · simp [(Moves.complete result hchecking).step_eq, pending, hid, hnext]
  have hmem : verdict id result ∈ (submit id).outcomes (before ++ .complete result :: after) := by
    rw [outcomes_append]
    refine List.mem_append_right _ ?_
    rw [outcomes, sends, run_cons, List.append_assoc]
    refine List.mem_append_right _ ((pending_prefix_outcomes _ after).subset ?_)
    rw [hnews]
    exact List.mem_singleton.2 rfl
  obtain ⟨last, -, -, heq⟩ := (sound_reached id (before ++ .complete result :: after)).outcome (List.ne_nil_of_mem hmem)
  rw [← outcomes] at heq
  rw [heq] at hmem ⊢
  rw [List.mem_singleton.1 hmem]

/-! ## Every interleaving -/

/-- **Cancelling is safe in every interleaving** of the poller with its handle:
- the outcome is that the wait was cancelled only after a cancel or a drop, and only where the latest completed check
  said that the task runs;
- a check that is in flight when cancel is called and comes back with news decides the outcome;
- after a cancel or a drop, one further check is started at most;
- a cancel after another one, or when the poller has an outcome, changes neither the outcome nor the number of checks
  nor what waits answer, whatever follows. -/
theorem cancellation_safe (id : Id) :
    (∀ (actions : List Action) (name : String), .failed (.cancelled name) ∈ (submit id).outcomes actions →
      name = id.text ∧ ((submit id).run actions).results.getLast? = some .running ∧
        ∃ (before : List Action) (call : Action) (after : List Action), actions = before ++ call :: after ∧
          (call = .cancel ∨ call = .drop) ∧ ((submit id).run before).handle = .idle) ∧
    (∀ (before between : List Action) (result : CheckResult) (after : List Action),
      ((submit id).run before).phase = .checking → (∀ other, .complete other ∉ between) →
      result ≠ .running → result ≠ .died →
        (submit id).outcomes (before ++ .cancel :: between ++ .complete result :: after) = [verdict id result] ∧
        ∀ answer, some answer ∈ ((submit id).run (before ++ .cancel :: between ++ .complete result :: after)).answers →
          answer = verdict id result) ∧
    (∀ (before : List Action) (call : Action) (after : List Action), call = .cancel ∨ call = .drop →
      ((submit id).run (before ++ call :: after)).started ≤ ((submit id).run before).started + 1) ∧
    (∀ before after : List Action, .cancel ∈ before ∨ ((submit id).run before).phase.Over →
      (submit id).outcomes (before ++ .cancel :: after) = (submit id).outcomes (before ++ after) ∧
      ((submit id).run (before ++ .cancel :: after)).started = ((submit id).run (before ++ after)).started ∧
      ((submit id).run (before ++ .cancel :: after)).answers = ((submit id).run (before ++ after)).answers) := by
  refine ⟨fun actions name hmem => ?_, fun before between result after hchecking hflight hrunning hdied => ?_,
    fun before call after hcall => ?_, fun before after hstopped => ?_⟩
  · obtain ⟨last, hconcluded, -, heq⟩ := (sound_reached id actions).outcome (List.ne_nil_of_mem hmem)
    rw [outcomes, heq, List.mem_singleton, id_run] at hmem
    obtain ⟨rfl, hname⟩ := verdict_eq_cancelled hmem.symm
    obtain ⟨k, hresults, -⟩ := hconcluded.results
    refine ⟨hname.symm, by simp [hresults], call_of_closed rfl (hconcluded.asked rfl)⟩
  · have hstill : ((submit id).run (before ++ .cancel :: between)).phase = .checking := by
      rw [run_append]
      exact checking_run hchecking (by simpa using hflight)
    have hone := outcomes_of_complete id hstill hrunning hdied after
    exact ⟨hone, fun answer hmem => (sound_reached id _).answer_eq hone hmem⟩
  · obtain ⟨hclosing, hcommitted⟩ := closing_of_stop (sound_reached id before) hcall
    have hle := committed_run_le hclosing after
    rw [run_append, run_cons]
    simp only [committed] at hle hcommitted
    split_ifs at hle hcommitted <;> omega
  · have hclosing : ((submit id).run before).Closing := by
      rcases hstopped with hcancel | hover
      · obtain ⟨first, rest, rfl⟩ := List.append_of_mem hcancel
        rw [run_append, run_cons]
        exact closing_run (closing_of_stop (sound_reached id first) (.inl rfl)).1 rest
      · exact .inr hover
    obtain ⟨houtcomes, hstarted, hanswers⟩ := cancel_of_closing hclosing after
    simp only [outcomes_append, run_append, run_cons]
    refine ⟨?_, hstarted, hanswers⟩
    rw [← houtcomes]
    rfl

/-- a wait that is cancelled in its first pause, one whose check comes back after the cancel, a handle that is dropped
between two checks, and a second cancel -/
theorem cancellation_safe_guestStart :
    (.failed (.cancelled guestStart.text) ∈
        (submit guestStart).outcomes [.start, .complete .running, .cancel, .heed, .report] ∧
      ((submit guestStart).run [.start, .complete .running, .cancel, .heed, .report]).results.getLast? =
        some .running) ∧
    (((submit guestStart).run [.start]).phase = .checking ∧
      (submit guestStart).outcomes [.start, .cancel, .tryWait, .complete (.status (.stopped "OK")), .report] =
        [.succeeded]) ∧
    ((submit guestStart).run [.start, .complete .running, .timeout, .drop, .start, .complete .running]).started ≤
      1 + 1 ∧
    (submit guestStart).outcomes [.start, .complete .running, .cancel, .cancel, .heed] =
      (submit guestStart).outcomes [.start, .complete .running, .cancel, .heed] := by
  obtain ⟨hcancelled, hflight, hlast, hagain⟩ := cancellation_safe guestStart
  have hmem : .failed (.cancelled guestStart.text) ∈
      (submit guestStart).outcomes [.start, .complete .running, .cancel, .heed, .report] := by decide
  have hchecking : ((submit guestStart).run [.start]).phase = .checking := by decide
  have hwon :=
    hflight [.start] [.tryWait] (.status (.stopped "OK")) [.report] hchecking (by simp) (by decide) (by decide)
  exact ⟨⟨hmem, (hcancelled _ _ hmem).2.1⟩, ⟨hchecking, hwon.1⟩,
    hlast [.start, .complete .running, .timeout] .drop [.start, .complete .running] (.inr rfl),
    (hagain [.start, .complete .running, .cancel] [.heed] (.inl (by decide))).1⟩

end Machine

end Hypervisor.Task
