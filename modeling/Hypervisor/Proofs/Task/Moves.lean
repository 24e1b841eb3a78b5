/-
What the steps of a wait can do, and what the poller sends on the way.

An action leaves the machine as it is or makes one of the moves of `Moves`, which hold what enables each of them. So an
invariant is proved once for each move, and no later proof opens `step`. A check that says that the task runs begins
the pause by the same move: what the handle does between the two is met by the pause at once. `sends` lists what the
poller puts into the result channel along a run, and `outcomes` adds the outcome that it is about to put there.
-/
import Hypervisor.Task.Poller
import Mathlib.Tactic

namespace Hypervisor.Task

/-- the check said that the task runs -/
abbrev CheckResult.running : CheckResult := .status .running

/-- a call that asks for the outcome -/
inductive Action.IsCall : Action → Prop
  | wait : IsCall .wait
  | tryWait : IsCall .tryWait

namespace Machine

/-! ## Moves -/

/-- what an action does where it is enabled -/
inductive Moves (m : Machine) : Action → Machine → Prop
  | start (ready : m.phase = .ready) : Moves m .start { m with phase := .checking, started := m.started + 1 }
  | complete (result : CheckResult) (checking : m.phase = .checking) :
    Moves m (.complete result) { m with phase := Phase.afterCheck m.id result, results := m.results ++ [result] }
  | timeout (pausing : m.phase = .pausing) (unasked : m.stopAsked = false) : Moves m .timeout { m with phase := .ready }
  | heed (pausing : m.phase = .pausing) (asked : m.stopAsked = true) :
    Moves m .heed { m with phase := .reporting (.failed (.cancelled m.id.text)), cancelWaiting := false }
  | report (outcome : Outcome) (reporting : m.phase = .reporting outcome) (heard : m.handle ≠ .dropped) :
    Moves m .report { m with phase := .sent, reported := some outcome }
  /-- nobody is left to tell -/
  | reportUnheard (outcome : Outcome) (reporting : m.phase = .reporting outcome) (unheard : m.handle = .dropped) :
    Moves m .report { m with phase := .sent }
  | exit (sent : m.phase = .sent) : Moves m .exit { m with phase := .ended }
  | cancel (idle : m.handle = .idle) (able : m.cancelOpen = true) :
    Moves m .cancel { m with cancelWaiting := m.phase ≠ .ended, cancelOpen := false }
  | drop (idle : m.handle = .idle) : Moves m .drop { m with cancelOpen := false, handle := .dropped, reported := none }
  /-- a settled outcome is given again -/
  | again (call : Action) (outcome : Outcome) (isCall : call.IsCall) (idle : m.handle = .idle)
    (settled : m.settled = some outcome) : Moves m call (m.answer (some outcome))
  | take (call : Action) (outcome : Outcome) (isCall : call.IsCall) (idle : m.handle = .idle)
    (unsettled : m.settled = none) (available : m.available? = some outcome) : Moves m call (m.take outcome)
  | nothing (idle : m.handle = .idle) (unsettled : m.settled = none) (unavailable : m.available? = none) :
    Moves m .tryWait (m.answer none)
  | join (outcome : Outcome) (joining : m.handle = .joining outcome) (ended : m.phase = .ended) :
    Moves m .join ({ m with handle := .idle, settled := some outcome }.answer (some outcome))

/-! ## What is sent -/

/-- what the poller puts into the result channel by an action -/
def sentBy (m : Machine) : Action → List Outcome
  | .report =>
    match m.phase with
    | .reporting outcome => [outcome]
    | _ => []
  | _ => []

/-- what the poller puts into the result channel along a run -/
def sends (m : Machine) : List Action → List Outcome
  | [] => []
  | a :: rest => m.sentBy a ++ (m.step a).sends rest

/-- the outcome that is known and not yet sent -/
def pending (m : Machine) : List Outcome :=
  match m.phase with
  | .reporting outcome => [outcome]
  | _ => []

/-- the outcomes that the poller comes to along a run -/
def outcomes (m : Machine) (actions : List Action) : List Outcome := m.sends actions ++ (m.run actions).pending

theorem sends_append (m : Machine) (a b : List Action) : m.sends (a ++ b) = m.sends a ++ (m.run a).sends b := by
  induction a generalizing m with
  | nil => rfl
  | cons x a ih => rw [List.cons_append, sends, sends, ih, List.append_assoc, run_cons]

theorem outcomes_append (m : Machine) (a b : List Action) :
    m.outcomes (a ++ b) = m.sends a ++ (m.run a).outcomes b := by
  rw [outcomes, outcomes, sends_append, run_append, List.append_assoc]

/-! ## Steps and runs -/

/-- an action that is not a move sends nothing -/
theorem step_moves (m : Machine) (a : Action) : (m.step a = m ∧ m.sentBy a = []) ∨ Moves m a (m.step a) := by
  cases a with
  | start =>
    simp only [step]
    split_ifs with h
    · exact .inr (.start h)
    · exact .inl ⟨rfl, rfl⟩
  | complete result =>
    simp only [step]
    split_ifs with h
    · exact .inr (.complete result h)
    · exact .inl ⟨rfl, rfl⟩
  | timeout =>
    simp only [step]
    split_ifs with h
    · exact .inr (.timeout h.1 (by simpa using h.2))
    · exact .inl ⟨rfl, rfl⟩
  | heed =>
    simp only [step]
    split_ifs with h
    · exact .inr (.heed h.1 h.2)
    · exact .inl ⟨rfl, rfl⟩
  | report =>
    cases hphase : m.phase with
    | reporting outcome =>
      simp only [step, hphase]
      split_ifs with hd
      · exact .inr (.reportUnheard outcome hphase hd)
      · exact .inr (.report outcome hphase hd)
    | _ => exact .inl ⟨by simp [step, hphase], by simp [sentBy, hphase]⟩
  | exit =>
    simp only [step]
    split_ifs with h
    · exact .inr (.exit h)
    · exact .inl ⟨rfl, rfl⟩
  | cancel =>
    simp only [step]
    split_ifs with h
    · exact .inr (.cancel h.1 h.2)
    · exact .inl ⟨rfl, rfl⟩
  | drop =>
    simp only [step]
    split_ifs with h
    · exact .inr (.drop h)
    · exact .inl ⟨rfl, rfl⟩
  | wait =>
    simp only [step]
    split_ifs with h
    · split
      · rename_i outcome hs
        exact .inr (.again .wait outcome .wait h hs)
      · rename_i outcome hs ha
        exact .inr (.take .wait outcome .wait h hs ha)
      · exact .inl ⟨rfl, rfl⟩
    · exact .inl ⟨rfl, rfl⟩
  | tryWait =>
    simp only [step]
    split_ifs with h
    · split
      · rename_i outcome hs
        exact .inr (.again .tryWait outcome .tryWait h hs)
      · rename_i outcome hs ha
        exact .inr (.take .tryWait outcome .tryWait h hs ha)
      · rename_i hs ha
        exact .inr (.nothing h hs ha)
    · exact .inl ⟨rfl, rfl⟩
  | join =>
    simp only [step]
    split
    · rename_i outcome h
      split_ifs with he
      · exact .inr (.join outcome h he)
      · exact .inl ⟨rfl, rfl⟩
    · exact .inl ⟨rfl, rfl⟩

/-- an action keeps a property that each of its moves has -/
theorem kept_by_step {P : Machine → Prop} {m : Machine} {a : Action} (h : P m) (hmoves : ∀ m', Moves m a m' → P m') :
    P (m.step a) := by
  rcases m.step_moves a with ⟨hstay, -⟩ | hm
  · rwa [hstay]
  · exact hmoves _ hm

/-- a run keeps a property that each of its actions keeps -/
theorem kept_by_run {P : Machine → Prop} {m : Machine} {actions : List Action} (h : P m)
    (hsteps : ∀ a ∈ actions, ∀ m, P m → P (m.step a)) : P (m.run actions) := by
  induction actions generalizing m with
  | nil => exact h
  | cons a actions ih =>
    rw [run_cons]
    exact ih (hsteps a List.mem_cons_self m h) fun b hb => hsteps b (List.mem_cons_of_mem a hb)

/-- a move is what the action does -/
theorem Moves.step_eq {m m' : Machine} {a : Action} (h : Moves m a m') : m.step a = m' := by
  cases h with
  | again call outcome isCall idle settled => cases isCall <;> simp [step, idle, settled]
  | take call outcome isCall idle unsettled available => cases isCall <;> simp [step, idle, unsettled, available]
  | _ => simp [step, *]

/-! ## Known outcomes -/

/-- an outcome that is known stays known until it is sent -/
theorem pending_prefix_step (m : Machine) (a : Action) : m.pending <+: m.sentBy a ++ (m.step a).pending := by
  cases hphase : m.phase with
  | reporting outcome =>
    have hpending : m.pending = [outcome] := by simp [pending, hphase]
    rw [hpending]
    rcases m.step_moves a with ⟨hstay, hsent⟩ | hm
    · rw [hstay, hsent, hpending]
      exact List.prefix_refl _
    · generalize m.step a = m' at hm
      cases hm with
      | report | reportUnheard => simp [sentBy, hphase]
      | again call outcome isCall => cases isCall <;> simp [sentBy, pending, answer, hphase]
      | take call outcome isCall => cases isCall <;> simp [sentBy, pending, take, hphase]
      | nothing | cancel | drop | join => simp [sentBy, pending, answer, hphase]
      | start h | complete _ h | timeout h | heed h | exit h => simp [hphase] at h
  | _ => simp [pending, hphase]

theorem pending_prefix_outcomes (m : Machine) (actions : List Action) : m.pending <+: m.outcomes actions := by
  induction actions generalizing m with
  | nil => exact List.prefix_refl _
  | cons a actions ih =>
    have hrest := (List.prefix_append_right_inj (m.sentBy a)).2 (ih (m.step a))
    rw [outcomes, sends, run_cons, List.append_assoc]
    exact (m.pending_prefix_step a).trans hrest

end Machine

end Hypervisor.Task
