/-
Inversion of computations that may fail. A sequence of steps gives a result exactly when each step gives one, so that a
reader written with `do` is opened once, as a conjunction of what its steps give. Where it gives none, its fault is that
of the first step at fault.
-/
import Mathlib.Tactic

namespace Hypervisor.Fallible

variable {ε ε' α β : Type}

theorem bind_eq_ok {x : Except ε α} {f : α → Except ε β} {b : β} :
    x >>= f = .ok b ↔ ∃ a, x = .ok a ∧ f a = .ok b := by
  cases x with
  | error e => simp [bind, Except.bind]
  | ok a => simp [bind, Except.bind]

theorem pure_eq_ok {a b : α} : (pure a : Except ε α) = .ok b ↔ a = b := by
  simp [pure, Except.pure]

theorem map_eq_ok {x : Except ε α} {f : α → β} {b : β} : x.map f = .ok b ↔ ∃ a, x = .ok a ∧ f a = b := by
  cases x <;> simp [Except.map]

theorem mapError_eq_ok {x : Except ε α} {f : ε → ε'} {a : α} : x.mapError f = .ok a ↔ x = .ok a := by
  cases x <;> simp [Except.mapError]

/-- where two lists are related item by item, each item of the second is related to one of the first -/
theorem exists_of_mem_right {α β : Type*} {R : α → β → Prop} {l : List α} {m : List β} (h : List.Forall₂ R l m) {b : β}
    (hb : b ∈ m) :
    ∃ a ∈ l, R a b := by
  induction h with
  | nil => cases hb
  | cons hab _ ih =>
    rcases List.mem_cons.1 hb with rfl | hb
    · exact ⟨_, List.mem_cons_self, hab⟩
    · obtain ⟨a, ha, hr⟩ := ih hb
      exact ⟨a, List.mem_cons_of_mem _ ha, hr⟩

/-- a list that is not all of one kind has a first item of another -/
theorem exists_first_not {p : α → Prop} {l : List α} (h : ¬∀ a ∈ l, p a) :
    ∃ before a after, l = before ++ a :: after ∧ (∀ b ∈ before, p b) ∧ ¬p a := by
  classical
  obtain ⟨a, hfirst⟩ : ∃ a, l.find? (fun a => ¬p a) = some a := by
    rw [← Option.isSome_iff_exists, List.find?_isSome]
    simpa using h
  obtain ⟨ha, before, after, rfl, hbefore⟩ := List.find?_eq_some_iff_append.1 hfirst
  exact ⟨before, a, after, rfl, by simpa using hbefore, by simpa using ha⟩

/-- a step for each item in turn: one result an item, in order -/
theorem mapM_eq_ok {f : α → Except ε β} {l : List α} {bs : List β} :
    l.mapM f = .ok bs ↔ List.Forall₂ (fun a b => f a = .ok b) l bs := by
  induction l generalizing bs with
  | nil => rw [List.mapM_nil, pure_eq_ok, List.forall₂_nil_left_iff, eq_comm]
  | cons a l ih =>
    rw [List.mapM_cons, bind_eq_ok]
    constructor
    · rintro ⟨b, hb, hrest⟩
      obtain ⟨bs', hbs', hpure⟩ := bind_eq_ok.1 hrest
      rw [← pure_eq_ok.1 hpure]
      exact .cons hb (ih.1 hbs')
    · rintro (_ | ⟨hb, hrest⟩)
      exact ⟨_, hb, bind_eq_ok.2 ⟨_, ih.2 hrest, rfl⟩⟩

/-- the results are given by a function, since a step depends on its item only -/
theorem exists_map_of_mapM_eq_ok [Inhabited β] {f : α → Except ε β} {l : List α} {bs : List β} (h : l.mapM f = .ok bs) :
    ∃ g : α → β, bs = l.map g ∧ ∀ a ∈ l, f a = .ok (g a) := by
  refine ⟨fun a => (f a).toOption.getD default, ?_⟩
  have hresults := mapM_eq_ok.1 h
  clear h
  induction hresults with
  | nil => exact ⟨rfl, fun _ ha => absurd ha List.not_mem_nil⟩
  | cons hab hrest ih =>
    obtain ⟨rfl, hall⟩ := ih
    refine ⟨?_, List.forall_mem_cons.2 ⟨?_, hall⟩⟩
    · rw [List.map_cons, hab]; rfl
    · simp only [hab]; rfl

/-! ## Faults -/

/-- the fault of a computation, if it has one -/
def fault? : Except ε α → Option ε
  | .error e => some e
  | .ok _ => none

theorem fault?_eq_some {x : Except ε α} {e : ε} : fault? x = some e ↔ x = .error e := by
  cases x <;> simp [fault?]

theorem fault?_eq_none {x : Except ε α} : fault? x = none ↔ ∃ a, x = .ok a := by
  cases x <;> simp [fault?]

/-- the first step is at fault, or else what comes after it, whose fault does not depend on what the step gives -/
theorem fault?_bind {x : Except ε α} {f : α → Except ε β} {rest : Option ε} (h : ∀ a, x = .ok a → fault? (f a) = rest) :
    fault? (x >>= f) = (fault? x).or rest := by
  cases x with
  | error e => rfl
  | ok a => exact h a rfl

/-- putting results together does not fail -/
theorem fault?_bind_pure {x : Except ε α} {f : α → β} : fault? (x >>= fun a => pure (f a)) = fault? x := by
  cases x <;> rfl

theorem fault?_mapM {f : α → Except ε β} {l : List α} : fault? (l.mapM f) = l.findSome? fun a => fault? (f a) := by
  induction l with
  | nil => rfl
  | cons a l ih =>
    have hrest : ∀ b, f a = .ok b →
        fault? (l.mapM f >>= fun bs => pure (b :: bs)) = l.findSome? fun a => fault? (f a) := fun b _ =>
      fault?_bind_pure.trans ih
    rw [List.mapM_cons, fault?_bind hrest, List.findSome?_cons]
    cases fault? (f a) <;> rfl

/-- every fault of the computation is such -/
def Faults (P : ε → Prop) (x : Except ε α) : Prop := ∀ e, x = .error e → P e

namespace Faults

variable {P : ε → Prop} {x : Except ε α}

theorem pure {a : α} : Faults P (Pure.pure a) := by
  intro e h
  cases h

theorem bind {f : α → Except ε β} (hx : Faults P x) (hf : ∀ a, Faults P (f a)) : Faults P (x >>= f) := by
  cases x with
  | error e => exact fun e' h => hx e' (congrArg Except.error (Except.error.inj h))
  | ok a => exact hf a

theorem map {f : α → β} (hx : Faults P x) : Faults P (x.map f) := by
  cases x with
  | error e => exact fun e' h => hx e' (congrArg Except.error (Except.error.inj h))
  | ok a => exact fun e h => by cases h

theorem mapError {Q : ε' → Prop} {f : ε → ε'} (h : ∀ e, x = .error e → Q (f e)) : Faults Q (x.mapError f) := by
  cases x with
  | error e => exact fun e' he => Except.error.inj he ▸ h e rfl
  | ok a => exact fun e he => by cases he

theorem mapM {f : α → Except ε β} {l : List α} (h : ∀ a ∈ l, Faults P (f a)) : Faults P (l.mapM f) := by
  induction l with
  | nil => exact pure
  | cons a l ih =>
    rw [List.forall_mem_cons] at h
    rw [List.mapM_cons]
    exact h.1.bind fun _ => (ih h.2).bind fun _ => pure

end Faults

end Hypervisor.Fallible
