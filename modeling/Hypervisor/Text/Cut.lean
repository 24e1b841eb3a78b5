/-
Cutting a text at separators. The pieces between all occurrences of a separator are `List.splitOn`, and
`List.intercalate` puts them back; here is the cut at the first occurrence only.
-/

namespace Hypervisor.Text

/-- what stands before and after the first separator, if there is one -/
def cut? (separator : Char) (s : List Char) : Option (List Char × List Char) :=
  match s.dropWhile (· != separator) with
  | [] => none
  | _ :: rest => some (s.takeWhile (· != separator), rest)

theorem cut?_nil (sep : Char) : cut? sep [] = none := rfl

theorem cut?_cons_self (sep : Char) (s : List Char) : cut? sep (sep :: s) = some ([], s) := by
  simp [cut?]

theorem cut?_cons_of_ne {sep c : Char} (h : c ≠ sep) (s : List Char) :
    cut? sep (c :: s) = (cut? sep s).map fun p => (c :: p.1, p.2) := by
  have hb : (c != sep) = true := by simpa using h
  simp only [cut?, List.dropWhile_cons, List.takeWhile_cons, hb, if_true]
  split <;> simp_all

/-- the parts put back together are the text, and the first part is free of the separator -/
theorem cut?_eq_some_iff {sep : Char} {s a b : List Char} :
    cut? sep s = some (a, b) ↔ s = a ++ sep :: b ∧ sep ∉ a := by
  induction s generalizing a with
  | nil => simp [cut?_nil]
  | cons c s ih =>
    by_cases h : c = sep
    · subst h
      rw [cut?_cons_self]
      cases a with
      | nil => simp [eq_comm]
      | cons x a => simp [eq_comm]; rintro rfl; simp
    · rw [cut?_cons_of_ne h]
      cases a with
      | nil => simp [h]
      | cons x a =>
        simp only [Option.map_eq_some_iff, Prod.mk.injEq, List.cons.injEq, List.cons_append,
          List.mem_cons, not_or, Prod.exists]
        constructor
        · rintro ⟨a', b', hc, ⟨rfl, rfl⟩, rfl⟩
          exact ⟨⟨rfl, (ih.1 hc).1⟩, fun e => h e.symm, (ih.1 hc).2⟩
        · rintro ⟨⟨rfl, hs⟩, -, hn⟩
          exact ⟨a, b, ih.2 ⟨hs, hn⟩, ⟨rfl, rfl⟩, rfl⟩

/-- no cut exactly where the separator does not occur -/
theorem cut?_eq_none_iff {sep : Char} {s : List Char} : cut? sep s = none ↔ sep ∉ s := by
  induction s with
  | nil => simp [cut?_nil]
  | cons c s ih =>
    by_cases h : c = sep
    · simp [h, cut?_cons_self]
    · simp only [cut?_cons_of_ne h, Option.map_eq_none_iff, ih, List.mem_cons, not_or]
      exact ⟨fun hn => ⟨fun e => h e.symm, hn⟩, fun hn => hn.2⟩

end Hypervisor.Text
