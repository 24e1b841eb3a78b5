/-
Finite maps with their entries in ascending order of keys. The order is part of the type, so equal maps have equal
lists of entries, and a walk over a map goes by key.
-/

namespace Hypervisor

/-- a finite map: at most one entry a key, keys ascending -/
structure Table (κ ν : Type) [Ord κ] where
  entries : List (κ × ν)
  ascending : entries.Pairwise fun a b => compare a.1 b.1 = .lt

namespace Table

variable {κ ν : Type} [Ord κ]

/-! ## Entries -/

/-- put an entry at its place, over an entry with the same key -/
def insertEntry (k : κ) (v : ν) : List (κ × ν) → List (κ × ν)
  | [] => [(k, v)]
  | e :: rest =>
    match compare k e.1 with
    | .lt => (k, v) :: e :: rest
    | .eq => (k, v) :: rest
    | .gt => e :: insertEntry k v rest

theorem mem_insertEntry {k : κ} {v : ν} {l : List (κ × ν)} {x : κ × ν} (h : x ∈ insertEntry k v l) :
    x = (k, v) ∨ x ∈ l := by
  induction l with
  | nil => simpa [insertEntry] using h
  | cons e rest ih =>
    unfold insertEntry at h
    split at h
    · simpa using h
    · simp only [List.mem_cons] at h ⊢
      rcases h with h | h
      · exact .inl h
      · exact .inr (.inr h)
    · simp only [List.mem_cons] at h ⊢
      rcases h with h | h
      · exact .inr (.inl h)
      · rcases ih h with h | h
        · exact .inl h
        · exact .inr (.inr h)

theorem ascending_insertEntry [Std.TransOrd κ] [Std.LawfulEqOrd κ] (k : κ) (v : ν) {l : List (κ × ν)}
    (h : l.Pairwise fun a b => compare a.1 b.1 = .lt) :
    (insertEntry k v l).Pairwise fun a b => compare a.1 b.1 = .lt := by
  induction l with
  | nil => simp [insertEntry]
  | cons e rest ih =>
    obtain ⟨h₁, h₂⟩ := List.pairwise_cons.1 h
    unfold insertEntry
    split
    · rename_i hc
      refine List.pairwise_cons.2 ⟨fun x hx => ?_, h⟩
      rcases List.mem_cons.1 hx with rfl | hx
      · exact hc
      · exact Std.TransCmp.lt_trans hc (h₁ x hx)
    · rename_i hc
      have hk : k = e.1 := Std.LawfulEqCmp.eq_of_compare hc
      exact List.pairwise_cons.2 ⟨fun x hx => hk ▸ h₁ x hx, h₂⟩
    · rename_i hc
      refine List.pairwise_cons.2 ⟨fun x hx => ?_, ih h₂⟩
      rcases mem_insertEntry hx with rfl | hx
      · exact Std.OrientedCmp.lt_of_gt hc
      · exact h₁ x hx

/-! ## Maps -/

/-- the map without entries -/
def empty : Table κ ν := ⟨[], .nil⟩

instance : Inhabited (Table κ ν) := ⟨empty⟩

instance : EmptyCollection (Table κ ν) := ⟨empty⟩

/-- the value at a key -/
def get? [BEq κ] (t : Table κ ν) (k : κ) : Option ν := t.entries.lookup k

/-- bind a key, over any earlier binding of it -/
def insert [Std.TransOrd κ] [Std.LawfulEqOrd κ] (t : Table κ ν) (k : κ) (v : ν) : Table κ ν :=
  ⟨insertEntry k v t.entries, ascending_insertEntry k v t.ascending⟩

/-- unbind a key -/
def erase [BEq κ] (t : Table κ ν) (k : κ) : Table κ ν :=
  ⟨t.entries.filter fun e => !(e.1 == k), t.ascending.filter _⟩

/-- how many keys are bound -/
def size (t : Table κ ν) : Nat := t.entries.length

/-- bind each pair in turn: of pairs with one key the last stands -/
def ofList [Std.TransOrd κ] [Std.LawfulEqOrd κ] (pairs : List (κ × ν)) : Table κ ν :=
  pairs.foldl (fun t p => t.insert p.1 p.2) empty

/-- the entry with the least key -/
def least? (t : Table κ ν) : Option (κ × ν) := t.entries.head?

instance [BEq κ] [BEq ν] : BEq (Table κ ν) := ⟨fun a b => a.entries == b.entries⟩

end Table

end Hypervisor
