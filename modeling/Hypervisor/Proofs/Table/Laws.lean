/-
Laws of finite maps. Look-up determines a map (`ext`) and meets each operation in the way expected of it; a map collected
by asking for a fixed range of keys is the one whose look-ups are the answers (`collect_eq_ok`).
-/
import Hypervisor.Table
import Hypervisor.Proofs.Fallible

namespace Hypervisor.Table

open Fallible

variable {κ ν ε : Type}

/-! ## Look-up in lists of pairs -/

section Pairs

variable [BEq κ] [LawfulBEq κ]

theorem lookup_eq_some_iff_mem {l : List (κ × ν)} (h : (l.map Prod.fst).Nodup) {k : κ} {v : ν} :
    l.lookup k = some v ↔ (k, v) ∈ l := by
  induction l with
  | nil => simp
  | cons e rest ih =>
    obtain ⟨k', v'⟩ := e
    obtain ⟨hk', hrest⟩ := List.nodup_cons.1 h
    rw [List.lookup_cons]
    by_cases hk : k = k'
    · subst hk
      have hnot : (k, v) ∉ rest := fun hmem => hk' (List.mem_map.2 ⟨_, hmem, rfl⟩)
      simp [hnot, eq_comm]
    · have hb : (k == k') = false := by simpa using hk
      simp [hb, ih hrest, hk]

theorem lookup_eq_none_of_not_mem {l : List (κ × ν)} {k : κ} (h : k ∉ l.map Prod.fst) : l.lookup k = none := by
  refine List.lookup_eq_none_iff.2 fun e he => ?_
  have hne : k ≠ e.1 := fun heq => h (heq ▸ List.mem_map_of_mem he)
  simpa using hne

theorem lookup_filter (k k' : κ) (l : List (κ × ν)) :
    (l.filter fun e => !(e.1 == k)).lookup k' = if k' == k then none else l.lookup k' := by
  induction l with
  | nil => simp
  | cons e rest ih =>
    obtain ⟨k₀, v₀⟩ := e
    by_cases h₀ : k₀ = k
    · subst h₀
      rw [List.filter_cons_of_neg (by simp), ih, List.lookup_cons]
      cases k' == k₀ <;> rfl
    · rw [List.filter_cons_of_pos (by simpa using h₀), List.lookup_cons, List.lookup_cons, ih]
      by_cases h' : k' = k₀
      · subst h'
        have hb : (k' == k) = false := by simpa using h₀
        simp [hb]
      · have hb : (k' == k₀) = false := by simpa using h'
        simp [hb]

end Pairs

theorem lookup_insertEntry [Ord κ] [Std.TransOrd κ] [Std.LawfulEqOrd κ] [BEq κ] [LawfulBEq κ] (k k' : κ) (v : ν)
    (l : List (κ × ν)) : (insertEntry k v l).lookup k' = if k' == k then some v else l.lookup k' := by
  induction l with
  | nil =>
    rw [insertEntry, List.lookup_cons]
    cases k' == k <;> rfl
  | cons e rest ih =>
    obtain ⟨k₀, v₀⟩ := e
    unfold insertEntry
    split
    · rw [List.lookup_cons]; split <;> rename_i h <;> simp [h]
    · rename_i hc
      obtain rfl : k = k₀ := Std.LawfulEqCmp.eq_of_compare hc
      rw [List.lookup_cons, List.lookup_cons]
      cases k' == k <;> rfl
    · rename_i hc
      have hne : k ≠ k₀ := by
        rintro rfl
        rw [Std.compare_self] at hc
        cases hc
      rw [List.lookup_cons, List.lookup_cons, ih]
      by_cases h₀ : k' = k₀
      · subst h₀
        have hb : (k' == k) = false := by simpa using fun h => hne h.symm
        simp [hb]
      · have hb : (k' == k₀) = false := by simpa using h₀
        simp [hb]

/-! ## Look-up in maps -/

section Maps

variable [Ord κ] [Std.TransOrd κ] [Std.LawfulEqOrd κ]

omit [Std.TransOrd κ] in
theorem nodup_keys (t : Table κ ν) : (t.entries.map Prod.fst).Nodup := by
  refine List.pairwise_map.2 (t.ascending.imp fun {a b} hlt heq => ?_)
  rw [heq, Std.compare_self] at hlt
  cases hlt

variable [BEq κ] [LawfulBEq κ]

omit [Std.TransOrd κ] in
theorem get?_eq_some_iff {t : Table κ ν} {k : κ} {v : ν} : t.get? k = some v ↔ (k, v) ∈ t.entries :=
  lookup_eq_some_iff_mem t.nodup_keys

omit [Std.TransOrd κ] [Std.LawfulEqOrd κ] [LawfulBEq κ] in
theorem get?_empty (k : κ) : (empty : Table κ ν).get? k = none := rfl

theorem get?_insert (t : Table κ ν) (k k' : κ) (v : ν) :
    (t.insert k v).get? k' = if k' == k then some v else t.get? k' :=
  lookup_insertEntry k k' v t.entries

omit [Std.TransOrd κ] [Std.LawfulEqOrd κ] in
theorem get?_erase (t : Table κ ν) (k k' : κ) : (t.erase k).get? k' = if k' == k then none else t.get? k' :=
  lookup_filter k k' t.entries

/-- two maps with the same look-ups are the same -/
theorem ext {s t : Table κ ν} (h : ∀ k, s.get? k = t.get? k) : s = t := by
  have hmem : ∀ e : κ × ν, e ∈ s.entries ↔ e ∈ t.entries := fun ⟨k, v⟩ => by
    rw [← get?_eq_some_iff, ← get?_eq_some_iff, h k]
  have hperm : s.entries.Perm t.entries :=
    (List.perm_ext_iff_of_nodup (List.Nodup.of_map _ s.nodup_keys) (List.Nodup.of_map _ t.nodup_keys)).2 hmem
  have hentries : s.entries = t.entries := by
    refine List.Perm.eq_of_pairwise (fun a b _ _ hab hba => ?_) s.ascending t.ascending hperm
    exact absurd (Std.TransCmp.lt_trans hab hba) (by rw [Std.compare_self]; simp)
  cases s
  cases t
  simpa using hentries

/-! ## Many at once -/

/-- the keys bound in turn are those of the pairs, all others are as before -/
theorem get?_foldl_insert {pairs : List (κ × ν)} (hnd : (pairs.map Prod.fst).Nodup) (t : Table κ ν) (k : κ) :
    (pairs.foldl (fun t p => t.insert p.1 p.2) t).get? k = (pairs.lookup k).or (t.get? k) := by
  induction pairs generalizing t with
  | nil => rfl
  | cons p rest ih =>
    obtain ⟨k₀, v₀⟩ := p
    obtain ⟨hk₀, hrest⟩ := List.nodup_cons.1 hnd
    rw [List.foldl_cons, ih hrest, get?_insert, List.lookup_cons]
    by_cases hk : k = k₀
    · subst hk
      simp [lookup_eq_none_of_not_mem hk₀]
    · have hb : (k == k₀) = false := by simpa using hk
      simp [hb]

/-- a key that no pair has is as before, however often the others are bound -/
theorem get?_foldl_insert_of_not_mem {pairs : List (κ × ν)} {k : κ} (hk : k ∉ pairs.map Prod.fst) (t : Table κ ν) :
    (pairs.foldl (fun t p => t.insert p.1 p.2) t).get? k = t.get? k := by
  induction pairs generalizing t with
  | nil => rfl
  | cons p rest ih =>
    obtain ⟨hne, hrest⟩ := not_or.1 (mt List.mem_cons.2 hk)
    rw [List.foldl_cons, ih hrest, get?_insert, if_neg (by simpa using hne)]

omit [Std.TransOrd κ] [Std.LawfulEqOrd κ] in
theorem get?_foldl_erase (keys : List κ) (t : Table κ ν) (k : κ) :
    (keys.foldl erase t).get? k = if keys.contains k then none else t.get? k := by
  induction keys generalizing t with
  | nil => rfl
  | cons k₀ rest ih =>
    rw [List.foldl_cons, ih, get?_erase, List.contains_cons]
    cases k == k₀ <;> cases rest.contains k <;> rfl

theorem get?_ofList {pairs : List (κ × ν)} (hnd : (pairs.map Prod.fst).Nodup) {k : κ} {v : ν} :
    (ofList pairs).get? k = some v ↔ (k, v) ∈ pairs := by
  rw [ofList, get?_foldl_insert hnd, get?_empty, Option.or_none, lookup_eq_some_iff_mem hnd]

/-- the entries of one map over those of another -/
def overlay (upper lower : Table κ ν) : Table κ ν := upper.entries.foldl (fun t p => t.insert p.1 p.2) lower

theorem get?_overlay (upper lower : Table κ ν) (k : κ) :
    (overlay upper lower).get? k = (upper.get? k).or (lower.get? k) :=
  get?_foldl_insert upper.nodup_keys lower k

/-! ## Equality -/

omit [Ord κ] [Std.TransOrd κ] [Std.LawfulEqOrd κ] in
theorem lookup_beq [BEq ν] {l l' : List (κ × ν)} (h : (l == l') = true) (k : κ) :
    (l.lookup k == l'.lookup k) = true := by
  induction l generalizing l' with
  | nil =>
    cases l' with
    | nil => rfl
    | cons e' rest' => cases h
  | cons e rest ih =>
    cases l' with
    | nil => cases h
    | cons e' rest' =>
      obtain ⟨k₀, v₀⟩ := e
      obtain ⟨k₀', v₀'⟩ := e'
      rw [List.cons_beq_cons, Bool.and_eq_true] at h
      obtain ⟨hhead, hrest⟩ := h
      change (k₀ == k₀' && v₀ == v₀') = true at hhead
      obtain ⟨hkey, hvalue⟩ := Bool.and_eq_true_iff.1 hhead
      obtain rfl := eq_of_beq hkey
      rw [List.lookup_cons, List.lookup_cons]
      cases k == k₀ with
      | true => exact hvalue
      | false => exact ih hrest

omit [Std.TransOrd κ] [Std.LawfulEqOrd κ] in
/-- equal maps have equal look-ups -/
theorem get?_beq [BEq ν] {s t : Table κ ν} (h : (s == t) = true) (k : κ) : (s.get? k == t.get? k) = true :=
  lookup_beq h k

omit [Std.TransOrd κ] in
theorem beq_self [BEq ν] {t : Table κ ν} (h : ∀ k v, t.get? k = some v → (v == v) = true) : (t == t) = true := by
  have hentries : ∀ e ∈ t.entries, (e == e) = true := by
    intro ⟨k, v⟩ he
    change (k == k && v == v) = true
    rw [h k v (get?_eq_some_iff.2 he)]
    simp
  change (t.entries == t.entries) = true
  generalize t.entries = l at hentries
  induction l with
  | nil => rfl
  | cons e rest ih =>
    obtain ⟨he, hrest⟩ := List.forall_mem_cons.1 hentries
    rw [List.cons_beq_cons, he, ih hrest]
    rfl

/-! ## Collected by key -/

omit [Ord κ] [Std.TransOrd κ] [Std.LawfulEqOrd κ] [BEq κ] [LawfulBEq κ] in
theorem foundPairs_eq (keys : List κ) (g : κ → Option ν) :
    ((keys.zip (keys.map g)).filterMap fun p => p.2.map fun v => (p.1, v)) =
      keys.filterMap fun k => (g k).map fun v => (k, v) := by
  have hzip : (keys.map id).zip (keys.map g) = keys.map fun k => (id k, g k) := List.zip_map'
  rw [List.map_id] at hzip
  rw [hzip, List.filterMap_map]
  rfl

omit [Ord κ] [Std.TransOrd κ] [Std.LawfulEqOrd κ] [BEq κ] [LawfulBEq κ] in
theorem nodup_foundPairs {keys : List κ} (hnd : keys.Nodup) (g : κ → Option ν) :
    ((keys.filterMap fun k => (g k).map fun v => (k, v)).map Prod.fst).Nodup := by
  refine List.Nodup.sublist ?_ hnd
  induction keys with
  | nil => exact List.Sublist.slnil
  | cons k keys ih =>
    have hrest := ih (List.nodup_cons.1 hnd).2
    cases hk : g k with
    | none => rw [List.filterMap_cons_none (by rw [hk]; rfl)]; exact hrest.cons k
    | some v => rw [List.filterMap_cons_some (by rw [hk]; rfl)]; exact hrest.cons_cons k

/-- the map of the values found for keys: those of the keys for which there is one -/
theorem get?_ofFound {keys : List κ} (hnd : keys.Nodup) (g : κ → Option ν) {k : κ} {v : ν} :
    (ofList ((keys.zip (keys.map g)).filterMap fun p => p.2.map fun v => (p.1, v))).get? k = some v ↔
      k ∈ keys ∧ g k = some v := by
  rw [foundPairs_eq, get?_ofList (nodup_foundPairs hnd g), List.mem_filterMap]
  simp

/-- **A map collected by key.** It is the one map whose look-ups are the answers and that binds no other key. -/
theorem collect_eq_ok {f : κ → Except ε (Option ν)} {keys : List κ} (hnd : keys.Nodup) {t : Table κ ν} :
    (do
      let found ← keys.mapM f
      pure (ofList ((keys.zip found).filterMap fun p : κ × Option ν => p.2.map fun v => (p.1, v)))) = .ok t ↔
      (∀ k ∈ keys, f k = .ok (t.get? k)) ∧ ∀ k, t.get? k ≠ none → k ∈ keys := by
  rw [bind_eq_ok]
  constructor
  · rintro ⟨found, hfound, ht⟩
    obtain ⟨g, rfl, hg⟩ := exists_map_of_mapM_eq_ok hfound
    obtain rfl := pure_eq_ok.1 ht
    refine ⟨fun k hk => ?_, fun k hk => ?_⟩
    · rw [hg k hk]
      congr 1
      exact Option.ext fun v => by rw [get?_ofFound hnd g]; exact ⟨fun h => ⟨hk, h⟩, fun h => h.2⟩
    · obtain ⟨v, hv⟩ := Option.ne_none_iff_exists'.1 hk
      exact ((get?_ofFound hnd g).1 hv).1
  · rintro ⟨hanswer, hkeys⟩
    refine ⟨keys.map t.get?, mapM_eq_ok.2 (List.forall₂_map_right_iff.2 (List.forall₂_same.2 hanswer)), ?_⟩
    refine pure_eq_ok.2 (ext fun k => Option.ext fun v => (get?_ofFound hnd t.get?).trans ?_)
    exact ⟨fun h => h.2, fun h => ⟨hkeys k (by rw [h]; simp), h⟩⟩

end Maps

end Hypervisor.Table
