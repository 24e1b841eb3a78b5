/-
Entry lists as maps.

A list is looked at through its first entries: `view` gives each key what its first entry says, a value or that it is
bare. Look-ups answer from the view, and each edit acts on the view as a map is edited (`view_apply`), whatever
duplicates stand further back: `remove` takes all of them, so none comes to light.

The list itself changes no more than it has to. `set` overwrites one entry where it stands or adds one at the end
(`set_cases`), and `remove` keeps all other entries in order.
-/
import Hypervisor.Entry
import Hypervisor.Proofs.Table.Laws

namespace Hypervisor.EntryList

/-! ## The view -/

/-- what the first entry with this key says: its value, or that it is bare -/
def view (l : EntryList) (key : String) : Option (Option String) :=
  (l.entries.map fun e => (e.key, e.value)).lookup key

theorem view_cons (e : Entry) (es : List Entry) (key : String) :
    view ⟨e :: es⟩ key = if key = e.key then some e.value else view ⟨es⟩ key := by
  unfold view
  rw [List.map_cons, List.lookup_cons]
  by_cases h : key = e.key
  · rw [if_pos h, h, beq_self_eq_true]
  · rw [if_neg h, beq_false_of_ne h]

theorem view_append (before after : List Entry) (key : String) :
    view ⟨before ++ after⟩ key = (view ⟨before⟩ key).or (view ⟨after⟩ key) := by
  unfold view
  rw [List.map_append, List.lookup_append]

theorem view_eq_none_iff {l : EntryList} {key : String} : view l key = none ↔ ∀ e ∈ l.entries, e.key ≠ key := by
  obtain ⟨es⟩ := l
  induction es with
  | nil => simp [view]
  | cons e rest ih =>
    rw [view_cons, List.forall_mem_cons, ← ih]
    by_cases h : key = e.key
    · simp [h]
    · simp [h, Ne.symm h]

/-- a key is bound to what an entry says that no entry of that key comes before -/
theorem view_eq_some_iff {l : EntryList} {key : String} {value : Option String} :
    view l key = some value ↔
      ∃ before after, l.entries = before ++ ⟨key, value⟩ :: after ∧ ∀ e ∈ before, e.key ≠ key := by
  constructor
  · intro h
    obtain ⟨es⟩ := l
    induction es with
    | nil => cases h
    | cons e rest ih =>
      rw [view_cons] at h
      split at h
      · rename_i hkey
        cases h
        exact ⟨[], rest, by rw [hkey]; rfl, by simp⟩
      · rename_i hkey
        obtain ⟨before, after, hrest, hbefore⟩ := ih h
        exact ⟨e :: before, after, congrArg (e :: ·) hrest, List.forall_mem_cons.2 ⟨Ne.symm hkey, hbefore⟩⟩
  · rintro ⟨before, after, hl, hbefore⟩
    obtain rfl : l = ⟨before ++ ⟨key, value⟩ :: after⟩ := congrArg EntryList.mk hl
    have hnone : view ⟨before⟩ key = none := view_eq_none_iff.2 hbefore
    rw [view_append, hnone, view_cons, if_pos rfl, Option.none_or]

theorem get?_eq_join_view (l : EntryList) (key : String) : l.get? key = (view l key).join := by
  unfold get?
  obtain ⟨es⟩ := l
  induction es with
  | nil => rfl
  | cons e rest ih =>
    rw [view_cons, List.find?_cons]
    by_cases h : e.key = key
    · simp [h]
    · have hb : (e.key == key) = false := beq_false_of_ne h
      rw [hb, if_neg (Ne.symm h), ← ih]

theorem contains_eq_isSome_view (l : EntryList) (key : String) : l.contains key = (view l key).isSome := by
  rw [Bool.eq_iff_iff, Option.isSome_iff_ne_none, Ne, view_eq_none_iff]
  simp [contains]

theorem view_eq_none_of_not_contains {l : EntryList} {key : String} (h : l.contains key = false) :
    view l key = none := by
  rw [contains_eq_isSome_view] at h
  simpa using h

/-! ## Setting -/

/-- a value is set in the first entry of its key, where that stands, or else in a new last entry -/
theorem set_cases (l : EntryList) (key value : String) :
    (∃ before old after, l.entries = before ++ ⟨key, old⟩ :: after ∧ (∀ e ∈ before, e.key ≠ key) ∧
        l.set key value = ⟨before ++ ⟨key, some value⟩ :: after⟩) ∨
      (∀ e ∈ l.entries, e.key ≠ key) ∧ l.set key value = l.push ⟨key, some value⟩ := by
  obtain ⟨es⟩ := l
  induction es with
  | nil => exact .inr ⟨by simp, rfl⟩
  | cons e rest ih =>
    by_cases h : e.key = key
    · have hset : setEntry key value (e :: rest) = ⟨key, some value⟩ :: rest := by rw [setEntry, if_pos h, h]
      exact .inl ⟨[], e.value, rest, by rw [← h]; rfl, by simp, congrArg EntryList.mk hset⟩
    · have hset : setEntry key value (e :: rest) = e :: setEntry key value rest := by rw [setEntry, if_neg h]
      rcases ih with ⟨before, old, after, hrest, hbefore, heq⟩ | ⟨hrest, heq⟩
      · refine .inl ⟨e :: before, old, after, congrArg (e :: ·) hrest, List.forall_mem_cons.2 ⟨h, hbefore⟩, ?_⟩
        exact congrArg EntryList.mk (hset.trans (congrArg (e :: ·) (EntryList.mk.inj heq)))
      · refine .inr ⟨List.forall_mem_cons.2 ⟨h, hrest⟩, ?_⟩
        exact congrArg EntryList.mk (hset.trans (congrArg (e :: ·) (EntryList.mk.inj heq)))

theorem view_set (l : EntryList) (key value : String) :
    view (l.set key value) = Function.update (view l) key (some (some value)) := by
  funext k
  rw [Function.update_apply]
  obtain ⟨es⟩ := l
  rcases set_cases ⟨es⟩ key value with ⟨before, old, after, rfl, hbefore, heq⟩ | ⟨hnone, heq⟩
  · rw [heq, view_append, view_append, view_cons, view_cons]
    by_cases h : k = key
    · subst h
      rw [view_eq_none_iff.2 hbefore, if_pos rfl, if_pos rfl, Option.none_or]
    · rw [if_neg h, if_neg h, if_neg h]
  · rw [heq, push, view_append, view_cons]
    by_cases h : k = key
    · subst h
      rw [view_eq_none_iff.2 hnone, if_pos rfl, if_pos rfl, Option.none_or]
    · rw [if_neg h, if_neg h]
      exact Option.or_none

theorem contains_set (l : EntryList) (key k value : String) :
    (l.set key value).contains k = (decide (k = key) || l.contains k) := by
  rw [contains_eq_isSome_view, contains_eq_isSome_view, view_set, Function.update_apply]
  by_cases h : k = key <;> simp [h]

theorem set_of_not_contains {l : EntryList} {key : String} (h : l.contains key = false) (value : String) :
    l.set key value = l.push ⟨key, some value⟩ := by
  rcases set_cases l key value with ⟨before, old, after, hl, -, -⟩ | ⟨-, heq⟩
  · have hmem : (⟨key, old⟩ : Entry) ∈ l.entries := by simp [hl]
    exact absurd rfl (view_eq_none_iff.1 (view_eq_none_of_not_contains h) _ hmem)
  · exact heq

/-- the value set last is the one that stays -/
theorem set_set (l : EntryList) (key first last : String) : (l.set key first).set key last = l.set key last := by
  have h (es : List Entry) : setEntry key last (setEntry key first es) = setEntry key last es := by
    induction es with
    | nil => simp [setEntry]
    | cons e rest ih =>
      by_cases he : e.key = key
      · simp [setEntry, he]
      · rw [setEntry, if_neg he, setEntry, if_neg he, ih, setEntry, if_neg he]
  exact congrArg EntryList.mk (h l.entries)

theorem setEntry_comm {k₁ k₂ : String} (hne : k₁ ≠ k₂) (v₁ v₂ : String) {es : List Entry}
    (h : ∃ e ∈ es, e.key = k₁ ∨ e.key = k₂) :
    setEntry k₂ v₂ (setEntry k₁ v₁ es) = setEntry k₁ v₁ (setEntry k₂ v₂ es) := by
  induction es with
  | nil => simp at h
  | cons e rest ih =>
    by_cases h₁ : e.key = k₁
    · have h₂ : e.key ≠ k₂ := h₁ ▸ hne
      simp [setEntry, h₁, hne]
    · by_cases h₂ : e.key = k₂
      · simp [setEntry, h₂, Ne.symm hne]
      · have hrest : ∃ e ∈ rest, e.key = k₁ ∨ e.key = k₂ := by simpa [h₁, h₂] using h
        simp [setEntry, h₁, h₂, ih hrest]

/-- two keys can be set in either order, unless both are new -/
theorem set_comm_iff (l : EntryList) {k₁ k₂ : String} (hne : k₁ ≠ k₂) (v₁ v₂ : String) :
    (l.set k₁ v₁).set k₂ v₂ = (l.set k₂ v₂).set k₁ v₁ ↔ l.contains k₁ = true ∨ l.contains k₂ = true := by
  constructor
  · intro heq
    by_contra hnew
    obtain ⟨h₁, h₂⟩ : l.contains k₁ = false ∧ l.contains k₂ = false := by simpa using hnew
    have h₁₂ : (l.set k₂ v₂).contains k₁ = false := by rw [contains_set, h₁]; simpa using hne
    have h₂₁ : (l.set k₁ v₁).contains k₂ = false := by rw [contains_set, h₂]; simpa using hne.symm
    rw [set_of_not_contains h₂₁, set_of_not_contains h₁₂, set_of_not_contains h₁, set_of_not_contains h₂] at heq
    have hlast := List.append_inj_right' (EntryList.mk.inj heq) rfl
    exact hne (congrArg Entry.key (List.singleton_inj.1 hlast)).symm
  · intro h
    refine congrArg EntryList.mk (setEntry_comm hne v₁ v₂ ?_)
    rcases h with h | h
    · obtain ⟨e, he, hkey⟩ := List.any_eq_true.1 h
      exact ⟨e, he, .inl (by simpa using hkey)⟩
    · obtain ⟨e, he, hkey⟩ := List.any_eq_true.1 h
      exact ⟨e, he, .inr (by simpa using hkey)⟩

/-! ## Removing -/

theorem view_remove (l : EntryList) (key : String) : view (l.remove key).1 = Function.update (view l) key none := by
  funext k
  have h := Table.lookup_filter key k (l.entries.map fun e => (e.key, e.value))
  rw [List.filter_map] at h
  rw [Function.update_apply]
  by_cases hk : k = key
  · simpa [view, remove, Function.comp_def, hk] using h
  · simpa [view, remove, Function.comp_def, hk] using h

theorem sublist_remove (l : EntryList) (key : String) : (l.remove key).1.entries.Sublist l.entries :=
  List.filter_sublist

theorem count_remove (l : EntryList) (key : String) (e : Entry) :
    (l.remove key).1.entries.count e = if e.key = key then 0 else l.entries.count e := by
  show (l.entries.filter fun e => !(e.key == key)).count e = _
  split
  · rename_i h
    exact List.count_eq_zero_of_not_mem (by simp [h])
  · rename_i h
    exact List.count_filter (by simpa using h)

theorem remove_snd (l : EntryList) (key : String) : (l.remove key).2 = l.entries.countP fun e => e.key == key := by
  have hlen := List.length_eq_countP_add_countP (fun e : Entry => e.key == key) (l := l.entries)
  have hkept : (l.entries.filter fun e => !(e.key == key)).length = l.entries.countP fun e => !(e.key == key) :=
    List.countP_eq_length_filter.symm
  show l.entries.length - (l.entries.filter fun e => !(e.key == key)).length = _
  simp only [Bool.not_eq_true, Bool.decide_eq_false] at hlen
  omega

/-! ## Edits -/

/-- an edit of a list -/
inductive Edit where
  | push (e : Entry)
  | set (key value : String)
  | remove (key : String)
deriving DecidableEq, Repr

/-- the edited list -/
def Edit.apply (l : EntryList) : Edit → EntryList
  | push e => l.push e
  | set key value => l.set key value
  | remove key => (l.remove key).1

/-- the same edit of a map: `push` binds a key that is not bound yet -/
def Edit.onMap (m : String → Option (Option String)) : Edit → String → Option (Option String)
  | push e => if m e.key = none then Function.update m e.key (some e.value) else m
  | set key value => Function.update m key (some (some value))
  | remove key => Function.update m key none

theorem view_push (l : EntryList) (e : Entry) : view (l.push e) = Edit.onMap (view l) (.push e) := by
  funext k
  have hpush : view (l.push e) k = (view l k).or (if k = e.key then some e.value else none) := by
    show view ⟨l.entries ++ [e]⟩ k = _
    rw [view_append, view_cons]
    rfl
  rw [hpush]
  cases h : view l e.key with
  | none =>
    have hmap : Edit.onMap (view l) (.push e) = Function.update (view l) e.key (some e.value) := if_pos h
    rw [hmap, Function.update_apply]
    by_cases hk : k = e.key
    · rw [if_pos hk, if_pos hk, hk, h, Option.none_or]
    · rw [if_neg hk, if_neg hk, Option.or_none]
  | some value =>
    have hmap : Edit.onMap (view l) (.push e) = view l := if_neg (by rw [h]; exact Option.some_ne_none value)
    rw [hmap]
    by_cases hk : k = e.key
    · rw [hk, h, Option.some_or]
    · rw [if_neg hk, Option.or_none]

theorem view_apply (l : EntryList) (edit : Edit) : view (edit.apply l) = edit.onMap (view l) := by
  cases edit with
  | push e => exact view_push l e
  | set key value => exact view_set l key value
  | remove key => exact view_remove l key

theorem view_foldl_apply (l : EntryList) (edits : List Edit) :
    view (edits.foldl Edit.apply l) = edits.foldl Edit.onMap (view l) := by
  induction edits generalizing l with
  | nil => rfl
  | cons edit rest ih => rw [List.foldl_cons, List.foldl_cons, ih, view_apply]

/-- **A list acts as the map of its first entries.** Look-ups answer from the view, and a run of edits acts on the view
as it would on a map. Setting a key overwrites its first entry in place, or adds a last entry if there is none; removing
one takes all its entries, tells how many, and keeps the others in order. So setting twice is setting once, and two keys
can be set in either order unless both are new. -/
theorem acts_as_map (l : EntryList) :
    (∀ key value, view l key = some value ↔
        ∃ before after, l.entries = before ++ ⟨key, value⟩ :: after ∧ ∀ e ∈ before, e.key ≠ key) ∧
      (∀ key, l.contains key = (view l key).isSome ∧ l.get? key = (view l key).join) ∧
      (∀ edits : List Edit, view (edits.foldl Edit.apply l) = edits.foldl Edit.onMap (view l)) ∧
      (∀ key value,
        (∃ before old after, l.entries = before ++ ⟨key, old⟩ :: after ∧ (∀ e ∈ before, e.key ≠ key) ∧
            l.set key value = ⟨before ++ ⟨key, some value⟩ :: after⟩) ∨
          view l key = none ∧ l.set key value = ⟨l.entries ++ [⟨key, some value⟩]⟩) ∧
      (∀ key, (l.remove key).2 = (l.entries.countP fun e => e.key == key) ∧
        (l.remove key).1.entries.Sublist l.entries ∧
        ∀ e, (l.remove key).1.entries.count e = if e.key = key then 0 else l.entries.count e) ∧
      (∀ key first last, (l.set key first).set key last = l.set key last) ∧
      ∀ k₁ k₂ v₁ v₂, k₁ ≠ k₂ →
        ((l.set k₁ v₁).set k₂ v₂ = (l.set k₂ v₂).set k₁ v₁ ↔ l.contains k₁ = true ∨ l.contains k₂ = true) := by
  refine ⟨fun _ _ => view_eq_some_iff, fun key => ⟨contains_eq_isSome_view l key, get?_eq_join_view l key⟩,
    view_foldl_apply l, fun key value => ?_, fun key => ⟨remove_snd l key, sublist_remove l key, count_remove l key⟩,
    set_set l, fun _ _ v₁ v₂ hne => set_comm_iff l hne v₁ v₂⟩
  rcases set_cases l key value with hreplaced | ⟨hnone, hadded⟩
  · exact .inl hreplaced
  · exact .inr ⟨view_eq_none_iff.2 hnone, hadded⟩

/-- a bare key and a key with two values -/
theorem acts_as_map_duplicates :
    ∃ l : EntryList, l = ⟨[⟨"ro", none⟩, ⟨"size", some "1G"⟩, ⟨"size", some "2G"⟩]⟩ ∧
      (l.contains "ro" = true ∧ l.get? "ro" = none) ∧
      view (l.remove "size").1 "size" = none ∧ (l.remove "size").2 = 2 ∧
      (l.set "ro" "1").set "size" "4G" = (l.set "size" "4G").set "ro" "1" ∧
      (l.set "ssd" "1").set "backup" "0" ≠ (l.set "backup" "0").set "ssd" "1" := by
  refine ⟨_, rfl, ?_⟩
  obtain ⟨-, hlook, hrun, -, hremove, -, hcomm⟩ :=
    acts_as_map ⟨[⟨"ro", none⟩, ⟨"size", some "1G"⟩, ⟨"size", some "2G"⟩]⟩
  refine ⟨hlook "ro", ?_, (hremove "size").1, (hcomm "ro" "size" "1" "4G" (by decide)).2 (.inl rfl), fun heq => ?_⟩
  · exact congrFun (hrun [.remove "size"]) "size"
  · exact absurd ((hcomm "ssd" "backup" "1" "0" (by decide)).1 heq) (by decide)

end Hypervisor.EntryList
