/-
Packed texts read and written. Under every dialect, degenerate ones included, the texts that can be read are exactly
the written forms of well-formed lists, and each of them stands for one list: `parse_eq_ok_iff`. Both directions of the
round trip are read off it in `parse_inverse_write`.

A well-formed list has at most 256 entries and a text of at most 64 KiB. Its keys are not empty and free of both
separators, its values are free of the list separator, bare keys occur only where the dialect allows them, and values
only where the two separators differ.
-/
import Hypervisor.Entry
import Hypervisor.Proofs.Fallible

namespace Hypervisor

open Fallible

/-! ## Pieces -/

/-- what stands between separators is free of them -/
theorem not_mem_of_mem_splitOn {sep : Char} {s piece : List Char} (h : piece ∈ s.splitOn sep) : sep ∉ piece := by
  induction s generalizing piece with
  | nil => simp only [List.splitOn_nil, List.mem_singleton] at h; simp [h]
  | cons c s ih =>
    rw [List.splitOn_cons_eq_if_modifyHead] at h
    split at h
    · rcases List.mem_cons.1 h with rfl | h
      · simp
      · exact ih h
    · rename_i hc
      cases hs : s.splitOn sep with
      | nil => exact absurd hs (List.splitOn_ne_nil sep s)
      | cons first rest =>
        rw [hs, List.modifyHead_cons] at h
        rcases List.mem_cons.1 h with rfl | h
        · have hc' : sep ≠ c := fun e => hc (by simp [e])
          exact List.not_mem_cons_of_ne_of_not_mem hc' (ih (hs ▸ List.mem_cons_self))
        · exact ih (hs ▸ List.mem_cons_of_mem _ h)

/-- each piece stands in the joined text -/
theorem infix_intercalate {sep : Char} {pieces : List (List Char)} {piece : List Char} (h : piece ∈ pieces) :
    piece <:+: [sep].intercalate pieces := by
  induction pieces with
  | nil => cases h
  | cons first rest ih =>
    cases rest with
    | nil =>
      rw [List.mem_singleton.1 h, List.intercalate_singleton]
    | cons second rest =>
      rw [List.intercalate_cons_cons]
      rcases List.mem_cons.1 h with rfl | h
      · exact (List.prefix_append _ _).isInfix.trans (List.prefix_append _ _).isInfix
      · exact (ih h).trans (List.suffix_append _ _).isInfix

theorem mem_of_mem_intercalate {sep c : Char} {pieces : List (List Char)} (h : c ∈ [sep].intercalate pieces) :
    c = sep ∨ ∃ piece ∈ pieces, c ∈ piece := by
  induction pieces with
  | nil => cases h
  | cons first rest ih =>
    cases rest with
    | nil =>
      rw [List.intercalate_singleton] at h
      exact .inr ⟨first, List.mem_cons_self, h⟩
    | cons second rest =>
      rw [List.intercalate_cons_cons, List.mem_append, List.mem_append, List.mem_singleton] at h
      rcases h with (h | h) | h
      · exact .inr ⟨first, List.mem_cons_self, h⟩
      · exact .inl h
      · rcases ih h with rfl | ⟨piece, hpiece, hc⟩
        · exact .inl rfl
        · exact .inr ⟨piece, List.mem_cons_of_mem _ hpiece, hc⟩

theorem utf8ByteSize_le_of_isInfix {s t : String} (h : s.toList <:+: t.toList) : s.utf8ByteSize ≤ t.utf8ByteSize := by
  obtain ⟨before, after, heq⟩ := h
  have ht : t = String.ofList before ++ s ++ String.ofList after := by
    rw [← String.toList_inj, String.toList_append, String.toList_append, String.toList_ofList, String.toList_ofList, heq]
  rw [ht, String.utf8ByteSize_append, String.utf8ByteSize_append]
  omega

namespace Entry

/-- the entries that a dialect can carry -/
structure WellFormed (d : Dialect) (e : Entry) : Prop where
  key_ne_empty : e.key ≠ ""
  list_not_mem_key : d.listSeparator ∉ e.key.toList
  entry_not_mem_key : d.entrySeparator ∉ e.key.toList
  list_not_mem_value : ∀ value ∈ e.value, d.listSeparator ∉ value.toList
  bare : e.value = none → d.allowBare = true
  valued : e.value ≠ none → d.listSeparator ≠ d.entrySeparator

theorem write_ne_nil {d : Dialect} {e : Entry} (h : e.key ≠ "") : e.write d ≠ [] := by
  unfold write
  split
  · simp
  · simpa using h

theorem list_not_mem_write {d : Dialect} {e : Entry} (h : e.WellFormed d) : d.listSeparator ∉ e.write d := by
  unfold write
  split
  · rename_i value hv
    have hsep := h.valued (by simp [hv])
    simpa [h.list_not_mem_key, hsep] using h.list_not_mem_value value hv
  · exact h.list_not_mem_key

/-- a piece is read as the one well-formed entry with that text -/
theorem parse_eq_ok_iff {d : Dialect} {position : ℕ} {piece : List Char} {e : Entry}
    (hp : d.listSeparator ∉ piece) : Entry.parse d position piece = .ok e ↔ e.write d = piece ∧ e.WellFormed d := by
  obtain ⟨key, value⟩ := e
  constructor
  · intro h
    unfold Entry.parse at h
    split at h
    · cases h
    · rename_i k v hne hcut
      obtain ⟨rfl, hk⟩ := Text.cut?_eq_some_iff.1 hcut
      simp only [Except.ok.injEq, Entry.mk.injEq] at h
      obtain ⟨rfl, rfl⟩ := h
      simp only [List.mem_append, List.mem_cons, not_or] at hp
      have hk0 : k ≠ [] := fun h0 => hne h0
      refine ⟨by simp [write], ⟨by simpa using hk0, by simpa using hp.1, by simpa using hk, ?_, by simp, ?_⟩⟩
      · rintro _ ⟨⟩; simpa using hp.2.2
      · intro _; exact hp.2.1
    · rename_i hcut
      split_ifs at h with h0 hbare
      simp only [Except.ok.injEq, Entry.mk.injEq] at h
      obtain ⟨rfl, rfl⟩ := h
      have hes := Text.cut?_eq_none_iff.1 hcut
      exact ⟨by simp [write], ⟨by simpa using h0, by simpa using hp, by simpa using hes, by simp, fun _ => hbare,
        by simp⟩⟩
  · rintro ⟨rfl, h⟩
    have hk0 : key.toList ≠ [] := by simpa using h.key_ne_empty
    unfold Entry.parse
    cases value with
    | some v =>
      have hcut : Text.cut? d.entrySeparator (write d ⟨key, some v⟩) = some (key.toList, v.toList) :=
        Text.cut?_eq_some_iff.2 ⟨rfl, h.entry_not_mem_key⟩
      rw [hcut]
      cases hk : key.toList with
      | nil => exact absurd hk hk0
      | cons c rest => simp [← hk]
    | none =>
      have hcut : Text.cut? d.entrySeparator (write d ⟨key, none⟩) = none :=
        Text.cut?_eq_none_iff.2 h.entry_not_mem_key
      rw [hcut]
      simp [write, h.key_ne_empty, h.bare rfl]

/-- pieces are read as the well-formed entries with those texts -/
theorem parseAll_eq_ok_iff {d : Dialect} {position : ℕ} {pieces : List (List Char)} {es : List Entry}
    (hp : ∀ piece ∈ pieces, d.listSeparator ∉ piece) :
    parseAll d position pieces = .ok es ↔ es.map (write d) = pieces ∧ ∀ e ∈ es, e.WellFormed d := by
  induction pieces generalizing position es with
  | nil =>
    simp only [parseAll, Except.ok.injEq, List.map_eq_nil_iff]
    constructor
    · rintro rfl; simp
    · rintro ⟨rfl, -⟩; rfl
  | cons piece rest ih =>
    have hrest : ∀ p ∈ rest, d.listSeparator ∉ p := fun p h => hp p (List.mem_cons_of_mem _ h)
    simp only [parseAll, bind_eq_ok, pure_eq_ok, parse_eq_ok_iff (hp piece List.mem_cons_self), ih hrest]
    constructor
    · rintro ⟨e, ⟨rfl, he⟩, es', ⟨rfl, hes⟩, rfl⟩
      exact ⟨rfl, List.forall_mem_cons.2 ⟨he, hes⟩⟩
    · cases es with
      | nil => rintro ⟨h, -⟩; cases h
      | cons e es' =>
        rintro ⟨h, hes⟩
        obtain ⟨h₁, h₂⟩ := List.cons.inj h
        obtain ⟨he, hes'⟩ := List.forall_mem_cons.1 hes
        exact ⟨e, ⟨h₁, he⟩, es', ⟨h₂, hes'⟩, rfl⟩

/-- well-formed entries with the same texts are the same -/
theorem eq_of_map_write_eq {d : Dialect} {es es' : List Entry} (h : ∀ e ∈ es, e.WellFormed d)
    (h' : ∀ e ∈ es', e.WellFormed d) (heq : es.map (write d) = es'.map (write d)) : es = es' := by
  have hpieces : ∀ piece ∈ es.map (write d), d.listSeparator ∉ piece := by
    intro piece hpiece
    obtain ⟨e, he, rfl⟩ := List.mem_map.1 hpiece
    exact list_not_mem_write (h e he)
  have hread : parseAll d 0 (es.map (write d)) = .ok es := (parseAll_eq_ok_iff hpieces).2 ⟨rfl, h⟩
  have hread' : parseAll d 0 (es.map (write d)) = .ok es' := (parseAll_eq_ok_iff hpieces).2 ⟨heq.symm, h'⟩
  exact Except.ok.inj (hread.symm.trans hread')

end Entry

namespace EntryList

/-- the lists that a dialect can carry in one text -/
structure WellFormed (d : Dialect) (l : EntryList) : Prop where
  count : l.entries.length ≤ 256
  size : (l.write d).utf8ByteSize ≤ 65536
  entries : ∀ e ∈ l.entries, e.WellFormed d

/-- the text of a list cut at the list separator: the texts of its entries -/
theorem splitOn_write {d : Dialect} {l : EntryList} (hne : l.entries ≠ [])
    (h : ∀ e ∈ l.entries, e.WellFormed d) :
    (l.write d).toList.splitOn d.listSeparator = l.entries.map (Entry.write d) := by
  rw [write, String.toList_ofList, List.splitOn_intercalate]
  · intro piece hpiece
    obtain ⟨e, he, rfl⟩ := List.mem_map.1 hpiece
    exact Entry.list_not_mem_write (h e he)
  · simpa using hne

theorem write_ne_empty {d : Dialect} {l : EntryList} (hne : l.entries ≠ [])
    (h : ∀ e ∈ l.entries, e.WellFormed d) : (l.write d).toList ≠ [] := by
  intro h0
  have hsplit := splitOn_write hne h
  rw [h0, List.splitOn_nil] at hsplit
  -- the one piece of the empty text is empty, and no entry has an empty text
  obtain ⟨e, he, hw⟩ := List.mem_map.1 (hsplit ▸ List.mem_singleton_self ([] : List Char))
  exact Entry.write_ne_nil (h e he).key_ne_empty hw

theorem write_empty (d : Dialect) : empty.write d = "" := rfl

/-- a text is read as the one well-formed list with that text -/
theorem parse_eq_ok_iff {d : Dialect} {raw : String} {l : EntryList} :
    EntryList.parse d raw = .ok l ↔ l.write d = raw ∧ l.WellFormed d := by
  have hpieces : ∀ piece ∈ raw.toList.splitOn d.listSeparator, d.listSeparator ∉ piece :=
    fun _ h => not_mem_of_mem_splitOn h
  have htake : ∀ piece ∈ (raw.toList.splitOn d.listSeparator).take Bounded.entryCount.maximum,
      d.listSeparator ∉ piece := fun piece h => hpieces piece (List.mem_of_mem_take h)
  constructor
  · intro h
    unfold EntryList.parse at h
    split_ifs at h with hbytes hnil
    · obtain rfl := Except.ok.inj h
      have hraw : raw = "" := by simpa using hnil
      exact ⟨by rw [hraw, write_empty], ⟨by simp [empty], by simp [write_empty], by simp [empty]⟩⟩
    · obtain ⟨es, hes, hrest⟩ := bind_eq_ok.1 h
      split_ifs at hrest with hcount
      obtain rfl := Except.ok.inj hrest
      obtain ⟨hmap, hwf⟩ := (Entry.parseAll_eq_ok_iff htake).1 hes
      rw [List.take_of_length_le (not_lt.1 hcount)] at hmap
      have hwrite : EntryList.write d ⟨es⟩ = raw := by
        rw [write, hmap, List.intercalate_splitOn, String.ofList_toList]
      refine ⟨hwrite, ⟨?_, by rw [hwrite]; exact not_lt.1 hbytes, hwf⟩⟩
      have hlen := congrArg List.length hmap
      rw [List.length_map] at hlen
      rw [hlen]; exact not_lt.1 hcount
  · rintro ⟨rfl, h⟩
    have hbytes : ¬Bounded.textBytes.maximum < (l.write d).utf8ByteSize := not_lt.2 h.size
    unfold EntryList.parse
    rw [if_neg hbytes]
    by_cases hne : l.entries = []
    · obtain rfl : l = empty := by cases l; simpa [empty] using hne
      simp [write_empty]
    · have hlen : ((l.write d).toList.splitOn d.listSeparator).length ≤ Bounded.entryCount.maximum := by
        rw [splitOn_write hne h.entries, List.length_map]; exact h.count
      rw [if_neg (write_ne_empty hne h.entries)]
      refine bind_eq_ok.2 ⟨l.entries, (Entry.parseAll_eq_ok_iff htake).2 ⟨?_, h.entries⟩, ?_⟩
      · rw [List.take_of_length_le hlen, splitOn_write hne h.entries]
      · rw [if_neg (not_lt.2 hlen)]

/-- **Reading and writing packed texts are inverse.** Under every dialect, what is read is written back as the same
text, and a list is read back from its text exactly when it is well-formed. -/
theorem parse_inverse_write (d : Dialect) :
    (∀ raw l, EntryList.parse d raw = .ok l → l.write d = raw) ∧
    (∀ l, EntryList.parse d (l.write d) = .ok l ↔ l.WellFormed d) :=
  ⟨fun _ _ h => (parse_eq_ok_iff.1 h).1, fun _ => ⟨fun h => (parse_eq_ok_iff.1 h).2, fun h => parse_eq_ok_iff.2 ⟨rfl, h⟩⟩⟩

end EntryList

end Hypervisor
