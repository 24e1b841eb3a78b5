/-
The grammar of packed texts, and whom a fault of reading one blames.

A text falls into pieces at every list separator (`Text.FallsInto`). A piece stands for one entry or has one defect
(`Entry.denotes_or_malformed`), so that the outcome of reading is a relation between texts and outcomes that does not
mention how the text is read: `EntryList.Reads`. Its rules come in the order in which a reader may take offence, and no
text meets two of them: a text that is too long, a malformed piece among the first 256, a count of pieces that is too
great. `EntryList.parse_eq_iff_reads` is the agreement of the two.
-/
import Hypervisor.Proofs.Entry.RoundTrip

namespace Hypervisor

open Fallible

/-! ## Pieces -/

/-- the pieces between all occurrences of the separator -/
structure Text.FallsInto (sep : Char) (s : List Char) (pieces : List (List Char)) : Prop where
  joined : [sep].intercalate pieces = s
  ne_nil : pieces ≠ []
  free : ∀ piece ∈ pieces, sep ∉ piece

/-- there is one way to fall into pieces -/
theorem Text.fallsInto_iff {sep : Char} {s : List Char} {pieces : List (List Char)} :
    FallsInto sep s pieces ↔ pieces = s.splitOn sep := by
  constructor
  · intro h
    rw [← h.joined, List.splitOn_intercalate _ h.free h.ne_nil]
  · rintro rfl
    exact ⟨List.intercalate_splitOn sep, List.splitOn_ne_nil sep s, fun _ => not_mem_of_mem_splitOn⟩

namespace Entry

/-- the entry of a piece: cut at the first entry separator, or bare -/
inductive Denotes (d : Dialect) : List Char → Entry → Prop
  | valued {key value : List Char} : key ≠ [] → d.entrySeparator ∉ key →
      Denotes d (key ++ d.entrySeparator :: value) ⟨String.ofList key, some (String.ofList value)⟩
  | bare {piece : List Char} : piece ≠ [] → d.entrySeparator ∉ piece → d.allowBare = true →
      Denotes d piece ⟨String.ofList piece, none⟩

/-- a piece that stands for no entry, and its defect -/
inductive Malformed (d : Dialect) : List Char → EntryDefect → Prop
  /-- nothing stands before the first entry separator -/
  | emptyKey {value : List Char} : Malformed d (d.entrySeparator :: value) .emptyKey
  | emptyEntry : Malformed d [] .emptyEntry
  /-- a bare key under a dialect that has none -/
  | missingValue {piece : List Char} : piece ≠ [] → d.entrySeparator ∉ piece → d.allowBare = false →
      Malformed d piece .missingValue

/-- the piece has no defect -/
def Proper (d : Dialect) (piece : List Char) : Prop := ∀ defect, ¬Malformed d piece defect

variable {d : Dialect} {position : ℕ} {piece : List Char} {e : Entry}

theorem parse_of_denotes (h : Denotes d piece e) : Entry.parse d position piece = .ok e := by
  unfold Entry.parse
  cases h with
  | @valued key value hne hkey =>
    rw [Text.cut?_eq_some_iff.2 ⟨rfl, hkey⟩]
    cases key with
    | nil => exact absurd rfl hne
    | cons c key => rfl
  | bare hne hsep hbare =>
    rw [Text.cut?_eq_none_iff.2 hsep]
    simp [hne, hbare]

theorem parse_of_malformed {defect : EntryDefect} (h : Malformed d piece defect) :
    Entry.parse d position piece = .error (.malformed (String.ofList piece) position defect) := by
  unfold Entry.parse
  cases h with
  | emptyKey => rw [Text.cut?_cons_self]
  | emptyEntry => rw [Text.cut?_nil]; rfl
  | missingValue hne hsep hbare =>
    rw [Text.cut?_eq_none_iff.2 hsep]
    simp [hne, hbare]

theorem denotes_or_malformed (d : Dialect) (piece : List Char) :
    (∃ e, Denotes d piece e) ∨ ∃ defect, Malformed d piece defect := by
  cases hcut : Text.cut? d.entrySeparator piece with
  | some parts =>
    obtain ⟨key, value⟩ := parts
    obtain ⟨rfl, hkey⟩ := Text.cut?_eq_some_iff.1 hcut
    by_cases hne : key = []
    · subst hne
      exact .inr ⟨_, .emptyKey⟩
    · exact .inl ⟨_, .valued hne hkey⟩
  | none =>
    have hsep := Text.cut?_eq_none_iff.1 hcut
    by_cases hne : piece = []
    · subst hne
      exact .inr ⟨_, .emptyEntry⟩
    · cases hbare : d.allowBare with
      | true => exact .inl ⟨_, .bare hne hsep hbare⟩
      | false => exact .inr ⟨_, .missingValue hne hsep hbare⟩

/-- no piece is both: it is read in one way only -/
theorem proper_iff : Proper d piece ↔ ∃ e, Denotes d piece e := by
  constructor
  · intro h
    refine (denotes_or_malformed d piece).resolve_right ?_
    intro ⟨defect, hdefect⟩
    exact h defect hdefect
  · intro ⟨e, he⟩ defect hdefect
    have hread : Entry.parse d 0 piece = .ok e := parse_of_denotes he
    rw [parse_of_malformed hdefect] at hread
    cases hread

/-! ## Pieces in order -/

theorem parseAll_of_denotes {pieces : List (List Char)} {es : List Entry} (h : List.Forall₂ (Denotes d) pieces es) :
    parseAll d position pieces = .ok es := by
  induction h generalizing position with
  | nil => rfl
  | cons he _ ih => rw [parseAll, parse_of_denotes he, ih]; rfl

/-- the first malformed piece is the fault, and its index is how many stand before it -/
theorem parseAll_of_malformed {before after : List (List Char)} {defect : EntryDefect}
    (hbefore : ∀ p ∈ before, Proper d p) (h : Malformed d piece defect) :
    parseAll d position (before ++ piece :: after) =
      .error (.malformed (String.ofList piece) (position + before.length) defect) := by
  induction before generalizing position with
  | nil => rw [List.nil_append, parseAll, parse_of_malformed h]; rfl
  | cons p before ih =>
    obtain ⟨hp, hrest⟩ := List.forall_mem_cons.1 hbefore
    obtain ⟨e, he⟩ := proper_iff.1 hp
    rw [List.cons_append, parseAll, parse_of_denotes he, ih hrest, List.length_cons]
    show Except.error (TokenFault.malformed _ (position + 1 + before.length) defect) = _
    rw [Nat.add_right_comm, Nat.add_assoc]

theorem forall_proper_iff {pieces : List (List Char)} :
    (∀ p ∈ pieces, Proper d p) ↔ ∃ es, List.Forall₂ (Denotes d) pieces es := by
  induction pieces with
  | nil => exact iff_of_true (List.forall_mem_nil _) ⟨[], .nil⟩
  | cons p pieces ih =>
    rw [List.forall_mem_cons, ih, proper_iff]
    constructor
    · intro ⟨⟨e, he⟩, es, hes⟩
      exact ⟨e :: es, .cons he hes⟩
    · intro ⟨es, hes⟩
      obtain ⟨e, es', he, hes', -⟩ := List.forall₂_cons_left_iff.1 hes
      exact ⟨⟨e, he⟩, es', hes'⟩

/-- pieces that are not all proper have a first that is malformed -/
theorem exists_first_malformed {pieces : List (List Char)} (h : ¬∀ p ∈ pieces, Proper d p) :
    ∃ before piece after defect, pieces = before ++ piece :: after ∧ (∀ p ∈ before, Proper d p) ∧
      Malformed d piece defect := by
  obtain ⟨before, piece, after, hpieces, hbefore, hpiece⟩ := exists_first_not h
  obtain ⟨defect, hdefect⟩ : ∃ defect, Malformed d piece defect := by simpa [Proper] using hpiece
  exact ⟨before, piece, after, defect, hpieces, hbefore, hdefect⟩

end Entry

/-! ## Texts -/

namespace EntryList

open Entry

/-- what becomes of a text under a dialect -/
inductive Reads (d : Dialect) (raw : String) : Except TokenFault EntryList → Prop
  | tooLong : 65536 < raw.utf8ByteSize → Reads d raw (.error (.tooLong .textBytes raw.utf8ByteSize))
  | empty : raw = "" → Reads d raw (.ok ⟨[]⟩)
  /-- the first malformed piece, if it is among the first 256 -/
  | malformed {before after : List (List Char)} {piece : List Char} {defect : EntryDefect} :
      raw.utf8ByteSize ≤ 65536 → raw ≠ "" →
      Text.FallsInto d.listSeparator raw.toList (before ++ piece :: after) → before.length < 256 →
      (∀ p ∈ before, Proper d p) → Malformed d piece defect →
      Reads d raw (.error (.malformed (String.ofList piece) before.length defect))
  | tooMany {pieces : List (List Char)} :
      raw.utf8ByteSize ≤ 65536 → raw ≠ "" → Text.FallsInto d.listSeparator raw.toList pieces →
      (∀ p ∈ pieces.take 256, Proper d p) → 256 < pieces.length →
      Reads d raw (.error (.tooLong .entryCount pieces.length))
  /-- each piece is an entry, in order -/
  | entries {pieces : List (List Char)} {es : List Entry} :
      raw.utf8ByteSize ≤ 65536 → raw ≠ "" → Text.FallsInto d.listSeparator raw.toList pieces → pieces.length ≤ 256 →
      List.Forall₂ (Denotes d) pieces es → Reads d raw (.ok ⟨es⟩)

variable {d : Dialect} {raw : String}

/-- a text that is neither too long nor empty is read piece by piece, and pieces past the bound are only counted -/
theorem parse_of_fallsInto {pieces : List (List Char)} (hsize : raw.utf8ByteSize ≤ 65536) (hne : raw ≠ "")
    (hpieces : Text.FallsInto d.listSeparator raw.toList pieces) :
    EntryList.parse d raw = parseAll d 0 (pieces.take 256) >>= fun es =>
      if 256 < pieces.length then .error (.tooLong .entryCount pieces.length) else .ok ⟨es⟩ := by
  have hbytes : ¬Bounded.textBytes.maximum < raw.utf8ByteSize := not_lt.2 hsize
  have hnil : ¬raw.toList = [] := by simpa using hne
  rw [EntryList.parse, if_neg hbytes, if_neg hnil, Text.fallsInto_iff.1 hpieces]
  rfl

theorem parse_of_reads {r : Except TokenFault EntryList} (h : Reads d raw r) : EntryList.parse d raw = r := by
  cases h with
  | tooLong hsize => exact if_pos hsize
  | empty hempty => subst hempty; rfl
  | @malformed before after piece defect hsize hne hpieces hindex hbefore hdefect =>
    -- the malformed piece is among those that are read
    obtain ⟨n, hn⟩ : ∃ n, 256 - before.length = n + 1 := ⟨255 - before.length, by omega⟩
    have htake : (before ++ piece :: after).take 256 = before ++ piece :: after.take n := by
      rw [List.take_append, List.take_of_length_le hindex.le, hn, List.take_succ_cons]
    rw [parse_of_fallsInto hsize hne hpieces, htake, parseAll_of_malformed hbefore hdefect, Nat.zero_add]
    rfl
  | tooMany hsize hne hpieces hproper hcount =>
    obtain ⟨es, hes⟩ := forall_proper_iff.1 hproper
    rw [parse_of_fallsInto hsize hne hpieces, parseAll_of_denotes hes]
    exact if_pos hcount
  | entries hsize hne hpieces hcount hentries =>
    rw [parse_of_fallsInto hsize hne hpieces, List.take_of_length_le hcount, parseAll_of_denotes hentries]
    exact if_neg (not_lt.2 hcount)

/-- every text meets one of the rules -/
theorem exists_reads (d : Dialect) (raw : String) : ∃ r, Reads d raw r := by
  by_cases hsize : raw.utf8ByteSize ≤ 65536
  swap
  · exact ⟨_, .tooLong (not_le.1 hsize)⟩
  by_cases hne : raw = ""
  · exact ⟨_, .empty hne⟩
  have hpieces := Text.fallsInto_iff.2 (rfl : raw.toList.splitOn d.listSeparator = _)
  by_cases hproper : ∀ p ∈ (raw.toList.splitOn d.listSeparator).take 256, Proper d p
  swap
  · obtain ⟨before, piece, after, defect, htake, hbefore, hdefect⟩ := exists_first_malformed hproper
    have hindex : before.length < 256 := by
      have hlength := congrArg List.length htake
      rw [List.length_take, List.length_append, List.length_cons] at hlength
      omega
    rw [← List.take_append_drop 256 (raw.toList.splitOn d.listSeparator), htake, List.append_assoc,
      List.cons_append] at hpieces
    exact ⟨_, .malformed hsize hne hpieces hindex hbefore hdefect⟩
  by_cases hcount : 256 < (raw.toList.splitOn d.listSeparator).length
  · exact ⟨_, .tooMany hsize hne hpieces hproper hcount⟩
  · rw [List.take_of_length_le (not_lt.1 hcount)] at hproper
    obtain ⟨es, hes⟩ := forall_proper_iff.1 hproper
    exact ⟨_, .entries hsize hne hpieces (not_lt.1 hcount) hes⟩

/-- **Packed texts are read by their grammar.** Under every dialect the outcome of reading a text is the one that the
rules give: there always is one, and it is never another. The defects are worded as a reader would look for them. -/
theorem parse_eq_iff_reads :
    (∀ (d : Dialect) (raw : String) (r : Except TokenFault EntryList), EntryList.parse d raw = r ↔ Reads d raw r) ∧
      EntryDefect.emptyKey.message = "empty key" ∧ EntryDefect.emptyEntry.message = "empty entry" ∧
      EntryDefect.missingValue.message = "missing value" := by
  refine ⟨fun d raw r => ⟨?_, parse_of_reads⟩, rfl, rfl, rfl⟩
  rintro rfl
  obtain ⟨r, hr⟩ := exists_reads d raw
  rwa [parse_of_reads hr]

-- a malformed piece is blamed ahead of whatever stands behind it
example : EntryList.parse .strict "a=1,=b,c" = .error (.malformed "=b" 1 .emptyKey) := by rfl

end EntryList

end Hypervisor
