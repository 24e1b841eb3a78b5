/-
Lists read back from the text that joins their items.

A text holds one piece more than it holds separators, so cutting a joined text gives as many pieces as there were items
exactly if no item holds the separator (`length_splitOn_intercalate`). That decides whether a list reads back, up to the
empty text, which stands for the empty list and not for a list of one empty item (`decode_list_iff`).
-/
import Hypervisor.Proofs.Entry.RoundTrip
import Hypervisor.Proofs.Wire.RoundTrip

namespace Hypervisor

open Fallible

/-! ## Pieces -/

theorem length_splitOn (sep : Char) (s : List Char) : (s.splitOn sep).length = s.count sep + 1 := by
  induction s with
  | nil => simp
  | cons c s ih =>
    rw [List.splitOn_cons_eq_if_modifyHead, List.count_cons]
    split_ifs with hc <;> simp [ih]

theorem count_intercalate (sep : Char) {pieces : List (List Char)} (hne : pieces ≠ []) :
    ([sep].intercalate pieces).count sep + 1 = (pieces.map (List.count sep)).sum + pieces.length := by
  induction pieces with
  | nil => exact absurd rfl hne
  | cons first rest ih =>
    cases rest with
    | nil => simp
    | cons second rest =>
      have hrest := ih (List.cons_ne_nil _ _)
      rw [List.intercalate_cons_cons, List.map_cons, List.sum_cons, List.length_cons, List.count_append,
        List.count_append, List.count_singleton_self]
      omega

/-- a joined text falls into as many pieces as were joined just where none of them holds the separator -/
theorem length_splitOn_intercalate (sep : Char) {pieces : List (List Char)} (hne : pieces ≠ []) :
    (([sep].intercalate pieces).splitOn sep).length = pieces.length ↔ ∀ piece ∈ pieces, sep ∉ piece := by
  have hplain : (pieces.map (List.count sep)).sum = 0 ↔ ∀ piece ∈ pieces, sep ∉ piece := by
    simp [List.sum_eq_zero_iff, List.count_eq_zero]
  rw [length_splitOn, count_intercalate sep hne, ← hplain]
  omega

theorem intercalate_eq_nil {sep : Char} {pieces : List (List Char)} :
    [sep].intercalate pieces = [] ↔ pieces = [] ∨ pieces = [[]] := by
  cases pieces with
  | nil => simp
  | cons first rest =>
    cases rest with
    | nil => simp
    | cons second rest => simp [List.intercalate_cons_cons]

/-! ## Texts of lists -/

section

variable {α : Type} [Wire α] {d : Dialect} {v : List α} {w : String}

/-- the text of a list joins the texts of its items -/
theorem encode_list_eq_ok [VoicedWire α] :
    Wire.encode d v = .ok (some w) ↔ ∃ pieces : List (List Char),
      List.Forall₂ (fun a piece => Wire.encode d a = .ok (some (String.ofList piece))) v pieces ∧
        w = String.ofList ([d.listSeparator].intercalate pieces) := by
  change (v.mapM (Wire.encode d) >>= fun texts => pure (some (String.ofList
    ([d.listSeparator].intercalate (texts.map fun s => (s.getD "").toList))))) = .ok (some w) ↔ _
  rw [bind_eq_ok]
  constructor
  · rintro ⟨texts, htexts, hw⟩
    refine ⟨_, ?_, (Option.some.inj (pure_eq_ok.1 hw)).symm⟩
    rw [List.forall₂_map_right_iff]
    refine (mapM_eq_ok.1 htexts).imp fun a text ha => ?_
    cases text with
    | none => exact absurd ha (VoicedWire.encode_ne_none d a)
    | some text => simpa using ha
  · rintro ⟨pieces, hpieces, rfl⟩
    refine ⟨pieces.map fun piece => some (String.ofList piece), ?_, ?_⟩
    · rw [mapM_eq_ok, List.forall₂_map_right_iff]
      exact hpieces
    · simp [pure_eq_ok, Function.comp_def]

/-- a list has a text if all of its items have one -/
theorem exists_encode_list [VoicedWire α] :
    (∃ w, Wire.encode d v = .ok (some w)) ↔ ∀ a ∈ v, ∃ text, Wire.encode d a = .ok (some text) := by
  simp only [encode_list_eq_ok]
  constructor
  · rintro ⟨_, pieces, hpieces, -⟩ a ha
    obtain ⟨piece, -, hencode⟩ := exists_of_mem_right hpieces.flip ha
    exact ⟨_, hencode⟩
  · intro h
    choose! text htext using h
    refine ⟨_, v.map fun a => (text a).toList, ?_, rfl⟩
    rw [List.forall₂_map_right_iff, List.forall₂_same]
    simpa using htext

/-- the empty text is that of no items, and of one item with the empty text -/
theorem encode_list_empty [VoicedWire α] :
    Wire.encode d v = .ok (some "") ↔ v = [] ∨ ∃ a, v = [a] ∧ Wire.encode d a = .ok (some "") := by
  rw [encode_list_eq_ok]
  constructor
  · rintro ⟨pieces, hpieces, hw⟩
    have hnil : [d.listSeparator].intercalate pieces = [] := by simpa using (congrArg String.toList hw).symm
    rcases intercalate_eq_nil.1 hnil with rfl | rfl
    · exact .inl (List.forall₂_nil_right_iff.1 hpieces)
    · obtain ⟨a, rest, ha, hrest, rfl⟩ := List.forall₂_cons_right_iff.1 hpieces
      obtain rfl := List.forall₂_nil_right_iff.1 hrest
      exact .inr ⟨a, rfl, ha⟩
  · rintro (rfl | ⟨a, rfl, ha⟩)
    · exact ⟨[], .nil, rfl⟩
    · exact ⟨[[]], .cons ha .nil, rfl⟩

theorem decode_list_empty : Wire.decode d (.text "") = .ok v ↔ v = [] := by
  change (Except.ok [] : Except Rejection (List α)) = .ok v ↔ v = []
  rw [Except.ok.injEq, eq_comm]

/-- any other text is read piece by piece -/
theorem decode_list_text (hw : w ≠ "") :
    Wire.decode d (.text w) = .ok v ↔
      List.Forall₂ (fun piece a => Wire.decode d (.text (String.ofList piece)) = .ok a)
        (w.toList.splitOn d.listSeparator) v := by
  change (if w.toList = [] then Except.ok [] else (w.toList.splitOn d.listSeparator).mapM fun piece =>
    Wire.decode d (.text (String.ofList piece))) = .ok v ↔ _
  rw [if_neg (by simpa using hw), mapM_eq_ok]

/-- **Lists that read back.** A list with a text reads back from it exactly if it is empty, or the text is not empty and
no item's text holds the separator. -/
theorem decode_list_iff [VoicedWire α] [LawfulWire α] (h : Wire.encode d v = .ok (some w)) :
    Wire.decode d (.text w) = .ok v ↔
      v = [] ∨ (w ≠ "" ∧ ∀ a ∈ v, ∀ text, Wire.encode d a = .ok (some text) → d.listSeparator ∉ text.toList) := by
  obtain ⟨pieces, hpieces, rfl⟩ := encode_list_eq_ok.1 h
  have hlength := hpieces.length_eq
  by_cases hv : v = []
  · subst hv
    obtain rfl := List.forall₂_nil_left_iff.1 hpieces
    exact iff_of_true (decode_list_empty.2 rfl) (.inl rfl)
  have hne : pieces ≠ [] := by
    rintro rfl
    exact hv (List.length_eq_zero_iff.1 hlength)
  have hplain : (∀ a ∈ v, ∀ text, Wire.encode d a = .ok (some text) → d.listSeparator ∉ text.toList) ↔
      ∀ piece ∈ pieces, d.listSeparator ∉ piece := by
    constructor
    · intro hv piece hpiece
      obtain ⟨a, ha, hencode⟩ := exists_of_mem_right hpieces hpiece
      simpa using hv a ha _ hencode
    · intro hp a ha text htext
      obtain ⟨piece, hpiece, hencode⟩ := exists_of_mem_right hpieces.flip ha
      obtain rfl := Option.some.inj (Except.ok.inj (hencode.symm.trans htext))
      simpa using hp piece hpiece
  rw [hplain]
  by_cases hempty : String.ofList ([d.listSeparator].intercalate pieces) = ""
  · rw [hempty, decode_list_empty]
    simp [hv]
  · rw [decode_list_text hempty, String.toList_ofList, ← length_splitOn_intercalate _ hne]
    simp only [hv, hempty, ne_eq, not_false_eq_true, true_and, false_or]
    constructor
    · intro hread
      rw [hread.length_eq, hlength]
    · intro hsame
      rw [List.splitOn_intercalate _ ((length_splitOn_intercalate _ hne).1 hsame) hne]
      exact hpieces.flip.imp fun piece a ha => LawfulWire.decode_encode d a _ ha

/-- which lists come back: each item has a text without the separator, and the list is not one item with the empty
text -/
theorem roundTrips_list_iff [VoicedWire α] [LawfulWire α] :
    Wire.RoundTrips d v ↔
      (∀ a ∈ v, ∃ text, Wire.encode d a = .ok (some text) ∧ d.listSeparator ∉ text.toList) ∧
        ¬∃ a, v = [a] ∧ Wire.encode d a = .ok (some "") := by
  constructor
  · rintro ⟨w, hw, hread⟩
    rcases (decode_list_iff hw).1 hread with rfl | ⟨hne, hplain⟩
    · simp
    · refine ⟨fun a ha => ?_, ?_⟩
      · obtain ⟨text, htext⟩ := exists_encode_list.1 ⟨w, hw⟩ a ha
        exact ⟨text, htext, hplain a ha text htext⟩
      · intro hsingle
        have hempty := encode_list_empty.2 (.inr hsingle)
        exact hne (Option.some.inj (Except.ok.inj (hw.symm.trans hempty)))
  · intro ⟨hitems, hsingle⟩
    obtain ⟨w, hw⟩ := exists_encode_list.2 fun a ha => (hitems a ha).imp fun _ h => h.1
    refine ⟨w, hw, (decode_list_iff hw).2 (or_iff_not_imp_left.2 fun hv => ⟨?_, fun a ha text htext => ?_⟩)⟩
    · rintro rfl
      exact (encode_list_empty.1 hw).elim hv hsingle
    · obtain ⟨text', htext', hplain⟩ := hitems a ha
      obtain rfl := Option.some.inj (Except.ok.inj (htext.symm.trans htext'))
      exact hplain

end

/-! ## Lists of tokens -/

/-- the types of single tokens, each with its values that have none -/
inductive TokenType : (α : Type) → [Wire α] → Set α → Prop
  | flag : TokenType Bool ∅
  | text : TokenType String ∅
  | integer (t : IntegerType) : TokenType (Ranged t) ∅
  | size : TokenType ByteSize ∅
  | choice {α : Type} [Vocabulary α] : TokenType (Choice α) {.unknown}

/-- a token reads back, and every value has one but those that are marked -/
structure TokenType.Lawful (α : Type) [Wire α] (unknown : Set α) : Prop where
  voiced : VoicedWire α
  lawful : LawfulWire α
  exists_encode_iff : ∀ (d : Dialect) (a : α), (∃ token, Wire.encode d a = .ok (some token)) ↔ a ∉ unknown

theorem TokenType.Lawful.of_total {α : Type} [Wire α] [VoicedWire α] [LawfulWire α] [TotalWire α] :
    TokenType.Lawful α ∅ :=
  ⟨inferInstance, inferInstance, fun d a => iff_of_true (TotalWire.exists_encode d a) (Set.notMem_empty a)⟩

theorem TokenType.isLawful {α : Type} [Wire α] {unknown : Set α} (h : TokenType α unknown) :
    TokenType.Lawful α unknown := by
  cases h with
  | flag => exact .of_total
  | text => exact .of_total
  | integer t => exact .of_total
  | size => exact .of_total
  | choice =>
    refine ⟨inferInstance, inferInstance, fun d c => ?_⟩
    simp only [Choice.encode_eq_ok]
    cases c <;> simp

/-- wherever an outsider stands in a list, it is the fault of writing the list -/
theorem encode_list_of_unknown {α : Type} [Vocabulary α] (d : Dialect) {v : List (Choice α)}
    (h : Choice.unknown ∈ v) : Wire.encode d v = .error (.noText (Vocabulary.label α)) := by
  rw [← fault?_eq_some, Wire.fault?_encode_list]
  cases hfirst : v.findSome? fun c => fault? (Wire.encode d c) with
  | none => exact absurd (List.findSome?_eq_none_iff.1 hfirst _ h) (Option.some_ne_none _)
  | some fault =>
    obtain ⟨c, -, hfault⟩ := List.exists_of_findSome?_eq_some hfirst
    cases c with
    | known a => cases hfault
    | unknown => exact hfault.symm

/-- every text is a list of texts, and the text of that list -/
theorem exists_texts (d : Dialect) (s : String) :
    ∃ v : List String, Wire.decode d (.text s) = .ok v ∧ Wire.encode d v = .ok (some s) := by
  by_cases hs : s = ""
  · subst hs
    exact ⟨[], rfl, rfl⟩
  · refine ⟨(s.toList.splitOn d.listSeparator).map String.ofList, (decode_list_text hs).2 ?_, encode_list_eq_ok.2 ?_⟩
    · rw [List.forall₂_map_right_iff, List.forall₂_same]
      exact fun piece _ => rfl
    · refine ⟨s.toList.splitOn d.listSeparator, ?_, ?_⟩
      · rw [List.forall₂_map_left_iff, List.forall₂_same]
        exact fun piece _ => rfl
      · rw [List.intercalate_splitOn, String.ofList_toList]

/-- **Lists of tokens read back from their text.** A list of flags, texts, whole numbers, sizes or members of a vocabulary
has a text exactly if no item is an outsider of the vocabulary, and an outsider is the fault wherever it stands. Under
every dialect the list reads back from its text exactly if it is empty, or the text is not empty and the token of no item
holds the list separator. Every text at all is read as a list of texts, and that list has the text. -/
theorem token_lists_read_back :
    (∀ (α : Type) [Wire α] (unknown : Set α), TokenType α unknown → ∀ (d : Dialect) (v : List α),
      ((∃ w, Wire.encode d v = .ok (some w)) ↔ ∀ a ∈ v, a ∉ unknown) ∧
      ∀ w, Wire.encode d v = .ok (some w) →
        (Wire.decode d (.text w) = .ok v ↔
          v = [] ∨ (w ≠ "" ∧ ∀ a ∈ v, ∀ token, Wire.encode d a = .ok (some token) → d.listSeparator ∉ token.toList))) ∧
    (∀ (α : Type) [Vocabulary α] (d : Dialect) (v : List (Choice α)), .unknown ∈ v →
      Wire.encode d v = .error (.noText (Vocabulary.label α))) ∧
    ∀ (d : Dialect) (s : String), ∃ v : List String,
      Wire.decode d (.text s) = .ok v ∧ Wire.encode d v = .ok (some s) := by
  refine ⟨fun α _ unknown hα d v => ?_, fun α _ d v => encode_list_of_unknown d, exists_texts⟩
  obtain ⟨_, _, hencode⟩ := hα.isLawful
  refine ⟨?_, fun w => decode_list_iff⟩
  rw [exists_encode_list]
  exact forall₂_congr fun a _ => hencode d a

/-- with a zero between flags, those that are on read back, and one that is off does not -/
theorem token_lists_read_back_zero_between :
    Wire.encode ⟨'0', '=', true⟩ [true, true] = .ok (some "101") ∧
      Wire.decode ⟨'0', '=', true⟩ (.text "101") = .ok [true, true] ∧
      Wire.encode ⟨'0', '=', true⟩ [true, false] = .ok (some "100") ∧
      Wire.decode ⟨'0', '=', true⟩ (.text "100") ≠ .ok [true, false] := by
  have hiff := fun v => (token_lists_read_back.1 Bool ∅ .flag ⟨'0', '=', true⟩ v).2
  refine ⟨rfl, (hiff [true, true] "101" rfl).2 (.inr ⟨by decide, ?_⟩), rfl, fun hread => ?_⟩
  · intro a ha token htoken
    obtain rfl : a = true := by simpa using ha
    obtain rfl := Option.some.inj (Except.ok.inj htoken)
    decide
  · rcases (hiff [true, false] "100" rfl).1 hread with hnil | ⟨-, hplain⟩
    · cases hnil
    · exact absurd (hplain false (by simp) "0" rfl) (by decide)

end Hypervisor
