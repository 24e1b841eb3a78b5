/-
Tokens of scalars: each one reads back as the value it was written for (`LawfulScalar`), and apart from free text it is
made of letters, digits, points, minus signs and underscores only (`Tame`), so that it never holds a separator.
-/
import Hypervisor.Vocabulary
import Hypervisor.ByteSize
import Mathlib.Tactic

namespace Hypervisor

/-! ## Tame texts -/

/-- a character that no dialect uses as a separator -/
def isTame (c : Char) : Bool := c.isAlphanum || c == '.' || c == '-' || c == '_'

/-- a text of letters, digits, points, minus signs and underscores -/
def Tame (s : String) : Prop := ∀ c ∈ s.toList, isTame c = true

instance (s : String) : Decidable (Tame s) := decidable_of_iff (s.toList.all isTame = true) List.all_eq_true

theorem Tame.not_mem {s : String} (h : Tame s) {c : Char} (hc : isTame c = false) : c ∉ s.toList := by
  intro hmem
  rw [h c hmem] at hc
  cases hc

theorem isTame_of_isDigit {c : Char} (h : c.isDigit = true) : isTame c = true := by
  simp [isTame, Char.isAlphanum, h]

theorem isTame_toDigits (n : ℕ) : ∀ c ∈ Nat.toDigits 10 n, isTame c = true := fun _ hc =>
  isTame_of_isDigit (Nat.isDigit_of_mem_toDigits (by decide) (by decide) hc)

/-! ## Whole numbers -/

theorem naturalOfDigits?_toDigits (n : ℕ) : naturalOfDigits? (Nat.toDigits 10 n) = some n := by
  have hdig : (Nat.toDigits 10 n).all Char.isDigit = true :=
    List.all_eq_true.2 fun _ hc => Nat.isDigit_of_mem_toDigits (by decide) (by decide) hc
  rw [naturalOfDigits?, if_pos ⟨Nat.toDigits_ne_nil, hdig⟩, Nat.ofDigitChars_ten_toDigits]

theorem integerText_of_nonneg {n : ℤ} (h : 0 ≤ n) : (integerText n).toList = Nat.toDigits 10 n.natAbs := by
  rw [integerText, String.toList_ofList, if_neg (by omega), List.nil_append]

theorem integerText_of_neg {n : ℤ} (h : n < 0) : (integerText n).toList = '-' :: Nat.toDigits 10 n.natAbs := by
  rw [integerText, String.toList_ofList, if_pos h]; rfl

/-- only signed ranges reach below zero -/
theorem IntegerType.signed_of_low_neg {t : IntegerType} (h : t.low < 0) : t.signed = true := by
  cases t <;> first | rfl | exact absurd h (by decide)

theorem toDigits_ne_minus (n : ℕ) (rest : List Char) : Nat.toDigits 10 n ≠ '-' :: rest := by
  intro h
  have hmem : '-' ∈ Nat.toDigits 10 n := by rw [h]; exact List.mem_cons_self
  exact absurd (Nat.isDigit_of_mem_toDigits (by decide) (by decide) hmem) (by decide)

theorem Ranged.read?_integerText {t : IntegerType} (k : Ranged t) : Ranged.read? t (integerText k.val) = some k := by
  unfold Ranged.read?
  rcases lt_or_ge k.val 0 with hneg | hpos
  · rw [integerText_of_neg hneg]
    simp only [IntegerType.signed_of_low_neg (lt_of_le_of_lt k.low_le hneg), if_true, naturalOfDigits?_toDigits,
      Option.bind_some]
    rw [show -(k.val.natAbs : ℤ) = k.val by omega, Ranged.ofInt?_val]
  · rw [integerText_of_nonneg hpos]
    split
    · rename_i heq; exact absurd heq (toDigits_ne_minus _ _)
    · rw [naturalOfDigits?_toDigits, Option.bind_some, show (k.val.natAbs : ℤ) = k.val by omega, Ranged.ofInt?_val]

theorem tame_integerText (n : ℤ) : Tame (integerText n) := by
  intro c hc
  rcases lt_or_ge n 0 with hneg | hpos
  · rw [integerText_of_neg hneg] at hc
    rcases List.mem_cons.1 hc with rfl | hc
    · rfl
    · exact isTame_toDigits _ c hc
  · rw [integerText_of_nonneg hpos] at hc
    exact isTame_toDigits _ c hc

/-! ## Byte sizes -/

namespace ByteSize

theorem ofBytes?_eq_some_iff {n : ℕ} {s : ByteSize} : ofBytes? n = some s ↔ s.bytes.val.toNat = n := by
  obtain ⟨bytes⟩ := s
  have hlow : 0 ≤ bytes.val := bytes.low_le
  simp only [ofBytes?, Option.map_eq_some_iff, ByteSize.mk.injEq, exists_eq_right, Ranged.ofInt?_eq_some_iff]
  omega

theorem ofBytes?_toNat (s : ByteSize) : ofBytes? s.bytes.val.toNat = some s := ofBytes?_eq_some_iff.2 rfl

theorem unit_letter {u : Char × ℕ} (h : u ∈ units) :
    units.lookup u.1 = some u.2 ∧ u.1.isDigit = false ∧ isTame u.1 = true := by
  revert u
  decide

/-- the text of a size: a count with a unit that divides it, or plain digits -/
theorem text_cases (s : ByteSize) :
    (∃ u ∈ units, s.bytes.val.toNat % u.2 = 0 ∧ s.text.toList = Nat.toDigits 10 (s.bytes.val.toNat / u.2) ++ [u.1]) ∨
    s.text.toList = Nat.toDigits 10 s.bytes.val.toNat := by
  unfold text
  simp only
  split
  · rename_i u hu
    split_ifs at hu
    exact .inl ⟨u, List.mem_of_find?_eq_some hu, by simpa using List.find?_some hu, String.toList_ofList⟩
  · exact .inr String.toList_ofList

/-- digits alone count bytes -/
theorem read?_of_digits {raw : String} {n : ℕ} (h : naturalOfDigits? raw.toList = some n) : read? raw = ofBytes? n := by
  have hdigits : raw.toList ≠ [] ∧ raw.toList.all Char.isDigit := by
    by_contra hno
    rw [naturalOfDigits?, if_neg hno] at h
    cases h
  have hlast := List.getLast?_eq_some_getLast hdigits.1
  have hc := List.all_eq_true.1 hdigits.2 _ (List.mem_of_getLast? hlast)
  simp only [read?, hlast, hc, if_true, h, Option.bind_some]

/-- a letter behind the digits says what they count -/
theorem read?_of_unit {raw : String} {digits : List Char} {u : Char × ℕ} (hu : u ∈ units)
    (h : raw.toList = digits ++ [u.1]) : read? raw = (naturalOfDigits? digits).bind fun n => ofBytes? (n * u.2) := by
  obtain ⟨hlookup, hdigit, -⟩ := unit_letter hu
  simp only [read?, h, List.getLast?_concat, List.dropLast_concat, hdigit, hlookup, Option.bind_some,
    Bool.false_eq_true, if_false]

/-- the plain count of bytes is read too -/
theorem read?_integerText (s : ByteSize) : read? (integerText s.bytes.val) = some s := by
  have hlow : 0 ≤ s.bytes.val := s.bytes.low_le
  have hcount : s.bytes.val.natAbs = s.bytes.val.toNat := by omega
  rw [read?_of_digits (by rw [integerText_of_nonneg hlow, naturalOfDigits?_toDigits]), hcount, ofBytes?_toNat]

theorem read?_text (s : ByteSize) : read? s.text = some s := by
  rcases text_cases s with ⟨u, hu, hmod, htext⟩ | htext
  · rw [read?_of_unit hu htext, naturalOfDigits?_toDigits, Option.bind_some,
      Nat.div_mul_cancel (Nat.dvd_of_mod_eq_zero hmod), ofBytes?_toNat]
  · rw [read?_of_digits (by rw [htext, naturalOfDigits?_toDigits]), ofBytes?_toNat]

theorem tame_text (s : ByteSize) : Tame s.text := by
  intro c hc
  rcases text_cases s with ⟨u, hu, -, htext⟩ | htext
  · rw [htext] at hc
    rcases List.mem_append.1 hc with hc | hc
    · exact isTame_toDigits _ c hc
    · rw [List.mem_singleton.1 hc]
      exact (unit_letter hu).2.2
  · rw [htext] at hc
    exact isTame_toDigits _ c hc

end ByteSize

/-! ## Vocabularies -/

namespace Vocabulary

variable {α : Type} [Vocabulary α]

theorem token_injective {a b : α} (h : token a = token b) : a = b :=
  List.inj_on_of_nodup_map apart (complete a) (complete b) h

theorem ofToken?_token (a : α) : ofToken? (token a) = some a := by
  unfold ofToken?
  cases hfind : (members (α := α)).find? fun b => token b == token a with
  | none => exact absurd (by simp) (List.find?_eq_none.1 hfind a (complete a))
  | some b =>
    have hb : token b = token a := by simpa using List.find?_some hfind
    rw [token_injective hb]

end Vocabulary

/-! ## Tokens read back -/

theorem Scalar.parse_eq_ok {α : Type} [Scalar α] {raw : String} {a : α} :
    Scalar.parse raw = .ok a ↔ Scalar.read? raw = some a := by
  unfold Scalar.parse
  cases Scalar.read? (α := α) raw <;> simp

/-- every token reads back as the value that it was written for -/
class LawfulScalar (α : Type) [Scalar α] : Prop where
  read?_write : ∀ (a : α) (raw : String), Scalar.write a = .ok raw → Scalar.read? raw = some a

instance : LawfulScalar Bool where
  read?_write a raw h := by
    obtain rfl := Except.ok.inj h
    cases a <;> decide

instance : LawfulScalar String where
  read?_write a raw h := by
    obtain rfl := Except.ok.inj h
    rfl

instance (t : IntegerType) : LawfulScalar (Ranged t) where
  read?_write a raw h := by
    obtain rfl := Except.ok.inj h
    exact Ranged.read?_integerText a

instance : LawfulScalar ByteSize where
  read?_write a raw h := by
    obtain rfl := Except.ok.inj h
    exact ByteSize.read?_text a

instance {α : Type} [Vocabulary α] : LawfulScalar (Choice α) where
  read?_write a raw h := by
    cases a with
    | known a =>
      obtain rfl := Except.ok.inj h
      show (Vocabulary.ofToken? (Vocabulary.token a)).map Choice.known = some (.known a)
      rw [Vocabulary.ofToken?_token, Option.map_some]
    | unknown => cases h

end Hypervisor
