/-
How long texts are, in bytes.

A number has one decimal without leading zeros, and all others end with it (`IsDecimal.toDigits_suffix`), so a whole
number is written with no more digits than it was read from, and with no others. A joined text does not grow where no
piece of it grows. Together they bound what is written for a value by what it was read from.
-/
import Mathlib.Data.String.Basic
import Hypervisor.Proofs.Scalar.Tokens

namespace Hypervisor

open String (utf8Len)

namespace Text

theorem utf8Len_toList (s : String) : utf8Len s.toList = s.utf8ByteSize := by
  rw [← String.utf8ByteSize_ofList, String.ofList_toList]

/-! ## Digits -/

theorem toNat_le_of_isDigit {c : Char} (h : c.isDigit = true) : c.toNat ≤ 57 :=
  (by simpa [Char.isDigit] using h : 48 ≤ c.val ∧ c.val ≤ 57).2

theorem utf8Len_of_isDigit {s : List Char} (h : ∀ c ∈ s, c.isDigit = true) : utf8Len s = s.length := by
  induction s with
  | nil => rfl
  | cons c s ih =>
    rw [List.forall_mem_cons] at h
    have hc : c.utf8Size = 1 :=
      Char.utf8Size_eq_one_iff.2 (UInt32.le_iff_toNat_le.2 ((toNat_le_of_isDigit h.1).trans (by decide)))
    rw [String.utf8Len_cons, ih h.2, hc, List.length_cons]

theorem utf8Len_toDigits (n : ℕ) : utf8Len (Nat.toDigits 10 n) = (Nat.toDigits 10 n).length :=
  utf8Len_of_isDigit fun _ hc => Nat.isDigit_of_mem_toDigits (by decide) (by decide) hc

theorem lt_pow_length_toDigits (n : ℕ) : n < 10 ^ (Nat.toDigits 10 n).length :=
  (Nat.length_toDigits_le_iff (by decide) Nat.length_toDigits_pos).1 le_rfl

theorem length_toDigits_mono {m n : ℕ} (h : m ≤ n) : (Nat.toDigits 10 m).length ≤ (Nat.toDigits 10 n).length :=
  (Nat.length_toDigits_le_iff (by decide) Nat.length_toDigits_pos).2 (h.trans_lt (lt_pow_length_toDigits n))

/-- one more digit behind a number that is not zero -/
theorem toDigits_snoc {n : ℕ} (hn : 0 < n) (d : Fin 10) :
    Nat.toDigits 10 (10 * n + d) = Nat.toDigits 10 n ++ [Nat.digitChar d] := by
  rw [← Nat.toDigits_append_toDigits (by decide) hn d.isLt, Nat.toDigits_of_lt_base d.isLt]

end Text

/-- all decimals of a number end with the one without leading zeros -/
theorem IsDecimal.toDigits_suffix {s : List Char} {n : ℕ} (h : IsDecimal s n) : Nat.toDigits 10 n <:+ s := by
  induction h with
  | digit d => rw [Nat.toDigits_of_lt_base d.isLt]
  | @snoc s n d hs ih =>
    rcases Nat.eq_zero_or_pos n with rfl | hn
    · -- a digit behind nothing but zeros
      rw [mul_zero, zero_add, Nat.toDigits_of_lt_base d.isLt]
      exact List.suffix_append s _
    · rw [Text.toDigits_snoc hn d]
      exact List.suffix_append_self_iff.2 ih

/-- of all decimals of a number, the one without leading zeros is the shortest -/
theorem IsDecimal.eq_or_longer {s : List Char} {n : ℕ} (h : IsDecimal s n) :
    s = Nat.toDigits 10 n ∨ (Nat.toDigits 10 n).length < s.length := by
  rcases h.toDigits_suffix.length_le.eq_or_lt with hsame | hlonger
  · exact .inl (h.toDigits_suffix.eq_of_length hsame).symm
  · exact .inr hlonger

namespace Text

/-- the decimal of a number takes no more than any digits that stand for it -/
theorem utf8Len_toDigits_le {s : List Char} {n : ℕ} (h : naturalOfDigits? s = some n) :
    utf8Len (Nat.toDigits 10 n) ≤ utf8Len s := by
  have hdecimal := naturalOfDigits?_eq_some_iff.1 h
  rw [utf8Len_toDigits, utf8Len_of_isDigit hdecimal.isDigit]
  rcases hdecimal.eq_or_longer with hsame | hlonger
  · exact (congrArg List.length hsame).ge
  · exact hlonger.le

/-! ## Joined texts -/

/-- a joined text is no longer where none of its pieces is -/
theorem utf8Len_intercalate_le {sep : Char} {pieces pieces' : List (List Char)}
    (h : List.Forall₂ (fun piece piece' => utf8Len piece ≤ utf8Len piece') pieces pieces') :
    utf8Len ([sep].intercalate pieces) ≤ utf8Len ([sep].intercalate pieces') := by
  induction h with
  | nil => exact le_rfl
  | @cons piece piece' rest rest' hpiece hrest ih =>
    cases hrest with
    | nil => simpa only [List.intercalate_singleton] using hpiece
    | cons _ _ =>
      simp only [List.intercalate_cons_cons, String.utf8Len_append]
      omega

/-- each piece behind the first adds itself and a separator -/
theorem utf8Len_intercalate_cons (sep : Char) (piece : List Char) (rest : List (List Char)) :
    utf8Len ([sep].intercalate (piece :: rest)) =
      utf8Len piece + (rest.map fun next => sep.utf8Size + utf8Len next).sum := by
  induction rest generalizing piece with
  | nil => simp only [List.intercalate_singleton, List.map_nil, List.sum_nil, Nat.add_zero]
  | cons next rest ih =>
    simp only [List.intercalate_cons_cons, String.utf8Len_append, String.utf8Len_cons, String.utf8Len_nil, ih,
      List.map_cons, List.sum_cons]
    omega

end Text

/-! ## Whole numbers -/

/-- a whole number is written with no character that does not spell it already -/
theorem IntegerType.Spells.integerText_subset {t : IntegerType} {s : List Char} {n : ℤ} (h : t.Spells s n) :
    (integerText n).toList ⊆ s := by
  cases h with
  | @plain _ m hdecimal =>
    rw [integerText_of_nonneg (Int.natCast_nonneg m), Int.natAbs_natCast]
    exact hdecimal.toDigits_suffix.subset
  | @minus digits m _ hdecimal =>
    have hdigits : Nat.toDigits 10 m ⊆ '-' :: digits :=
      List.subset_cons_of_subset _ hdecimal.toDigits_suffix.subset
    rw [integerText, String.toList_ofList, Int.natAbs_neg, Int.natAbs_natCast]
    refine List.append_subset.2 ⟨?_, hdigits⟩
    split_ifs
    · exact List.cons_subset.2 ⟨List.mem_cons_self, List.nil_subset _⟩
    · exact List.nil_subset _

/-- a whole number is written in no more bytes than it was read from -/
theorem Ranged.utf8ByteSize_integerText_le {t : IntegerType} {raw : String} {k : Ranged t}
    (h : Ranged.read? t raw = some k) : (integerText k.val).utf8ByteSize ≤ raw.utf8ByteSize := by
  rw [← Text.utf8Len_toList raw, integerText, String.utf8ByteSize_ofList, String.utf8Len_append]
  unfold Ranged.read? at h
  split at h
  · rename_i digits hraw
    split_ifs at h
    obtain ⟨n, hn, hk⟩ := Option.bind_eq_some_iff.1 h
    have hval := Ranged.ofInt?_eq_some_iff.1 hk
    have hlength := Text.utf8Len_toDigits_le hn
    have hsign : utf8Len (if k.val < 0 then ['-'] else []) ≤ 1 := by split_ifs <;> decide
    have hminus : ('-').utf8Size = 1 := by decide
    rw [hraw, String.utf8Len_cons, hminus, show k.val.natAbs = n by omega]
    omega
  · obtain ⟨n, hn, hk⟩ := Option.bind_eq_some_iff.1 h
    have hval := Ranged.ofInt?_eq_some_iff.1 hk
    rw [if_neg (by omega), show k.val.natAbs = n by omega, String.utf8Len_nil, zero_add]
    exact Text.utf8Len_toDigits_le hn

end Hypervisor
