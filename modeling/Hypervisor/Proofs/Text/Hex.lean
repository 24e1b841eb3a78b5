/-
Hexadecimal numerals: a digit in either case, or a numeral with one more digit behind it (`Text.IsHexadecimal`), so that
any number of leading zeros may stand in front. Digits are read as the number that they are a numeral of, and the digits
that are written for a number are a numeral of it.
-/
import Hypervisor.Text.Hex
import Mathlib.Tactic

namespace Hypervisor

namespace Text

/-- a hexadecimal digit in either case, and what it stands for -/
inductive IsHexDigit : Char → ℕ → Prop
  | lower {d : ℕ} : d < 16 → IsHexDigit (Nat.digitChar d) d
  | upper {d : ℕ} : d < 16 → IsHexDigit (Nat.digitChar d).toUpper d

/-- the text is a hexadecimal numeral of the number: a digit, or a numeral with one more digit behind it -/
inductive IsHexadecimal : List Char → ℕ → Prop
  | digit {c : Char} {d : ℕ} : IsHexDigit c d → IsHexadecimal [c] d
  | snoc {s : List Char} {n : ℕ} {c : Char} {d : ℕ} : IsHexadecimal s n → IsHexDigit c d →
      IsHexadecimal (s ++ [c]) (16 * n + d)

/-- the code points of the digits: the letters stand apart from the numerals, once in each case -/
theorem toNat_digitChar {d : ℕ} (hd : d < 16) :
    (Nat.digitChar d).toNat = (if d < 10 then 48 else 87) + d ∧
      (Nat.digitChar d).toUpper.toNat = (if d < 10 then 48 else 55) + d := by
  interval_cases d <;> decide

theorem IsHexDigit.of_lower {c : Char} {d : ℕ} (hd : d < 16) (h : c.toNat = (if d < 10 then 48 else 87) + d) :
    IsHexDigit c d := by
  have hc : c = Nat.digitChar d := Char.toNat_inj.1 (h.trans (toNat_digitChar hd).1.symm)
  rw [hc]
  exact .lower hd

theorem IsHexDigit.of_upper {c : Char} {d : ℕ} (hd : d < 16) (h : c.toNat = (if d < 10 then 48 else 55) + d) :
    IsHexDigit c d := by
  have hc : c = (Nat.digitChar d).toUpper := Char.toNat_inj.1 (h.trans (toNat_digitChar hd).2.symm)
  rw [hc]
  exact .upper hd

theorem hexDigit?_eq_some_iff {c : Char} {d : ℕ} : hexDigit? c = some d ↔ IsHexDigit c d := by
  constructor
  · intro h
    unfold hexDigit? at h
    split_ifs at h with hnumeral hlower hupper
    · obtain ⟨hlow, hhigh⟩ : 48 ≤ c.toNat ∧ c.toNat ≤ 57 := hnumeral
      have hd : c.toNat - 48 = d := Option.some.inj h
      exact .of_lower (by omega) (by rw [if_pos (by omega)]; omega)
    · obtain ⟨hlow, hhigh⟩ : 97 ≤ c.toNat ∧ c.toNat ≤ 102 := hlower
      have hd : c.toNat - 97 + 10 = d := Option.some.inj h
      exact .of_lower (by omega) (by rw [if_neg (by omega)]; omega)
    · obtain ⟨hlow, hhigh⟩ : 65 ≤ c.toNat ∧ c.toNat ≤ 70 := hupper
      have hd : c.toNat - 65 + 10 = d := Option.some.inj h
      exact .of_upper (by omega) (by rw [if_neg (by omega)]; omega)
  · intro h
    rcases h with hd | hd
    · interval_cases d <;> rfl
    · interval_cases d <;> rfl

/-- neither a colon nor a plus sign is a digit -/
theorem IsHexDigit.ne {c : Char} {d : ℕ} (h : IsHexDigit c d) : c ≠ ':' ∧ c ≠ '+' := by
  have hvalue := hexDigit?_eq_some_iff.2 h
  constructor
  · rintro rfl
    cases hvalue
  · rintro rfl
    cases hvalue

theorem IsHexadecimal.exists_digit {s : List Char} {n : ℕ} (h : IsHexadecimal s n) :
    ∀ c ∈ s, ∃ d, IsHexDigit c d := by
  induction h with
  | digit hd => simpa using ⟨_, hd⟩
  | snoc _ hd ih => simpa [or_imp, forall_and] using ⟨ih, _, hd⟩

theorem hexFrom?_append (acc : ℕ) (s t : List Char) :
    hexFrom? acc (s ++ t) = (hexFrom? acc s).bind fun n => hexFrom? n t := by
  induction s generalizing acc with
  | nil => rfl
  | cons c s ih =>
    rw [List.cons_append, hexFrom?, hexFrom?, Option.bind_assoc]
    simp only [ih]

theorem hexFrom?_singleton {acc n : ℕ} {c : Char} :
    hexFrom? acc [c] = some n ↔ ∃ d, IsHexDigit c d ∧ 16 * acc + d = n := by
  simp [hexFrom?, Option.bind_eq_some_iff, hexDigit?_eq_some_iff]

/-- digits are read as the number of which they are a numeral -/
theorem hex?_eq_some_iff {s : List Char} {n : ℕ} : hex? s = some n ↔ IsHexadecimal s n := by
  have hsnoc : ∀ (s : List Char) (c : Char) (n : ℕ),
      hex? (s ++ [c]) = some n ↔ ∃ m, hexFrom? 0 s = some m ∧ ∃ d, IsHexDigit c d ∧ 16 * m + d = n := by
    intro s c n
    rw [hex?, if_neg (by simp), hexFrom?_append, Option.bind_eq_some_iff]
    simp only [hexFrom?_singleton]
  constructor
  · intro h
    induction s using List.reverseRecOn generalizing n with
    | nil => cases h
    | append_singleton s c ih =>
      obtain ⟨m, hm, d, hd, rfl⟩ := (hsnoc s c n).1 h
      by_cases hs : s = []
      · subst hs
        obtain rfl : 0 = m := Option.some.inj hm
        simpa using IsHexadecimal.digit hd
      · exact .snoc (ih (by rw [hex?, if_neg hs, hm])) hd
  · intro h
    induction h with
    | @digit c d hd => exact (hsnoc [] c d).2 ⟨0, rfl, d, hd, by simp⟩
    | @snoc s m c d _ hd ih =>
      unfold hex? at ih
      split_ifs at ih
      exact (hsnoc s c _).2 ⟨m, ih, d, hd, rfl⟩

/-- the digits that are written for a number: lower case, without leading zeros -/
theorem isHexadecimal_toDigits (n : ℕ) : IsHexadecimal (Nat.toDigits 16 n) n := by
  induction n using Nat.strong_induction_on with
  | _ n ih =>
    rcases Nat.lt_or_ge n 16 with hn | hn
    · rw [Nat.toDigits_of_lt_base hn]
      exact .digit (.lower hn)
    · have hsnoc := IsHexadecimal.snoc (ih (n / 16) (by omega)) (.lower (Nat.mod_lt n (by decide : 0 < 16)))
      rw [Nat.div_add_mod] at hsnoc
      rw [Nat.toDigits_of_base_le (by decide) hn]
      exact hsnoc

end Text

end Hypervisor
