/-
Which tokens are taken, and for which values.

A whole number is taken from its decimals only: one or more ASCII digits, leading zeros allowed, behind a minus sign
where the type is signed (`IntegerType.Spells`). What the decimal says must lie in the range of the type; every other
token is refused as it stands. A member of a vocabulary is taken from its own token, and lenient reading differs from
strict reading only where that one fails: `tokens_taken_exactly`.
-/
import Hypervisor.Proofs.Scalar.RoundTrip

namespace Hypervisor

/-! ## Decimals -/

/-- the text is a decimal of the number: an ASCII digit, or a decimal with one more digit behind it -/
inductive IsDecimal : List Char → ℕ → Prop
  | digit (d : Fin 10) : IsDecimal [Nat.digitChar d] d
  | snoc {s : List Char} {n : ℕ} (d : Fin 10) : IsDecimal s n → IsDecimal (s ++ [Nat.digitChar d]) (10 * n + d)

theorem exists_digitChar {c : Char} (h : c.isDigit = true) : ∃ d : Fin 10, Nat.digitChar d = c := by
  obtain ⟨hlow, hhigh⟩ := Char.isDigit_iff_toNat.1 h
  have hdigit : c.toNat - 48 < 10 := by
    change 48 ≤ c.toNat at hlow
    change c.toNat ≤ 57 at hhigh
    omega
  refine ⟨⟨c.toNat - 48, hdigit⟩, Char.toNat_inj.1 ?_⟩
  rw [Nat.toNat_digitChar_of_lt_ten hdigit]
  exact Nat.add_sub_cancel' hlow

/-- one more digit behind a text -/
theorem ofDigitChars_snoc (s : List Char) (d : Fin 10) :
    Nat.ofDigitChars 10 (s ++ [Nat.digitChar d]) 0 = 10 * Nat.ofDigitChars 10 s 0 + d := by
  rw [Nat.ofDigitChars_append, Nat.ofDigitChars_cons_digitChar_of_lt_ten d.isLt]
  rfl

/-- a decimal opens with a digit -/
theorem IsDecimal.exists_head {s : List Char} {n : ℕ} (h : IsDecimal s n) :
    ∃ (d : Fin 10) (rest : List Char), s = Nat.digitChar d :: rest := by
  induction h with
  | digit d => exact ⟨d, [], rfl⟩
  | snoc d' _ ih =>
    obtain ⟨d, rest, rfl⟩ := ih
    exact ⟨d, _, rfl⟩

theorem IsDecimal.isDigit {s : List Char} {n : ℕ} (h : IsDecimal s n) : ∀ c ∈ s, c.isDigit = true := by
  induction h with
  | digit d => simp [Nat.isDigit_digitChar]
  | snoc d _ ih => simpa [or_imp, forall_and, Nat.isDigit_digitChar] using ih

theorem IsDecimal.ofDigitChars {s : List Char} {n : ℕ} (h : IsDecimal s n) : Nat.ofDigitChars 10 s 0 = n := by
  induction h with
  | digit d => simpa using ofDigitChars_snoc [] d
  | snoc d _ ih => rw [ofDigitChars_snoc, ih]

/-- digits are read as the number of which they are a decimal -/
theorem naturalOfDigits?_eq_some_iff {s : List Char} {n : ℕ} : naturalOfDigits? s = some n ↔ IsDecimal s n := by
  constructor
  · intro h
    unfold naturalOfDigits? at h
    split_ifs at h with hs
    obtain ⟨hne, hall⟩ := hs
    obtain rfl := Option.some.inj h
    induction s using List.reverseRecOn with
    | nil => exact absurd rfl hne
    | append_singleton s c ih =>
      rw [List.all_append, Bool.and_eq_true] at hall
      obtain ⟨hs, hc⟩ := hall
      obtain ⟨d, rfl⟩ := exists_digitChar (by simpa using hc)
      rw [ofDigitChars_snoc]
      by_cases hempty : s = []
      · subst hempty
        simpa using IsDecimal.digit d
      · exact .snoc d (ih hempty hs rfl)
  · intro h
    obtain ⟨d, rest, hhead⟩ := h.exists_head
    have hne : s ≠ [] := by rw [hhead]; exact List.cons_ne_nil _ _
    rw [naturalOfDigits?, if_pos ⟨hne, List.all_eq_true.2 h.isDigit⟩, h.ofDigitChars]

/-! ## Whole numbers -/

/-- the text spells the number for this type: a decimal, or where the type is signed a decimal behind a minus sign -/
inductive IntegerType.Spells (t : IntegerType) : List Char → ℤ → Prop
  | plain {s : List Char} {n : ℕ} : IsDecimal s n → Spells t s n
  | minus {s : List Char} {n : ℕ} : t.signed = true → IsDecimal s n → Spells t ('-' :: s) (-n)

theorem IsDecimal.ne_cons {s : List Char} {n : ℕ} (h : IsDecimal s n) {c : Char} (hc : c.isDigit = false)
    (rest : List Char) : s ≠ c :: rest := by
  obtain ⟨d, rest', rfl⟩ := h.exists_head
  intro heq
  rw [← (List.cons.inj heq).1, Nat.isDigit_digitChar, decide_eq_false_iff_not] at hc
  exact hc d.isLt

theorem IntegerType.spells_minus_iff {t : IntegerType} {digits : List Char} {k : ℤ} :
    t.Spells ('-' :: digits) k ↔ t.signed = true ∧ ∃ n : ℕ, IsDecimal digits n ∧ k = -n := by
  constructor
  · intro h
    cases h with
    | plain hdecimal => exact absurd rfl (hdecimal.ne_cons (by decide) digits)
    | minus hsigned hdecimal => exact ⟨hsigned, _, hdecimal, rfl⟩
  · rintro ⟨hsigned, n, hdecimal, rfl⟩
    exact .minus hsigned hdecimal

theorem IntegerType.spells_plain_iff {t : IntegerType} {s : List Char} (hs : ∀ digits, s ≠ '-' :: digits) {k : ℤ} :
    t.Spells s k ↔ ∃ n : ℕ, IsDecimal s n ∧ k = n := by
  constructor
  · intro h
    cases h with
    | plain hdecimal => exact ⟨_, hdecimal, rfl⟩
    | minus _ _ => exact absurd rfl (hs _)
  · rintro ⟨n, hdecimal, rfl⟩
    exact .plain hdecimal

/-- a token is taken for the number that it spells -/
theorem Ranged.read?_eq_some_iff {t : IntegerType} {raw : String} {k : Ranged t} :
    Ranged.read? t raw = some k ↔ t.Spells raw.toList k.val := by
  have hdigits : ∀ (s : List Char) (f : ℕ → ℤ), ((naturalOfDigits? s).bind fun n => Ranged.ofInt? t (f n)) = some k ↔
      ∃ n, IsDecimal s n ∧ k.val = f n := by
    intro s f
    simp only [Option.bind_eq_some_iff, naturalOfDigits?_eq_some_iff, Ranged.ofInt?_eq_some_iff]
  unfold Ranged.read?
  split
  · rename_i digits hraw
    rw [hraw, IntegerType.spells_minus_iff]
    split_ifs with hsigned
    · rw [hdigits digits fun n => -n]
      exact (and_iff_right hsigned).symm
    · exact iff_of_false nofun fun h => hsigned h.1
  · rename_i hraw
    rw [hdigits raw.toList fun n => n, IntegerType.spells_plain_iff hraw]

/-! ## Strict and lenient reading -/

theorem Scalar.parse_eq_error_iff {α : Type} [Scalar α] {raw : String} {fault : TokenFault} :
    (Scalar.parse raw : Except TokenFault α) = .error fault ↔
      fault = .unrecognized none (Scalar.expected α) raw ∧ ∀ a : α, Scalar.read? raw ≠ some a := by
  unfold Scalar.parse
  cases Scalar.read? (α := α) raw <;> simp [eq_comm]

/-- the value has a token, and the token is taken for the value -/
def Scalar.RoundTrips {α : Type} [Scalar α] (a : α) : Prop := ∃ w, Scalar.write a = .ok w ∧ Scalar.parse w = .ok a

theorem Scalar.roundTrips_of_write {α : Type} [Scalar α] [LawfulScalar α] {a : α} {w : String}
    (h : Scalar.write a = .ok w) : Scalar.RoundTrips a :=
  ⟨w, h, parse_eq_ok.2 (LawfulScalar.read?_write a w h)⟩

/-- a token is taken for the member whose token it is -/
theorem Choice.parse_eq_ok_iff {α : Type} [Vocabulary α] {raw : String} {c : Choice α} :
    Scalar.parse raw = .ok c ↔ ∃ a, c = .known a ∧ Vocabulary.token a = raw := by
  rw [Scalar.parse_eq_ok]
  change (Vocabulary.ofToken? raw).map Choice.known = some c ↔ _
  rw [Option.map_eq_some_iff]
  constructor
  · rintro ⟨a, ha, rfl⟩
    exact ⟨a, rfl, by simpa using List.find?_some ha⟩
  · rintro ⟨a, rfl, rfl⟩
    exact ⟨a, Vocabulary.ofToken?_token a, rfl⟩

/-- lenient reading is strict reading with `unknown` for its faults -/
theorem Choice.ofTokenLenient_eq {α : Type} [Vocabulary α] (raw : String) :
    (Choice.ofTokenLenient raw : Choice α) = (Scalar.parse raw).toOption.getD .unknown := by
  have hread : Scalar.read? raw = (Vocabulary.ofToken? raw : Option α).map Choice.known := rfl
  unfold Choice.ofTokenLenient Scalar.parse
  rw [hread]
  cases (Vocabulary.ofToken? raw : Option α) <;> rfl

/-- **Tokens are taken exactly.** A whole number of any type is taken from the tokens that spell it: ASCII digits,
behind a minus sign at most, and that only where the type is signed. Every other token, one that spells a number out of
range and one with a plus sign included, is refused, and the fault carries the token. Whole numbers, flags, texts and
all members of every vocabulary are taken back from their own tokens. A vocabulary takes its own tokens and no others,
and reading a token leniently gives what strict reading gives, or `unknown` where that fails. -/
theorem tokens_taken_exactly :
    (∀ (t : IntegerType) (raw : String),
      (∀ k : Ranged t, Scalar.parse raw = .ok k ↔ t.Spells raw.toList k.val) ∧
      ∀ fault, (Scalar.parse raw : Except TokenFault (Ranged t)) = .error fault ↔
        fault = .unrecognized none t.label raw ∧ ¬ ∃ n, t.Spells raw.toList n ∧ t.low ≤ n ∧ n ≤ t.high) ∧
    (∀ (t : IntegerType) (rest : List Char),
      (Scalar.parse (String.ofList ('+' :: rest)) : Except TokenFault (Ranged t)) =
        .error (.unrecognized none t.label (String.ofList ('+' :: rest)))) ∧
    (∀ (t : IntegerType) (k : Ranged t), Scalar.RoundTrips k) ∧ (∀ b : Bool, Scalar.RoundTrips b) ∧
    (∀ s : String, Scalar.RoundTrips s) ∧
    ∀ (α : Type) [Vocabulary α],
      (∀ a : α, Scalar.RoundTrips (Choice.known a)) ∧
      ∀ raw : String,
        (∀ c : Choice α, Scalar.parse raw = .ok c ↔ ∃ a, c = .known a ∧ Vocabulary.token a = raw) ∧
        (Choice.ofTokenLenient raw : Choice α) = (Scalar.parse raw).toOption.getD .unknown := by
  have htaken : ∀ (t : IntegerType) (raw : String) (k : Ranged t),
      Scalar.parse raw = .ok k ↔ t.Spells raw.toList k.val := fun t raw k =>
    Scalar.parse_eq_ok.trans Ranged.read?_eq_some_iff
  have hrefused : ∀ (t : IntegerType) (raw : String) (fault : TokenFault),
      (Scalar.parse raw : Except TokenFault (Ranged t)) = .error fault ↔
        fault = .unrecognized none t.label raw ∧ ¬ ∃ n, t.Spells raw.toList n ∧ t.low ≤ n ∧ n ≤ t.high := by
    intro t raw fault
    rw [Scalar.parse_eq_error_iff]
    refine and_congr_right fun _ => ⟨fun h hspelled => ?_, fun h k hk => h ⟨k.val, ?_, k.low_le, k.le_high⟩⟩
    · obtain ⟨n, hn, hlow, hhigh⟩ := hspelled
      exact h ⟨n, hlow, hhigh⟩ (Ranged.read?_eq_some_iff.2 hn)
    · exact Ranged.read?_eq_some_iff.1 hk
  refine ⟨fun t raw => ⟨htaken t raw, hrefused t raw⟩, fun t rest => (hrefused t _ _).2 ⟨rfl, ?_⟩,
    fun t k => Scalar.roundTrips_of_write rfl, fun b => Scalar.roundTrips_of_write rfl,
    fun s => Scalar.roundTrips_of_write rfl, fun α _ => ⟨fun a => Scalar.roundTrips_of_write rfl, fun raw =>
      ⟨fun c => Choice.parse_eq_ok_iff, Choice.ofTokenLenient_eq raw⟩⟩⟩
  -- a plus sign is neither a digit nor a minus sign
  rintro ⟨n, hspelled, -, -⟩
  rw [String.toList_ofList, IntegerType.spells_plain_iff (by simp)] at hspelled
  obtain ⟨m, hdecimal, -⟩ := hspelled
  exact hdecimal.ne_cons (by decide) rest rfl

end Hypervisor
