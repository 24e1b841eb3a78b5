/-
The text of a binary64 number reads back as that number, sign of zero included: `ofText?_toText`.

The text of a finite number is a numeral without an exponent (`Numeral`). Laying digits out around the point keeps the
value (`positional_numeral`), the digits chosen lie in the rounding interval (`shortest_roundsTo`), and any numeral with
such a value is read as the number (`Proofs.Number.Rounding`).
-/
import Hypervisor.Proofs.Number.Rounding

namespace Hypervisor

/-! ## Numerals -/

namespace Decimal

theorem spanDigits_append {digits rest : List Char} (hd : ∀ c ∈ digits, c.isDigit = true)
    (hr : ∀ c ∈ rest.head?, c.isDigit = false) : spanDigits (digits ++ rest) = (digits, rest) := by
  rw [spanDigits, List.takeWhile_append_of_pos hd, List.dropWhile_append_of_pos hd]
  cases rest with
  | nil => simp
  | cons c rest =>
    have hc := hr c rfl
    simp [hc]

/-- the text has these digits before and behind the point, and no point if there are none behind it -/
structure Numeral (whole fraction text : List Char) : Prop where
  whole_ne_nil : whole ≠ []
  whole_digits : ∀ c ∈ whole, c.isDigit = true
  fraction_digits : ∀ c ∈ fraction, c.isDigit = true
  text_eq : text = if fraction = [] then whole else whole ++ '.' :: fraction

/-- a numeral stands for its digits, scaled by the places behind the point -/
theorem ofText?_numeral {whole fraction text : List Char} (negative : Bool) (h : Numeral whole fraction text) :
    Decimal.ofText? negative text =
      some ⟨negative, Nat.ofDigitChars 10 (whole ++ fraction) 0, -(fraction.length : ℤ)⟩ := by
  obtain ⟨hne, hw, hf, rfl⟩ := h
  unfold Decimal.ofText?
  split_ifs with h0
  · subst h0
    have hspan : spanDigits whole = (whole, []) := by
      simpa using spanDigits_append hw (by simp : ∀ c ∈ ([] : List Char).head?, c.isDigit = false)
    simp [hspan, hne, exponentOf?]
  · have hspan : spanDigits (whole ++ '.' :: fraction) = (whole, '.' :: fraction) :=
      spanDigits_append hw fun c hc => by
        obtain rfl : '.' = c := by simpa using hc
        rfl
    have hspan' : spanDigits fraction = (fraction, []) := by
      simpa using spanDigits_append hf (by simp : ∀ c ∈ ([] : List Char).head?, c.isDigit = false)
    simp [hspan, hspan', hne, exponentOf?]

theorem Numeral.head {whole fraction text : List Char} (h : Numeral whole fraction text) :
    ∃ c rest, text = c :: rest ∧ c.isDigit = true := by
  obtain ⟨hne, hw, -, rfl⟩ := h
  cases whole with
  | nil => exact absurd rfl hne
  | cons c whole =>
    refine ⟨c, ?_, ?_, hw c List.mem_cons_self⟩
    · exact if fraction = [] then whole else whole ++ '.' :: fraction
    · split_ifs <;> rfl

theorem Numeral.mem {whole fraction text : List Char} (h : Numeral whole fraction text) {c : Char} (hc : c ∈ text) :
    c.isDigit = true ∨ c = '.' := by
  obtain ⟨-, hw, hf, rfl⟩ := h
  split_ifs at hc
  · exact .inl (hw c hc)
  · rcases List.mem_append.1 hc with hc | hc
    · exact .inl (hw c hc)
    · rcases List.mem_cons.1 hc with rfl | hc
      · exact .inr rfl
      · exact .inl (hf c hc)

end Decimal

namespace Double

open Decimal

/-! ## Layout -/

/-- trimming drops zeros and nothing else -/
theorem exists_trimZeros (s : List Char) : ∃ n, s = trimZeros s ++ List.replicate n '0' := by
  refine ⟨(s.reverse.takeWhile (· == '0')).length, ?_⟩
  have hzeros : (s.reverse.takeWhile (· == '0')).reverse =
      List.replicate (s.reverse.takeWhile (· == '0')).length '0' := by
    refine List.eq_replicate_iff.2 ⟨List.length_reverse, fun c hc => ?_⟩
    simpa using List.all_eq_true.1 List.all_takeWhile c (List.mem_reverse.1 hc)
  rw [← hzeros, trimZeros, ← List.reverse_append, List.takeWhile_append_dropWhile, List.reverse_reverse]

theorem isDigit_zeros (n : ℕ) : ∀ c ∈ List.replicate n '0', Char.isDigit c = true := by
  intro c hc
  rw [(List.mem_replicate.1 hc).2]; rfl

theorem isDigit_toDigits (digits : ℕ) : ∀ c ∈ Nat.toDigits 10 digits, c.isDigit = true :=
  fun _ hc => Nat.isDigit_of_mem_toDigits (by decide) (by decide) hc

/-- the digits with as many zeros in front as it takes to have one before the point -/
def padded (digits places : ℕ) : List Char :=
  List.replicate (places + 1 - (Nat.toDigits 10 digits).length) '0' ++ Nat.toDigits 10 digits

theorem lt_length_padded (digits places : ℕ) : places < (padded digits places).length := by
  rw [padded, List.length_append, List.length_replicate]
  omega

theorem isDigit_padded (digits places : ℕ) : ∀ c ∈ padded digits places, c.isDigit = true := by
  intro c hc
  rcases List.mem_append.1 hc with hc | hc
  · exact isDigit_zeros _ c hc
  · exact isDigit_toDigits digits c hc

theorem ofDigitChars_padded (digits places : ℕ) : Nat.ofDigitChars 10 (padded digits places) 0 = digits := by
  rw [padded, Nat.ofDigitChars_append, Nat.ofDigitChars_replicate_zero, Nat.mul_zero, Nat.ofDigitChars_ten_toDigits]

/-- digits with the point among or in front of them are a numeral of the same value -/
theorem positional_numeral_of_places (digits places : ℕ) (hplaces : 0 < places) :
    ∃ whole fraction, Numeral whole fraction (positional digits (-places)) ∧
      decimalValue (Nat.ofDigitChars 10 (whole ++ fraction) 0) (-(fraction.length : ℤ)) =
        decimalValue digits (-places) := by
  have hlen := lt_length_padded digits places
  have hdig := isDigit_padded digits places
  have hvalue := ofDigitChars_padded digits places
  have hlayout : positional digits (-places) =
      if trimZeros ((padded digits places).drop ((padded digits places).length - places)) = [] then
        (padded digits places).take ((padded digits places).length - places)
      else (padded digits places).take ((padded digits places).length - places) ++
        '.' :: trimZeros ((padded digits places).drop ((padded digits places).length - places)) := by
    have hnot : ¬(0 : ℤ) ≤ -places := by omega
    simp only [positional, if_neg hnot, neg_neg, Int.toNat_natCast]
    rfl
  set s := padded digits places
  set whole := s.take (s.length - places) with hwhole
  set behind := s.drop (s.length - places) with hbehind
  obtain ⟨n, hn⟩ := exists_trimZeros behind
  have hscaled : digits = 10 ^ n * Nat.ofDigitChars 10 (whole ++ trimZeros behind) 0 := by
    rw [← Nat.ofDigitChars_replicate_zero, ← Nat.ofDigitChars_append, List.append_assoc, ← hn, hwhole, hbehind,
      List.take_append_drop, hvalue]
  have hcount : places = (trimZeros behind).length + n := by
    have hlength : behind.length = places := by rw [hbehind, List.length_drop]; omega
    have := congrArg List.length hn
    rw [List.length_append, List.length_replicate] at this
    omega
  refine ⟨whole, trimZeros behind, ⟨?_, ?_, ?_, hlayout⟩, ?_⟩
  · rw [hwhole, Ne, List.take_eq_nil_iff, not_or]
    exact ⟨by omega, fun h0 => by rw [h0] at hlen; simp at hlen⟩
  · exact fun c hc => hdig c (List.mem_of_mem_take hc)
  · intro c hc
    refine hdig c (List.mem_of_mem_drop (i := s.length - places) ?_)
    rw [← hbehind, hn]
    exact List.mem_append_left _ hc
  · rw [hscaled, decimalValue, decimalValue, hcount]
    have h10 : (10 : ℚ) ≠ 0 := by norm_num
    push_cast
    rw [neg_add, zpow_add₀ h10, zpow_neg _ (n : ℤ), zpow_natCast]
    field_simp

/-- digits with zeros behind them are a numeral of the same value -/
theorem positional_numeral_of_zeros (digits zeros : ℕ) :
    ∃ whole fraction, Numeral whole fraction (positional digits zeros) ∧
      decimalValue (Nat.ofDigitChars 10 (whole ++ fraction) 0) (-(fraction.length : ℤ)) =
        decimalValue digits zeros := by
  refine ⟨Nat.toDigits 10 digits ++ List.replicate zeros '0', [], ⟨?_, ?_, by simp, ?_⟩, ?_⟩
  · simp [Nat.toDigits_ne_nil]
  · intro c hc
    rcases List.mem_append.1 hc with hc | hc
    · exact isDigit_toDigits digits c hc
    · exact isDigit_zeros _ c hc
  · simp [positional]
  · rw [List.append_nil, Nat.ofDigitChars_append, Nat.ofDigitChars_ten_toDigits, Nat.ofDigitChars_replicate_zero,
      decimalValue, decimalValue, List.length_nil, Nat.cast_zero, neg_zero, zpow_zero, mul_one, zpow_natCast]
    push_cast
    ring

/-- digits laid out around the point are a numeral of the same value -/
theorem positional_numeral (digits : ℕ) (exponent : ℤ) :
    ∃ whole fraction, Numeral whole fraction (positional digits exponent) ∧
      decimalValue (Nat.ofDigitChars 10 (whole ++ fraction) 0) (-(fraction.length : ℤ)) =
        decimalValue digits exponent := by
  rcases lt_or_ge exponent 0 with hneg | hpos
  · obtain ⟨places, rfl⟩ : ∃ places : ℕ, exponent = -places := ⟨(-exponent).toNat, by omega⟩
    exact positional_numeral_of_places digits places (by omega)
  · obtain ⟨zeros, rfl⟩ : ∃ zeros : ℕ, exponent = zeros := ⟨exponent.toNat, by omega⟩
    exact positional_numeral_of_zeros digits zeros

/-! ## Shortest digits -/

theorem hitOnGrid?_readsBack {r : ℕ} {exponent : ℤ} {d : ℕ × ℤ} (h : hitOnGrid? r exponent = some d) :
    readsBack r d.1 d.2 = true := by
  unfold hitOnGrid? at h
  simp only [Bool.and_eq_true] at h
  split_ifs at h with h₁ h₂ h₃ h₄ <;> cases h
  · exact h₁.1
  · exact h₁.2
  · exact h₃
  · exact h₄

theorem exactDecimal_eq (r : ℕ) : ∃ n, n = 1074 ∧ exactDecimal r = (units r * Nat.pow 5 n, -(n : ℤ)) := by
  refine ⟨1074, rfl, ?_⟩
  unfold exactDecimal
  rfl

theorem exactDecimal_roundsTo {r : ℕ} (hr : 0 < r) :
    RoundsTo r (decimalValue (exactDecimal r).1 (exactDecimal r).2) := by
  refine roundsTo_self hr ?_
  obtain ⟨n, hn, hexact⟩ := exactDecimal_eq r
  have hpow : Nat.pow 5 n = 5 ^ n := rfl
  have h10 : (10 : ℚ) ^ n = 5 ^ n * 2 ^ n := by rw [← mul_pow]; norm_num
  rw [hexact, cast_unitsPerOne, ← hn, hpow, decimalValue, zpow_neg, zpow_natCast, h10, Nat.cast_mul, Nat.cast_pow,
    Nat.cast_ofNat]
  field_simp

/-- the digits chosen for a rank lie in its interval -/
theorem shortest_roundsTo {r : ℕ} (hr : 0 < r) : RoundsTo r (decimalValue (shortest r).1 (shortest r).2) := by
  unfold shortest
  cases hfind : (List.range 17).findSome? fun (n : ℕ) => hitOnGrid? r (scale r - (n + 1 : ℕ)) with
  | none => exact exactDecimal_roundsTo hr
  | some d =>
    obtain ⟨n, -, hn⟩ := List.exists_of_findSome?_eq_some hfind
    exact readsBack_iff.1 (hitOnGrid?_readsBack hn)

/-! ## The round trip -/

/-- the text of a magnitude is a numeral that is read as the number -/
theorem ofText?_magnitudeText (negative : Bool) (m : Fin finiteCount) :
    (∃ c rest, magnitudeText m.val = c :: rest ∧ c.isDigit = true) ∧
    (Decimal.ofText? negative (magnitudeText m.val)).map ofDecimal = some (.finite negative m) := by
  unfold magnitudeText
  split_ifs with h0
  · refine ⟨⟨'0', [], rfl, rfl⟩, ?_⟩
    have hm : m = ⟨0, by decide⟩ := Fin.ext h0
    have hzero : Numeral ['0'] [] ['0'] := ⟨by simp, by simp, by simp, rfl⟩
    rw [ofText?_numeral negative hzero, hm]
    rfl
  · have hr : 0 < m.val := Nat.pos_of_ne_zero h0
    obtain ⟨whole, fraction, hnum, hval⟩ := positional_numeral (shortest m.val).1 (shortest m.val).2
    refine ⟨hnum.head, ?_⟩
    rw [ofText?_numeral negative hnum, Option.map_some, ofDecimal_of_roundsTo hr m.isLt, ofRank, dif_pos m.isLt]
    rw [hval]
    exact shortest_roundsTo hr

theorem toLower_of_isDigit {c : Char} (h : c.isDigit = true) : c.toLower = c := by
  simp only [Char.isDigit, Bool.and_eq_true, decide_eq_true_eq] at h
  unfold Char.toLower
  rw [dif_neg]
  intro hup
  exact absurd (UInt32.le_trans hup.1 h.2) (by decide)

theorem ne_of_isDigit {c d : Char} (hc : c.isDigit = true) (hd : d.isDigit = false) : c ≠ d := by
  rintro rfl
  rw [hc] at hd
  cases hd

/-- a text that starts with a digit is no name -/
theorem ofUnsignedText?_of_digit {c : Char} {rest : List Char} (negative : Bool) (h : c.isDigit = true) :
    ofUnsignedText? negative (c :: rest) = (Decimal.ofText? negative (c :: rest)).map ofDecimal := by
  have hi : c ≠ 'i' := ne_of_isDigit h rfl
  have hn : c ≠ 'n' := ne_of_isDigit h rfl
  simp only [ofUnsignedText?, List.map_cons, toLower_of_isDigit h]
  rw [if_neg (by simp [hi]), if_neg (by simp [hn])]

/-- a sign before a digit is taken off -/
theorem ofText?_signed (negative : Bool) {c : Char} {rest : List Char} (h : c.isDigit = true) :
    ofText? ((if negative then ['-'] else []) ++ c :: rest) =
      (Decimal.ofText? negative (c :: rest)).map ofDecimal := by
  rw [← ofUnsignedText?_of_digit negative h]
  cases negative with
  | true => rfl
  | false =>
    have hminus : c ≠ '-' := ne_of_isDigit h rfl
    have hplus : c ≠ '+' := ne_of_isDigit h rfl
    rw [if_neg (by simp), List.nil_append]
    unfold ofText?
    split
    · rename_i heq; exact absurd (List.cons.inj heq).1 hminus
    · rename_i heq; exact absurd (List.cons.inj heq).1 hplus
    · rfl

/-- **The text of a number reads back**, with its sign also for zero; infinity and NaN are read from their names. -/
theorem ofText?_toText (x : Double) : ofText? x.toText.toList = some x := by
  cases x with
  | nan => rfl
  | infinite negative => cases negative <;> rfl
  | finite negative m =>
    obtain ⟨⟨c, rest, htext, hc⟩, hread⟩ := ofText?_magnitudeText negative m
    rw [toText, String.toList_ofList, htext, ofText?_signed negative hc, ← htext]
    exact hread

end Double

end Hypervisor
