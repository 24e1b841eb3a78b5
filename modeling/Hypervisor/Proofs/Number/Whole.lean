/-
Which binary64 numbers are read as whole numbers of a range.

The value of a 64-bit pattern is set out by its fields (`exactValue?`), and `ofBits_value?` is its agreement with the
ranks that the numbers are counted by. The bounds of a range are binary64 numbers, and the upper one is computed with
rounding. Both are nevertheless exact (`least_units`, `limit_units`), so the comparisons with them decide membership:
`integers_from_numbers_exact`.
-/
import Hypervisor.Wire
import Hypervisor.Proofs.Fallible
import Hypervisor.Proofs.Number.Rounding

namespace Hypervisor

open Fallible

/-! ## The value of a bit pattern -/

/-- the value of a 64-bit pattern: sign, eleven bits of exponent, 52 bits of fraction. An exponent of ones means
infinity or NaN, an exponent of zeros that the significand has no leading one. -/
def exactValue? (bits : ℕ) : Option ℚ :=
  let exponent : ℕ := bits / 2 ^ 52 % 2 ^ 11
  let fraction : ℕ := bits % 2 ^ 52
  if exponent = 2047 then none
  else
    let magnitude : ℚ :=
      if exponent = 0 then fraction * 2 ^ (-1074 : ℤ) else (2 ^ 52 + fraction) * 2 ^ ((exponent : ℤ) - 1075)
    some (if bits / 2 ^ 63 % 2 = 1 then -magnitude else magnitude)

namespace Double

/-- the value, if the number is finite -/
def value? (x : Double) : Option ℚ := x.signedUnits?.map fun u : ℤ => (u : ℚ) / unitsPerOne

theorem unitsPerOne_pos : (0 : ℤ) < unitsPerOne := by exact_mod_cast (by decide : 0 < unitsPerOne)

/-- a rank is an exponent and a fraction; an exponent of zero stands for the same step as an exponent of one -/
theorem units_div_of_fields {exponent fraction : ℕ} (hfraction : fraction < 2 ^ 52) :
    (units (exponent * 2 ^ 52 + fraction) : ℚ) / unitsPerOne =
      if exponent = 0 then (fraction : ℚ) * 2 ^ (-1074 : ℤ)
      else (2 ^ 52 + fraction) * 2 ^ ((exponent : ℤ) - 1075) := by
  rw [← binade_eq] at hfraction
  rw [div_eq_iff cast_unitsPerOne_pos.ne', cast_unitsPerOne, ← binade_eq]
  cases exponent with
  | zero =>
    rw [units_split (by omega) (fun h => absurd h (lt_irrefl 0)), if_pos rfl, mul_assoc, ← zpow_natCast,
      ← zpow_add₀ two_ne_zero]
    norm_num
  | succ k =>
    rw [Nat.succ_mul, add_assoc, units_split (by omega) (fun _ => Nat.le_add_right _ _), if_neg k.succ_ne_zero,
      mul_assoc, ← zpow_natCast _ 1074, ← zpow_add₀ two_ne_zero, binade_eq]
    push_cast
    rw [show (k : ℤ) + 1 - 1075 + 1074 = k by ring, zpow_natCast]
    norm_num

theorem value?_finite (negative : Bool) (m : Fin finiteCount) :
    (finite negative m).value? = some (if negative then -((units m : ℚ) / unitsPerOne) else units m / unitsPerOne) := by
  cases negative <;> simp [value?, signedUnits?, neg_div]

/-- the pattern of a number has its value -/
theorem ofBits_value? (bits : ℕ) : (ofBits bits).value? = exactValue? bits := by
  have hsign : signBit = 2 ^ 63 := rfl
  have hfields : bits % signBit = bits / 2 ^ 52 % 2 ^ 11 * 2 ^ 52 + bits % 2 ^ 52 := by
    rw [hsign]
    omega
  have hfinite : finiteCount = 2047 * 2 ^ 52 := rfl
  have hfraction : bits % 2 ^ 52 < 2 ^ 52 := Nat.mod_lt _ (by positivity)
  have hexponent : bits / 2 ^ 52 % 2 ^ 11 < 2 ^ 11 := Nat.mod_lt _ (by positivity)
  unfold ofBits exactValue?
  simp only [hfields]
  by_cases hspecial : bits / 2 ^ 52 % 2 ^ 11 = 2047
  · rw [if_pos hspecial, dif_neg (by omega)]
    split_ifs <;> rfl
  · rw [if_neg hspecial, dif_pos (by omega), value?_finite, units_div_of_fields hfraction]
    simp only [beq_iff_eq, hsign]

theorem integer?_eq_some_iff_units {x : Double} {n : ℤ} :
    x.integer? = some n ↔ x.signedUnits? = some (n * unitsPerOne) := by
  rw [integer?, Option.bind_eq_some_iff]
  constructor
  · rintro ⟨u, hu, hn⟩
    split_ifs at hn with hdvd
    rw [hu, ← Option.some.inj hn, Int.ediv_mul_cancel (Int.dvd_of_emod_eq_zero hdvd)]
  · intro h
    exact ⟨_, h, by rw [if_pos (Int.mul_emod_left _ _), Int.mul_ediv_cancel _ unitsPerOne_pos.ne']⟩

/-- a number is read as the whole number that its value is -/
theorem integer?_eq_some_iff {x : Double} {n : ℤ} : x.integer? = some n ↔ x.value? = some (n : ℚ) := by
  rw [integer?_eq_some_iff_units, value?, Option.map_eq_some_iff]
  constructor
  · intro h
    refine ⟨_, h, ?_⟩
    push_cast
    exact mul_div_cancel_right₀ _ cast_unitsPerOne_pos.ne'
  · rintro ⟨u, hu, hn⟩
    rw [div_eq_iff cast_unitsPerOne_pos.ne'] at hn
    rw [hu]
    exact congrArg some (by exact_mod_cast hn)

/-- a number that is no whole number has no value, or one with a fractional part -/
theorem integer?_eq_none_iff {x : Double} :
    x.integer? = none ↔ x.value? = none ∨ ∃ q, x.value? = some q ∧ Int.fract q ≠ 0 := by
  constructor
  · intro h
    cases hq : x.value? with
    | none => exact .inl rfl
    | some q =>
      refine .inr ⟨q, rfl, fun hfract => ?_⟩
      obtain ⟨n, rfl⟩ := Int.fract_eq_zero_iff.1 hfract
      rw [integer?_eq_some_iff.2 hq] at h
      cases h
  · intro h
    refine Option.eq_none_iff_forall_ne_some.2 fun n hn => ?_
    have hvalue := integer?_eq_some_iff.1 hn
    rcases h with hnone | ⟨q, hq, hfract⟩
    · rw [hvalue] at hnone
      cases hnone
    · obtain rfl := Option.some.inj (hvalue.symm.trans hq)
      exact hfract (Int.fract_intCast n)

/-! ## Bounds -/

theorem compare?_of_units {x y : Double} {u v : ℤ} (hx : x.signedUnits? = some u) (hy : y.signedUnits? = some v) :
    compare? x y = some (compare u v) := by
  cases x with
  | finite a m =>
    cases y with
    | finite b n => rw [← Option.some.inj hx, ← Option.some.inj hy]; rfl
    | _ => cases hy
  | _ => cases hx

theorem isLess_iff {x y : Double} {u v : ℤ} (hx : x.signedUnits? = some u) (hy : y.signedUnits? = some v) :
    x.isLess y = true ↔ u < v := by
  rw [isLess, compare?_of_units hx hy, Option.any_some, Ordering.isLT_iff_eq_lt, compare_lt_iff_lt]

theorem isAtLeast_iff {x y : Double} {u v : ℤ} (hx : x.signedUnits? = some u) (hy : y.signedUnits? = some v) :
    x.isAtLeast y = true ↔ v ≤ u := by
  rw [isAtLeast, compare?_of_units hx hy, Option.any_some, Ordering.isGE_iff_ne_lt]
  exact compare_ge_iff_ge

end Double

namespace IntegerType

theorem least_units (t : IntegerType) : t.least.signedUnits? = some (t.low * Double.unitsPerOne) := by
  cases t <;> decide +kernel

/-- rounding the greatest member of a 64-bit range makes up for the one that is lost in the sum -/
theorem limit_units (t : IntegerType) : t.limit.signedUnits? = some ((t.high + 1) * Double.unitsPerOne) := by
  cases t <;> decide +kernel

end IntegerType

namespace Ranged

variable {t : IntegerType} {x : Double} {n : ℤ}

/-- the comparisons with the bounds decide whether a whole number is in the range -/
theorem out_of_bounds_iff (h : x.integer? = some n) :
    (x.isLess t.least || x.isAtLeast t.limit) = true ↔ n < t.low ∨ t.high < n := by
  have hx := Double.integer?_eq_some_iff_units.1 h
  rw [Bool.or_eq_true, Double.isLess_iff hx t.least_units, Double.isAtLeast_iff hx t.limit_units,
    mul_lt_mul_iff_left₀ Double.unitsPerOne_pos, mul_le_mul_iff_left₀ Double.unitsPerOne_pos, Int.add_one_le_iff]

theorem clamp_of_mem (hlow : t.low ≤ n) (hhigh : n ≤ t.high) : clamp t n = ⟨n, hlow, hhigh⟩ := by
  simp only [clamp, min_eq_left hhigh, max_eq_right hlow]

theorem ofDouble_of_none (h : x.integer? = none) : ofDouble t x = .error .notIntegral := by
  simp only [ofDouble, h]

theorem ofDouble_of_mem (h : x.integer? = some n) (hlow : t.low ≤ n) (hhigh : n ≤ t.high) :
    ofDouble t x = .ok ⟨n, hlow, hhigh⟩ := by
  have hin : ¬(x.isLess t.least || x.isAtLeast t.limit) = true := by
    rw [out_of_bounds_iff h]
    omega
  simp only [ofDouble, h, if_neg hin, clamp_of_mem hlow hhigh]

theorem ofDouble_of_outside (h : x.integer? = some n) (hout : n < t.low ∨ t.high < n) :
    ofDouble t x = .error (.outOfRange t.label) := by
  simp only [ofDouble, h, if_pos ((out_of_bounds_iff h).2 hout)]

/-- a number is read as the whole number that it is -/
theorem ofDouble_eq_ok {k : Ranged t} : ofDouble t x = .ok k ↔ x.integer? = some k.val := by
  constructor
  · intro h
    cases hx : x.integer? with
    | none => rw [ofDouble_of_none hx] at h; cases h
    | some n =>
      by_cases hin : t.low ≤ n ∧ n ≤ t.high
      · rw [ofDouble_of_mem hx hin.1 hin.2] at h
        cases h
        rfl
      · rw [ofDouble_of_outside hx (by omega)] at h
        cases h
  · exact fun h => ofDouble_of_mem h k.low_le k.le_high

theorem ofDouble_eq_notIntegral : ofDouble t x = .error .notIntegral ↔ x.integer? = none := by
  refine ⟨fun h => ?_, ofDouble_of_none⟩
  cases hx : x.integer? with
  | none => rfl
  | some n =>
    simp only [ofDouble, hx] at h
    split_ifs at h
    cases h

theorem ofDouble_eq_outOfRange :
    ofDouble t x = .error (.outOfRange t.label) ↔ ∃ n, x.integer? = some n ∧ (n < t.low ∨ t.high < n) := by
  refine ⟨fun h => ?_, fun ⟨n, hx, hout⟩ => ofDouble_of_outside hx hout⟩
  cases hx : x.integer? with
  | none => rw [ofDouble_of_none hx] at h; cases h
  | some n =>
    refine ⟨n, rfl, ?_⟩
    by_contra hin
    rw [ofDouble_of_mem hx (by omega) (by omega)] at h
    cases h

end Ranged

/-! ## Whole numbers of a document -/

/-- the value of a decimal -/
def Decimal.value (d : Decimal) : ℚ :=
  if d.negative then -Double.decimalValue d.digits d.exponent else Double.decimalValue d.digits d.exponent

namespace Double

/-- whole numbers up to 2^53 are ranks: the number is doubled until it has 53 digits -/
theorem exists_rank {m : ℕ} (hpos : 0 < m) (hm : m ≤ 2 ^ 53) :
    ∃ r, 0 < r ∧ r < finiteCount ∧ units r = m * unitsPerOne := by
  have hlow : 2 ^ m.log2 ≤ m := Nat.log2_self_le hpos.ne'
  have hhigh : m < 2 ^ (m.log2 + 1) := Nat.lt_log2_self
  have hlog : m.log2 ≤ 53 := by
    by_contra hcon
    have : 2 ^ 54 ≤ 2 ^ m.log2 := Nat.pow_le_pow_right (by decide) (by omega)
    omega
  set shift := 52 - m.log2
  have hbinade : binade ≤ m * 2 ^ shift := by
    rw [binade_eq]
    calc 2 ^ 52 ≤ 2 ^ (m.log2 + shift) := Nat.pow_le_pow_right (by decide) (by omega)
      _ = 2 ^ m.log2 * 2 ^ shift := pow_add _ _ _
      _ ≤ m * 2 ^ shift := Nat.mul_le_mul_right _ hlow
  have htwo : m * 2 ^ shift ≤ 2 * binade := by
    rw [binade_eq]
    rcases Nat.lt_or_ge m.log2 53 with hlt | hge
    · calc m * 2 ^ shift ≤ 2 ^ (m.log2 + 1) * 2 ^ shift := Nat.mul_le_mul_right _ hhigh.le
        _ = 2 ^ (m.log2 + 1 + shift) := (pow_add _ _ _).symm
        _ = 2 * 2 ^ 52 := by rw [show m.log2 + 1 + shift = 53 by omega]; rfl
    · rw [show shift = 0 by omega]
      omega
  have hfin : finiteCount = 2047 * binade := rfl
  have hrank : (1074 - shift) * binade ≤ 1074 * binade := Nat.mul_le_mul_right _ (Nat.sub_le _ _)
  have hone : 0 < binade := by decide
  refine ⟨(1074 - shift) * binade + m * 2 ^ shift, by omega, by omega, ?_⟩
  rw [units_split htwo fun _ => hbinade, mul_assoc, ← pow_add, show shift + (1074 - shift) = 1074 by omega]
  simp only [unitsPerOne, Nat.shiftLeft_eq, one_mul]

/-- a decimal that is a whole number up to 2^53 is read without rounding -/
theorem ofDecimal_integer? {d : Decimal} {n : ℤ} (hn : n.natAbs ≤ 2 ^ 53) (hd : d.value = n) :
    (ofDecimal d).integer? = some n := by
  have habs : decimalValue d.digits d.exponent = n.natAbs := by
    have hnonneg : 0 ≤ decimalValue d.digits d.exponent := by
      unfold decimalValue
      positivity
    rw [Nat.cast_natAbs, Int.cast_abs, ← hd, Decimal.value]
    split_ifs
    · rw [abs_neg, abs_of_nonneg hnonneg]
    · rw [abs_of_nonneg hnonneg]
  rcases Nat.eq_zero_or_pos n.natAbs with hzero | hpos
  · have hdigits : d.digits = 0 := by
      rw [hzero, decimalValue, Nat.cast_zero] at habs
      exact_mod_cast (mul_eq_zero.1 habs).resolve_right (by positivity)
    rw [Int.natAbs_eq_zero.1 hzero, ofDecimal, if_pos hdigits]
    cases d.negative <;> decide +kernel
  · obtain ⟨r, hr, hfin, hunits⟩ := exists_rank hpos hn
    have hround : RoundsTo r (decimalValue d.digits d.exponent) :=
      roundsTo_self hr (by rw [habs, hunits]; push_cast; rfl)
    rw [ofDecimal_of_roundsTo hr hfin hround, ofRank, dif_pos hfin, integer?_eq_some_iff, value?_finite, hunits, ← hd,
      Decimal.value, habs]
    push_cast
    rw [mul_div_cancel_right₀ _ cast_unitsPerOne_pos.ne']

end Double

/-! ## Reading numbers -/

/-- **A number is read as a whole number exactly, or refused.** A 64-bit pattern is read as the member of the range that
its value is. It is refused as no whole number if it is infinite, NaN or has a fractional part, and as out of range if
its value is a whole number outside of the range. Sizes are read as whole numbers of 64 bits, and a whole number of a
document that is no larger than 2^53 in magnitude is read as itself. -/
theorem integers_from_numbers_exact (t : IntegerType) (d : Dialect) (bits : ℕ) :
    (∀ k : Ranged t, Wire.decode d (.number (.ofBits bits)) = .ok k ↔ exactValue? bits = some (k.val : ℚ)) ∧
    ((Wire.decode d (.number (.ofBits bits)) : Except Rejection (Ranged t)) = .error .notIntegral ↔
      exactValue? bits = none ∨ ∃ q, exactValue? bits = some q ∧ Int.fract q ≠ 0) ∧
    ((Wire.decode d (.number (.ofBits bits)) : Except Rejection (Ranged t)) = .error (.outOfRange t.label) ↔
      ∃ n : ℤ, exactValue? bits = some (n : ℚ) ∧ (n < t.low ∨ t.high < n)) ∧
    (∀ s : ByteSize, Wire.decode d (.number (.ofBits bits)) = .ok s ↔
      (Wire.decode d (.number (.ofBits bits)) : Except Rejection U64) = .ok s.bytes) ∧
    ∀ (decimal : Decimal) (k : Ranged t), k.val.natAbs ≤ 2 ^ 53 → decimal.value = k.val →
      Wire.decode d (.ofJson (.number decimal)) = .ok k := by
  refine ⟨fun k => ?_, ?_, ?_, fun s => ?_, fun decimal k hk hvalue => ?_⟩
  · rw [← Double.ofBits_value?, ← Double.integer?_eq_some_iff]
    exact Ranged.ofDouble_eq_ok
  · rw [← Double.ofBits_value?, ← Double.integer?_eq_none_iff]
    exact Ranged.ofDouble_eq_notIntegral
  · simp only [← Double.ofBits_value?, ← Double.integer?_eq_some_iff]
    exact Ranged.ofDouble_eq_outOfRange
  · refine map_eq_ok.trans ⟨?_, fun h => ⟨_, h, rfl⟩⟩
    rintro ⟨k, hk, rfl⟩
    exact hk
  · exact Ranged.ofDouble_eq_ok.2 (Double.ofDecimal_integer? hk hvalue)

/-- the numbers on both sides of the upper bound of signed 64-bit numbers, and a whole number of a document -/
theorem integers_from_numbers_exact_wide :
    Wire.decode .propertyString (.number (.ofBits 0x43DFFFFFFFFFFFFF)) =
      .ok (⟨0x7FFFFFFFFFFFFC00, by decide, by decide⟩ : Ranged .i64) ∧
    (Wire.decode .propertyString (.number (.ofBits 0x43E0000000000000)) : Except Rejection (Ranged .i64)) =
      .error (.outOfRange "i64") ∧
    (-0x20000000000000 : ℤ).natAbs ≤ 2 ^ 53 ∧ Decimal.value ⟨true, 0x20000000000000, 0⟩ = (-0x20000000000000 : ℤ) ∧
    Wire.decode .propertyString (.ofJson (.number ⟨true, 0x20000000000000, 0⟩)) =
      .ok (⟨-0x20000000000000, by decide, by decide⟩ : Ranged .i64) := by
  have hbelow := integers_from_numbers_exact .i64 .propertyString 0x43DFFFFFFFFFFFFF
  have hlimit := integers_from_numbers_exact .i64 .propertyString 0x43E0000000000000
  have habs : (-0x20000000000000 : ℤ).natAbs ≤ 2 ^ 53 := by decide
  have hvalue : Decimal.value ⟨true, 0x20000000000000, 0⟩ = (-0x20000000000000 : ℤ) := by
    norm_num [Decimal.value, Double.decimalValue]
  refine ⟨(hbelow.1 _).2 ?_, hlimit.2.2.1.2 ⟨0x8000000000000000, ?_, .inr (by decide)⟩, habs, hvalue,
    hbelow.2.2.2.2 _ ⟨-0x20000000000000, by decide, by decide⟩ habs hvalue⟩
  · norm_num [exactValue?]
  · norm_num [exactValue?]

end Hypervisor
