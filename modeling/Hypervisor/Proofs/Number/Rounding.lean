/-
Which decimals are read as a given binary64 number.

Ranks count the magnitudes in ascending order. The rank `k * binade + m` stands for `m * 2^k` units, and its neighbours
differ by one in `m` (`units_split`). `RoundsTo r v` says that the value `v` lies between the midpoints to the
neighbours of rank `r`, ends included when the rank is even. `ofDecimal_of_roundsTo`: every decimal in that interval is
read as the number of rank `r`, which is round half to even; `readsBack_iff`: the test for the shortest text decides
exactly this interval.
-/
import Hypervisor.Number.Shortest
import Mathlib.Tactic

namespace Hypervisor

/-! ## Ranks and units -/

namespace Double

theorem binade_eq : binade = 2 ^ 52 := by norm_num

theorem cast_unitsPerOne : (unitsPerOne : ℚ) = 2 ^ 1074 := by
  simp only [unitsPerOne, Nat.shiftLeft_eq, one_mul, Nat.cast_pow, Nat.cast_ofNat]

theorem cast_unitsPerOne_pos : (0 : ℚ) < unitsPerOne := by
  rw [cast_unitsPerOne]
  positivity

/-- the value of a rank that is split into an exponent and a significand; the significand may reach the next binade -/
theorem units_split {k m : ℕ} (hm : m ≤ 2 * binade) (hk : 0 < k → binade ≤ m) :
    units (k * binade + m) = m * 2 ^ k := by
  unfold units
  rcases Nat.eq_zero_or_pos k with rfl | hk0
  · split_ifs with h
    · simp
    · -- the significand has reached the next binade
      have hm2 : m = 2 * binade := by omega
      subst hm2
      decide
  · have hb := hk hk0
    have hnot : ¬ k * binade + m < 2 * binade := by
      have : 1 * binade ≤ k * binade := Nat.mul_le_mul_right _ hk0
      omega
    rw [if_neg hnot, Nat.shiftLeft_eq]
    rcases Nat.lt_or_ge m (2 * binade) with hlt | hge
    · have hdiv : (k * binade + m) / binade = k + 1 := by
        rw [show k * binade + m = (m - binade) + (k + 1) * binade by rw [Nat.add_mul]; omega,
          Nat.add_mul_div_right _ _ (by decide), Nat.div_eq_of_lt (by omega), Nat.zero_add]
      have hmod : (k * binade + m) % binade = m - binade := by
        rw [show k * binade + m = (m - binade) + (k + 1) * binade by rw [Nat.add_mul]; omega,
          Nat.add_mul_mod_self_right, Nat.mod_eq_of_lt (by omega)]
      rw [hdiv, hmod, Nat.add_sub_cancel, Nat.add_sub_cancel' hb]
    · have hm2 : m = 2 * binade := by omega
      have hdiv : (k * binade + m) / binade = k + 2 := by
        rw [hm2, ← Nat.add_mul, Nat.mul_div_cancel _ (by decide)]
      have hmod : (k * binade + m) % binade = 0 := by
        rw [hm2, ← Nat.add_mul, Nat.mul_mod_left]
      rw [hdiv, hmod, hm2, show k + 2 - 1 = k + 1 by omega, pow_succ]
      ring

/-- every rank splits into an exponent and a significand below two binades -/
theorem exists_split (r : ℕ) : ∃ k m, r = k * binade + m ∧ m < 2 * binade ∧ (0 < k → binade ≤ m) := by
  refine ⟨r / binade - 1, r - (r / binade - 1) * binade, ?_, ?_, ?_⟩
  · have h := Nat.div_mul_le_self r binade
    have : (r / binade - 1) * binade ≤ r / binade * binade := Nat.mul_le_mul_right _ (Nat.sub_le _ _)
    omega
  · have h := Nat.div_add_mod r binade
    have hmod := Nat.mod_lt r (show 0 < binade by decide)
    rw [Nat.mul_comm] at h
    rcases Nat.eq_zero_or_pos (r / binade) with h0 | h0
    · rw [h0] at h ⊢; omega
    · have : (r / binade - 1) * binade + binade = r / binade * binade := by
        rw [← Nat.succ_mul]; congr 1; omega
      omega
  · intro hk
    have h := Nat.div_mul_le_self r binade
    have : (r / binade - 1) * binade + binade = r / binade * binade := by
      rw [← Nat.succ_mul]; congr 1; omega
    omega

theorem units_lt_succ (r : ℕ) : units r < units (r + 1) := by
  obtain ⟨k, m, rfl, hm, hk⟩ := exists_split r
  rw [add_assoc, units_split hm.le hk, units_split (by omega) fun h => Nat.le_succ_of_le (hk h)]
  exact Nat.mul_lt_mul_of_pos_right (Nat.lt_succ_self m) (by positivity)

theorem units_pos {r : ℕ} (h : 0 < r) : 0 < units r := by
  obtain ⟨n, rfl⟩ : ∃ n, r = n + 1 := ⟨r - 1, by omega⟩
  exact Nat.zero_lt_of_lt (units_lt_succ n)

/-- the finite magnitudes and the one after them are below 2^1025 -/
theorem units_lt {r : ℕ} (h : r ≤ finiteCount) : (units r : ℚ) < 2 ^ 1025 * unitsPerOne := by
  obtain ⟨k, m, rfl, hm, hk⟩ := exists_split r
  have hk' : k ≤ 2046 := by
    by_contra hcon
    have hm' := hk (by omega)
    have : 2047 * binade ≤ k * binade := Nat.mul_le_mul_right _ (by omega)
    have hfin : finiteCount = 2047 * binade := by decide
    have hb : 0 < binade := by decide
    omega
  have hm' : (m : ℚ) < 2 ^ 53 := by exact_mod_cast hm
  rw [units_split hm.le hk, cast_unitsPerOne]
  push_cast
  calc (m : ℚ) * 2 ^ k ≤ m * 2 ^ 2046 := by gcongr; norm_num
    _ < 2 ^ 53 * 2 ^ 2046 := by gcongr
    _ = 2 ^ 1025 * 2 ^ 1074 := by rw [← pow_add, ← pow_add]

end Double

/-! ## Rounding a quotient -/

/-- a whole number within half of a quotient, ties only if it is even, is the quotient rounded half to even -/
theorem roundHalfEven_eq {num den m : ℕ} (hden : 0 < den) (hlow : 2 * m * den ≤ 2 * num + den)
    (hhigh : 2 * num ≤ 2 * m * den + den)
    (hodd : m % 2 = 1 → 2 * m * den < 2 * num + den ∧ 2 * num < 2 * m * den + den) :
    roundHalfEven num den = m := by
  have hnum := Nat.div_add_mod num den
  have hr := Nat.mod_lt num hden
  unfold roundHalfEven
  simp only
  set q := num / den
  set r := num % den
  have hq : 2 * num = 2 * (q * den) + 2 * r := by rw [← hnum]; ring
  have hmq : m ≤ q + 1 := by
    have : 2 * m * den < (2 * q + 3) * den := by
      calc 2 * m * den ≤ 2 * num + den := hlow
        _ < 2 * (q * den) + 3 * den := by omega
        _ = (2 * q + 3) * den := by ring
    have := Nat.lt_of_mul_lt_mul_right this
    omega
  have hqm : q ≤ m := by
    have : 2 * q * den < (2 * m + 2) * den := by
      calc 2 * q * den = 2 * (q * den) := by ring
        _ ≤ 2 * num := by omega
        _ < 2 * m * den + 2 * den := by omega
        _ = (2 * m + 2) * den := by ring
    have := Nat.lt_of_mul_lt_mul_right this
    omega
  rcases Nat.lt_or_ge q m with hlt | hge
  · obtain rfl : m = q + 1 := by omega
    have hexp : 2 * (q + 1) * den = 2 * (q * den) + 2 * den := by ring
    rw [if_neg (by omega)]
    split_ifs with h₁ h₂
    · rfl
    · have := hodd (by omega); omega
    · rfl
  · obtain rfl : m = q := by omega
    have hexp : 2 * q * den = 2 * (q * den) := by ring
    split_ifs with h₁ h₂ h₃
    · rfl
    · omega
    · rfl
    · have := hodd (by omega); omega

namespace Double

theorem log2_of_bounds {q k : ℕ} (hlow : 2 ^ k ≤ q) (hhigh : q < 2 ^ (k + 1)) : q.log2 = k := by
  have hq : q ≠ 0 := by
    have : 0 < 2 ^ k := by positivity
    omega
  have h₁ : k ≤ q.log2 := (Nat.le_log2 hq).2 hlow
  have h₂ : q.log2 < k + 1 := (Nat.log2_lt hq).2 hhigh
  omega

/-- the rank of a quotient that rounds to `m` steps in the binade of exponent `k` -/
theorem nearestRank_of_split {num den k m : ℕ} (hden : 0 < den) (hquot : num / den < 2 ^ (k + 53))
    (hquot' : 0 < k → 2 ^ (k + 52) ≤ num / den) (hlow : 2 * m * (den * 2 ^ k) ≤ 2 * num + den * 2 ^ k)
    (hhigh : 2 * num ≤ 2 * m * (den * 2 ^ k) + den * 2 ^ k)
    (hodd : m % 2 = 1 → 2 * m * (den * 2 ^ k) < 2 * num + den * 2 ^ k ∧ 2 * num < 2 * m * (den * 2 ^ k) + den * 2 ^ k) :
    nearestRank num den = k * binade + m := by
  have hk : (num / den).log2 - 52 = k := by
    rcases Nat.eq_zero_or_pos k with rfl | hk0
    · rcases Nat.eq_zero_or_pos (num / den) with h0 | h0
      · rw [h0]; decide
      · have := (Nat.log2_lt (by omega)).2 hquot
        omega
    · rw [log2_of_bounds (hquot' hk0) (by rw [add_assoc]; exact hquot)]
      omega
  simp only [nearestRank, hk, Nat.shiftLeft_eq]
  rw [roundHalfEven_eq (by positivity) hlow hhigh hodd]

/-- a quotient below a power of two and at most a quarter of a step away from it -/
theorem nearestRank_below_power {num den j : ℕ} (hden : 0 < den) (hquot : num / den < 2 ^ (j + 53))
    (hlow : (4 * binade - 1) * (den * 2 ^ j) ≤ 2 * num) :
    nearestRank num den = j * binade + 2 * binade := by
  have hD : den * 2 ^ j ≤ binade * (den * 2 ^ j) := Nat.le_mul_of_pos_left _ (by decide)
  have hfour : (4 * binade - 1) * (den * 2 ^ j) + den * 2 ^ j = 2 * (2 * binade) * (den * 2 ^ j) := by
    rw [← Nat.succ_mul, Nat.succ_eq_add_one, show 4 * binade - 1 + 1 = 2 * (2 * binade) by decide]
  have hnum : num < 2 * binade * (den * 2 ^ j) := by
    calc num < 2 ^ (j + 53) * den := (Nat.div_lt_iff_lt_mul hden).1 hquot
      _ = 2 * binade * (den * 2 ^ j) := by rw [pow_add, binade_eq]; ring
  have hexp : 2 * (2 * binade) * (den * 2 ^ j) = 4 * (binade * (den * 2 ^ j)) := by ring
  have hexp' : 2 * binade * (den * 2 ^ j) = 2 * (binade * (den * 2 ^ j)) := by ring
  refine nearestRank_of_split hden hquot (fun _ => ?_) (by omega) (by omega) (fun h => absurd h (by decide))
  rw [Nat.le_div_iff_mul_le hden]
  have : 2 ^ (j + 52) * den = binade * (den * 2 ^ j) := by rw [pow_add, binade_eq]; ring
  omega

/-- a quotient within half a step of a significand whose neighbours are a step away on both sides -/
theorem nearestRank_inside {num den k n : ℕ} (hden : 0 < den) (hquot : num / den < 2 ^ (k + 53))
    (hn : 0 < k → binade ≤ n) (hlow : (n * 2 ^ k + (n + 1) * 2 ^ k) * den ≤ 2 * num)
    (hhigh : 2 * num ≤ 2 * (n + 1) * (den * 2 ^ k) + den * 2 ^ k)
    (hodd : (n + 1) % 2 = 1 → (n * 2 ^ k + (n + 1) * 2 ^ k) * den < 2 * num ∧
      2 * num < 2 * (n + 1) * (den * 2 ^ k) + den * 2 ^ k) :
    nearestRank num den = k * binade + (n + 1) := by
  have hmid : (n * 2 ^ k + (n + 1) * 2 ^ k) * den + den * 2 ^ k = 2 * (n + 1) * (den * 2 ^ k) := by ring
  refine nearestRank_of_split hden hquot (fun hk => ?_) (by omega) hhigh
    (fun h => ⟨by have := (hodd h).1; omega, (hodd h).2⟩)
  rw [Nat.le_div_iff_mul_le hden]
  have hexp : 2 ^ (k + 52) * den = binade * (den * 2 ^ k) := by rw [pow_add, binade_eq]; ring
  have hle : binade * (den * 2 ^ k) ≤ n * (den * 2 ^ k) := Nat.mul_le_mul_right _ (hn hk)
  have hsum : (n * 2 ^ k + (n + 1) * 2 ^ k) * den = 2 * (n * (den * 2 ^ k)) + den * 2 ^ k := by ring
  omega

/-- a quotient around a power of two, below which a step is half as wide as above -/
theorem nearestRank_at_power {num den j : ℕ} (hden : 0 < den) (hquot : num / den < 2 ^ (j + 1 + 53))
    (hlow : ((2 * binade - 1) * 2 ^ j + binade * 2 ^ (j + 1)) * den ≤ 2 * num)
    (hhigh : 2 * num ≤ 2 * binade * (den * 2 ^ (j + 1)) + den * 2 ^ (j + 1)) :
    nearestRank num den = (j + 1) * binade + binade := by
  rcases Nat.lt_or_ge (num / den) (2 ^ (j + 53)) with hsmall | hlarge
  · rw [nearestRank_below_power hden hsmall, Nat.add_mul]
    · omega
    · refine le_trans (le_of_eq ?_) hlow
      rw [show 4 * binade - 1 = (2 * binade - 1) + 2 * binade by decide, pow_succ]
      ring
  · have hexp : 2 ^ (j + 1 + 52) * den = binade * (den * 2 ^ (j + 1)) := by
      rw [pow_add _ (j + 1) 52, binade_eq]
      ring
    have hnum : binade * (den * 2 ^ (j + 1)) ≤ num := by
      rw [← hexp]
      exact (Nat.le_div_iff_mul_le hden).1 hlarge
    have hdouble : 2 * binade * (den * 2 ^ (j + 1)) = 2 * (binade * (den * 2 ^ (j + 1))) := by ring
    exact nearestRank_of_split hden hquot (fun _ => hlarge) (by omega) hhigh (fun h => absurd h (by decide))

/-- a quotient below the next significand stays in the binade -/
theorem div_lt_of_le_next {num den k n : ℕ} (hden : 0 < den) (hn : n + 2 ≤ 2 * binade)
    (hhigh : 2 * num ≤ 2 * (n + 1) * (den * 2 ^ k) + den * 2 ^ k) : num / den < 2 ^ (k + 53) := by
  have hstep : 0 < den * 2 ^ k := by positivity
  rw [Nat.div_lt_iff_lt_mul hden]
  calc num < (n + 2) * (den * 2 ^ k) := by nlinarith
    _ ≤ 2 * binade * (den * 2 ^ k) := Nat.mul_le_mul_right _ hn
    _ = 2 ^ (k + 53) * den := by rw [pow_add, binade_eq]; ring

/-- a quotient between the midpoints to the neighbours of a rank has that rank -/
theorem nearestRank_eq {r num den : ℕ} (hr : 0 < r) (hden : 0 < den)
    (hlow : (units (r - 1) + units r) * den ≤ 2 * num) (hhigh : 2 * num ≤ (units r + units (r + 1)) * den)
    (hodd : r % 2 = 1 → (units (r - 1) + units r) * den < 2 * num ∧ 2 * num < (units r + units (r + 1)) * den) :
    nearestRank num den = r := by
  obtain ⟨k, m, rfl, hm, hk⟩ := exists_split r
  obtain ⟨n, rfl⟩ : ∃ n, m = n + 1 := by
    refine ⟨m - 1, ?_⟩
    rcases Nat.eq_zero_or_pos k with rfl | hk0
    · omega
    · have := hk hk0
      have hb : 0 < binade := by decide
      omega
  have hu : units (k * binade + (n + 1)) = (n + 1) * 2 ^ k := units_split hm.le hk
  have hnext : units (k * binade + (n + 1) + 1) = (n + 2) * 2 ^ k := by
    rw [add_assoc]; exact units_split (by omega) (fun h => Nat.le_succ_of_le (hk h))
  have hparity : (k * binade + (n + 1)) % 2 = (n + 1) % 2 := by
    rw [show k * binade = k * (binade / 2) * 2 by rw [mul_assoc]; rfl, Nat.mul_add_mod_self_right]
  have hmid : ((n + 1) * 2 ^ k + (n + 2) * 2 ^ k) * den = 2 * (n + 1) * (den * 2 ^ k) + den * 2 ^ k := by ring
  rw [hparity] at hodd
  rw [hu] at hlow
  rw [hu, hnext, hmid] at hhigh hodd
  have hquot := div_lt_of_le_next hden (by omega) hhigh
  by_cases hedge : 0 < k ∧ n + 1 = binade
  · obtain ⟨hk0, hn⟩ := hedge
    obtain ⟨j, rfl⟩ : ∃ j, k = j + 1 := ⟨k - 1, by omega⟩
    have hprev : units ((j + 1) * binade + (n + 1) - 1) = (2 * binade - 1) * 2 ^ j := by
      rw [show (j + 1) * binade + (n + 1) - 1 = j * binade + (2 * binade - 1) by rw [Nat.add_mul]; omega]
      exact units_split (by omega) (fun _ => by decide)
    rw [hprev, hn] at hlow
    rw [hn] at hhigh ⊢
    exact nearestRank_at_power hden hquot hlow hhigh
  · have hn : 0 < k → binade ≤ n := by
      intro hk0
      have := hk hk0
      have : n + 1 ≠ binade := fun h => hedge ⟨hk0, h⟩
      omega
    have hprev : units (k * binade + (n + 1) - 1) = n * 2 ^ k := by
      rw [show k * binade + (n + 1) - 1 = k * binade + n by omega]
      exact units_split (by omega) hn
    rw [hprev] at hlow hodd
    exact nearestRank_inside hden hquot hn hlow hhigh hodd

/-! ## The rounding interval -/

/-- the value of `digits * 10^exponent` -/
def decimalValue (digits : ℕ) (exponent : ℤ) : ℚ := digits * 10 ^ exponent

theorem powerOfTen_eq (n : ℕ) : powerOfTen n = 10 ^ n := rfl

theorem cast_powerOfTen_pos (n : ℕ) : (0 : ℚ) < powerOfTen n := by
  rw [powerOfTen_eq]; positivity

/-- a decimal as a quotient of whole numbers -/
theorem decimalValue_eq_div (digits : ℕ) (exponent : ℤ) :
    decimalValue digits exponent = (digits * powerOfTen exponent.toNat : ℕ) / powerOfTen (-exponent).toNat := by
  unfold decimalValue
  simp only [powerOfTen_eq, Nat.cast_mul, Nat.cast_pow, Nat.cast_ofNat]
  obtain ⟨n, rfl | rfl⟩ := exponent.eq_nat_or_neg
  · rw [zpow_natCast, Int.toNat_natCast, Int.toNat_neg_natCast, pow_zero, div_one]
  · rw [zpow_neg, zpow_natCast, Int.toNat_neg_natCast, neg_neg, Int.toNat_natCast, pow_zero, mul_one, div_eq_mul_inv]

/-- the value lies between the midpoints to the neighbours of the rank, ends included when the rank is even -/
structure RoundsTo (r : ℕ) (v : ℚ) : Prop where
  low : (units (r - 1) + units r : ℕ) ≤ 2 * (v * unitsPerOne)
  high : 2 * (v * unitsPerOne) ≤ (units r + units (r + 1) : ℕ)
  odd : r % 2 = 1 → (units (r - 1) + units r : ℕ) < 2 * (v * unitsPerOne) ∧
    2 * (v * unitsPerOne) < (units r + units (r + 1) : ℕ)

/-- the exact comparison is that of the values -/
theorem compareHalfUnits_eq (digits : ℕ) (exponent : ℤ) (n : ℕ) :
    compareHalfUnits digits exponent n = compare (2 * (decimalValue digits exponent * unitsPerOne)) (n : ℚ) := by
  have hden := cast_powerOfTen_pos (-exponent).toNat
  have hval : 2 * (decimalValue digits exponent * unitsPerOne) =
      (digits * powerOfTen exponent.toNat * (2 * unitsPerOne) : ℕ) / (powerOfTen (-exponent).toNat : ℚ) := by
    rw [decimalValue_eq_div]; push_cast; ring
  unfold compareHalfUnits
  rw [hval]
  rcases lt_trichotomy (digits * powerOfTen exponent.toNat * (2 * unitsPerOne)) (n * powerOfTen (-exponent).toNat)
    with h | h | h
  · rw [compare_lt_iff_lt.2 h, eq_comm, compare_lt_iff_lt, div_lt_iff₀ hden]; exact_mod_cast h
  · rw [compare_eq_iff_eq.2 h, eq_comm, compare_eq_iff_eq, div_eq_iff hden.ne']; exact_mod_cast h
  · rw [compare_gt_iff_gt.2 h, eq_comm, compare_gt_iff_gt, lt_div_iff₀ hden]; exact_mod_cast h

theorem readsBack_iff {r digits : ℕ} {exponent : ℤ} :
    readsBack r digits exponent = true ↔ RoundsTo r (decimalValue digits exponent) := by
  simp only [readsBack, compareHalfUnits_eq, Bool.and_eq_true, Bool.or_eq_true, beq_iff_eq, compare_gt_iff_gt,
    compare_lt_iff_lt, compare_eq_iff_eq]
  set x := 2 * (decimalValue digits exponent * unitsPerOne)
  rcases Nat.mod_two_eq_zero_or_one r with hpar | hpar
  · constructor
    · rintro ⟨hlow, hhigh⟩
      refine ⟨?_, ?_, fun h => by omega⟩
      · rcases hlow with h | h
        · exact h.le
        · exact h.2.ge
      · rcases hhigh with h | h
        · exact h.le
        · exact h.2.le
    · intro h
      exact ⟨(lt_or_eq_of_le h.low).imp id fun e => ⟨hpar, e.symm⟩, (lt_or_eq_of_le h.high).imp id fun e => ⟨hpar, e⟩⟩
  · constructor
    · rintro ⟨hlow, hhigh⟩
      have hl := hlow.resolve_right fun h => by omega
      have hh := hhigh.resolve_right fun h => by omega
      exact ⟨hl.le, hh.le, fun _ => ⟨hl, hh⟩⟩
    · intro h
      exact ⟨.inl (h.odd hpar).1, .inl (h.odd hpar).2⟩

/-- the exact value of a rank lies in its interval -/
theorem roundsTo_self {r : ℕ} {v : ℚ} (hr : 0 < r) (hv : v * unitsPerOne = units r) : RoundsTo r v := by
  obtain ⟨n, rfl⟩ : ∃ n, r = n + 1 := ⟨r - 1, by omega⟩
  have hlow : ((units n + units (n + 1) : ℕ) : ℚ) < 2 * units (n + 1) := by
    have := units_lt_succ n
    exact_mod_cast (by omega : units n + units (n + 1) < 2 * units (n + 1))
  have hhigh : (2 * units (n + 1) : ℚ) < (units (n + 1) + units (n + 1 + 1) : ℕ) := by
    have := units_lt_succ (n + 1)
    exact_mod_cast (by omega : 2 * units (n + 1) < units (n + 1) + units (n + 1 + 1))
  refine ⟨?_, ?_, fun _ => ⟨?_, ?_⟩⟩ <;> rw [hv]
  · exact hlow.le
  · exact hhigh.le
  · exact hlow
  · exact hhigh

/-- a decimal in the interval of a rank rounds to it -/
theorem nearestRank_of_roundsTo {r digits : ℕ} {exponent : ℤ} (hr : 0 < r)
    (h : RoundsTo r (decimalValue digits exponent)) :
    nearestRank (digits * powerOfTen exponent.toNat * unitsPerOne) (powerOfTen (-exponent).toNat) = r := by
  have hden := cast_powerOfTen_pos (-exponent).toNat
  have hval : 2 * (decimalValue digits exponent * unitsPerOne) =
      (2 * (digits * powerOfTen exponent.toNat * unitsPerOne) : ℕ) / (powerOfTen (-exponent).toNat : ℚ) := by
    rw [decimalValue_eq_div]; push_cast; ring
  obtain ⟨hlow, hhigh, hodd⟩ := h
  rw [hval] at hlow hhigh hodd
  rw [le_div_iff₀ hden] at hlow
  rw [div_le_iff₀ hden] at hhigh
  refine nearestRank_eq hr (by exact_mod_cast hden) (by exact_mod_cast hlow) (by exact_mod_cast hhigh) fun hpar => ?_
  obtain ⟨hl, hh⟩ := hodd hpar
  rw [lt_div_iff₀ hden] at hl
  rw [div_lt_iff₀ hden] at hh
  exact ⟨by exact_mod_cast hl, by exact_mod_cast hh⟩

/-! ## Reading decimals -/

/-- a decimal lies below the power of ten of its length, and not below the one before -/
theorem decimalValue_bounds {digits : ℕ} (hd : digits ≠ 0) (exponent : ℤ) :
    (10 : ℚ) ^ ((Nat.toDigits 10 digits).length + exponent - 1) ≤ decimalValue digits exponent ∧
    decimalValue digits exponent < (10 : ℚ) ^ ((Nat.toDigits 10 digits).length + exponent) := by
  set count := (Nat.toDigits 10 digits).length with hcount
  have hpos : 0 < count := Nat.length_toDigits_pos
  have hup : digits < 10 ^ count := (Nat.length_toDigits_le_iff (by decide) hpos).1 le_rfl
  have hlow : 10 ^ (count - 1) ≤ digits := by
    by_contra hcon
    rcases Nat.eq_zero_or_pos (count - 1) with h0 | h0
    · rw [h0] at hcon; omega
    · have := (Nat.length_toDigits_le_iff (by decide) h0).2 (not_le.1 hcon)
      omega
  have h10 : (10 : ℚ) ≠ 0 := by norm_num
  have hexp : (10 : ℚ) ^ (count + exponent - 1) = ((10 ^ (count - 1) : ℕ) : ℚ) * 10 ^ exponent := by
    rw [show (count : ℤ) + exponent - 1 = ((count - 1 : ℕ) : ℤ) + exponent by omega, zpow_add₀ h10, zpow_natCast]
    push_cast; rfl
  unfold decimalValue
  rw [hexp, zpow_add₀ h10, zpow_natCast]
  have hscale : (0 : ℚ) < 10 ^ exponent := by positivity
  constructor
  · exact mul_le_mul_of_nonneg_right (by exact_mod_cast hlow) hscale.le
  · exact mul_lt_mul_of_pos_right (by exact_mod_cast hup) hscale

theorem roundsTo_bounds {r : ℕ} {v : ℚ} (hr : 0 < r) (hfin : r < finiteCount) (h : RoundsTo r v) :
    1 ≤ 2 * (v * unitsPerOne) ∧ v < 2 ^ 1025 := by
  constructor
  · refine le_trans ?_ h.low
    have := units_pos hr
    exact_mod_cast (by omega : 1 ≤ units (r - 1) + units r)
  · have h₁ := units_lt hfin.le
    have h₂ := units_lt (Nat.succ_le_of_lt hfin)
    have hhigh := h.high
    push_cast at hhigh
    have : v * unitsPerOne < 2 ^ 1025 * unitsPerOne := by
      generalize (2 : ℚ) ^ 1025 * unitsPerOne = bound at h₁ h₂ ⊢
      linarith
    exact lt_of_mul_lt_mul_right this cast_unitsPerOne_pos.le

/-- a decimal in the interval of a finite rank is read as the number of that rank -/
theorem ofDecimal_of_roundsTo {r : ℕ} {d : Decimal} (hr : 0 < r) (hfin : r < finiteCount)
    (h : RoundsTo r (decimalValue d.digits d.exponent)) : ofDecimal d = ofRank d.negative r := by
  obtain ⟨hlow, hup⟩ := roundsTo_bounds hr hfin h
  have hd : d.digits ≠ 0 := by
    intro h0
    rw [h0, decimalValue] at hlow
    norm_num at hlow
  obtain ⟨hv₁, hv₂⟩ := decimalValue_bounds hd d.exponent
  set v := decimalValue d.digits d.exponent
  set size : ℤ := (Nat.toDigits 10 d.digits).length + d.exponent
  have hbig : ¬310 < size := by
    intro hcon
    have h310 : (10 : ℚ) ^ (310 : ℤ) ≤ 10 ^ (size - 1) := zpow_le_zpow_right₀ (by norm_num) (by omega)
    have hnum : (2 : ℚ) ^ 1025 < 10 ^ (310 : ℤ) := by
      calc (2 : ℚ) ^ 1025 = (2 ^ 205) ^ 5 := by rw [show 1025 = 205 * 5 by rfl, pow_mul]
        _ < (10 ^ 62) ^ 5 := by gcongr; norm_num
        _ = 10 ^ (310 : ℤ) := by rw [← pow_mul]; rfl
    exact lt_irrefl _ ((h310.trans hv₁).trans_lt (hup.trans hnum))
  have hsmall : ¬size < -330 := by
    intro hcon
    have h331 : (10 : ℚ) ^ size ≤ 10 ^ (-331 : ℤ) := zpow_le_zpow_right₀ (by norm_num) (by omega)
    have hnum : 2 * ((10 : ℚ) ^ (-331 : ℤ) * unitsPerOne) < 1 := by
      have h5 : (2 : ℚ) ^ 1075 < 10 ^ 331 := by
        calc (2 : ℚ) ^ 1075 = (2 ^ 215) ^ 5 := by rw [show 1075 = 215 * 5 by rfl, pow_mul]
          _ < (10 ^ 66) ^ 5 := by gcongr; norm_num
          _ = 10 ^ 330 := by rw [← pow_mul]
          _ ≤ 10 ^ 331 := pow_le_pow_right₀ (by norm_num) (by norm_num)
      rw [cast_unitsPerOne, zpow_neg, mul_left_comm, ← pow_succ', inv_mul_lt_iff₀ (by positivity), mul_one]
      exact h5
    have : v * unitsPerOne ≤ 10 ^ (-331 : ℤ) * unitsPerOne :=
      mul_le_mul_of_nonneg_right (hv₂.le.trans h331) cast_unitsPerOne_pos.le
    linarith
  unfold ofDecimal
  rw [if_neg hd]
  simp only
  rw [if_neg hbig, if_neg hsmall, nearestRank_of_roundsTo hr h]

end Double

end Hypervisor
