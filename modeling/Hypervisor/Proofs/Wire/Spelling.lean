/-
A value is read alike from all of its spellings.

A node may spell a whole number as a number or by its decimal, on its own or in a sequence (`Value.Respelled`). Numbers
and texts are read by separate code, and what is read from one is read from the other: a flag from 0 and 1 or their
digits, a whole number of any range, a size in bytes (`SteadyWire`); packed values, vocabularies and free text are
read from texts only. A binary64 number comes back from the decimal of its value, but the decimal of zero has no sign,
so there the two may differ in the sign of zero (`Double.SameValue`).
-/
import Hypervisor.Proofs.Packed.Layout

namespace Hypervisor

open Fallible Wire

/-! ## Spellings -/

/-- the second value is the first with some of its whole numbers spelled by their decimals -/
inductive Value.Respelled : Value → Value → Prop
  | same (v : Value) : Respelled v v
  | digits {x : Double} {n : ℤ} : x.integer? = some n → Respelled (.number x) (.text (integerText n))
  | sequence {vs vs' : List Value} : List.Forall₂ Respelled vs vs' → Respelled (.sequence vs) (.sequence vs')

theorem Value.Respelled.eq_of_text {raw : String} {v : Value} (h : Respelled (.text raw) v) : v = .text raw := by
  cases h
  rfl

theorem Value.Respelled.absent_iff {v v' : Value} (h : Respelled v v') : v = .absent ↔ v' = .absent := by
  cases h with
  | same => exact Iff.rfl
  | digits _ => exact iff_of_false nofun nofun
  | sequence _ => exact iff_of_false nofun nofun

/-- what is read from a value is read from its other spellings -/
class SteadyWire (α : Type) [Wire α] : Prop where
  decode_respelled : ∀ (d : Dialect) {v v' : Value} (a : α), v.Respelled v' → Wire.decode d v = .ok a →
    Wire.decode d v' = .ok a

/-- what is read from texts only has one spelling -/
theorem SteadyWire.of_text {α : Type} [Wire α]
    (h : ∀ (d : Dialect) (v : Value) (a : α), Wire.decode d v = .ok a → ∃ raw, v = .text raw) : SteadyWire α := by
  refine ⟨fun d v v' a hv ha => ?_⟩
  obtain ⟨raw, rfl⟩ := h d v a ha
  rw [hv.eq_of_text]
  exact ha

/-! ## Scalars -/

instance : SteadyWire Bool where
  decode_respelled d v v' b hv h := by
    cases hv with
    | same => exact h
    | @digits x n hx =>
      change (if x.integer? = some 0 then Except.ok false else if x.integer? = some 1 then .ok true
        else .error Rejection.notBoolean) = .ok b at h
      simp only [hx, Option.some.injEq] at h
      split_ifs at h with hzero hone
      · rw [hzero, ← h]
        rfl
      · rw [hone, ← h]
        rfl
    | sequence _ => cases h

instance : SteadyWire String := .of_text fun d v s h => by
  cases v with
  | text raw => exact ⟨raw, rfl⟩
  | _ => cases h

instance (t : IntegerType) : SteadyWire (Ranged t) where
  decode_respelled d v v' k hv h := by
    cases hv with
    | same => exact h
    | @digits x n hx =>
      obtain rfl := Option.some.inj (hx.symm.trans (Ranged.ofDouble_eq_ok.1 h))
      exact decodeScalar_eq_ok.2 k.read?_integerText
    | sequence _ => cases h

instance : SteadyWire ByteSize where
  decode_respelled d v v' s hv h := by
    cases hv with
    | same => exact h
    | @digits x n hx =>
      obtain ⟨k, hk, rfl⟩ := map_eq_ok.1 h
      obtain rfl := Option.some.inj (hx.symm.trans (Ranged.ofDouble_eq_ok.1 hk))
      exact decodeScalar_eq_ok.2 (ByteSize.read?_integerText ⟨k⟩)
    | sequence _ => cases h

instance {α : Type} [Vocabulary α] : SteadyWire (Choice α) := .of_text fun d v c h => by
  cases v with
  | text raw => exact ⟨raw, rfl⟩
  | _ => cases h

instance {α : Type} [Packed α] : SteadyWire α := .of_text fun _ _ _ h => Packed.exists_text_of_decode h

/-! ## Options and lists -/

instance {α : Type} [Wire α] [SteadyWire α] : SteadyWire (Option α) where
  decode_respelled d v v' a hv h := by
    by_cases habsent : v = .absent
    · rw [hv.absent_iff.1 habsent]
      rw [habsent] at h
      exact h
    · obtain ⟨x, hx, hxa⟩ := (decode_option_eq_ok habsent).1 h
      have hpresent : v' ≠ .absent := fun h' => habsent (hv.absent_iff.2 h')
      exact (decode_option_eq_ok hpresent).2 ⟨x, SteadyWire.decode_respelled d x hv hx, hxa⟩

/-- a sequence is respelled item by item, and so it is read -/
theorem SteadyWire.items {α : Type} [Wire α] [SteadyWire α] {d : Dialect} {vs vs' : List Value} {as : List α}
    (hvs : List.Forall₂ Value.Respelled vs vs') (h : List.Forall₂ (fun v a => Wire.decode d v = .ok a) vs as) :
    List.Forall₂ (fun v a => Wire.decode d v = .ok a) vs' as := by
  induction hvs generalizing as with
  | nil => exact h
  | cons hv _ ih =>
    obtain ⟨a, rest, ha, hrest, rfl⟩ := List.forall₂_cons_left_iff.1 h
    exact .cons (SteadyWire.decode_respelled d a hv ha) (ih hrest)

instance {α : Type} [Wire α] [SteadyWire α] : SteadyWire (List α) where
  decode_respelled d v v' as hv h := by
    cases hv with
    | same => exact h
    | digits _ => cases h
    | sequence hvs => exact mapM_eq_ok.2 (SteadyWire.items hvs (mapM_eq_ok.1 h))

/-! ## Binary64 numbers -/

namespace Double

/-- the same number up to the sign of zero -/
def SameValue (x y : Double) : Prop := y = x ∨ (x.isZero = true ∧ y.isZero = true)

theorem SameValue.isFinite {x y : Double} (h : SameValue x y) (hx : x.isFinite = true) : y.isFinite = true := by
  rcases h with rfl | ⟨-, hzero⟩
  · exact hx
  · cases y with
    | nan => cases hzero
    | infinite negative => cases hzero
    | finite negative m => rfl

/-- a finite number equals every number of the same value -/
theorem SameValue.beq {x y : Double} (h : SameValue x y) (hx : x.isFinite = true) : (y == x) = true := by
  rcases h with rfl | ⟨hzero, hzero'⟩
  · exact beq_self_of_isFinite hx
  · cases x with
    | nan => cases hzero
    | infinite negative => cases hzero
    | finite negative m =>
      cases y with
      | nan => cases hzero'
      | infinite negative' => cases hzero'
      | finite negative' m' =>
        have hm : m.val = 0 := by simpa [isZero] using hzero
        have hm' : m'.val = 0 := by simpa [isZero] using hzero'
        change (m' == m && (negative' == negative || m'.val == 0)) = true
        simp [Fin.ext_iff, hm, hm']

/-- zero has no units, whatever its sign -/
theorem signedUnits?_of_isZero {x : Double} (h : x.isZero = true) : x.signedUnits? = some 0 := by
  cases x with
  | nan => cases h
  | infinite negative => cases h
  | finite negative m =>
    have hm : m.val = 0 := by simpa [isZero] using h
    cases negative <;> simp [signedUnits?, hm, units]

theorem SameValue.between_eq {x y : Double} (h : SameValue x y) (low high : ℤ) :
    between low high y = between low high x := by
  rcases h with rfl | ⟨hzero, hzero'⟩
  · rfl
  · unfold between
    rw [signedUnits?_of_isZero hzero, signedUnits?_of_isZero hzero']

/-- a whole number counts its ones, and is not of the other sign -/
theorem units_of_integer? {negative : Bool} {m : Fin finiteCount} {n : ℤ}
    (h : (finite negative m).integer? = some n) :
    units m.val = n.natAbs * unitsPerOne ∧ (if negative then n ≤ 0 else 0 ≤ n) := by
  have hunits : (if negative then -(units m.val : ℤ) else units m.val) = n * unitsPerOne :=
    Option.some.inj (integer?_eq_some_iff_units.1 h)
  refine ⟨?_, ?_⟩
  · have habs := congrArg Int.natAbs hunits
    rw [Int.natAbs_mul, Int.natAbs_natCast] at habs
    rw [← habs]
    cases negative <;> simp
  · cases negative with
    | true =>
      have hle : n * unitsPerOne ≤ 0 := by rw [← hunits]; simp
      exact nonpos_of_mul_nonpos_left hle unitsPerOne_pos
    | false =>
      have hle : 0 ≤ n * unitsPerOne := by rw [← hunits]; simp
      exact nonneg_of_mul_nonneg_left hle unitsPerOne_pos

/-- **The decimal of a whole number is read as the number**, but for the sign of zero. -/
theorem ofText?_integerText {x : Double} {n : ℤ} (h : x.integer? = some n) :
    ∃ y, ofText? (integerText n).toList = some y ∧ SameValue x y := by
  cases x with
  | nan => cases h
  | infinite negative => cases h
  | finite negative m =>
    obtain ⟨hunits, hsign⟩ := units_of_integer? h
    by_cases hm : m.val = 0
    · have hn : n = 0 := by
        have hzero : n.natAbs * unitsPerOne = 0 := by rw [← hunits, hm]; rfl
        exact Int.natAbs_eq_zero.1 ((Nat.mul_eq_zero.1 hzero).resolve_right (by decide))
      subst hn
      exact ⟨zero, rfl, .inr ⟨by simpa [isZero] using hm, rfl⟩⟩
    · have hr : 0 < m.val := Nat.pos_of_ne_zero hm
      have hn : n ≠ 0 := by
        rintro rfl
        exact absurd (hunits.trans (Nat.zero_mul _)) (units_pos hr).ne'
      have hnumeral : Decimal.Numeral (Nat.toDigits 10 n.natAbs) [] (Nat.toDigits 10 n.natAbs) :=
        ⟨Nat.toDigits_ne_nil, isDigit_toDigits _, List.forall_mem_nil _, rfl⟩
      obtain ⟨c, rest, hdigits, hc⟩ := hnumeral.head
      have htext : (integerText n).toList = (if negative then ['-'] else []) ++ c :: rest := by
        rw [integerText, String.toList_ofList, hdigits]
        cases negative with
        | true => rw [if_pos (lt_of_le_of_ne hsign hn), if_pos rfl]
        | false => rw [if_neg (not_lt.2 hsign), if_neg Bool.false_ne_true]
      have hvalue : decimalValue n.natAbs 0 * unitsPerOne = units m.val := by
        rw [hunits, decimalValue, zpow_zero, mul_one, Nat.cast_mul]
      refine ⟨_, ?_, .inl rfl⟩
      rw [htext, ofText?_signed negative hc, ← hdigits, Decimal.ofText?_numeral negative hnumeral, Option.map_some,
        ofDecimal_of_roundsTo hr m.isLt, ofRank, dif_pos m.isLt]
      rw [List.append_nil, Nat.ofDigitChars_ten_toDigits]
      exact roundsTo_self hr hvalue

theorem decode_respelled (d : Dialect) {v v' : Value} {x : Double} (hv : v.Respelled v')
    (h : Wire.decode d v = .ok x) : ∃ y, Wire.decode d v' = .ok y ∧ SameValue x y := by
  cases hv with
  | same => exact ⟨x, h, .inl rfl⟩
  | @digits x₀ n hx =>
    obtain rfl := Except.ok.inj h
    obtain ⟨y, hy, hsame⟩ := ofText?_integerText hx
    exact ⟨y, decode_text_eq_ok.2 ⟨hy, hsame.isFinite (isFinite_of_integer? hx)⟩, hsame⟩
  | sequence _ => cases h

end Double

end Hypervisor
