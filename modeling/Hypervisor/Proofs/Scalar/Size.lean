/-
Which texts spell a size, and that the one which is written is the shortest of them.

A size is spelled by a decimal with at most one unit behind it (`ByteSize.Spells`). A text is taken exactly if it spells
a size below 2^64, and for that size (`read?_eq_some_iff`). A size has many spellings: by leading zeros, and by every
unit that divides it. Each of them is longer than the text that is written, which counts in the largest unit that divides
the size: against any smaller unit the count loses three digits for the one letter (`eq_text_or_longer`).
-/
import Hypervisor.Proofs.Text.Length

namespace Hypervisor.ByteSize

open String (utf8Len)

/-! ## Units -/

/-- the units of a size by what stands for them: nothing for bytes, and a letter for each power of 1024 -/
inductive Scale : List Char → ℕ → Prop
  | bytes : Scale [] 1
  | kibi : Scale ['K'] 1024
  | mebi : Scale ['M'] (1024 ^ 2)
  | gibi : Scale ['G'] (1024 ^ 3)
  | tebi : Scale ['T'] (1024 ^ 4)

/-- the text stands for this many bytes: a decimal, and at most one unit behind it -/
def Spells (t : List Char) (b : ℕ) : Prop :=
  ∃ digits n mark unit, IsDecimal digits n ∧ Scale mark unit ∧ t = digits ++ mark ∧ b = n * unit

theorem scale_iff {mark : List Char} {unit : ℕ} :
    Scale mark unit ↔ mark = [] ∧ unit = 1 ∨ ∃ u ∈ units, mark = [u.1] ∧ unit = u.2 := by
  simp only [units, gibibyte, mebibyte, List.mem_cons, List.not_mem_nil, or_false, exists_eq_or_imp, exists_eq_left]
  constructor
  · intro h
    cases h <;> simp
  · rintro (⟨rfl, rfl⟩ | ⟨rfl, rfl⟩ | ⟨rfl, rfl⟩ | ⟨rfl, rfl⟩ | ⟨rfl, rfl⟩)
    · exact .bytes
    · exact .tebi
    · exact .gibi
    · exact .mebi
    · exact .kibi

/-- a unit has at most one letter, and it takes one byte -/
theorem Scale.utf8Len_mark {mark : List Char} {unit : ℕ} (h : Scale mark unit) :
    utf8Len mark = mark.length ∧ mark.length ≤ 1 := by
  cases h <;> decide

theorem Scale.pos {mark : List Char} {unit : ℕ} (h : Scale mark unit) : 0 < unit := by
  cases h <;> decide

/-- of two units one is the other, or more than a thousand times as large -/
theorem Scale.eq_or_larger {mark mark' : List Char} {unit unit' : ℕ} (h : Scale mark unit) (h' : Scale mark' unit')
    (hle : unit' ≤ unit) : mark' = mark ∧ unit' = unit ∨ 1024 * unit' ≤ unit := by
  cases h <;> cases h' <;> revert hle <;> decide

/-! ## Reading -/

/-- a text is taken for the size that it spells -/
theorem read?_eq_some_iff {raw : String} {s : ByteSize} :
    read? raw = some s ↔ Spells raw.toList s.bytes.val.toNat := by
  constructor
  · intro h
    unfold read? at h
    simp only at h
    split at h
    · cases h
    · rename_i c hlast
      split_ifs at h
      · obtain ⟨n, hn, hs⟩ := Option.bind_eq_some_iff.1 h
        exact ⟨raw.toList, n, [], 1, naturalOfDigits?_eq_some_iff.1 hn, .bytes, by simp,
          by rw [ofBytes?_eq_some_iff.1 hs, mul_one]⟩
      · obtain ⟨unit, hunit, hrest⟩ := Option.bind_eq_some_iff.1 h
        obtain ⟨n, hn, hs⟩ := Option.bind_eq_some_iff.1 hrest
        obtain ⟨before, after, hunits, -⟩ := List.lookup_eq_some_iff.1 hunit
        have hmem : (c, unit) ∈ units := by rw [hunits]; exact List.mem_append_right _ List.mem_cons_self
        exact ⟨raw.toList.dropLast, n, [c], unit, naturalOfDigits?_eq_some_iff.1 hn,
          scale_iff.2 (.inr ⟨(c, unit), hmem, rfl, rfl⟩), (List.dropLast_append_getLast? c hlast).symm,
          ofBytes?_eq_some_iff.1 hs⟩
  · intro ⟨digits, n, mark, unit, hdigits, hscale, hraw, hbytes⟩
    have hn := naturalOfDigits?_eq_some_iff.2 hdigits
    rcases scale_iff.1 hscale with ⟨rfl, rfl⟩ | ⟨u, hu, rfl, rfl⟩
    · rw [List.append_nil] at hraw
      rw [read?_of_digits (by rw [hraw, hn]), ofBytes?_eq_some_iff, hbytes, mul_one]
    · rw [read?_of_unit hu hraw, hn, Option.bind_some, ofBytes?_eq_some_iff, hbytes]

/-! ## The shortest spelling -/

theorem Spells.utf8Len_eq {t : List Char} {b : ℕ} (h : Spells t b) : utf8Len t = t.length := by
  obtain ⟨digits, n, mark, unit, hdigits, hscale, rfl, -⟩ := h
  rw [String.utf8Len_append, Text.utf8Len_of_isDigit hdigits.isDigit, hscale.utf8Len_mark.1, List.length_append]

theorem toList_text_of_zero {s : ByteSize} (h : s.bytes.val.toNat = 0) : s.text.toList = Nat.toDigits 10 0 := by
  simp only [text, h, if_true, String.toList_ofList]

theorem units_descending : units.Pairwise fun u v => v.2 ≤ u.2 := by decide

/-- a size other than zero is written in the largest of the units that divide it -/
theorem exists_largest_scale {s : ByteSize} (hne : s.bytes.val.toNat ≠ 0) :
    ∃ mark unit, Scale mark unit ∧ unit ∣ s.bytes.val.toNat ∧
      s.text.toList = Nat.toDigits 10 (s.bytes.val.toNat / unit) ++ mark ∧
      ∀ mark' unit', Scale mark' unit' → unit' ∣ s.bytes.val.toNat → unit' ≤ unit := by
  unfold text
  simp only [if_neg hne]
  cases hfind : units.find? fun u => decide (s.bytes.val.toNat % u.2 = 0) with
  | none =>
    refine ⟨[], 1, .bytes, one_dvd _, by simp, fun mark' unit' hscale hdvd => ?_⟩
    rcases scale_iff.1 hscale with ⟨-, rfl⟩ | ⟨v, hv, -, rfl⟩
    · exact le_rfl
    · exact absurd (decide_eq_true (Nat.mod_eq_zero_of_dvd hdvd)) (List.find?_eq_none.1 hfind v hv)
  | some u =>
    obtain ⟨hu, before, after, hunits, hbefore⟩ := List.find?_eq_some_iff_append.1 hfind
    have hmem := List.mem_of_find?_eq_some hfind
    have hdvd := Nat.dvd_of_mod_eq_zero (of_decide_eq_true hu)
    refine ⟨[u.1], u.2, scale_iff.2 (.inr ⟨u, hmem, rfl, rfl⟩), hdvd, String.toList_ofList,
      fun mark' unit' hscale hdvd' => ?_⟩
    rcases scale_iff.1 hscale with ⟨-, rfl⟩ | ⟨v, hv, -, rfl⟩
    · exact Nat.le_of_dvd (scale_iff.2 (.inr ⟨u, hmem, rfl, rfl⟩) : Scale [u.1] u.2).pos (one_dvd _)
    · -- the units before the one that was found do not divide the size, and those behind it are smaller
      have hsorted := units_descending
      rw [hunits] at hv hsorted
      rcases List.mem_append.1 hv with hv | hv
      · have hnot := hbefore v hv
        rw [Bool.not_eq_true', decide_eq_false_iff_not] at hnot
        exact absurd (Nat.mod_eq_zero_of_dvd hdvd') hnot
      · rcases List.mem_cons.1 hv with rfl | hv
        · exact le_rfl
        · exact List.rel_of_pairwise_cons (List.pairwise_append.1 hsorted).2.1 hv

/-- a thousandfold number takes at least two more digits -/
theorem length_toDigits_add_one_lt {m n : ℕ} (hm : 0 < m) (h : 1024 * m ≤ n) :
    (Nat.toDigits 10 m).length + 1 < (Nat.toDigits 10 n).length := by
  have hten : ∀ k, 0 < k → (Nat.toDigits 10 (10 * k)).length = (Nat.toDigits 10 k).length + 1 := by
    intro k hk
    simpa using congrArg List.length (Text.toDigits_snoc hk 0)
  calc (Nat.toDigits 10 m).length + 1
      < (Nat.toDigits 10 m).length + 1 + 1 := Nat.lt_succ_self _
    _ = (Nat.toDigits 10 (10 * (10 * m))).length := by rw [hten _ (by omega), hten m hm]
    _ ≤ (Nat.toDigits 10 n).length := Text.length_toDigits_mono (by omega)

/-- every spelling of a size but the one that is written is longer -/
theorem eq_text_or_longer {t : List Char} {s : ByteSize} (h : Spells t s.bytes.val.toNat) :
    t = s.text.toList ∨ s.text.toList.length < t.length := by
  obtain ⟨digits, n, mark, unit, hdigits, hscale, rfl, hbytes⟩ := h
  have hcount := hdigits.eq_or_longer
  rw [List.length_append]
  by_cases hzero : s.bytes.val.toNat = 0
  · -- zero has no unit, and one digit
    obtain rfl : n = 0 := by
      rw [hzero] at hbytes
      exact (Nat.mul_eq_zero.1 hbytes.symm).resolve_right hscale.pos.ne'
    rw [toList_text_of_zero hzero]
    rcases hcount with rfl | hlonger
    · by_cases hmark : mark = []
      · exact .inl (by rw [hmark, List.append_nil])
      · exact .inr (Nat.lt_add_of_pos_right (List.length_pos_iff.2 hmark))
    · exact .inr (Nat.lt_add_right _ hlonger)
  · obtain ⟨best, largest, hbest, hdvd, htext, hlargest⟩ := exists_largest_scale hzero
    obtain ⟨m, hm⟩ := hdvd
    have hquotient : s.bytes.val.toNat / largest = m := by rw [hm, Nat.mul_div_cancel_left _ hbest.pos]
    have hle : unit ≤ largest := hlargest mark unit hscale ⟨n, by rw [hbytes, Nat.mul_comm]⟩
    rw [htext, hquotient, List.length_append]
    rcases hbest.eq_or_larger hscale hle with ⟨rfl, rfl⟩ | hlarger
    · -- in the same unit only leading zeros differ
      obtain rfl : m = n := Nat.eq_of_mul_eq_mul_left hscale.pos (by rw [← hm, hbytes, Nat.mul_comm])
      rcases hcount with rfl | hlonger
      · exact .inl rfl
      · exact .inr (Nat.add_lt_add_right hlonger _)
    · -- in a smaller unit the count is at least a thousand times as large
      have hpos : 0 < m := Nat.pos_of_ne_zero fun h0 => hzero (by rw [hm, h0, Nat.mul_zero])
      have hmore : 1024 * m ≤ n := by
        refine Nat.le_of_mul_le_mul_right ?_ hscale.pos
        calc 1024 * m * unit = 1024 * unit * m := by ring
          _ ≤ largest * m := Nat.mul_le_mul_right m hlarger
          _ = n * unit := by rw [← hm, hbytes]
      have hdigits_le : (Nat.toDigits 10 n).length ≤ digits.length := by
        rcases hcount with rfl | hlonger
        · exact le_rfl
        · exact hlonger.le
      have hletter := hbest.utf8Len_mark.2
      have hsaved := length_toDigits_add_one_lt hpos hmore
      right
      omega

/-- a size is written in fewer bytes than any other text takes that is taken for it -/
theorem eq_text_or_utf8ByteSize_lt {raw : String} {s : ByteSize} (h : read? raw = some s) :
    raw = s.text ∨ s.text.utf8ByteSize < raw.utf8ByteSize := by
  have hspells := read?_eq_some_iff.1 h
  have hwritten := read?_eq_some_iff.1 s.read?_text
  rw [← Text.utf8Len_toList, ← Text.utf8Len_toList raw, hspells.utf8Len_eq, hwritten.utf8Len_eq]
  exact (eq_text_or_longer hspells).imp_left String.toList_inj.1

-- a size with other spellings
example : (read? "00512M").map text = some "512M" ∧ (read? "524288K").map text = some "512M" := by decide

theorem utf8ByteSize_text_le {raw : String} {s : ByteSize} (h : read? raw = some s) :
    s.text.utf8ByteSize ≤ raw.utf8ByteSize := by
  rcases eq_text_or_utf8ByteSize_lt h with rfl | hlt
  · exact le_rfl
  · exact hlt.le

/-- **Sizes are taken exactly, and written in the shortest way.** A text is taken for a number of bytes exactly if it
spells the number and the number is below 2^64, and every other text is refused as it stands. Each size has a text, which
is taken for that size, and any other text that is taken for the size has more bytes. -/
theorem taken_exactly_written_shortest :
    (∀ (raw : String) (b : ℕ),
      (∃ s : ByteSize, Scalar.parse raw = .ok s ∧ s.bytes.val = b) ↔ Spells raw.toList b ∧ b < 2 ^ 64) ∧
    (∀ (raw : String) (fault : TokenFault), (Scalar.parse raw : Except TokenFault ByteSize) = .error fault ↔
      fault = .unrecognized none "size" raw ∧ ∀ b, Spells raw.toList b → 2 ^ 64 ≤ b) ∧
    ∀ s : ByteSize, ∃ w, Scalar.write s = .ok w ∧ Scalar.parse w = .ok s ∧
      ∀ raw, Scalar.parse raw = .ok s → raw ≠ w → w.utf8ByteSize < raw.utf8ByteSize := by
  have hread : ∀ (raw : String) (s : ByteSize), Scalar.parse raw = .ok s ↔ Spells raw.toList s.bytes.val.toNat :=
    fun raw s => Scalar.parse_eq_ok.trans read?_eq_some_iff
  have htaken : ∀ (raw : String) (b : ℕ),
      (∃ s : ByteSize, Scalar.parse raw = .ok s ∧ s.bytes.val = b) ↔ Spells raw.toList b ∧ b < 2 ^ 64 := by
    intro raw b
    constructor
    · intro ⟨s, hs, hb⟩
      have hspells := (hread raw s).1 hs
      have hhigh : s.bytes.val ≤ 0xFFFFFFFFFFFFFFFF := s.bytes.le_high
      rw [hb, Int.toNat_natCast] at hspells
      exact ⟨hspells, by omega⟩
    · intro ⟨hspells, hlt⟩
      have hlow : IntegerType.u64.low ≤ (b : ℤ) := Int.natCast_nonneg b
      have hhigh : (b : ℤ) ≤ IntegerType.u64.high := by
        change (b : ℤ) ≤ 0xFFFFFFFFFFFFFFFF
        omega
      exact ⟨⟨⟨b, hlow, hhigh⟩⟩, (hread raw _).2 hspells, rfl⟩
  refine ⟨htaken, fun raw fault => ?_, fun s => ⟨s.text, rfl, Scalar.parse_eq_ok.2 s.read?_text, fun raw hraw hne => ?_⟩⟩
  · rw [Scalar.parse_eq_error_iff]
    refine and_congr_right fun _ => ⟨fun hnone b hspells => ?_, fun hlarge s hs => ?_⟩
    · by_contra hlt
      obtain ⟨s, hs, -⟩ := (htaken raw b).2 ⟨hspells, not_le.1 hlt⟩
      exact hnone s (Scalar.parse_eq_ok.1 hs)
    · have hlow : 0 ≤ s.bytes.val := s.bytes.low_le
      have hhigh : s.bytes.val ≤ 0xFFFFFFFFFFFFFFFF := s.bytes.le_high
      have hsize := hlarge _ (read?_eq_some_iff.1 hs)
      omega
  · exact (eq_text_or_utf8ByteSize_lt (Scalar.parse_eq_ok.1 hraw)).resolve_left hne

end Hypervisor.ByteSize
