/-
Whole numbers with a declared range: the eight fixed-width integer types of property values, and the width of a length.
-/

namespace Hypervisor

/-- a declared range of whole numbers -/
inductive IntegerType where
  | u8 | u16 | u32 | u64 | length
  | i8 | i16 | i32 | i64
deriving DecidableEq, Repr

namespace IntegerType

/-- the name that diagnostics use -/
def label : IntegerType → String
  | u8 => "u8" | u16 => "u16" | u32 => "u32" | u64 => "u64" | length => "usize"
  | i8 => "i8" | i16 => "i16" | i32 => "i32" | i64 => "i64"

/-- whether a minus sign may be written -/
def signed : IntegerType → Bool
  | u8 | u16 | u32 | u64 | length => false
  | i8 | i16 | i32 | i64 => true

/-- the least member -/
def low : IntegerType → Int
  | u8 | u16 | u32 | u64 | length => 0
  | i8 => -0x80
  | i16 => -0x8000
  | i32 => -0x80000000
  | i64 => -0x8000000000000000

/-- the greatest member -/
def high : IntegerType → Int
  | u8 => 0xFF
  | u16 => 0xFFFF
  | u32 => 0xFFFFFFFF
  | u64 | length => 0xFFFFFFFFFFFFFFFF
  | i8 => 0x7F
  | i16 => 0x7FFF
  | i32 => 0x7FFFFFFF
  | i64 => 0x7FFFFFFFFFFFFFFF

end IntegerType

/-- a whole number within the range of `t` -/
structure Ranged (t : IntegerType) where
  val : Int
  low_le : t.low ≤ val
  le_high : val ≤ t.high
deriving DecidableEq

namespace Ranged

variable {t : IntegerType}

instance : Repr (Ranged t) := ⟨fun n p => reprPrec n.val p⟩

/-- the number as a member of the range, if it is one -/
def ofInt? (t : IntegerType) (n : Int) : Option (Ranged t) :=
  if h : t.low ≤ n ∧ n ≤ t.high then some ⟨n, h.1, h.2⟩ else none

/-- the member of the range closest to the number -/
def clamp (t : IntegerType) (n : Int) : Ranged t :=
  have h : t.low ≤ t.high := by cases t <;> decide
  ⟨max t.low (min n t.high), by omega, by omega⟩

theorem ofInt?_eq_some_iff {n : Int} {k : Ranged t} : ofInt? t n = some k ↔ k.val = n := by
  unfold ofInt?
  constructor
  · split
    · rintro ⟨⟩; rfl
    · simp
  · rintro rfl
    rw [dif_pos ⟨k.low_le, k.le_high⟩]

@[simp] theorem ofInt?_val (k : Ranged t) : ofInt? t k.val = some k := ofInt?_eq_some_iff.2 rfl

end Ranged

abbrev U8 := Ranged .u8
abbrev U16 := Ranged .u16
abbrev U32 := Ranged .u32
abbrev U64 := Ranged .u64

end Hypervisor
