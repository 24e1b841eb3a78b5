/-
Binary64 numbers as exact values.

A finite number is a sign and a magnitude. Magnitudes are counted in ascending order from zero, so the magnitude is at
once the rank of the number and, with the sign above it, its bit pattern; every finite value is a whole multiple of
2^-1074, which makes sums, comparisons and divisibility exact statements on natural numbers.
-/

namespace Hypervisor

/-- the rank of infinity: the magnitudes below it are finite -/
abbrev Double.finiteCount : Nat := 0x7FF0000000000000

/-- the sign as a bit of the pattern: 2^63 -/
abbrev Double.signBit : Nat := 0x8000000000000000

/-- how many ranks lie between one power of two and the next: 2^52 -/
abbrev Double.binade : Nat := 0x10000000000000

/-- a binary64 number; all NaN patterns are one value -/
inductive Double where
  | nan
  | infinite (negative : Bool)
  | finite (negative : Bool) (magnitude : Fin Double.finiteCount)

namespace Double

/-! ## Bit patterns -/

/-- the number of a 64-bit pattern -/
def ofBits (bits : Nat) : Double :=
  let negative := bits / signBit % 2 == 1
  let magnitude := bits % signBit
  if h : magnitude < finiteCount then .finite negative ⟨magnitude, h⟩
  else if magnitude = finiteCount then .infinite negative
  else .nan

/-- the pattern of a number; NaN has many, so none -/
def bits? : Double → Option Nat
  | nan => none
  | infinite negative => some ((if negative then signBit else 0) + finiteCount)
  | finite negative magnitude => some ((if negative then signBit else 0) + magnitude.val)

/-! ## Values -/

/-- how many units of 2^-1074 make up one -/
def unitsPerOne : Nat := 1 <<< 1074

/-- the value of the `n`-th magnitude in units of 2^-1074: the ranks of the first two binades count units one by one,
and each further binade doubles the step -/
def units (n : Nat) : Nat :=
  if n < 2 * binade then n else (binade + n % binade) <<< (n / binade - 1)

def zero : Double := .finite false ⟨0, by decide⟩

def isFinite : Double → Bool
  | finite _ _ => true
  | _ => false

def isNan : Double → Bool
  | nan => true
  | _ => false

/-- zero of either sign -/
def isZero : Double → Bool
  | finite _ magnitude => magnitude.val == 0
  | _ => false

/-- the exact value in units of 2^-1074, if there is one -/
def signedUnits? : Double → Option Int
  | finite negative magnitude => some (if negative then -(units magnitude) else units magnitude)
  | _ => none

/-- the exact value, if it is a whole number -/
def integer? (x : Double) : Option Int :=
  x.signedUnits?.bind fun u => if u % unitsPerOne = 0 then some (u / unitsPerOne) else none

/-- the value lies between two whole numbers, ends included -/
def between (low high : Int) (x : Double) : Bool :=
  match x.signedUnits? with
  | some u => low * unitsPerOne ≤ u && u ≤ high * unitsPerOne
  | none => false

/-- numeric equality: the two zeros are equal, and NaN equals nothing -/
protected def beq : Double → Double → Bool
  | infinite a, infinite b => a == b
  | finite a m, finite b n => m == n && (a == b || m.val == 0)
  | _, _ => false

instance : BEq Double := ⟨Double.beq⟩

/-- the same number with the other sign -/
def negate : Double → Double
  | nan => nan
  | infinite negative => infinite !negative
  | finite negative magnitude => finite (!negative) magnitude

end Double

end Hypervisor
