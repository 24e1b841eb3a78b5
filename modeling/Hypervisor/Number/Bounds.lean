/-
Order and sums of binary64 numbers, and the ranges of whole numbers as they are told by them.

A number is in a range if it is not less than the least member and is less than the greatest member plus one, all as
binary64 numbers. The greatest member of a 64-bit range is no such number: it rounds up to the next power of two, and
the one that is added to it is rounded away.
-/
import Hypervisor.Number.Nearest
import Hypervisor.Number.Ranged

namespace Hypervisor

namespace Double

/-! ## Order -/

/-- numeric order: the two zeros are equal, and NaN compares with nothing -/
def compare? : Double → Double → Option Ordering
  | finite a m, finite b n =>
    some (compare (if a then -(units m : Int) else units m) (if b then -(units n : Int) else units n))
  | infinite a, infinite b => some (compare b a)
  | infinite a, finite _ _ => some (if a then .lt else .gt)
  | finite _ _, infinite b => some (if b then .gt else .lt)
  | _, _ => none

def isLess (x y : Double) : Bool := (compare? x y).any Ordering.isLT

def isAtLeast (x y : Double) : Bool := (compare? x y).any Ordering.isGE

/-! ## Sums -/

/-- the number nearest to a whole count of units -/
def ofUnits (u : Int) : Double := ofRank (decide (u < 0)) (nearestRank u.natAbs 1)

/-- the number nearest to a whole number -/
def ofInt (n : Int) : Double := ofUnits (n * unitsPerOne)

/-- the sum, rounded to nearest; a sum of zero has a minus sign only if both numbers have it -/
protected def add : Double → Double → Double
  | finite a m, finite b n =>
    let sum := (if a then -(units m : Int) else units m) + (if b then -(units n : Int) else units n)
    if sum = 0 then ofRank (a && b) 0 else ofUnits sum
  | infinite a, infinite b => if a = b then infinite a else nan
  | infinite a, finite _ _ => infinite a
  | finite _ _, infinite b => infinite b
  | _, _ => nan

end Double

namespace IntegerType

/-- the least member as a number -/
def least (t : IntegerType) : Double := .ofInt t.low

/-- the greatest member as a number, plus one -/
def limit (t : IntegerType) : Double := (Double.ofInt t.high).add (.ofInt 1)

end IntegerType

end Hypervisor
