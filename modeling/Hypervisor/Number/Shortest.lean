/-
The text of a binary64 number: the fewest decimal digits that read back to it, written positionally.

The reals that round to a number reach from halfway to the neighbour below to halfway to the neighbour above, ends
included exactly when the magnitude is even. For 1, 2, … 17 digits the two neighbours of the value on that decimal grid
are tested against this interval; the first grid with a hit wins, of two hits the nearer, and an exact tie goes up.
-/
import Hypervisor.Number.Nearest

namespace Hypervisor

namespace Double

/-! ## The rounding interval -/

/-- compare `digits * 10^exponent` with `n / 2` units of 2^-1074, exactly -/
def compareHalfUnits (digits : Nat) (exponent : Int) (n : Nat) : Ordering :=
  compare (digits * powerOfTen exponent.toNat * (2 * unitsPerOne)) (n * powerOfTen (-exponent).toNat)

/-- the decimal lies among the reals that round to the magnitude of this rank -/
def readsBack (rank : Nat) (digits : Nat) (exponent : Int) : Bool :=
  let low := units (rank - 1) + units rank
  let high := units rank + units (rank + 1)
  let closed := rank % 2 == 0
  let atLow := compareHalfUnits digits exponent low
  let atHigh := compareHalfUnits digits exponent high
  (atLow == .gt || (closed && atLow == .eq)) && (atHigh == .lt || (closed && atHigh == .eq))

/-! ## Choosing digits -/

/-- the least power of ten above the value of a positive rank -/
def scale (rank : Nat) : Int :=
  (Nat.toDigits 10 (units rank * powerOfTen 330 / unitsPerOne)).length - 330

/-- the value of a rank divided by a power of ten, rounded down -/
def onGrid (rank : Nat) (exponent : Int) : Nat :=
  units rank * powerOfTen (-exponent).toNat / (unitsPerOne * powerOfTen exponent.toNat)

/-- the neighbour on the grid of this exponent that reads back, the nearer if both do -/
def hitOnGrid? (rank : Nat) (exponent : Int) : Option (Nat × Int) :=
  let below := onGrid rank exponent
  let hitBelow := readsBack rank below exponent
  let hitAbove := readsBack rank (below + 1) exponent
  if hitBelow && hitAbove then
    if compareHalfUnits (2 * below + 1) exponent (4 * units rank) == .gt then some (below, exponent)
    else some (below + 1, exponent)
  else if hitBelow then some (below, exponent)
  else if hitAbove then some (below + 1, exponent)
  else none

/-- the value of a rank as a decimal without rounding -/
def exactDecimal (rank : Nat) : Nat × Int := (units rank * Nat.pow 5 1074, -1074)

/-- the shortest decimal that reads back. Seventeen digits always suffice; past them stands the exact value. -/
def shortest (rank : Nat) : Nat × Int :=
  ((List.range 17).findSome? fun (n : Nat) => hitOnGrid? rank (scale rank - (n + 1 : Nat))).getD (exactDecimal rank)

/-! ## Layout -/

/-- the digits of a whole number with trailing zeros dropped -/
def trimZeros (s : List Char) : List Char := (s.reverse.dropWhile (· == '0')).reverse

/-- `digits * 10^exponent` written out: zeros up to the point, no point when nothing follows it -/
def positional (digits : Nat) (exponent : Int) : List Char :=
  let s := Nat.toDigits 10 digits
  if 0 ≤ exponent then s ++ List.replicate exponent.toNat '0'
  else
    let places := (-exponent).toNat
    let padded := List.replicate (places + 1 - s.length) '0' ++ s
    let fraction := trimZeros (padded.drop (padded.length - places))
    let whole := padded.take (padded.length - places)
    if fraction = [] then whole else whole ++ '.' :: fraction

/-- the text of a magnitude -/
def magnitudeText (rank : Nat) : List Char :=
  if rank = 0 then ['0'] else positional (shortest rank).1 (shortest rank).2

/-- the text of a number; NaN has no sign -/
def toText : Double → String
  | nan => "NaN"
  | infinite negative => if negative then "-inf" else "inf"
  | finite negative magnitude =>
    String.ofList ((if negative then ['-'] else []) ++ magnitudeText magnitude.val)

end Double

end Hypervisor
