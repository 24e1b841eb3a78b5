/-
The binary64 number nearest to a decimal.

Rounding is to nearest, an exact tie going to the even magnitude; a value that rounds past the largest finite number is
infinite. Numerals are read from text by `Double.ofText?`: a sign, digits with an optional point, and a decimal
exponent, or one of the names of infinity and NaN in any case of letters.
-/
import Hypervisor.Number.Double

namespace Hypervisor

/-- a quotient rounded to a whole number, ties to the even neighbour -/
def roundHalfEven (num den : Nat) : Nat :=
  let q := num / den
  let r := num % den
  if 2 * r < den then q
  else if den < 2 * r then q + 1
  else if q % 2 = 0 then q else q + 1

/-- ten multiplied by itself `n` times -/
def powerOfTen (n : Nat) : Nat := Nat.pow 10 n

/-- a decimal: sign, digits, power of ten -/
structure Decimal where
  negative : Bool
  digits : Nat
  exponent : Int
deriving DecidableEq, Repr

namespace Double

/-- the rank of the magnitude nearest to `num / den` units of 2^-1074 -/
def nearestRank (num den : Nat) : Nat :=
  let k := (num / den).log2 - 52
  k * binade + roundHalfEven num (den <<< k)

/-- the finite number of this rank, or infinity from the first rank that is not finite -/
def ofRank (negative : Bool) (rank : Nat) : Double :=
  if h : rank < finiteCount then .finite negative ⟨rank, h⟩ else .infinite negative

/-- the nearest number. Values of 10^310 and above and below 10^-330 need no arithmetic: they lie far outside the
finite range and far below half of the least magnitude. -/
def ofDecimal (d : Decimal) : Double :=
  if d.digits = 0 then ofRank d.negative 0
  else
    let count : Int := (Nat.toDigits 10 d.digits).length
    if 310 < count + d.exponent then .infinite d.negative
    else if count + d.exponent < -330 then ofRank d.negative 0
    else
      let num := d.digits * powerOfTen d.exponent.toNat * unitsPerOne
      let den := powerOfTen (-d.exponent).toNat
      ofRank d.negative (nearestRank num den)

end Double

/-! ## Numerals -/

namespace Decimal

/-- the digits at the head of a text, and the rest -/
def spanDigits (s : List Char) : List Char × List Char := (s.takeWhile Char.isDigit, s.dropWhile Char.isDigit)

/-- an exponent mark with its optionally signed digits, or nothing at all -/
def exponentOf? : List Char → Option Int
  | [] => some 0
  | c :: rest =>
    if c = 'e' ∨ c = 'E' then
      let (negative, digits) := match rest with
        | '-' :: r => (true, r)
        | '+' :: r => (false, r)
        | r => (false, r)
      if digits ≠ [] ∧ digits.all Char.isDigit then
        let n : Int := Nat.ofDigitChars 10 digits 0
        some (if negative then -n else n)
      else none
    else none

/-- digits with an optional point, one side of which may be empty, and an optional exponent -/
def ofText? (negative : Bool) (s : List Char) : Option Decimal :=
  let (whole, rest) := spanDigits s
  let (fraction, tail) := match rest with
    | '.' :: r => spanDigits r
    | r => ([], r)
  if whole = [] ∧ fraction = [] then none
  else (exponentOf? tail).map fun e =>
    ⟨negative, Nat.ofDigitChars 10 (whole ++ fraction) 0, e - fraction.length⟩

end Decimal

namespace Double

/-- a name of infinity or NaN, or the nearest number to a numeral -/
def ofUnsignedText? (negative : Bool) (s : List Char) : Option Double :=
  let lower := s.map Char.toLower
  if lower = "inf".toList ∨ lower = "infinity".toList then some (.infinite negative)
  else if lower = "nan".toList then some .nan
  else (Decimal.ofText? negative s).map ofDecimal

/-- the number a text stands for, after an optional sign -/
def ofText? : List Char → Option Double
  | '-' :: rest => ofUnsignedText? true rest
  | '+' :: rest => ofUnsignedText? false rest
  | rest => ofUnsignedText? false rest

end Double

end Hypervisor
