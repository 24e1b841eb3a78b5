/-
Scalars: values that are written as a single token.

Flags are `1` and `0`, whole numbers plain decimals without a plus sign, text is itself. Reading is partial and its
only fault is a token that is not recognised.
-/
import Hypervisor.Fault
import Hypervisor.Number.Ranged

namespace Hypervisor

/-- a type whose values are single tokens -/
class Scalar (α : Type) where
  /-- what diagnostics say was expected -/
  expected : String
  read? : String → Option α
  write : α → Except TokenFault String

namespace Scalar

/-- read a token -/
def parse {α : Type} [Scalar α] (raw : String) : Except TokenFault α :=
  match read? raw with
  | some a => .ok a
  | none => .error (.unrecognized none (expected α) raw)

end Scalar

/-! ## Flags and text -/

instance : Scalar Bool where
  expected := "boolean"
  read? raw := if raw = "1" then some true else if raw = "0" then some false else none
  write b := .ok (if b then "1" else "0")

instance : Scalar String where
  expected := "string"
  read? raw := some raw
  write s := .ok s

/-! ## Whole numbers -/

/-- one or more decimal digits, any number of leading zeros -/
def naturalOfDigits? (s : List Char) : Option Nat :=
  if s ≠ [] ∧ s.all Char.isDigit then some (Nat.ofDigitChars 10 s 0) else none

/-- the decimal of a whole number -/
def integerText (n : Int) : String :=
  String.ofList ((if n < 0 then ['-'] else []) ++ Nat.toDigits 10 n.natAbs)

/-- a whole number in the range of `t`; only signed types know a minus sign -/
def Ranged.read? (t : IntegerType) (raw : String) : Option (Ranged t) :=
  match raw.toList with
  | '-' :: digits =>
    if t.signed then (naturalOfDigits? digits).bind fun n => Ranged.ofInt? t (-n) else none
  | digits => (naturalOfDigits? digits).bind fun n => Ranged.ofInt? t n

instance (t : IntegerType) : Scalar (Ranged t) where
  expected := t.label
  read? := Ranged.read? t
  write n := .ok (integerText n.val)

end Hypervisor
