/-
Sizes in bytes, written with a binary unit: `32G`, `512M`, `4096`. Writing uses the largest unit that divides the size.
-/
import Hypervisor.Scalar

namespace Hypervisor

/-- a size in bytes, below 2^64 -/
structure ByteSize where
  bytes : U64
deriving DecidableEq, Repr

namespace ByteSize

def mebibyte : Nat := 1024 * 1024

def gibibyte : Nat := 1024 * mebibyte

/-- the units by their letter, largest first -/
def units : List (Char × Nat) := [('T', 1024 * gibibyte), ('G', gibibyte), ('M', mebibyte), ('K', 1024)]

/-- a size of this many bytes, if it is in range -/
def ofBytes? (n : Nat) : Option ByteSize := (Ranged.ofInt? .u64 n).map ByteSize.mk

def ofMebibytes? (n : Nat) : Option ByteSize := ofBytes? (n * mebibyte)

def ofGibibytes? (n : Nat) : Option ByteSize := ofBytes? (n * gibibyte)

/-- digits with at most one unit behind them -/
def read? (raw : String) : Option ByteSize :=
  let s := raw.toList
  match s.getLast? with
  | none => none
  | some c =>
    if c.isDigit then (naturalOfDigits? s).bind ofBytes?
    else (units.lookup c).bind fun unit => (naturalOfDigits? s.dropLast).bind fun n => ofBytes? (n * unit)

/-- the count in the largest unit that divides the size, with the unit's letter; zero has no unit -/
def text (s : ByteSize) : String :=
  let n := s.bytes.val.toNat
  match if n = 0 then none else units.find? fun u => n % u.2 = 0 with
  | some u => String.ofList (Nat.toDigits 10 (n / u.2) ++ [u.1])
  | none => String.ofList (Nat.toDigits 10 n)

instance : Scalar ByteSize where
  expected := "size"
  read? := read?
  write s := .ok s.text

end ByteSize

end Hypervisor
