/-
Hexadecimal digits, in either case of letters.
-/

namespace Hypervisor.Text

/-- the value of a hexadecimal digit -/
def hexDigit? (c : Char) : Option Nat :=
  if '0' ≤ c ∧ c ≤ '9' then some (c.toNat - '0'.toNat)
  else if 'a' ≤ c ∧ c ≤ 'f' then some (c.toNat - 'a'.toNat + 10)
  else if 'A' ≤ c ∧ c ≤ 'F' then some (c.toNat - 'A'.toNat + 10)
  else none

/-- the number that digits stand for, after those whose number is `acc` -/
def hexFrom? (acc : Nat) : List Char → Option Nat
  | [] => some acc
  | c :: rest => (hexDigit? c).bind fun d => hexFrom? (16 * acc + d) rest

/-- the number of one or more digits -/
def hex? (s : List Char) : Option Nat := if s = [] then none else hexFrom? 0 s

end Hypervisor.Text
