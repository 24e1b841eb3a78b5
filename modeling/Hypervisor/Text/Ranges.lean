/-
Sets of characters given by a standard: closed ranges of code points, ascending and apart.
-/

namespace Hypervisor.Text

/-- every range is non-empty and leaves a gap to the next one -/
def apart : List (Nat × Nat) → Bool
  | [] => true
  | [r] => r.1 ≤ r.2
  | r :: s :: t => r.1 ≤ r.2 && r.2 + 1 < s.1 && apart (s :: t)

/-- a set of characters as closed ranges of code points -/
structure Ranges where
  list : List (Nat × Nat)
  apart : apart list = true

/-- membership: some range holds the code point -/
def Ranges.has (t : Ranges) (c : Char) : Bool :=
  t.list.any fun r => r.1 ≤ c.toNat && c.toNat ≤ r.2

end Hypervisor.Text
