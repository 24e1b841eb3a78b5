/-
The memory of a guest and its balloon, in MiB.
-/
import Hypervisor.Record

namespace Hypervisor.Guest

/-- memory size, balloon target, and weight when memory is short -/
structure Memory where
  size : U64
  balloon : Option U64
  shares : Option U32
deriving DecidableEq, Repr

namespace Memory

def sizeProperty : Property U64 :=
  { name := "memory", presence := .default "512", check := some fun n => decide (16 ≤ n.val), emission := .omitDefault }

def balloonProperty : Property (Option U64) := { name := "balloon", presence := .optional, emission := .omitDefault }

def sharesProperty : Property (Option U32) :=
  { name := "shares", presence := .optional, emission := .omitDefault
    check := some fun shares => shares.all fun n => decide (n.val ≤ 50000) }

/-- a balloon device is there unless its target is zero -/
def ballooning (m : Memory) : Bool := !(m.balloon.any fun n => n.val == 0)

def decode (report : Report) : Except PropertyFault Memory := do
  let size ← sizeProperty.extract report
  let balloon ← balloonProperty.extract report
  let shares ← sharesProperty.extract report
  pure { size, balloon, shares }

def attributes (m : Memory) : List Attribute :=
  [sizeProperty.attribute m.size, balloonProperty.attribute m.balloon, sharesProperty.attribute m.shares]

instance : Record Memory where
  decode := decode
  attributes _ m := m.attributes

end Memory

end Hypervisor.Guest
