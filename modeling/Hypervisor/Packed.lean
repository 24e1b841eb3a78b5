/-
Records packed into one property, such as a disk (`local-lvm:vm-100-disk-0,size=32G`) or a network card. A packed
record is read from the entries of its text and laid out as entries, positional ones first; a fault inside of it is
reported with both the outer property and the inner key.
-/
import Hypervisor.Property

namespace Hypervisor

/-- a record with a layout as entries -/
class Packed (α : Type) where
  /-- the dialect of its text -/
  dialect : Dialect
  ofEntries : EntryList → Except PropertyFault α
  toEntries : α → Except TokenFault EntryList

instance {α : Type} [Packed α] : Wire α where
  dialect := Packed.dialect α
  decode d v := do
    let list ← Wire.decode (α := EntryList) d v
    (Packed.ofEntries list).mapError .entry
  encode d a := (Packed.toEntries a).map fun list => some (list.write d)
  isZero _ := false
  absent := none

namespace Attribute

/-- the entry of an attribute: one if there is a text to send, otherwise none -/
def entries (a : Attribute) : Except TokenFault (List Entry) :=
  a.outcome.map fun
    | .send text => [⟨a.name, some text⟩]
    | _ => []

end Attribute

namespace EntryList

/-- positional entries followed by the entries of attributes -/
def layOut (positional : List Entry) (attributes : List Attribute) : Except TokenFault EntryList := do
  let entries ← attributes.mapM Attribute.entries
  pure ⟨positional ++ entries.flatten⟩

/-- add what one attribute sends -/
def pushAttribute (l : EntryList) (a : Attribute) : Except TokenFault EntryList :=
  a.entries.map fun entries => ⟨l.entries ++ entries⟩

end EntryList

end Hypervisor
