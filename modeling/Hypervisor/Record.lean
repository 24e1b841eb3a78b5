/-
Records: resources that are read from a report property by property and written as a form attribute by attribute, both
in declaration order. Identity properties that cannot change are attributes of a create only.
-/
import Hypervisor.Form

namespace Hypervisor

/-- a resource with a report and a form -/
class Record (α : Type) where
  /-- read the properties in order; the first that cannot be read is the fault -/
  decode : Report → Except PropertyFault α
  /-- the attributes of a form in order -/
  attributes : Mode → α → List Attribute

/-- the form of a record -/
def Record.form {α : Type} [Record α] (mode : Mode) (a : α) : Except EncodeFault Form :=
  Form.ofAttributes mode (Record.attributes mode a)

end Hypervisor
