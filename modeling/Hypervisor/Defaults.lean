/-
Defaults by kind. Resources of one family share their properties and differ in defaults; a table of defaults holds the
differences, a token for a kind and a property, and of several rows for the same pair the last one stands.
-/
import Hypervisor.Property

namespace Hypervisor

/-- default tokens by kind and property -/
structure DefaultTable (κ : Type) where
  rows : List ((κ × String) × String)

namespace DefaultTable

variable {κ : Type} [DecidableEq κ]

/-- the default of a property for this kind -/
def token? (t : DefaultTable κ) (kind : κ) (property : String) : Option String :=
  t.rows.reverse.lookup (kind, property)

/-- the property with the default of this kind, if there is one -/
def apply {α : Type} (t : DefaultTable κ) (kind : κ) (p : Property α) : Property α :=
  p.orDefault (t.token? kind p.name)

/-- how many pairs of kind and property have a default -/
def size (t : DefaultTable κ) : Nat := (t.rows.map (·.1)).eraseDups.length

end DefaultTable

end Hypervisor
