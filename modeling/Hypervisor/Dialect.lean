/-
Dialects of packed properties. A packed property is one text that holds several entries; a dialect fixes the character
between entries, the character between the key and the value of an entry, and whether a key may stand alone.
-/

namespace Hypervisor

/-- separators and the rule for bare keys -/
structure Dialect where
  listSeparator : Char
  entrySeparator : Char
  allowBare : Bool
deriving DecidableEq, Repr

namespace Dialect

/-- `a,b=c`: most packed properties -/
def propertyString : Dialect := ⟨',', '=', true⟩

/-- `a=b,c=d`: every entry carries a value -/
def strict : Dialect := ⟨',', '=', false⟩

/-- `+aes;-pcid`: switches inside a single value -/
def flagList : Dialect := ⟨';', '=', true⟩

/-- `pve1:2,pve2`: nodes with optional priorities -/
def nodePriority : Dialect := ⟨',', ':', true⟩

end Dialect

end Hypervisor
