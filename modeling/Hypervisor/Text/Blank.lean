/-
White space: the 25 characters with the White_Space property, and trimming a text at both ends.
-/
import Hypervisor.Text.Ranges

namespace Hypervisor.Text

/-- the White_Space property -/
def blankRanges : Ranges :=
  ⟨[(0x9, 0xD), (0x20, 0x20), (0x85, 0x85), (0xA0, 0xA0), (0x1680, 0x1680), (0x2000, 0x200A), (0x2028, 0x2029),
    (0x202F, 0x202F), (0x205F, 0x205F), (0x3000, 0x3000)], by decide⟩

def isBlank (c : Char) : Bool := blankRanges.has c

/-- the text without the blanks at either end -/
def trim (s : String) : String :=
  String.ofList ((s.toList.dropWhile isBlank).reverse.dropWhile isBlank).reverse

end Hypervisor.Text
