/-
Quoted text in diagnostics. A text stands between two double quotes, a character between two single quotes; the mark
that delimits, the backslash, and whatever would not show as itself are written as escapes.
-/
import Hypervisor.Text.Unprintable
import Hypervisor.Text.Combining

namespace Hypervisor.Text

/-- an escape by code point, lower-case hexadecimal without padding -/
def codePointEscape (c : Char) : List Char :=
  '\\' :: 'u' :: '{' :: Nat.toDigits 16 c.toNat ++ ['}']

/-- one character inside a pair of `mark`s -/
def escape (mark c : Char) : List Char :=
  if c = '\x00' then ['\\', '0']
  else if c = '\t' then ['\\', 't']
  else if c = '\r' then ['\\', 'r']
  else if c = '\n' then ['\\', 'n']
  else if c = '\\' then ['\\', '\\']
  else if c = mark then ['\\', mark]
  else if isCombining c || isUnprintable c then codePointEscape c
  else [c]

/-- a text between double quotes -/
def quoted (s : String) : String :=
  String.ofList ('"' :: s.toList.flatMap (escape '"') ++ ['"'])

/-- a character between single quotes -/
def quotedChar (c : Char) : String :=
  String.ofList ('\'' :: escape '\'' c ++ ['\''])

end Hypervisor.Text
