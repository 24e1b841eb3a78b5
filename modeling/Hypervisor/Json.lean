/-
JSON documents, read from text. Numbers keep their decimal, members of an object their written order. A document is
refused if a number lies beyond the finite binary64 range, an escape names half of a surrogate pair, a string holds a
bare control character, arrays and objects nest deeper than the reader allows, or anything but blanks follows it.
-/
import Hypervisor.Number.Nearest
import Hypervisor.Text.Hex

namespace Hypervisor

/-- a JSON document -/
inductive Json where
  | null
  | bool (b : Bool)
  | number (d : Decimal)
  | text (s : String)
  | array (items : List Json)
  | object (members : List (String × Json))

namespace Json

/-- the member of an object with this name; of several the last -/
def get? (name : String) : Json → Option Json
  | object members => members.reverse.lookup name
  | _ => none

/-! ## Reading -/

/-- blanks between tokens -/
def skipBlanks (s : List Char) : List Char :=
  s.dropWhile fun c => c == ' ' || c == '\t' || c == '\n' || c == '\r'

/-- four hexadecimal digits, and the rest -/
def fourHex? : List Char → Option (Nat × List Char)
  | a :: b :: c :: d :: rest => (Text.hex? [a, b, c, d]).map fun n => (n, rest)
  | _ => none

/-- a code point escape after its `u`: one unit, or the two units of a surrogate pair -/
def codePoint? (s : List Char) : Option (Char × List Char) := do
  let (high, rest) ← fourHex? s
  if 0xD800 ≤ high ∧ high < 0xDC00 then
    match rest with
    | '\\' :: 'u' :: tail =>
      let (low, rest) ← fourHex? tail
      if 0xDC00 ≤ low ∧ low < 0xE000 then
        pure (Char.ofNat (0x10000 + (high - 0xD800) * 0x400 + (low - 0xDC00)), rest)
      else none
    | _ => none
  else if 0xDC00 ≤ high ∧ high < 0xE000 then none
  else pure (Char.ofNat high, rest)

/-- an escape after its backslash -/
def escape? : List Char → Option (Char × List Char)
  | '"' :: rest => some ('"', rest)
  | '\\' :: rest => some ('\\', rest)
  | '/' :: rest => some ('/', rest)
  | 'b' :: rest => some ('\x08', rest)
  | 'f' :: rest => some ('\x0c', rest)
  | 'n' :: rest => some ('\n', rest)
  | 'r' :: rest => some ('\r', rest)
  | 't' :: rest => some ('\t', rest)
  | 'u' :: rest => codePoint? rest
  | _ => none

/-- a string after its opening quote; `read` holds what came before, last character first -/
def string? : Nat → List Char → List Char → Option (String × List Char)
  | 0, _, _ => none
  | _ + 1, _, [] => none
  | fuel + 1, read, c :: rest =>
    if c = '"' then some (String.ofList read.reverse, rest)
    else if c = '\\' then
      match escape? rest with
      | some (x, rest) => string? fuel (x :: read) rest
      | none => none
    else if c.toNat < 0x20 then none
    else string? fuel (c :: read) rest

/-- the digits of a fraction after its point: at least one -/
def fraction? : List Char → Option (List Char × List Char)
  | '.' :: rest =>
    let (digits, tail) := Decimal.spanDigits rest
    if digits = [] then none else some (digits, tail)
  | rest => some ([], rest)

/-- an exponent with at least one digit, or nothing -/
def exponent? : List Char → Option (Int × List Char)
  | [] => some (0, [])
  | c :: rest =>
    if c = 'e' ∨ c = 'E' then
      let (negative, unsigned) := match rest with
        | '-' :: r => (true, r)
        | '+' :: r => (false, r)
        | r => (false, r)
      let (digits, tail) := Decimal.spanDigits unsigned
      if digits = [] then none
      else
        let n : Int := Nat.ofDigitChars 10 digits 0
        some (if negative then -n else n, tail)
    else some (0, c :: rest)

/-- a number: no zero in front of other digits, digits on both sides of a point -/
def number? (s : List Char) : Option (Decimal × List Char) := do
  let (negative, unsigned) := match s with
    | '-' :: r => (true, r)
    | r => (false, r)
  let (whole, rest) := Decimal.spanDigits unsigned
  if whole = [] ∨ (1 < whole.length ∧ whole.head? = some '0') then none
  else
    let (fraction, rest) ← fraction? rest
    let (exponent, rest) ← exponent? rest
    let d : Decimal := ⟨negative, Nat.ofDigitChars 10 (whole ++ fraction) 0, exponent - fraction.length⟩
    if (Double.ofDecimal d).isFinite then pure (d, rest) else none

mutual

/-- a document with at most `depth` levels of nesting -/
def value? (depth : Nat) : Nat → List Char → Option (Json × List Char)
  | 0, _ => none
  | fuel + 1, s =>
    match skipBlanks s with
    | 'n' :: 'u' :: 'l' :: 'l' :: rest => some (null, rest)
    | 't' :: 'r' :: 'u' :: 'e' :: rest => some (bool true, rest)
    | 'f' :: 'a' :: 'l' :: 's' :: 'e' :: rest => some (bool false, rest)
    | '"' :: rest => (string? fuel [] rest).map fun p => (text p.1, p.2)
    | '[' :: rest =>
      match depth with
      | 0 => none
      | depth + 1 =>
        match skipBlanks rest with
        | ']' :: rest => some (array [], rest)
        | _ => (items? depth fuel rest).map fun p => (array p.1, p.2)
    | '{' :: rest =>
      match depth with
      | 0 => none
      | depth + 1 =>
        match skipBlanks rest with
        | '}' :: rest => some (object [], rest)
        | _ => (members? depth fuel rest).map fun p => (object p.1, p.2)
    | rest => (number? rest).map fun p => (number p.1, p.2)

/-- one or more items up to the closing bracket -/
def items? (depth : Nat) : Nat → List Char → Option (List Json × List Char)
  | 0, _ => none
  | fuel + 1, s =>
    match value? depth fuel s with
    | none => none
    | some (x, rest) =>
      match skipBlanks rest with
      | ',' :: rest => (items? depth fuel rest).map fun p => (x :: p.1, p.2)
      | ']' :: rest => some ([x], rest)
      | _ => none

/-- one or more members up to the closing brace -/
def members? (depth : Nat) : Nat → List Char → Option (List (String × Json) × List Char)
  | 0, _ => none
  | fuel + 1, s =>
    match skipBlanks s with
    | '"' :: rest =>
      match string? fuel [] rest with
      | none => none
      | some (name, rest) =>
        match skipBlanks rest with
        | ':' :: rest =>
          match value? depth fuel rest with
          | none => none
          | some (x, rest) =>
            match skipBlanks rest with
            | ',' :: rest => (members? depth fuel rest).map fun p => ((name, x) :: p.1, p.2)
            | '}' :: rest => some ([(name, x)], rest)
            | _ => none
        | _ => none
    | _ => none

end

/-- how deep arrays and objects nest in a file -/
def maxDepth : Nat := 127

/-- the document that a whole text is, nested at most `depth` levels deep -/
def parse? (depth : Nat) (s : String) : Option Json :=
  match value? depth (2 * s.toList.length + 2) s.toList with
  | some (x, rest) => if skipBlanks rest = [] then some x else none
  | none => none

end Json

end Hypervisor
