/-
What a node reports: a value for each property it names.

A report is loosely typed. Flags arrive as the numbers 0 and 1, structure arrives as text, and a property may be named
without a value. `Value.render` is the form in which diagnostics show a value.
-/
import Hypervisor.Json
import Hypervisor.Number.Shortest
import Hypervisor.Table
import Hypervisor.Text.Quoted

namespace Hypervisor

/-- the value of one reported property -/
inductive Value where
  | text (s : String)
  | number (x : Double)
  | sequence (items : List Value)
  | absent

/-- property names with their values -/
abbrev Report := Table String Value

namespace Value

/-- the name of the shape, for diagnostics -/
def shape : Value → String
  | text _ => "string"
  | number _ => "number"
  | sequence _ => "sequence"
  | absent => "nothing"

def isAbsent : Value → Bool
  | absent => true
  | _ => false

def text? : Value → Option String
  | text s => some s
  | _ => none

def number? : Value → Option Double
  | number x => some x
  | _ => none

/-! ## Rendering -/

mutual

/-- text in quotes, a number by its digits, a sequence in brackets -/
def render : Value → String
  | text s => Text.quoted s
  | number x => x.toText
  | sequence items => "[" ++ renderItems items ++ "]"
  | absent => "<absent>"

/-- the items of a sequence with a comma and a space between them -/
def renderItems : List Value → String
  | [] => ""
  | [x] => render x
  | x :: y :: rest => render x ++ ", " ++ renderItems (y :: rest)

end

/-- what a diagnostic keeps of a value: its rendering, and nothing of the value itself -/
structure Shown where
  render : String
deriving DecidableEq, Repr

def shown (v : Value) : Shown := ⟨v.render⟩

/-! ## Equality -/

mutual

/-- the same shape and content, numbers compared as numbers -/
def agrees : Value → Value → Bool
  | text a, text b => a == b
  | number a, number b => a == b
  | sequence a, sequence b => agreesItems a b
  | absent, absent => true
  | _, _ => false

def agreesItems : List Value → List Value → Bool
  | [], [] => true
  | a :: s, b :: t => agrees a b && agreesItems s t
  | _, _ => false

end

instance : BEq Value := ⟨agrees⟩

/-! ## From JSON -/

mutual

/-- flags become 0 and 1; nested objects are not carried -/
def ofJson : Json → Value
  | .null => absent
  | .bool b => number (if b then Double.ofRank false 0x3FF0000000000000 else Double.zero)
  | .number d => number (Double.ofDecimal d)
  | .text s => text s
  | .array items => sequence (ofJsonItems items)
  | .object _ => absent

def ofJsonItems : List Json → List Value
  | [] => []
  | x :: rest => ofJson x :: ofJsonItems rest

end

end Value

namespace Report

/-- the members of a JSON object -/
def ofJson? : Json → Option Report
  | .object members => some (Table.ofList (members.map fun m => (m.1, Value.ofJson m.2)))
  | _ => none

/-- text values from pairs -/
def ofPairs (pairs : List (String × String)) : Report :=
  Table.ofList (pairs.map fun p => (p.1, Value.text p.2))

end Report

end Hypervisor
