/-
Descriptions of properties: the name, what a missing value means, a check and a transform on values, the dialect of
packed values, and when the value is sent.

`Property.resolve` reads a property, present or missing; `Property.outcome` decides what is sent for a value. A present
value is checked, a default is not, and a transform runs last on both.
-/
import Hypervisor.Wire

namespace Hypervisor

/-- what a missing value means -/
inductive Presence where
  /-- a fault -/
  | required
  /-- the absent value of the type -/
  | optional
  /-- this token, read like a present value -/
  | default (token : String)
deriving DecidableEq, Repr

/-- when a value is sent -/
inductive Emission where
  /-- whenever there is a text -/
  | always
  /-- not when it is the default, or carries nothing where there is no default; an update deletes the property then -/
  | omitDefault
  /-- not at all: the property belongs to the node -/
  | never
deriving DecidableEq, Repr

/-- the description of a property with values of type `α` -/
structure Property (α : Type) where
  name : String
  presence : Presence
  check : Option (α → Bool) := none
  transform : Option (α → α) := none
  dialect : Option Dialect := none
  emission : Emission := .always

namespace Property

variable {α : Type}

/-- the token of the default, if there is one -/
def default? (p : Property α) : Option String :=
  match p.presence with
  | .default token => some token
  | _ => none

/-- the same property with another default, where one is given -/
def orDefault (p : Property α) (default : Option String) : Property α :=
  match default with
  | some token => { p with presence := .default token }
  | none => p

/-- the dialect that holds for the property: its own, else that of the type -/
def effectiveDialect [Wire α] (p : Property α) : Dialect := p.dialect.getD (Wire.dialect α)

/-! ## Reading -/

/-- read a value, or blame the property -/
def decode [Wire α] (p : Property α) (v : Value) : Except PropertyFault α :=
  (Wire.decode p.effectiveDialect v).mapError (PropertyFault.reject p.name v)

/-- read a present value and check it -/
def decodePresent [Wire α] (p : Property α) (v : Value) : Except PropertyFault α := do
  let a ← p.decode v
  if (p.check.map (· a)).getD true then .ok a else .error (.reject p.name v .failedCheck)

/-- what a missing value stands for -/
def missing [Wire α] (p : Property α) : Except PropertyFault α :=
  match p.presence with
  | .required => .error (.missing p.name)
  | .optional =>
    match Wire.absent (α := α) with
    | some a => .ok a
    | none => .error (.missing p.name)
  | .default token => p.decode (.text token)

/-- read a value that was looked up; an absent value counts as missing -/
def resolve [Wire α] (p : Property α) (found : Option Value) : Except PropertyFault α := do
  let a ←
    match found with
    | none | some .absent => p.missing
    | some v => p.decodePresent v
  pure (p.transform.getD id a)

/-- read the property from a report -/
def extract [Wire α] (p : Property α) (report : Report) : Except PropertyFault α :=
  p.resolve (report.get? p.name)

/-- read the property from the entries of a packed one; a bare key counts as missing -/
def extractEntry [Wire α] (p : Property α) (list : EntryList) : Except PropertyFault α :=
  p.resolve ((list.get? p.name).map .text)

/-! ## Writing -/

/-- what is done about a property in a form -/
inductive Outcome where
  /-- send this text -/
  | send (text : String)
  /-- the default or nothing: leave it out of a create, delete it in an update -/
  | omit
  /-- nothing to say -/
  | skip
deriving DecidableEq, Repr

/-- what is done about a value. With a default, only the text of the default is redundant: an empty value differs from
it, and an unset one cannot be sent while leaving it out would bring the default back. -/
def outcome [Wire α] (p : Property α) (a : α) : Except TokenFault Outcome :=
  let text := Wire.encode p.effectiveDialect a
  match p.emission with
  | .never => .ok .skip
  | .always => text.map fun t => (t.map Outcome.send).getD .skip
  | .omitDefault =>
    match p.default? with
    | some default =>
      text.bind fun
        | some t => .ok (if t = default then .omit else .send t)
        | none => .error (.unsetOverDefault default)
    | none => if Wire.isZero a then .ok .omit else text.map fun t => (t.map Outcome.send).getD .omit

/-! ## Description -/

/-- a one-line account of the description, functions shown by their presence only -/
def describe (p : Property α) : String :=
  let flag (b : Bool) : String := if b then "true" else "false"
  let presence := match p.presence with
    | .required => "Required"
    | .optional => "Optional"
    | .default token => "Default(" ++ Text.quoted token ++ ")"
  let dialect := match p.dialect with
    | none => "None"
    | some d =>
      "Some(Grammar \x7b list_separator: " ++ Text.quotedChar d.listSeparator ++ ", entry_separator: " ++
        Text.quotedChar d.entrySeparator ++ ", allow_bare_key: " ++ flag d.allowBare ++ " \x7d)"
  let emission := match p.emission with
    | .always => "Always"
    | .omitDefault => "OmitIfZeroOrDefault"
    | .never => "NeverEmit"
  "FieldSpec \x7b name: " ++ Text.quoted p.name ++ ", presence: " ++ presence ++ ", validator: " ++
    flag p.check.isSome ++ ", transform: " ++ flag p.transform.isSome ++ ", grammar: " ++ dialect ++ ", emit: " ++
    emission ++ " \x7d"

end Property

/-- what a form does about one property: its name and the outcome of its value -/
structure Attribute where
  name : String
  outcome : Except TokenFault Property.Outcome

/-- the attribute of a property with this value -/
def Property.attribute {α : Type} [Wire α] (p : Property α) (a : α) : Attribute := ⟨p.name, p.outcome a⟩

end Hypervisor
