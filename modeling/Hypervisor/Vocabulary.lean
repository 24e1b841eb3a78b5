/-
Closed vocabularies of tokens. A vocabulary gives each of its members one token, tokens apart, and leaves none out; a
`Choice` is a member or something that lies outside. Strict reading refuses tokens that are not in the vocabulary,
lenient reading maps them to `unknown`, and `unknown` itself has no text.
-/
import Hypervisor.Scalar

namespace Hypervisor

/-- the tokens of a closed set of members -/
class Vocabulary (α : Type) where
  /-- what diagnostics call a member -/
  label : String
  /-- every member, in declaration order -/
  members : List α
  token : α → String
  complete : ∀ a, a ∈ members
  apart : (members.map token).Nodup

/-- a member of a vocabulary, or none of its members -/
inductive Choice (α : Type) where
  | known (member : α)
  | unknown
deriving DecidableEq, Repr

namespace Vocabulary

variable {α : Type} [Vocabulary α]

/-- the member with this token -/
def ofToken? (raw : String) : Option α := (members (α := α)).find? fun a => token a == raw

end Vocabulary

namespace Choice

variable {α : Type} [Vocabulary α]

/-- the token of a member -/
def token? : Choice α → Option String
  | known a => some (Vocabulary.token a)
  | unknown => none

def isUnknown : Choice α → Bool
  | known _ => false
  | unknown => true

/-- every token is taken; those outside of the vocabulary stand for `unknown` -/
def ofTokenLenient (raw : String) : Choice α :=
  match Vocabulary.ofToken? raw with
  | some a => known a
  | none => unknown

/-- the token, or a word for its lack -/
def display (c : Choice α) : String := c.token?.getD "unknown"

instance : Scalar (Choice α) where
  expected := Vocabulary.label α
  read? raw := (Vocabulary.ofToken? raw).map known
  write c :=
    match c.token? with
    | some s => .ok s
    | none => .error (.noText (Vocabulary.label α))

end Choice

end Hypervisor
