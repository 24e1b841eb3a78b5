/-
What can go wrong between a value and its text. Each fault is a cause; `message` words it. Every kind of fault has a
code, and a message with a code opens with it.

Token faults concern one scalar or one packed text, rejections say why a present value was not taken, property faults
add the name of the property, and an encode fault names the property that has no text.
-/
import Hypervisor.Value

namespace Hypervisor

/-- the classes of faults -/
inductive FaultKind where
  | unrecognizedToken
  | unknownVariant
  | malformedEntry
  | missingProperty
  | invalidProperty
  | remoteTask
  | transport
  | pollerLost
  | cancelled
deriving DecidableEq, Repr

/-- the code of a class -/
def FaultKind.code : FaultKind → String
  | unrecognizedToken => "W001"
  | unknownVariant => "W002"
  | malformedEntry => "W003"
  | missingProperty => "W004"
  | invalidProperty => "W005"
  | remoteTask => "W006"
  | transport => "W007"
  | pollerLost => "W008"
  | cancelled => "W009"

/-- the head of a message: the code in brackets -/
def FaultKind.tag (k : FaultKind) : String := "[" ++ k.code ++ "] "

/-! ## Token faults -/

/-- what is wrong with one entry of a packed text -/
inductive EntryDefect where
  | emptyKey
  | emptyEntry
  | missingValue
  | flagWithValue
  | flagWithoutSign
deriving DecidableEq, Repr

def EntryDefect.message : EntryDefect → String
  | emptyKey => "empty key"
  | emptyEntry => "empty entry"
  | missingValue => "missing value"
  | flagWithValue => "flag cannot carry a value"
  | flagWithoutSign => "flag must start with '+' or '-'"

/-- a measure of packed texts that is bounded -/
inductive Bounded where
  | textBytes
  | entryCount
deriving DecidableEq, Repr

def Bounded.label : Bounded → String
  | textBytes => "token list"
  | entryCount => "token list entries"

/-- the bound itself: 64 KiB of text, 256 entries -/
def Bounded.maximum : Bounded → Nat
  | textBytes => 65536
  | entryCount => 256

/-- a scalar or packed text that cannot be read or written -/
inductive TokenFault where
  /-- the text is no token of what was expected; the property is filled in where it is known -/
  | unrecognized (property : Option String) (expected raw : String)
  /-- a member outside of the vocabulary, or a number that is not finite, has no text -/
  | noText (typeName : String)
  | malformed (raw : String) (position : Nat) (defect : EntryDefect)
  /-- leaving the value out would bring the default back -/
  | unsetOverDefault (default : String)
  | tooLong (subject : Bounded) (length : Nat)
deriving DecidableEq, Repr

namespace TokenFault

def kind : TokenFault → FaultKind
  | unrecognized .. => .unrecognizedToken
  | noText _ => .unknownVariant
  | malformed .. => .malformedEntry
  | unsetOverDefault _ => .unknownVariant
  | tooLong .. => .malformedEntry

def message : TokenFault → String
  | unrecognized _ expected raw => "[W001] unrecognized " ++ expected ++ " token " ++ Text.quoted raw
  | noText typeName => "[W002] " ++ typeName ++ " value has no wire representation"
  | malformed raw position defect =>
    "[W003] malformed entry " ++ Text.quoted raw ++ " at position " ++ toString position ++ ": " ++ defect.message
  | unsetOverDefault default => "[W002] unset value would read back as the default " ++ Text.quoted default
  | tooLong subject length =>
    "[W003] " ++ subject.label ++ " length " ++ toString length ++ " exceeds maximum " ++ toString subject.maximum

/-- name the property that a token belongs to -/
def withProperty (name : String) : TokenFault → TokenFault
  | unrecognized _ expected raw => unrecognized (some name) expected raw
  | f => f

end TokenFault

/-! ## Property faults -/

mutual

/-- why a present value was not taken -/
inductive Rejection where
  | shape (expected found : String)
  | notIntegral
  | outOfRange (expected : String)
  | notBoolean
  | failedCheck
  | token (fault : TokenFault)
  /-- a property inside a packed one is at fault -/
  | entry (fault : PropertyFault)

/-- which property could not be read, and why -/
inductive PropertyFault where
  | missing (name : String)
  | invalid (name : String) (value : Value.Shown) (reason : Rejection)

end

namespace PropertyFault

def name : PropertyFault → String
  | missing name => name
  | invalid name _ _ => name

def kind : PropertyFault → FaultKind
  | missing _ => .missingProperty
  | invalid .. => .invalidProperty

end PropertyFault

mutual

def Rejection.message : Rejection → String
  | .shape expected found => "expected " ++ expected ++ ", found " ++ found
  | .notIntegral => "fractional number for an integer property"
  | .outOfRange expected => "number out of range for " ++ expected
  | .notBoolean => "boolean must be 0 or 1"
  | .failedCheck => "rejected by validator"
  | .token fault => fault.message
  | .entry fault => fault.message

def PropertyFault.message : PropertyFault → String
  | .missing name => "[W004] missing required property " ++ name
  | .invalid name value reason =>
    "[W005] invalid value " ++ value.render ++ " for property " ++ name ++ ": " ++ reason.message

end

/-- name the property in a token fault that rejects its value -/
def Rejection.withProperty (name : String) : Rejection → Rejection
  | .token fault => .token (fault.withProperty name)
  | reason => reason

/-- the fault of a property whose value is rejected for this reason: the name stands with a token, and the value is kept
as it is shown -/
def PropertyFault.reject (name : String) (value : Value) (reason : Rejection) : PropertyFault :=
  .invalid name value.shown (reason.withProperty name)

/-! ## Encode faults -/

/-- the property that cannot be written, and why -/
structure EncodeFault where
  name : String
  source : TokenFault
deriving DecidableEq, Repr

namespace EncodeFault

def kind (f : EncodeFault) : FaultKind := f.source.kind

/-- the head is fixed: every fault of writing is of this class -/
def message (f : EncodeFault) : String :=
  "[W002] cannot encode property " ++ f.name ++ ": " ++ f.source.message

end EncodeFault

end Hypervisor
