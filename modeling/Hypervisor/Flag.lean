/-
Lists of switches such as `+aes;-pcid`: a packed text under the flag dialect, each entry bare and led by its sign.
-/
import Hypervisor.Entry

namespace Hypervisor

/-- a named switch -/
structure Flag where
  name : String
  enabled : Bool
deriving DecidableEq, Repr

namespace Flag

/-- the sign in front of a name -/
def sign (f : Flag) : Char := if f.enabled then '+' else '-'

/-- the signed name -/
def text (f : Flag) : String := String.ofList (f.sign :: f.name.toList)

/-- the switch that an entry stands for; `position` is its index -/
def ofEntry (position : Nat) (e : Entry) : Except TokenFault Flag :=
  if e.value.isSome then .error (.malformed e.key position .flagWithValue)
  else
    match e.key.toList with
    | '+' :: c :: rest => .ok ⟨String.ofList (c :: rest), true⟩
    | '-' :: c :: rest => .ok ⟨String.ofList (c :: rest), false⟩
    | _ => .error (.malformed e.key position .flagWithoutSign)

/-- the switches of entries in order, the first of them at index `position` -/
def ofEntries : Nat → List Entry → Except TokenFault (List Flag)
  | _, [] => .ok []
  | position, e :: rest => do
    let f ← ofEntry position e
    let fs ← ofEntries (position + 1) rest
    pure (f :: fs)

/-- read a list of switches -/
def parseList (raw : String) : Except TokenFault (List Flag) := do
  let list ← EntryList.parse .flagList raw
  ofEntries 0 list.entries

/-- write a list of switches -/
def writeList (flags : List Flag) : String :=
  EntryList.write .flagList ⟨flags.map fun f => ⟨f.text, none⟩⟩

end Flag

end Hypervisor
