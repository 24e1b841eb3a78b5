/-
Request forms: the pairs to send and, for an update, the names of properties to clear.

A create leaves out what is the default anyway; an update names it in the delete list, so that the node clears it. Each
attribute contributes a form of its own, and a form is the contributions one after the other; the first attribute
without a text is the fault.
-/
import Hypervisor.Property

namespace Hypervisor

/-- whether a form makes a resource or changes one -/
inductive Mode where
  | create
  | update
deriving DecidableEq, Repr

/-- pairs to send and names to delete, both in order -/
structure Form where
  pairs : List (String × String)
  delete : List String
deriving DecidableEq, Repr

namespace Form

def empty : Form := ⟨[], []⟩

/-- one form after the other -/
instance : Append Form := ⟨fun f g => ⟨f.pairs ++ g.pairs, f.delete ++ g.delete⟩⟩

/-- the key under which an update names what it deletes -/
def deleteKey : String := "delete"

/-- the value sent for a key: that of its first pair -/
def get? (f : Form) (key : String) : Option String := f.pairs.lookup key

/-- nothing would be sent -/
def isEmpty (f : Form) : Bool := f.pairs.isEmpty && f.delete.isEmpty

/-- the pairs to send, the delete list last if it holds anything -/
def flatten (f : Form) : List (String × String) :=
  if f.delete.isEmpty then f.pairs else f.pairs ++ [(deleteKey, ",".intercalate f.delete)]

/-- the pairs as the node would report them back -/
def report (f : Form) : Report := Report.ofPairs f.pairs

/-! ## Contributions -/

/-- what an attribute contributes -/
def ofAttribute (mode : Mode) (a : Attribute) : Except EncodeFault Form :=
  match a.outcome with
  | .error source => .error ⟨a.name, source⟩
  | .ok (.send text) => .ok ⟨[(a.name, text)], []⟩
  | .ok .omit => .ok (if mode = .update then ⟨[], [a.name]⟩ else empty)
  | .ok .skip => .ok empty

/-- the contributions of attributes in order -/
def ofAttributes (mode : Mode) : List Attribute → Except EncodeFault Form
  | [] => .ok empty
  | a :: rest => do
    let f ← ofAttribute mode a
    let g ← ofAttributes mode rest
    pure (f ++ g)

/-! ## Step by step -/

/-- add a pair at the end -/
def send (f : Form) (key value : String) : Form := { f with pairs := f.pairs ++ [(key, value)] }

/-- add a name to delete at the end -/
def clear (f : Form) (name : String) : Form := { f with delete := f.delete ++ [name] }

/-- one step in building a form -/
inductive Step where
  /-- a pair without a description -/
  | raw (key value : String)
  /-- a value under the description of its property -/
  | attribute (a : Attribute)

/-- do what the outcome of an attribute asks for, or fail and leave the form as it is -/
def takeAttribute (mode : Mode) (f : Form) (a : Attribute) : Form × Except EncodeFault Unit :=
  match a.outcome with
  | .error source => (f, .error ⟨a.name, source⟩)
  | .ok (.send text) => (f.send a.name text, .ok ())
  | .ok .omit => (if mode = .update then f.clear a.name else f, .ok ())
  | .ok .skip => (f, .ok ())

/-- take a step on a form: the form as the step leaves it, and how the step ends -/
def take (mode : Mode) (f : Form) : Step → Form × Except EncodeFault Unit
  | .raw key value => (f.send key value, .ok ())
  | .attribute a => takeAttribute mode f a

/-- the form that a step leaves, also where it fails -/
def step (mode : Mode) (f : Form) (s : Step) : Form := (take mode f s).1

/-- what a step makes of an empty form -/
def ofStep (mode : Mode) (s : Step) : Except EncodeFault Form :=
  (take mode empty s).2.map fun _ => step mode empty s

/-- take steps from an empty form -/
def run (mode : Mode) (steps : List Step) : Form := steps.foldl (step mode) empty

end Form

end Hypervisor
