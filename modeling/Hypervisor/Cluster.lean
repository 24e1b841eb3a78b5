/-
Members of a cluster and the links between them. A link is a packed property, `10.0.0.1,priority=10`, whose address is
the bare first entry or the value of `address`.
-/
import Hypervisor.Packed
import Hypervisor.Record

namespace Hypervisor.Cluster

/-! ## Links -/

/-- a network link of a node -/
structure Link where
  address : String
  priority : Option U8
deriving DecidableEq, Repr

namespace Link

def addressProperty : Property String := { name := "address", presence := .required }

def priorityProperty : Property (Option U8) := { name := "priority", presence := .optional, emission := .omitDefault }

def ofEntries (list : EntryList) : Except PropertyFault Link := do
  let address ←
    match list.firstBare? with
    | some address => pure address
    | none => addressProperty.extractEntry list
  let priority ← priorityProperty.extractEntry list
  pure { address, priority }

def toEntries (l : Link) : Except TokenFault EntryList :=
  EntryList.layOut [⟨l.address, none⟩] [priorityProperty.attribute l.priority]

instance : Packed Link where
  dialect := .propertyString
  ofEntries := ofEntries
  toEntries := toEntries

end Link

/-! ## Nodes -/

/-- how many links a node can have -/
def linkCount : Nat := 8

/-- the property of a link by its number -/
def linkProperty (number : Nat) : Property (Option Link) :=
  { name := "link" ++ toString number, presence := .optional }

/-- a node as the cluster lists it, its links by number -/
structure Node where
  name : String
  id : Option U32
  votes : U32
  links : Table Nat Link
deriving BEq

namespace Node

def nameProperty : Property String := { name := "name", presence := .required }

/-- node numbers start at one -/
def idProperty : Property (Option U32) :=
  { name := "nodeid", presence := .optional, emission := .omitDefault
    check := some fun id => id.all fun n => !(n.val == 0) }

def votesProperty : Property U32 := { name := "votes", presence := .default "1", emission := .omitDefault }

/-- the address of the link with the lowest number -/
def primaryAddress? (n : Node) : Option String := n.links.least?.map fun e => e.2.address

/-- the links that a report has -/
def linksOf (report : Report) : Except PropertyFault (Table Nat Link) := do
  let found ← (List.range linkCount).mapM fun number => (linkProperty number).extract report
  pure (Table.ofList (((List.range linkCount).zip found).filterMap fun p => p.2.map fun link => (p.1, link)))

def decode (report : Report) : Except PropertyFault Node := do
  let name ← nameProperty.extract report
  let id ← idProperty.extract report
  let votes ← votesProperty.extract report
  let links ← linksOf report
  pure { name, id, votes, links }

def attributes (n : Node) : List Attribute :=
  [nameProperty.attribute n.name, idProperty.attribute n.id, votesProperty.attribute n.votes] ++
    (List.range linkCount).map fun number => (linkProperty number).attribute (n.links.get? number)

instance : Record Node where
  decode := decode
  attributes _ n := n.attributes

end Node

end Hypervisor.Cluster
