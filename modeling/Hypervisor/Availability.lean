/-
High-availability groups: the nodes a resource may run on and how it fails over.

The nodes are a packed property, `pve1:2,pve2:1,pve3`, each with an optional priority; higher runs first.
-/
import Hypervisor.Packed
import Hypervisor.Record

namespace Hypervisor.Availability

/-! ## Nodes -/

/-- a node of a group with its priority -/
structure Member where
  node : String
  priority : Option U32
deriving DecidableEq, Repr

/-- the nodes of a group in written order -/
structure NodeList where
  members : List Member
deriving DecidableEq, Repr

namespace NodeList

/-- the rank of a priority: none is the lowest -/
def rank (m : Member) : Int := m.priority.elim (-1) fun p => p.val

/-- the members by descending priority, those without one last; equals keep their order -/
def byPriority (l : NodeList) : List Member := l.members.mergeSort fun a b => decide (rank b ≤ rank a)

/-- some member is this node -/
def contains (l : NodeList) (node : String) : Bool := l.members.any fun m => m.node == node

/-- the member of an entry; a value that is no priority is blamed on the list itself -/
def memberOf (e : Entry) : Except PropertyFault Member :=
  match e.value with
  | some raw =>
    match Scalar.parse (α := U32) raw with
    | .ok priority => .ok ⟨e.key, some priority⟩
    | .error fault => .error (.reject "nodes" (.text raw) (.token fault))
  | none => .ok ⟨e.key, none⟩

/-- the entry of a member -/
def entryOf (m : Member) : Entry := ⟨m.node, m.priority.map fun p => integerText p.val⟩

def ofEntries (list : EntryList) : Except PropertyFault NodeList := (list.entries.mapM memberOf).map NodeList.mk

def toEntries (l : NodeList) : EntryList := ⟨l.members.map entryOf⟩

instance : Packed NodeList where
  dialect := .nodePriority
  ofEntries := ofEntries
  toEntries l := .ok l.toEntries

end NodeList

/-! ## Groups -/

/-- a group of nodes -/
structure Group where
  name : String
  nodes : NodeList
  /-- resources run on these nodes only -/
  restricted : Bool
  /-- resources stay where they are when a node of higher priority recovers -/
  nofailback : Bool
  comment : Option String
  digest : Option String
deriving DecidableEq, Repr

namespace Group

def nameProperty : Property String := { name := "group", presence := .required }

def nodesProperty : Property NodeList := { name := "nodes", presence := .required }

def restrictedProperty : Property Bool := { name := "restricted", presence := .default "0", emission := .omitDefault }

def nofailbackProperty : Property Bool := { name := "nofailback", presence := .default "0", emission := .omitDefault }

def commentProperty : Property (Option String) :=
  { name := "comment", presence := .optional, emission := .omitDefault }

/-- the fingerprint of the group file, set by the node -/
def digestProperty : Property (Option String) := { name := "digest", presence := .optional, emission := .never }

def decode (report : Report) : Except PropertyFault Group := do
  let name ← nameProperty.extract report
  let nodes ← nodesProperty.extract report
  let restricted ← restrictedProperty.extract report
  let nofailback ← nofailbackProperty.extract report
  let comment ← commentProperty.extract report
  let digest ← digestProperty.extract report
  pure { name, nodes, restricted, nofailback, comment, digest }

/-- an update addresses the group by its name, so the name is not among its attributes -/
def attributes (mode : Mode) (g : Group) : List Attribute :=
  (if mode = .create then [nameProperty.attribute g.name] else []) ++
    [nodesProperty.attribute g.nodes, restrictedProperty.attribute g.restricted,
      nofailbackProperty.attribute g.nofailback, commentProperty.attribute g.comment,
      digestProperty.attribute g.digest]

instance : Record Group where
  decode := decode
  attributes := attributes

end Group

end Hypervisor.Availability
