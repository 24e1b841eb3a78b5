/-
Network cards of a guest. A card is a packed property whose entries all carry values; the first is `model=address`, or
`model=virtio` when no address is set.
-/
import Hypervisor.Packed

namespace Hypervisor.Guest

/-- emulated network cards -/
inductive NicModel where
  | virtio
  | e1000
  | e1000e
  | rtl8139
  | vmxnet3
deriving DecidableEq, Repr

instance : Vocabulary NicModel where
  label := "network model"
  members := [.virtio, .e1000, .e1000e, .rtl8139, .vmxnet3]
  token
    | .virtio => "virtio"
    | .e1000 => "e1000"
    | .e1000e => "e1000e"
    | .rtl8139 => "rtl8139"
    | .vmxnet3 => "vmxnet3"
  complete a := by cases a <;> decide
  apart := by decide

/-- a network card and its connection -/
structure Nic where
  model : Choice NicModel
  address : Option String
  bridge : Option String
  firewall : Bool
  linkDown : Bool
  tag : Option U16
  mtu : Option U16
  rate : Option Double
  queues : Option U8
deriving BEq

namespace Nic

/-- a card on a bridge, all else default -/
def onBridge (model : Choice NicModel) (bridge : String) : Nic :=
  { model, address := none, bridge := some bridge, firewall := false, linkDown := false, tag := none, mtu := none,
    rate := none, queues := none }

def modelProperty : Property (Choice NicModel) := { name := "model", presence := .required }

def addressProperty : Property (Option String) := { name := "macaddr", presence := .optional }

def bridgeProperty : Property (Option String) := { name := "bridge", presence := .optional, emission := .omitDefault }

def firewallProperty : Property Bool := { name := "firewall", presence := .default "0", emission := .omitDefault }

def linkDownProperty : Property Bool := { name := "link_down", presence := .default "0", emission := .omitDefault }

/-- a VLAN number between 1 and 4094 -/
def tagProperty : Property (Option U16) :=
  { name := "tag", presence := .optional, emission := .omitDefault
    check := some fun tag => tag.all fun n => decide (1 ≤ n.val ∧ n.val ≤ 4094) }

def mtuProperty : Property (Option U16) := { name := "mtu", presence := .optional, emission := .omitDefault }

def rateProperty : Property (Option Double) := { name := "rate", presence := .optional, emission := .omitDefault }

def queuesProperty : Property (Option U8) :=
  { name := "queues", presence := .optional, emission := .omitDefault
    check := some fun queues => queues.all fun n => decide (n.val ≤ 64) }

/-- model and address of the first entry, if its key is a model -/
def positional? (list : EntryList) : Option (Choice NicModel × Option String) :=
  list.entries.head?.bind fun e => (Scalar.read? e.key).map fun model => (model, e.value)

def ofEntries (list : EntryList) : Except PropertyFault Nic := do
  let (model, address) ←
    match positional? list with
    | some p => pure p
    | none => do
      let model ← modelProperty.extractEntry list
      let address ← addressProperty.extractEntry list
      pure (model, address)
  let bridge ← bridgeProperty.extractEntry list
  let firewall ← firewallProperty.extractEntry list
  let linkDown ← linkDownProperty.extractEntry list
  let tag ← tagProperty.extractEntry list
  let mtu ← mtuProperty.extractEntry list
  let rate ← rateProperty.extractEntry list
  let queues ← queuesProperty.extractEntry list
  pure { model, address, bridge, firewall, linkDown, tag, mtu, rate, queues }

/-- the options after the first entry -/
def options (n : Nic) : List Attribute :=
  [bridgeProperty.attribute n.bridge, firewallProperty.attribute n.firewall, linkDownProperty.attribute n.linkDown,
    tagProperty.attribute n.tag, mtuProperty.attribute n.mtu, rateProperty.attribute n.rate,
    queuesProperty.attribute n.queues]

def toEntries (n : Nic) : Except TokenFault EntryList := do
  let model ← Scalar.write n.model
  let first : Entry :=
    match n.address with
    | some address => ⟨model, some address⟩
    | none => ⟨modelProperty.name, some model⟩
  EntryList.layOut [first] n.options

instance : Packed Nic where
  dialect := .strict
  ofEntries := ofEntries
  toEntries := toEntries

end Nic

end Hypervisor.Guest
