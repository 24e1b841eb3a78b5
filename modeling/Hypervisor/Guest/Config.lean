/-
The configuration of a guest: name, start-up, processor, memory, and the devices in its slots.

Network cards and disks are keyed by slot. Only the slots named here are read and written; an update says nothing of
an empty slot, since a device is removed by deleting its slot.
-/
import Hypervisor.Guest.Disk
import Hypervisor.Guest.Memory
import Hypervisor.Guest.Nic
import Hypervisor.Guest.Processor

namespace Hypervisor.Guest

/-- the slots of network cards -/
def nicSlots : List String := ["net0", "net1", "net2", "net3", "net4", "net5", "net6", "net7"]

/-- the slots of disks by bus -/
def diskSlots : List String :=
  ["ide0", "ide1", "ide2", "ide3", "sata0", "sata1", "sata2", "sata3", "sata4", "sata5", "scsi0", "scsi1", "scsi2",
    "scsi3", "scsi4", "scsi5", "scsi6", "scsi7", "virtio0", "virtio1", "virtio2", "virtio3", "virtio4", "virtio5",
    "virtio6", "virtio7"]

/-- the property of a device slot -/
def slotProperty (α : Type) (slot : String) : Property (Option α) := { name := slot, presence := .optional }

/-- the devices that a report has in these slots -/
def devicesOf {α : Type} [Wire α] (report : Report) (slots : List String) :
    Except PropertyFault (Table String α) := do
  let found ← slots.mapM fun slot => (slotProperty α slot).extract report
  pure (Table.ofList ((slots.zip found).filterMap fun p => p.2.map fun device => (p.1, device)))

/-- the attributes of these slots -/
def deviceAttributes {α : Type} [Wire α] (devices : Table String α) (slots : List String) : List Attribute :=
  slots.map fun slot => (slotProperty α slot).attribute (devices.get? slot)

/-- the properties of a guest -/
structure Config where
  name : Option String
  onboot : Bool
  processor : Processor
  memory : Memory
  nics : Table String Nic
  disks : Table String Disk
  digest : Option String
deriving BEq

namespace Config

def nameProperty : Property (Option String) := { name := "name", presence := .optional, emission := .omitDefault }

def onbootProperty : Property Bool := { name := "onboot", presence := .default "0", emission := .omitDefault }

/-- the fingerprint of the configuration, set by the node -/
def digestProperty : Property (Option String) := { name := "digest", presence := .optional, emission := .never }

def decode (report : Report) : Except PropertyFault Config := do
  let name ← nameProperty.extract report
  let onboot ← onbootProperty.extract report
  let processor ← Processor.decode report
  let memory ← Memory.decode report
  let nics ← devicesOf report nicSlots
  let disks ← devicesOf report diskSlots
  let digest ← digestProperty.extract report
  pure { name, onboot, processor, memory, nics, disks, digest }

def attributes (c : Config) : List Attribute :=
  [nameProperty.attribute c.name, onbootProperty.attribute c.onboot] ++ c.processor.attributes ++
    c.memory.attributes ++ deviceAttributes c.nics nicSlots ++ deviceAttributes c.disks diskSlots ++
    [digestProperty.attribute c.digest]

instance : Record Config where
  decode := decode
  attributes _ c := c.attributes

end Config

end Hypervisor.Guest
