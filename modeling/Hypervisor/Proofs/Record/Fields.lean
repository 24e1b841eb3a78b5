/-
The properties that records declare, in order.

A `Field` is a property of some type, so that the properties of a record are one list and what holds of each of them is
said of the members of that list. A record is `Declared` by such a list when its attributes are those of the list, one
for each property and in the same order.
-/
import Hypervisor.Proofs.Availability.Group
import Hypervisor.Proofs.Cluster.Node
import Hypervisor.Proofs.Firewall.Rule
import Hypervisor.Proofs.Guest.Config
import Hypervisor.Proofs.Storage.Definition
import Hypervisor.Task.Status

namespace Hypervisor

/-- a property of some type -/
structure Field : Type 1 where
  {α : Type}
  [wire : Wire α]
  property : Property α

attribute [instance] Field.wire

/-- a property as one of many -/
def Property.field {α : Type} [Wire α] (p : Property α) : Field := ⟨p⟩

namespace Field

def name (field : Field) : String := field.property.name

def presence (field : Field) : Presence := field.property.presence

def emission (field : Field) : Emission := field.property.emission

end Field

/-- the attribute of a property with some value -/
def Attribute.Of (a : Attribute) (field : Field) : Prop := ∃ v, a = field.property.attribute v

@[simp] theorem Property.attribute_of {α : Type} [Wire α] (p : Property α) (v : α) : (p.attribute v).Of p.field :=
  ⟨v, rfl⟩

theorem Attribute.Of.name_eq {a : Attribute} {field : Field} (h : a.Of field) : a.name = field.name := by
  obtain ⟨v, rfl⟩ := h
  rfl

section Attributes

variable {as : List Attribute} {fields : List Field} (h : List.Forall₂ Attribute.Of as fields)

include h

theorem Attribute.names_eq : as.map Attribute.name = fields.map Field.name := by
  rw [← List.forall₂_eq_eq_eq, List.forall₂_map_left_iff, List.forall₂_map_right_iff]
  exact h.imp fun _ _ hx => hx.name_eq

theorem Attribute.exists_field {a : Attribute} (ha : a ∈ as) : ∃ field ∈ fields, a.Of field :=
  Fallible.exists_of_mem_right (R := flip Attribute.Of) h.flip ha

theorem Field.exists_attribute {field : Field} (hfield : field ∈ fields) : ∃ a ∈ as, a.Of field :=
  Fallible.exists_of_mem_right h hfield

end Attributes

/-! ## Records -/

namespace Guest

def Processor.fields : List Field :=
  [coresProperty.field, socketsProperty.field, vcpusProperty.field, modelProperty.field, limitProperty.field,
    unitsProperty.field, numaProperty.field]

def Memory.fields : List Field := [sizeProperty.field, balloonProperty.field, sharesProperty.field]

/-- the properties of these slots -/
def slotFields (α : Type) [Wire α] (slots : List String) : List Field :=
  slots.map fun slot => (slotProperty α slot).field

def Config.fields : List Field :=
  [nameProperty.field, onbootProperty.field] ++ Processor.fields ++ Memory.fields ++ slotFields Nic nicSlots ++
    slotFields Disk diskSlots ++ [digestProperty.field]

end Guest

def Firewall.Rule.fields : List Field :=
  [positionProperty.field, kindProperty.field, actionProperty.field, enableProperty.field, macroProperty.field,
    sourceProperty.field, destProperty.field, protoProperty.field, dportProperty.field, sportProperty.field,
    ifaceProperty.field, logProperty.field, commentProperty.field, ipversionProperty.field, digestProperty.field]

def Availability.Group.fields : List Field :=
  [nameProperty.field, nodesProperty.field, restrictedProperty.field, nofailbackProperty.field, commentProperty.field,
    digestProperty.field]

def Cluster.Node.fields : List Field :=
  [nameProperty.field, idProperty.field, votesProperty.field] ++
    (List.range linkCount).map fun number => (linkProperty number).field

/-- the defaults of some are those of the backend -/
def Storage.Definition.fields (kind : Choice Kind) : List Field :=
  [idProperty.field, kindProperty.field, (contentProperty kind).field, (sharedProperty kind).field,
    disableProperty.field, nodesProperty.field, pathProperty.field, serverProperty.field, exportProperty.field,
    optionsProperty.field, vgnameProperty.field, thinpoolProperty.field, poolProperty.field,
    (sparseProperty kind).field, digestProperty.field]

def Task.Status.fields : List Field := [stateProperty.field, exitStatusProperty.field]

/-! ## Packed records -/

namespace Guest

def CpuModel.fields : List Field := [nameProperty.field, hiddenProperty.field]

def Nic.fields : List Field :=
  [modelProperty.field, addressProperty.field, bridgeProperty.field, firewallProperty.field, linkDownProperty.field,
    tagProperty.field, mtuProperty.field, rateProperty.field, queuesProperty.field]

def Disk.fields : List Field :=
  [fileProperty.field, sizeProperty.field, cacheProperty.field, discardProperty.field, ssdProperty.field,
    iothreadProperty.field, backupProperty.field, mediaProperty.field, formatProperty.field]

end Guest

def Cluster.Link.fields : List Field := [addressProperty.field, priorityProperty.field]

/-! ## Declared records -/

/-- a record with its properties in declaration order -/
class Record.Declared (α : Type) [Record α] : Type 1 where
  fields : α → List Field
  /-- the names of the properties that an update goes by; they are the first -/
  identity : List String
  names_nodup : ∀ a : α, ((fields a).map Field.name).Nodup
  /-- names can stand in a list that is cut at commas -/
  names_plain : ∀ a : α, ∀ name ∈ (fields a).map Field.name, ',' ∉ name.toList
  attributes_of : ∀ a : α, List.Forall₂ Attribute.Of (Record.attributes .create a) (fields a)
  attributes_create : ∀ a : α, ∃ keys : List Attribute,
    Record.attributes .create a = keys ++ Record.attributes .update a ∧ keys.map Attribute.name = identity
  identity_always : ∀ a : α, ∀ field ∈ fields a, field.name ∈ identity → field.emission = .always

namespace Guest

theorem Processor.attributes_of (p : Processor) : List.Forall₂ Attribute.Of p.attributes fields := by
  simp [Processor.attributes, fields]

theorem Memory.attributes_of (m : Memory) : List.Forall₂ Attribute.Of m.attributes fields := by
  simp [Memory.attributes, fields]

theorem deviceAttributes_of {α : Type} [Wire α] (devices : Table String α) (slots : List String) :
    List.Forall₂ Attribute.Of (deviceAttributes devices slots) (slotFields α slots) := by
  rw [deviceAttributes, slotFields, List.forall₂_map_left_iff, List.forall₂_map_right_iff]
  exact List.forall₂_same.2 fun slot _ => Property.attribute_of _ _

instance : Record.Declared Processor where
  fields _ := Processor.fields
  identity := []
  names_nodup _ := by decide
  names_plain _ := by decide
  attributes_of p := p.attributes_of
  attributes_create p := ⟨[], rfl, rfl⟩
  identity_always _ _ _ h := absurd h List.not_mem_nil

instance : Record.Declared Memory where
  fields _ := Memory.fields
  identity := []
  names_nodup _ := by decide
  names_plain _ := by decide
  attributes_of m := m.attributes_of
  attributes_create m := ⟨[], rfl, rfl⟩
  identity_always _ _ _ h := absurd h List.not_mem_nil

instance : Record.Declared Config where
  fields _ := Config.fields
  identity := []
  names_nodup _ := by decide
  names_plain _ := by decide
  attributes_of c := by
    have hhead : List.Forall₂ Attribute.Of
        [Config.nameProperty.attribute c.name, Config.onbootProperty.attribute c.onboot]
        [Config.nameProperty.field, Config.onbootProperty.field] := by simp
    have hdigest : List.Forall₂ Attribute.Of [Config.digestProperty.attribute c.digest]
        [Config.digestProperty.field] := by simp
    exact List.rel_append (List.rel_append (List.rel_append (List.rel_append (List.rel_append hhead
      c.processor.attributes_of) c.memory.attributes_of) (deviceAttributes_of c.nics nicSlots))
      (deviceAttributes_of c.disks diskSlots)) hdigest
  attributes_create c := ⟨[], rfl, rfl⟩
  identity_always _ _ _ h := absurd h List.not_mem_nil

end Guest

instance : Record.Declared Firewall.Rule where
  fields _ := Firewall.Rule.fields
  identity := []
  names_nodup _ := by decide
  names_plain _ := by decide
  attributes_of r := by simp [Record.attributes, Firewall.Rule.attributes, Firewall.Rule.fields]
  attributes_create r := ⟨[], rfl, rfl⟩
  identity_always _ _ _ h := absurd h List.not_mem_nil

instance : Record.Declared Availability.Group where
  fields _ := Availability.Group.fields
  identity := ["group"]
  names_nodup _ := by decide
  names_plain _ := by decide
  attributes_of g := by
    simp [Record.attributes, Availability.Group.attributes, Availability.Group.fields]
  attributes_create g := ⟨[Availability.Group.nameProperty.attribute g.name], rfl, rfl⟩
  identity_always _ := by
    simp only [Availability.Group.fields, List.forall_mem_cons]
    decide

instance : Record.Declared Cluster.Node where
  fields _ := Cluster.Node.fields
  identity := []
  names_nodup _ := by decide
  names_plain _ := by decide
  attributes_of n := by
    have hhead : List.Forall₂ Attribute.Of
        [Cluster.Node.nameProperty.attribute n.name, Cluster.Node.idProperty.attribute n.id,
          Cluster.Node.votesProperty.attribute n.votes]
        [Cluster.Node.nameProperty.field, Cluster.Node.idProperty.field, Cluster.Node.votesProperty.field] := by simp
    refine List.rel_append hhead ?_
    rw [List.forall₂_map_left_iff, List.forall₂_map_right_iff]
    exact List.forall₂_same.2 fun number _ => Property.attribute_of _ _
  attributes_create n := ⟨[], rfl, rfl⟩
  identity_always _ _ _ h := absurd h List.not_mem_nil

namespace Storage.Definition

theorem attributes_of (s : Definition) : List.Forall₂ Attribute.Of (s.attributes .create) (fields s.kind) := by
  simp [attributes, fields]

theorem fields_names (s : Definition) :
    (fields s.kind).map Field.name =
      ["storage", "type", "content", "shared", "disable", "nodes", "path", "server", "export", "options", "vgname",
        "thinpool", "pool", "sparse", "digest"] := by
  rw [← Attribute.names_eq s.attributes_of]
  exact s.attributes_names

end Storage.Definition

instance : Record.Declared Storage.Definition where
  fields s := Storage.Definition.fields s.kind
  identity := ["storage", "type"]
  names_nodup s := by
    rw [Storage.Definition.fields_names]
    decide
  names_plain s := by
    rw [Storage.Definition.fields_names]
    decide
  attributes_of s := s.attributes_of
  attributes_create s :=
    ⟨[Storage.Definition.idProperty.attribute s.id, Storage.Definition.kindProperty.attribute s.kind], rfl, rfl⟩
  identity_always s := by
    -- names are apart, so only the first two properties have these
    have hrest : ∀ field ∈ (Storage.Definition.fields s.kind).drop 2, field.name ∉ ["storage", "type"] := by
      intro field hfield
      have hname : field.name ∈ ((Storage.Definition.fields s.kind).map Field.name).drop 2 := by
        rw [← List.map_drop]
        exact List.mem_map_of_mem hfield
      rw [Storage.Definition.fields_names] at hname
      revert hname
      generalize field.name = n
      revert n
      decide
    refine List.forall_mem_cons.2 ⟨fun _ => rfl, List.forall_mem_cons.2 ⟨fun _ => rfl, fun field hfield hname => ?_⟩⟩
    exact absurd hname (hrest field hfield)

end Hypervisor
