/-
Records that cannot be written.

A form fails at the first of its attributes without a text, so the records that cannot be written are those that hold a
member outside of its vocabulary, or a number that is not finite, where a form would send it. No such value is ever
read: what was read from a report can be written, whatever the report.
-/
import Hypervisor.Proofs.Property.Wordless
import Hypervisor.Proofs.Record.Reread
import Hypervisor.Proofs.Record.Shape

namespace Hypervisor

open Fallible Property

namespace Record

/-- the form of the record fails exactly if it has properties without a text, these, and names the first of them -/
structure FailsAt {α : Type} [Record α] (mode : Mode) (a : α) (fields : List Field) (wordless : List String) :
    Prop where
  /-- in declaration order -/
  ordered : wordless.Sublist (fields.map Field.name)
  fails_iff : (∃ fault, form mode a = .error fault) ↔ wordless ≠ []
  first : ∀ fault, form mode a = .error fault → wordless.head? = some fault.name
  kind : ∀ fault, form mode a = .error fault → fault.kind = .unknownVariant

section

variable {α : Type} [Record α] {mode : Mode} {a : α}

/-- what holds of the attributes of a create holds of those of an update, which are some of them -/
theorem faults_form [Declared α] (h : ∀ x ∈ attributes .create a, Faults TokenFault.IsWordless x.outcome) :
    Faults (fun fault : EncodeFault => fault.kind = .unknownVariant) (form mode a) :=
  Form.faults_ofAttributes fun x hx => h x ((Declared.mode_sublist mode a).subset hx)

theorem failsAt [Declared α] {wordless : List String} (h : Attribute.wordless (attributes mode a) = wordless)
    (hfaults : ∀ x ∈ attributes .create a, Faults TokenFault.IsWordless x.outcome) :
    FailsAt mode a (Declared.fields a) wordless := by
  have hname := Form.fault_name mode (attributes mode a)
  rw [h] at hname
  refine ⟨?_, ?_, fun fault hfault => ?_, faults_form hfaults⟩
  · rw [← h]
    exact (Attribute.wordless_sublist _).trans (Declared.names_sublist mode a)
  · unfold form
    cases hform : Form.ofAttributes mode (attributes mode a) with
    | error fault =>
      rw [hform] at hname
      simp only [Except.error.injEq, exists_eq', true_iff]
      rintro rfl
      cases hname
    | ok f =>
      rw [hform] at hname
      simp only [reduceCtorEq, exists_false, false_iff, not_not]
      exact List.head?_eq_none_iff.1 hname.symm
  · unfold form at hfault
    rw [hfault] at hname
    exact hname.symm

/-- where all properties have a text there is a form -/
theorem FailsAt.exists_form {fields : List Field} (h : FailsAt mode a fields []) : ∃ f, form mode a = .ok f := by
  cases hform : form mode a with
  | error fault => exact absurd rfl (h.fails_iff.1 ⟨fault, hform⟩)
  | ok f => exact ⟨f, rfl⟩

end

end Record

/-! ## Guests -/

namespace Guest

/-- only a limit that is not finite has no text -/
def Processor.wordless (p : Processor) : List String := if p.limit.isFinite then [] else ["cpulimit"]

/-- the limit, then the slots of cards and of disks -/
def Config.wordless (c : Config) : List String :=
  c.processor.wordless ++ nicSlots.filter (fun slot => (c.nics.get? slot).any Nic.isWordless) ++
    diskSlots.filter fun slot => (c.disks.get? slot).any Disk.isWordless

theorem Processor.wordless_attributes (p : Processor) : Attribute.wordless p.attributes = p.wordless := by
  simp (disch := first | rfl | decide) only [attributes, Attribute.wordless_cons, isWordless_of_default,
    isWordless_of_optional, Wire.isWordless_of_total, Wire.isWordless_double, Option.any_false]
  unfold wordless
  cases p.limit.isFinite <;> rfl

theorem Memory.wordless_attributes (m : Memory) : Attribute.wordless m.attributes = [] :=
  Attribute.wordless_eq_nil.2 m.writable

theorem wordless_deviceAttributes {α : Type} [Wire α] (devices : Table String α) (slots : List String) :
    Attribute.wordless (deviceAttributes devices slots) =
      slots.filter fun slot => (devices.get? slot).any (Wire.isWordless (Wire.dialect α)) := by
  have hslot : ∀ slot, ((slotProperty α slot).attribute (devices.get? slot)).isWordless =
      (devices.get? slot).any (Wire.isWordless (Wire.dialect α)) := fun slot =>
    isWordless_of_optional (p := slotProperty α slot) rfl fun h => by cases h
  unfold Attribute.wordless deviceAttributes
  rw [List.filter_map, List.map_map]
  simp only [Function.comp_def, hslot]
  exact List.map_id _

theorem Config.wordless_attributes (c : Config) : Attribute.wordless c.attributes = c.wordless := by
  have hhead : Attribute.wordless [nameProperty.attribute c.name, onbootProperty.attribute c.onboot] = [] := by
    simp (disch := first | rfl | decide) only [Attribute.wordless_cons, isWordless_of_default, isWordless_of_optional,
      Wire.isWordless_of_total, Option.any_false]
    rfl
  have hdigest : Attribute.wordless [digestProperty.attribute c.digest] = [] := rfl
  simp only [attributes, Attribute.wordless_append, hhead, hdigest, Processor.wordless_attributes,
    Memory.wordless_attributes, wordless_deviceAttributes, Nic.wire_isWordless, Disk.wire_isWordless, List.nil_append,
    List.append_nil, wordless]

theorem Processor.faults_attributes (p : Processor) : ∀ a ∈ p.attributes, Faults TokenFault.IsWordless a.outcome := by
  simp [attributes, faults_outcome]

theorem Memory.faults_attributes (m : Memory) : ∀ a ∈ m.attributes, Faults TokenFault.IsWordless a.outcome := by
  simp [attributes, faults_outcome]

theorem faults_deviceAttributes {α : Type} [Wire α] [WordlessWire α] (devices : Table String α) (slots : List String) :
    ∀ a ∈ deviceAttributes devices slots, Faults TokenFault.IsWordless a.outcome :=
  List.forall_mem_map.2 fun slot _ => faults_outcome (slotProperty α slot) (devices.get? slot)

theorem Config.faults_attributes (c : Config) : ∀ a ∈ c.attributes, Faults TokenFault.IsWordless a.outcome := by
  simp only [attributes, List.forall_mem_append]
  refine ⟨⟨⟨⟨⟨?_, c.processor.faults_attributes⟩, c.memory.faults_attributes⟩, faults_deviceAttributes c.nics nicSlots⟩,
    faults_deviceAttributes c.disks diskSlots⟩, ?_⟩
  · simp [faults_outcome]
  · simp [faults_outcome]

end Guest

/-! ## Rules -/

namespace Firewall.Rule

/-- the direction and the level, where they are outside of their vocabularies -/
def wordless (r : Rule) : List String :=
  (if r.kind.isUnknown then ["type"] else []) ++ if r.log.any Choice.isUnknown then ["log"] else []

theorem wordless_attributes (r : Rule) : Attribute.wordless r.attributes = r.wordless := by
  simp (disch := first | rfl | decide) only [attributes, Attribute.wordless_cons, isWordless_of_never,
    isWordless_of_always, isWordless_of_default, isWordless_of_optional, Wire.isWordless_of_total,
    Wire.isWordless_choice, Option.any_false]
  unfold wordless
  cases r.kind.isUnknown <;> cases r.log.any Choice.isUnknown <;> rfl

theorem faults_attributes (r : Rule) : ∀ a ∈ r.attributes, Faults TokenFault.IsWordless a.outcome := by
  simp [attributes, faults_outcome]

theorem wordless_of_decode {report : Report} {r : Rule} (h : decode report = .ok r) : r.wordless = [] := by
  obtain ⟨-, hkind, -, -, -, -, -, -, -, -, -, hlog, -, -, -⟩ := decode_eq_ok.1 h
  have hkind : r.kind.isUnknown = false := by
    simpa only [Wire.isWordless_choice] using isWordless_of_extract rfl hkind
  have hlog : r.log.any Choice.isUnknown = false := by
    simpa only [Wire.isWordless_option, Wire.isWordless_choice] using isWordless_of_extract rfl hlog
  unfold wordless
  rw [hkind, hlog]
  rfl

end Firewall.Rule

/-! ## Groups and nodes -/

namespace Availability.Group

theorem wordless_attributes (mode : Mode) (g : Group) : Attribute.wordless (g.attributes mode) = [] := by
  cases mode <;>
    simp (disch := first | rfl | decide) only [attributes, Attribute.wordless_append, Attribute.wordless_cons,
      isWordless_of_never, isWordless_of_always, isWordless_of_default, isWordless_of_optional,
      Wire.isWordless_of_total, Option.any_false] <;>
    rfl

theorem faults_attributes (g : Group) : ∀ a ∈ g.attributes .create, Faults TokenFault.IsWordless a.outcome := by
  simp [attributes, faults_outcome]

end Availability.Group

namespace Cluster.Node

theorem wordless_attributes (n : Node) : Attribute.wordless n.attributes = [] :=
  Attribute.wordless_eq_nil.2 n.writable

theorem faults_attributes (n : Node) : ∀ a ∈ n.attributes, Faults TokenFault.IsWordless a.outcome := by
  simp [attributes, faults_outcome]

end Cluster.Node

/-! ## Storages -/

namespace Storage.Definition

/-- the kind, where it is sent, and the contents, where some are outside of the vocabulary -/
def wordless (mode : Mode) (s : Definition) : List String :=
  (if mode = .create ∧ s.kind.isUnknown then ["type"] else []) ++
    if s.content.any Choice.isUnknown then ["content"] else []

theorem wordless_identity (s : Definition) :
    Attribute.wordless [idProperty.attribute s.id, kindProperty.attribute s.kind] =
      if s.kind.isUnknown then ["type"] else [] := by
  simp (disch := first | rfl | decide) only [Attribute.wordless_cons, isWordless_of_always, Wire.isWordless_of_total,
    Wire.isWordless_choice]
  cases s.kind.isUnknown <;> rfl

theorem wordless_update (s : Definition) :
    Attribute.wordless (s.attributes .update) = if s.content.any Choice.isUnknown then ["content"] else [] := by
  have hcontent : ((contentProperty s.kind).attribute s.content).isWordless = s.content.any Choice.isUnknown := by
    rw [contentProperty, isWordless_of_default (defaults.apply_emission s.kind _)
      (defaults.apply_default? s.kind _ rfl), Wire.isWordless_list, Wire.isWordless_choice]
  -- which token is the default of the kind does not matter
  have hflag : ∀ (p : Property Bool) (b : Bool), p.emission = .omitDefault → p.default?.isSome →
      ((defaults.apply s.kind p).attribute b).isWordless = false := by
    intro p b he hp
    rw [isWordless_of_default ((defaults.apply_emission s.kind p).trans he) (defaults.apply_default? s.kind p hp),
      Wire.isWordless_of_total]
  have hshared := hflag { name := "shared", presence := .default "0", emission := .omitDefault } s.shared rfl rfl
  have hsparse := hflag { name := "sparse", presence := .default "0", emission := .omitDefault } s.sparse rfl rfl
  simp (disch := first | rfl | decide) only [attributes, reduceCtorEq, if_false, List.nil_append,
    Attribute.wordless_cons, isWordless_of_never, isWordless_of_default, isWordless_of_optional,
    Wire.isWordless_of_total, Option.any_false, hcontent, sharedProperty, sparseProperty, hshared, hsparse]
  rw [show ((contentProperty s.kind).attribute s.content).name = "content" from defaults.apply_name s.kind _]
  cases s.content.any Choice.isUnknown <;> rfl

theorem wordless_attributes (mode : Mode) (s : Definition) :
    Attribute.wordless (s.attributes mode) = s.wordless mode := by
  cases mode with
  | create =>
    show Attribute.wordless ([idProperty.attribute s.id, kindProperty.attribute s.kind] ++ s.attributes .update) = _
    rw [Attribute.wordless_append, wordless_identity, wordless_update]
    simp only [wordless, true_and]
  | update =>
    rw [wordless_update]
    simp only [wordless, reduceCtorEq, false_and, if_false, List.nil_append]

theorem faults_attributes (s : Definition) :
    ∀ a ∈ s.attributes .create, Faults TokenFault.IsWordless a.outcome := by
  simp [attributes, faults_outcome]

theorem wordless_of_decode {report : Report} {s : Definition} (h : decode report = .ok s) (mode : Mode) :
    s.wordless mode = [] := by
  obtain ⟨-, hkind, hcontent, -⟩ := decode_eq_ok.1 h
  have hkind : s.kind.isUnknown = false := by
    simpa only [Wire.isWordless_choice] using isWordless_of_extract rfl hkind
  have hcontent : s.content.any Choice.isUnknown = false := by
    simpa only [Wire.isWordless_list, Wire.isWordless_choice] using
      isWordless_of_extract (defaults.apply_transform s.kind _) hcontent
  unfold wordless
  rw [hkind, hcontent]
  simp

end Storage.Definition

/-! ## All records -/

namespace Record

/-- what was read can be written, in a create and in an update -/
def Rewritable (α : Type) [Record α] : Prop :=
  ∀ report mode (a : α), decode report = .ok a → ∃ f, form mode a = .ok f

/-- **Records that cannot be written.** A form fails only for a limit that is not finite, for a card or a disk without a
text in one of its slots, for a direction, level or content outside of its vocabulary, and in a create for such a kind
of storage; groups, nodes and memories can always be written. No record that was read is among them. -/
theorem form_fails_iff_wordless :
    ((∀ mode (c : Guest.Config), FailsAt mode c Guest.Config.fields c.wordless) ∧
      (∀ mode (p : Guest.Processor), FailsAt mode p Guest.Processor.fields p.wordless) ∧
      (∀ mode (m : Guest.Memory), FailsAt mode m Guest.Memory.fields []) ∧
      (∀ mode (r : Firewall.Rule), FailsAt mode r Firewall.Rule.fields r.wordless) ∧
      (∀ mode (g : Availability.Group), FailsAt mode g Availability.Group.fields []) ∧
      (∀ mode (n : Cluster.Node), FailsAt mode n Cluster.Node.fields []) ∧
      ∀ mode (s : Storage.Definition), FailsAt mode s (Storage.Definition.fields s.kind) (s.wordless mode)) ∧
    Rewritable Guest.Config ∧ Rewritable Guest.Processor ∧ Rewritable Guest.Memory ∧ Rewritable Firewall.Rule ∧
      Rewritable Availability.Group ∧ Rewritable Cluster.Node ∧ Rewritable Storage.Definition := by
  have hconfig : ∀ mode (c : Guest.Config), FailsAt mode c Guest.Config.fields c.wordless := fun _ c =>
    failsAt c.wordless_attributes c.faults_attributes
  have hprocessor : ∀ mode (p : Guest.Processor), FailsAt mode p Guest.Processor.fields p.wordless := fun _ p =>
    failsAt p.wordless_attributes p.faults_attributes
  have hmemory : ∀ mode (m : Guest.Memory), FailsAt mode m Guest.Memory.fields [] := fun _ m =>
    failsAt m.wordless_attributes m.faults_attributes
  have hrule : ∀ mode (r : Firewall.Rule), FailsAt mode r Firewall.Rule.fields r.wordless := fun _ r =>
    failsAt r.wordless_attributes r.faults_attributes
  have hgroup : ∀ mode (g : Availability.Group), FailsAt mode g Availability.Group.fields [] := fun mode g =>
    failsAt (g.wordless_attributes mode) g.faults_attributes
  have hnode : ∀ mode (n : Cluster.Node), FailsAt mode n Cluster.Node.fields [] := fun _ n =>
    failsAt n.wordless_attributes n.faults_attributes
  have hstorage : ∀ mode (s : Storage.Definition),
      FailsAt mode s (Storage.Definition.fields s.kind) (s.wordless mode) := fun mode s =>
    failsAt (s.wordless_attributes mode) s.faults_attributes
  refine ⟨⟨hconfig, hprocessor, hmemory, hrule, hgroup, hnode, hstorage⟩, ?_, ?_, ?_, ?_, ?_, ?_, ?_⟩
  · exact fun report mode c h => Form.exists_ofAttributes.2 (Guest.Config.writable_of_decode h)
  · -- a limit may be read from a number that is not finite, but such a number fails the check
    intro report mode p h
    exact Form.exists_ofAttributes.2 (p.writable (Guest.Processor.isFinite_of_between
      (Guest.Processor.inRange_of_decode h).limit))
  · exact fun report mode m _ => (hmemory mode m).exists_form
  · intro report mode r h
    have hform := hrule mode r
    rw [Firewall.Rule.wordless_of_decode h] at hform
    exact hform.exists_form
  · exact fun report mode g _ => (hgroup mode g).exists_form
  · exact fun report mode n _ => (hnode mode n).exists_form
  · intro report mode s h
    have hform := hstorage mode s
    rw [Storage.Definition.wordless_of_decode h mode] at hform
    exact hform.exists_form

/-- a card without a model is named before a disk without a format; what was read from the same slots can be written -/
theorem form_fails_iff_wordless_devices :
    (∃ (c : Guest.Config) (fault : EncodeFault),
      c.nics = Table.ofList [("net1", Guest.Nic.onBridge .unknown "vmbr0")] ∧
        c.disks = Table.ofList [("scsi0", { Guest.Disk.onVolume "local:vm-1" with format := some .unknown })] ∧
        c.wordless = ["net1", "scsi0"] ∧ form .update c = .error fault ∧ fault.name = "net1" ∧
        fault.kind = .unknownVariant) ∧
    ∃ (c : Guest.Config) (f : Form),
      decode (Report.ofPairs [("net1", "model=virtio,bridge=vmbr0"), ("scsi0", "local:vm-1,format=raw")]) = .ok c ∧
        form .update c = .ok f := by
  obtain ⟨⟨hconfig, -⟩, hrewritable, -⟩ := form_fails_iff_wordless
  constructor
  · obtain ⟨c, fault, hnics, hdisks, hwordless, hform⟩ :
        ∃ (c : Guest.Config) (fault : EncodeFault),
          c.nics = Table.ofList [("net1", Guest.Nic.onBridge .unknown "vmbr0")] ∧
            c.disks = Table.ofList [("scsi0", { Guest.Disk.onVolume "local:vm-1" with format := some .unknown })] ∧
            c.wordless = ["net1", "scsi0"] ∧ form .update c = .error fault :=
      ⟨{ name := none, onboot := false
         processor := ⟨⟨1, by decide, by decide⟩, ⟨1, by decide, by decide⟩, none, none, Double.zero, none, false⟩
         memory := ⟨⟨512, by decide, by decide⟩, none, none⟩
         nics := _, disks := _, digest := none }, _, rfl, rfl, rfl, rfl⟩
    have hfails := hconfig .update c
    have hfirst := hfails.first fault hform
    rw [hwordless] at hfirst
    exact ⟨c, fault, hnics, hdisks, hwordless, hform, (Option.some.inj hfirst).symm, hfails.kind fault hform⟩
  · obtain ⟨c, hc⟩ : ∃ c : Guest.Config,
        decode (Report.ofPairs [("net1", "model=virtio,bridge=vmbr0"), ("scsi0", "local:vm-1,format=raw")]) = .ok c :=
      ⟨_, rfl⟩
    obtain ⟨f, hf⟩ := hrewritable _ .update c hc
    exact ⟨c, f, hc, hf⟩

end Record

end Hypervisor
