/-
Whom a fault blames.

A record is read property by property, so its fault is that of the first property that cannot be read. Such a property
is at fault itself: what a missing value stands for can always be read, so a fault is either a required property that
the report does not have, or a value that the report does have. The name stands with every token on the way.
-/
import Hypervisor.Proofs.Property.Labels
import Hypervisor.Proofs.Property.ReadBack
import Hypervisor.Proofs.Record.Fields

namespace Hypervisor

open Fallible

/-! ## Single properties -/

namespace Property

variable {α : Type} [Wire α] {p : Property α} {report : Report} {fault : PropertyFault}

/-- what a missing value stands for can be read, unless the property is required -/
def Founded (p : Property α) : Prop := p.presence ≠ .required → ∃ a, p.missing = .ok a

theorem decodePresent_fault {v : Value} (h : p.decodePresent v = .error fault) :
    ∃ reason, fault = .invalid p.name v.shown reason := by
  unfold decodePresent decode at h
  cases hd : Wire.decode (α := α) p.effectiveDialect v with
  | error reason =>
    rw [hd] at h
    exact ⟨_, (Except.error.inj h).symm⟩
  | ok a =>
    rw [hd] at h
    change (if (p.check.map (· a)).getD true then Except.ok a else .error _) = .error fault at h
    split_ifs at h
    exact ⟨_, (Except.error.inj h).symm⟩

theorem missing_fault (hp : p.Founded) (h : p.missing = .error fault) :
    p.presence = .required ∧ fault = .missing p.name := by
  by_cases hr : p.presence = .required
  · unfold missing at h
    rw [hr] at h
    exact ⟨hr, (Except.error.inj h).symm⟩
  · obtain ⟨a, ha⟩ := hp hr
    cases ha.symm.trans h

/-- a property that cannot be read is required and missing, or its value is refused -/
theorem extract_fault (hp : p.Founded) (h : p.extract report = .error fault) :
    (p.presence = .required ∧ (report.get? p.name = none ∨ report.get? p.name = some .absent) ∧
      fault = .missing p.name) ∨
    ∃ value reason, report.get? p.name = some value ∧ value ≠ .absent ∧
      fault = .invalid p.name value.shown reason := by
  -- the transform of a value that was read does not fail
  have hstep : ∀ x : Except PropertyFault α, (x >>= fun a => pure (p.transform.getD id a)) = .error fault →
      x = .error fault := by
    intro x hx
    cases x with
    | error e => exact congrArg Except.error (Except.error.inj hx)
    | ok a => cases hx
  unfold extract resolve at h
  cases hfound : report.get? p.name with
  | none =>
    rw [hfound] at h
    obtain ⟨hr, hfault⟩ := missing_fault hp (hstep _ h)
    exact .inl ⟨hr, .inl rfl, hfault⟩
  | some v =>
    rw [hfound] at h
    by_cases hv : v = .absent
    · subst hv
      obtain ⟨hr, hfault⟩ := missing_fault hp (hstep _ h)
      exact .inl ⟨hr, .inr rfl, hfault⟩
    · have hpresent : p.decodePresent v = .error fault := by
        cases v with
        | absent => exact absurd rfl hv
        | _ => exact hstep _ h
      obtain ⟨reason, hfault⟩ := decodePresent_fault hpresent
      exact .inr ⟨v, reason, rfl, hv, hfault⟩

end Property

/-! ## Properties in order -/

/-- the property is founded and its faults are labelled -/
structure Field.Sound (field : Field) : Prop where
  founded : field.property.Founded
  labelled : ∀ report, Faults PropertyFault.Labelled (field.property.extract report)

namespace Property

variable {α : Type} [Wire α] [LabelledWire α] {p : Property α}

theorem sound_of_required (h : p.presence = .required) : p.field.Sound :=
  ⟨fun hr => absurd h hr, p.labelled_extract⟩

theorem sound_of_missing {a : α} (h : p.missing = .ok a) : p.field.Sound := ⟨fun _ => ⟨a, h⟩, p.labelled_extract⟩

end Property

/-- the fault of the first property that cannot be read -/
def firstFault (fields : List Field) (report : Report) : Option PropertyFault :=
  fields.findSome? fun field => fault? (field.property.extract report)

theorem firstFault_append (fields fields' : List Field) (report : Report) :
    firstFault (fields ++ fields') report = (firstFault fields report).or (firstFault fields' report) :=
  List.findSome?_append

theorem fault?_extract {α : Type} [Wire α] (p : Property α) (report : Report) :
    fault? (p.extract report) = firstFault [p.field] report := by
  rw [firstFault, List.findSome?_singleton]
  rfl

/-- a reader that reads some properties and then others -/
theorem fault?_read {α β : Type} {report : Report} {fields rest : List Field} {x : Except PropertyFault α}
    {f : α → Except PropertyFault β} (hx : fault? x = firstFault fields report)
    (hf : ∀ a, x = .ok a → fault? (f a) = firstFault rest report) :
    fault? (x >>= f) = firstFault (fields ++ rest) report := by
  rw [fault?_bind hf, firstFault_append, hx]

/-- a reader that reads a property and then others -/
theorem fault?_extract_bind {α β : Type} [Wire α] {report : Report} {p : Property α} {rest : List Field}
    {f : α → Except PropertyFault β} (hf : ∀ a, p.extract report = .ok a → fault? (f a) = firstFault rest report) :
    fault? (p.extract report >>= f) = firstFault (p.field :: rest) report :=
  fault?_read (fault?_extract p report) hf

/-- a reader that reads a property for each item and puts the values together -/
theorem fault?_collect {ι α β : Type} [Wire α] (property : ι → Property α) (items : List ι) (report : Report)
    (collect : List α → β) :
    fault? (items.mapM (fun item => (property item).extract report) >>= fun found => pure (collect found)) =
      firstFault (items.map fun item => (property item).field) report := by
  rw [fault?_bind_pure, fault?_mapM, firstFault, List.findSome?_map]
  rfl

/-! ## Faults -/

/-- the fault of reading these properties, and the property that it blames -/
structure PropertyFault.Blames (fields : List Field) (report : Report) (fault : PropertyFault) : Prop where
  /-- it is the fault of the first property that cannot be read -/
  first : ∃ before field after, fields = before ++ field :: after ∧ fault.name = field.name ∧
    field.property.extract report = .error fault ∧ ∀ other ∈ before, ∃ a, other.property.extract report = .ok a
  /-- what is missing is required, and the report does not have it -/
  missing : ∀ name, fault = .missing name → (∃ field ∈ fields, field.name = name ∧ field.presence = .required) ∧
    (report.get? name = none ∨ report.get? name = some .absent)
  /-- a value that is refused is one of the report, and what the fault shows is its rendering -/
  invalid : ∀ name shown reason, fault = .invalid name shown reason →
    ∃ value, report.get? name = some value ∧ value ≠ .absent ∧ shown.render = value.render
  labelled : fault.Labelled

theorem blames_of_firstFault {fields : List Field} {report : Report} {fault : PropertyFault}
    (hs : ∀ field ∈ fields, field.Sound) (h : firstFault fields report = some fault) : fault.Blames fields report := by
  obtain ⟨before, field, after, rfl, hfault, hbefore⟩ := List.findSome?_eq_some_iff.1 h
  rw [fault?_eq_some] at hfault
  have hfield : field ∈ before ++ field :: after := by simp
  have hcases := Property.extract_fault (hs field hfield).founded hfault
  have hname : fault.name = field.name := by
    rcases hcases with ⟨-, -, rfl⟩ | ⟨_, _, -, -, rfl⟩
    · rfl
    · rfl
  have hread : ∀ other ∈ before, ∃ a, other.property.extract report = .ok a := fun other hother =>
    fault?_eq_none.1 (hbefore other hother)
  refine ⟨⟨before, field, after, rfl, hname, hfault, hread⟩, ?_, ?_, (hs field hfield).labelled report fault hfault⟩
  · rintro name rfl
    rcases hcases with ⟨hrequired, hmissing, heq⟩ | ⟨_, _, -, -, heq⟩
    · obtain rfl := PropertyFault.missing.inj heq
      exact ⟨⟨field, hfield, rfl, hrequired⟩, hmissing⟩
    · cases heq
  · rintro name shown reason rfl
    rcases hcases with ⟨-, -, heq⟩ | ⟨value, _, hvalue, hpresent, heq⟩
    · cases heq
    · obtain ⟨rfl, rfl, rfl⟩ := PropertyFault.invalid.inj heq
      exact ⟨value, hvalue, hpresent, rfl⟩

/-! ## Guests -/

namespace Guest

open Property

theorem Processor.fault?_decode (report : Report) : fault? (Processor.decode report) = firstFault fields report := by
  iterate 7 refine fault?_extract_bind fun _ _ => ?_
  rfl

theorem Memory.fault?_decode (report : Report) : fault? (Memory.decode report) = firstFault fields report := by
  iterate 3 refine fault?_extract_bind fun _ _ => ?_
  rfl

theorem fault?_devicesOf {α : Type} [Wire α] (report : Report) (slots : List String) :
    fault? (devicesOf (α := α) report slots) = firstFault (slotFields α slots) report :=
  fault?_collect (slotProperty α) slots report _

theorem Config.fault?_decode (report : Report) : fault? (Config.decode report) = firstFault fields report := by
  simp only [fields, List.append_assoc, List.cons_append, List.nil_append]
  refine fault?_extract_bind fun _ _ => fault?_extract_bind fun _ _ => ?_
  refine fault?_read (Processor.fault?_decode report) fun _ _ => ?_
  refine fault?_read (Memory.fault?_decode report) fun _ _ => ?_
  refine fault?_read (fault?_devicesOf report nicSlots) fun _ _ => ?_
  refine fault?_read (fault?_devicesOf report diskSlots) fun _ _ => ?_
  exact fault?_extract_bind fun _ _ => rfl

theorem Processor.fields_sound : ∀ field ∈ Processor.fields, field.Sound := by
  simp only [Processor.fields, List.forall_mem_cons]
  exact ⟨sound_of_missing rfl, sound_of_missing rfl, sound_of_missing rfl, sound_of_missing rfl, sound_of_missing rfl,
    sound_of_missing rfl, sound_of_missing rfl, List.forall_mem_nil _⟩

theorem Memory.fields_sound : ∀ field ∈ Memory.fields, field.Sound := by
  simp only [Memory.fields, List.forall_mem_cons]
  exact ⟨sound_of_missing rfl, sound_of_missing rfl, sound_of_missing rfl, List.forall_mem_nil _⟩

theorem slotFields_sound {α : Type} [Wire α] [LabelledWire α] (slots : List String) :
    ∀ field ∈ slotFields α slots, field.Sound :=
  List.forall_mem_map.2 fun _ _ => sound_of_missing rfl

theorem CpuModel.fields_sound : ∀ field ∈ CpuModel.fields, field.Sound := by
  simp only [CpuModel.fields, List.forall_mem_cons]
  exact ⟨sound_of_required rfl, sound_of_missing rfl, List.forall_mem_nil _⟩

theorem Nic.fields_sound : ∀ field ∈ Nic.fields, field.Sound := by
  simp only [Nic.fields, List.forall_mem_cons]
  exact ⟨sound_of_required rfl, sound_of_missing rfl, sound_of_missing rfl, sound_of_missing rfl, sound_of_missing rfl,
    sound_of_missing rfl, sound_of_missing rfl, sound_of_missing rfl, sound_of_missing rfl, List.forall_mem_nil _⟩

theorem Disk.fields_sound : ∀ field ∈ Disk.fields, field.Sound := by
  simp only [Disk.fields, List.forall_mem_cons]
  exact ⟨sound_of_required rfl, sound_of_missing rfl, sound_of_missing rfl, sound_of_missing rfl, sound_of_missing rfl,
    sound_of_missing rfl, sound_of_missing rfl, sound_of_missing rfl, sound_of_missing rfl, List.forall_mem_nil _⟩

theorem Config.fields_sound : ∀ field ∈ Config.fields, field.Sound := by
  simp only [Config.fields, List.forall_mem_append, List.forall_mem_cons]
  exact ⟨⟨⟨⟨⟨⟨sound_of_missing rfl, sound_of_missing rfl, List.forall_mem_nil _⟩, Processor.fields_sound⟩,
    Memory.fields_sound⟩, slotFields_sound nicSlots⟩, slotFields_sound diskSlots⟩, sound_of_missing rfl,
    List.forall_mem_nil _⟩

end Guest

/-! ## Rules, groups and nodes -/

open Property

namespace Firewall.Rule

theorem fault?_decode (report : Report) : fault? (decode report) = firstFault fields report := by
  iterate 15 refine fault?_extract_bind fun _ _ => ?_
  rfl

theorem fields_sound : ∀ field ∈ fields, field.Sound := by
  simp only [fields, List.forall_mem_cons]
  exact ⟨sound_of_missing rfl, sound_of_required rfl, sound_of_required rfl, sound_of_missing rfl, sound_of_missing rfl,
    sound_of_missing rfl, sound_of_missing rfl, sound_of_missing rfl, sound_of_missing rfl, sound_of_missing rfl,
    sound_of_missing rfl, sound_of_missing rfl, sound_of_missing rfl, sound_of_missing rfl, sound_of_missing rfl,
    List.forall_mem_nil _⟩

end Firewall.Rule

namespace Availability.Group

theorem fault?_decode (report : Report) : fault? (decode report) = firstFault fields report := by
  iterate 6 refine fault?_extract_bind fun _ _ => ?_
  rfl

theorem fields_sound : ∀ field ∈ fields, field.Sound := by
  simp only [fields, List.forall_mem_cons]
  exact ⟨sound_of_required rfl, sound_of_required rfl, sound_of_missing rfl, sound_of_missing rfl, sound_of_missing rfl,
    sound_of_missing rfl, List.forall_mem_nil _⟩

end Availability.Group

theorem Cluster.Link.fields_sound : ∀ field ∈ Cluster.Link.fields, field.Sound := by
  simp only [Cluster.Link.fields, List.forall_mem_cons]
  exact ⟨sound_of_required rfl, sound_of_missing rfl, List.forall_mem_nil _⟩

namespace Cluster.Node

theorem fault?_linksOf (report : Report) :
    fault? (linksOf report) =
      firstFault ((List.range linkCount).map fun number => (linkProperty number).field) report :=
  fault?_collect linkProperty (List.range linkCount) report _

theorem fault?_decode (report : Report) : fault? (decode report) = firstFault fields report := by
  simp only [fields, List.cons_append, List.nil_append]
  iterate 3 refine fault?_extract_bind fun _ _ => ?_
  rw [← List.append_nil (List.map _ _)]
  exact fault?_read (fault?_linksOf report) fun _ _ => rfl

theorem fields_sound : ∀ field ∈ fields, field.Sound := by
  simp only [fields, List.forall_mem_append, List.forall_mem_cons, List.forall_mem_map]
  exact ⟨⟨sound_of_required rfl, sound_of_missing rfl, sound_of_missing rfl, List.forall_mem_nil _⟩,
    fun _ _ => sound_of_missing rfl⟩

end Cluster.Node

/-! ## Storages and tasks -/

namespace Storage.Definition

/-- the kind is read before the properties whose defaults depend on it -/
theorem fault?_decode {report : Report} {kind : Choice Kind}
    (hkind : ∀ kind', kindProperty.extract report = .ok kind' → kind' = kind) :
    fault? (decode report) = firstFault (fields kind) report := by
  refine fault?_extract_bind fun _ _ => fault?_extract_bind fun kind' h => ?_
  obtain rfl := hkind kind' h
  iterate 13 refine fault?_extract_bind fun _ _ => ?_
  rfl

/-- the defaults of every backend can be read -/
theorem defaults_sound (kind : Choice Kind) :
    (contentProperty kind).field.Sound ∧ (sharedProperty kind).field.Sound ∧ (sparseProperty kind).field.Sound := by
  rcases kind with kind | _
  · cases kind <;> exact ⟨sound_of_missing rfl, sound_of_missing rfl, sound_of_missing rfl⟩
  · exact ⟨sound_of_missing rfl, sound_of_missing rfl, sound_of_missing rfl⟩

theorem fields_sound (kind : Choice Kind) : ∀ field ∈ fields kind, field.Sound := by
  obtain ⟨hcontent, hshared, hsparse⟩ := defaults_sound kind
  simp only [fields, List.forall_mem_cons]
  exact ⟨sound_of_required rfl, sound_of_required rfl, hcontent, hshared, sound_of_missing rfl, sound_of_missing rfl,
    sound_of_missing rfl, sound_of_missing rfl, sound_of_missing rfl, sound_of_missing rfl, sound_of_missing rfl,
    sound_of_missing rfl, sound_of_missing rfl, hsparse, sound_of_missing rfl, List.forall_mem_nil _⟩

end Storage.Definition

namespace Task.Status

/-- the exit status of a task that runs is not read -/
theorem firstFault_of_decode {report : Report} {fault : PropertyFault} (h : decode report = .error fault) :
    firstFault fields report = some fault := by
  have hfirst : firstFault fields report =
      (firstFault [stateProperty.field] report).or (firstFault [exitStatusProperty.field] report) :=
    firstFault_append [stateProperty.field] [exitStatusProperty.field] report
  rw [hfirst, ← fault?_extract, ← fault?_extract]
  unfold decode at h
  cases hstate : stateProperty.extract report with
  | error fault' =>
    rw [hstate] at h
    obtain rfl : fault' = fault := Except.error.inj h
    rfl
  | ok state =>
    rw [hstate] at h
    rcases state with (_ | _) | _
    · cases h
    · change (exitStatusProperty.extract report >>= fun exitStatus => pure (stopped (exitStatus.getD ""))) =
        .error fault at h
      cases hexit : exitStatusProperty.extract report with
      | error fault' =>
        rw [hexit] at h
        obtain rfl : fault' = fault := Except.error.inj h
        rfl
      | ok exitStatus =>
        rw [hexit] at h
        cases h
    · cases h

theorem fields_sound : ∀ field ∈ fields, field.Sound := by
  simp only [fields, List.forall_mem_cons]
  exact ⟨sound_of_required rfl, sound_of_missing rfl, List.forall_mem_nil _⟩

end Task.Status

/-! ## Readers -/

/-- a fault of a reader of these properties, in order, blames one of them -/
theorem blames_of_decode {α : Type} {decode : Report → Except PropertyFault α} {fields : List Field} {report : Report}
    {fault : PropertyFault} (hs : ∀ field ∈ fields, field.Sound)
    (hd : fault? (decode report) = firstFault fields report) (h : decode report = .error fault) :
    fault.Blames fields report :=
  blames_of_firstFault hs (hd.symm.trans (fault?_eq_some.2 h))

/-- **Every fault is about a property that is at fault.** Whatever is read, the fault is that of the first property that
cannot be read; what it calls missing is required and not in the report, and a value that it refuses is in the report
and shown as it is rendered. No default is refused, neither that of a record or of a packed property nor that of any
backend. -/
theorem decode_blames :
    (∀ report fault, Guest.Config.decode report = .error fault → fault.Blames Guest.Config.fields report) ∧
      (∀ report fault, Guest.Processor.decode report = .error fault → fault.Blames Guest.Processor.fields report) ∧
      (∀ report fault, Guest.Memory.decode report = .error fault → fault.Blames Guest.Memory.fields report) ∧
      (∀ report fault, Firewall.Rule.decode report = .error fault → fault.Blames Firewall.Rule.fields report) ∧
      (∀ report fault, Availability.Group.decode report = .error fault →
        fault.Blames Availability.Group.fields report) ∧
      (∀ report fault, Cluster.Node.decode report = .error fault → fault.Blames Cluster.Node.fields report) ∧
      (∀ report fault kind, (∀ kind', Storage.Definition.kindProperty.extract report = .ok kind' → kind' = kind) →
        Storage.Definition.decode report = .error fault → fault.Blames (Storage.Definition.fields kind) report) ∧
      (∀ report fault, Task.Status.decode report = .error fault → fault.Blames Task.Status.fields report) ∧
      (∀ field ∈ Guest.Config.fields ++ Guest.CpuModel.fields ++ Guest.Nic.fields ++ Guest.Disk.fields ++
        Firewall.Rule.fields ++ Availability.Group.fields ++ Cluster.Node.fields ++ Cluster.Link.fields ++
        Task.Status.fields, field.property.Founded) ∧
      ∀ kind, ∀ field ∈ Storage.Definition.fields kind, field.property.Founded := by
  refine ⟨?_, ?_, ?_, ?_, ?_, ?_, ?_, ?_, ?_, ?_⟩
  · exact fun report _ => blames_of_decode Guest.Config.fields_sound (Guest.Config.fault?_decode report)
  · exact fun report _ => blames_of_decode Guest.Processor.fields_sound (Guest.Processor.fault?_decode report)
  · exact fun report _ => blames_of_decode Guest.Memory.fields_sound (Guest.Memory.fault?_decode report)
  · exact fun report _ => blames_of_decode Firewall.Rule.fields_sound (Firewall.Rule.fault?_decode report)
  · exact fun report _ => blames_of_decode Availability.Group.fields_sound (Availability.Group.fault?_decode report)
  · exact fun report _ => blames_of_decode Cluster.Node.fields_sound (Cluster.Node.fault?_decode report)
  · intro report fault kind hkind
    exact blames_of_decode (Storage.Definition.fields_sound kind) (Storage.Definition.fault?_decode hkind)
  · intro report fault h
    exact blames_of_firstFault Task.Status.fields_sound (Task.Status.firstFault_of_decode h)
  · simp only [List.forall_mem_append]
    exact ⟨⟨⟨⟨⟨⟨⟨⟨fun field h => (Guest.Config.fields_sound field h).founded,
      fun field h => (Guest.CpuModel.fields_sound field h).founded⟩,
      fun field h => (Guest.Nic.fields_sound field h).founded⟩,
      fun field h => (Guest.Disk.fields_sound field h).founded⟩,
      fun field h => (Firewall.Rule.fields_sound field h).founded⟩,
      fun field h => (Availability.Group.fields_sound field h).founded⟩,
      fun field h => (Cluster.Node.fields_sound field h).founded⟩,
      fun field h => (Cluster.Link.fields_sound field h).founded⟩,
      fun field h => (Task.Status.fields_sound field h).founded⟩
  · exact fun kind field h => (Storage.Definition.fields_sound kind field h).founded

/-- a tag inside of a card, named at both levels, and a content that is none, ahead of a flag that is none -/
theorem decode_blames_tag_and_content :
    (∃ (report : Report) (fault : PropertyFault),
      report = Report.ofPairs [("cores", "4"), ("net0", "model=virtio,tag=abc"), ("net1", "")] ∧
        fault = .invalid "net0" ⟨"\"model=virtio,tag=abc\""⟩
          (.entry (.invalid "tag" ⟨"\"abc\""⟩ (.token (.unrecognized (some "tag") "u16" "abc")))) ∧
        Guest.Config.decode report = .error fault ∧ fault.Blames Guest.Config.fields report) ∧
    ∃ (report : Report) (fault : PropertyFault),
      report = Report.ofPairs [("storage", "nas"), ("type", "nfs"), ("content", "video"), ("shared", "2")] ∧
        fault = .invalid "content" ⟨"\"video\""⟩ (.token (.unrecognized (some "content") "content type" "video")) ∧
        Storage.Definition.kindProperty.extract report = .ok (.known .nfs) ∧
        Storage.Definition.decode report = .error fault ∧
        fault.Blames (Storage.Definition.fields (.known .nfs)) report := by
  obtain ⟨hconfig, -, -, -, -, -, hstorage, -⟩ := decode_blames
  have hcard : (⟨"\"model=virtio,tag=abc\""⟩ : Value.Shown) = (Value.text "model=virtio,tag=abc").shown := by
    decide +kernel
  have htag : (⟨"\"abc\""⟩ : Value.Shown) = (Value.text "abc").shown := by decide +kernel
  have hcontent : (⟨"\"video\""⟩ : Value.Shown) = (Value.text "video").shown := by decide +kernel
  constructor
  · rw [hcard, htag]
    exact ⟨_, _, rfl, rfl, rfl, hconfig _ _ rfl⟩
  · rw [hcontent]
    refine ⟨_, _, rfl, rfl, rfl, rfl, hstorage _ _ (.known .nfs) ?_ rfl⟩
    intro kind hkind
    exact (Except.ok.inj hkind).symm

end Hypervisor
