/-
Guest configurations property by property: what it takes to read one, and how one reads back from its create form.
-/
import Hypervisor.Guest.Config
import Hypervisor.Proofs.Guest.CpuModel
import Hypervisor.Proofs.Guest.Disk
import Hypervisor.Proofs.Guest.Nic
import Hypervisor.Proofs.Record.Members

namespace Hypervisor.Guest

open Fallible Property

/-! ## Memory -/

namespace Memory

theorem size_faithful : sizeProperty.Faithful :=
  faithful_of_default rfl rfl rfl ⟨⟨512, by decide, by decide⟩, rfl, rfl⟩

theorem balloon_faithful : balloonProperty.Faithful := faithful_of_optional (by decide) rfl rfl rfl

theorem shares_faithful : sharesProperty.Faithful := faithful_of_optional (by decide) rfl rfl rfl

theorem decode_eq_ok {report : Report} {m : Memory} :
    decode report = .ok m ↔
      sizeProperty.extract report = .ok m.size ∧ balloonProperty.extract report = .ok m.balloon ∧
        sharesProperty.extract report = .ok m.shares := by
  simp only [decode, bind_eq_ok, pure_eq_ok]
  constructor
  · rintro ⟨_, h₁, _, h₂, _, h₃, rfl⟩
    exact ⟨h₁, h₂, h₃⟩
  · intro ⟨h₁, h₂, h₃⟩
    exact ⟨_, h₁, _, h₂, _, h₃, rfl⟩

/-- each property reads back as that of the other -/
def FieldsRead (m m' : Memory) : Prop :=
  sizeProperty.ReadsAs m.size m'.size ∧ balloonProperty.ReadsAs m.balloon m'.balloon ∧
    sharesProperty.ReadsAs m.shares m'.shares

theorem writable (m : Memory) : ∀ a ∈ m.attributes, ∃ o, a.outcome = .ok o := by
  simp only [attributes, List.forall_mem_cons]
  exact ⟨exists_outcome_of_total sizeProperty _, exists_outcome_of_total_option (p := balloonProperty) rfl _,
    exists_outcome_of_total_option (p := sharesProperty) rfl _, List.forall_mem_nil _⟩

section Forms

variable {as : List Attribute} {f : Form} {m m' : Memory}

theorem FieldsRead.writable (h : m.FieldsRead m') : ∀ a ∈ m.attributes, ∃ o, a.outcome = .ok o := by
  obtain ⟨h₁, h₂, h₃⟩ := h
  simp only [attributes, List.forall_mem_cons]
  exact ⟨h₁.writable, h₂.writable, h₃.writable, List.forall_mem_nil _⟩

theorem decode_report_iff (hnd : (as.map Attribute.name).Nodup) (hf : Form.ofAttributes .create as = .ok f)
    (hsub : m.attributes ⊆ as) : decode f.report = .ok m' ↔ m.FieldsRead m' := by
  have hread {α : Type} [Wire α] {p : Property α} {a b : α} (hp : p.attribute a ∈ m.attributes) :
      p.extract f.report = .ok b ↔ p.ReadsAs a b := Form.extract_report hnd hf (hsub hp)
  rw [decode_eq_ok]
  exact and_congr (hread (by simp [attributes])) (and_congr (hread (by simp [attributes]))
    (hread (by simp [attributes])))

theorem decode_applyTo (hnd : (as.map Attribute.name).Nodup) (hf : Form.ofAttributes .update as = .ok f)
    (hsub : m.attributes ⊆ as) (hown : m.FieldsRead m') (state : Report) : decode (f.applyTo state) = .ok m' := by
  obtain ⟨h₁, h₂, h₃⟩ := hown
  have hread {α : Type} [Wire α] {p : Property α} {a b : α} (he : p.emission = .omitDefault) (h : p.ReadsAs a b)
      (hp : p.attribute a ∈ m.attributes) : p.extract (f.applyTo state) = .ok b :=
    Form.extract_applyTo hnd hf state (hsub hp) (speaks_of_omitDefault he a) h
  exact decode_eq_ok.2 ⟨hread rfl h₁ (by simp [attributes]), hread rfl h₂ (by simp [attributes]),
    hread rfl h₃ (by simp [attributes])⟩

end Forms

theorem size_accepts_iff {size : U64} : sizeProperty.Accepts size ↔ 16 ≤ size.val := by
  rw [accepts_iff rfl, decide_eq_true_eq]

theorem shares_accepts_iff {shares : Option U32} : sharesProperty.Accepts shares ↔ ∀ n ∈ shares, n.val ≤ 50000 := by
  rw [accepts_iff rfl]
  cases shares <;> simp

/-- what a memory must be to read back -/
structure InRange (m : Memory) : Prop where
  size : 16 ≤ m.size.val
  shares : ∀ shares ∈ m.shares, shares.val ≤ 50000

theorem fieldsRead_iff {m m' : Memory} : m.FieldsRead m' ↔ m' = m ∧ m.InRange := by
  obtain ⟨size, balloon, shares⟩ := m
  obtain ⟨size', balloon', shares'⟩ := m'
  have hsize := exists_outcome_of_total sizeProperty size
  have hballoon := exists_outcome_of_total_option (p := balloonProperty) rfl balloon
  have hshares := exists_outcome_of_total_option (p := sharesProperty) rfl shares
  unfold FieldsRead
  rw [size_faithful.readsAs_iff, balloon_faithful.readsAs_iff, shares_faithful.readsAs_iff, size_accepts_iff,
    shares_accepts_iff]
  constructor
  · rintro ⟨⟨rfl, -, h₁⟩, ⟨rfl, -⟩, rfl, -, h₂⟩
    exact ⟨rfl, h₁, h₂⟩
  · rintro ⟨h, h₁, h₂⟩
    obtain ⟨rfl, rfl, rfl⟩ := Memory.mk.inj h
    exact ⟨⟨rfl, hsize, h₁⟩, ⟨rfl, hballoon, rfl⟩, rfl, hshares, h₂⟩

theorem attributes_nodup (m : Memory) : (m.attributes.map Attribute.name).Nodup := by
  rw [show m.attributes.map Attribute.name = ["memory", "balloon", "shares"] from rfl]
  decide

/-- a memory reads back property by property -/
theorem readsAs_iff {m m' : Memory} : Record.ReadsAs m m' ↔ m.FieldsRead m' :=
  Record.readsAs_iff_fields FieldsRead.writable fun _ hf => decode_report_iff m.attributes_nodup hf fun _ h => h

theorem inRange_of_decode {report : Report} {m : Memory} (h : decode report = .ok m) : m.InRange := by
  obtain ⟨h₁, -, h₃⟩ := decode_eq_ok.1 h
  exact ⟨size_accepts_iff.1 (size_faithful.accepts _ _ h₁), shares_accepts_iff.1 (shares_faithful.accepts _ _ h₃)⟩

end Memory

/-! ## Processor -/

namespace Processor

theorem cores_faithful : coresProperty.Faithful :=
  faithful_of_default rfl rfl rfl ⟨⟨1, by decide, by decide⟩, rfl, rfl⟩

theorem sockets_faithful : socketsProperty.Faithful :=
  faithful_of_default rfl rfl rfl ⟨⟨1, by decide, by decide⟩, rfl, rfl⟩

theorem vcpus_faithful : vcpusProperty.Faithful := faithful_of_optional (by decide) rfl rfl rfl

theorem limit_faithful : limitProperty.Faithful := faithful_of_default rfl rfl rfl ⟨Double.zero, rfl, rfl⟩

theorem units_faithful : unitsProperty.Faithful := faithful_of_optional (by decide) rfl rfl rfl

theorem numa_faithful : numaProperty.Faithful := faithful_of_default rfl rfl rfl ⟨false, rfl, rfl⟩

theorem decode_eq_ok {report : Report} {p : Processor} :
    decode report = .ok p ↔
      coresProperty.extract report = .ok p.cores ∧ socketsProperty.extract report = .ok p.sockets ∧
        vcpusProperty.extract report = .ok p.vcpus ∧ modelProperty.extract report = .ok p.model ∧
        limitProperty.extract report = .ok p.limit ∧ unitsProperty.extract report = .ok p.units ∧
        numaProperty.extract report = .ok p.numa := by
  simp only [decode, bind_eq_ok, pure_eq_ok]
  constructor
  · rintro ⟨_, h₁, _, h₂, _, h₃, _, h₄, _, h₅, _, h₆, _, h₇, rfl⟩
    exact ⟨h₁, h₂, h₃, h₄, h₅, h₆, h₇⟩
  · intro ⟨h₁, h₂, h₃, h₄, h₅, h₆, h₇⟩
    exact ⟨_, h₁, _, h₂, _, h₃, _, h₄, _, h₅, _, h₆, _, h₇, rfl⟩

/-- each property reads back as that of the other -/
def FieldsRead (p p' : Processor) : Prop :=
  coresProperty.ReadsAs p.cores p'.cores ∧ socketsProperty.ReadsAs p.sockets p'.sockets ∧
    vcpusProperty.ReadsAs p.vcpus p'.vcpus ∧ modelProperty.ReadsAs p.model p'.model ∧
    limitProperty.ReadsAs p.limit p'.limit ∧ unitsProperty.ReadsAs p.units p'.units ∧
    numaProperty.ReadsAs p.numa p'.numa

/-- only the limit can be a value without a text -/
theorem writable (p : Processor) (hlimit : p.limit.isFinite = true) : ∀ a ∈ p.attributes, ∃ o, a.outcome = .ok o := by
  have hmodel : ∃ o, modelProperty.outcome p.model = .ok o := by
    cases p.model with
    | none => exact exists_outcome_none rfl
    | some model =>
      obtain ⟨w, hw⟩ := model.exists_encode
      exact exists_outcome_of_encode (p := modelProperty) (a := some model) hw
  have hfinite : ∃ o, limitProperty.outcome p.limit = .ok o :=
    exists_outcome_of_encode (Double.encode_eq_ok.2 ⟨hlimit, rfl⟩)
  simp only [attributes, List.forall_mem_cons]
  exact ⟨exists_outcome_of_total coresProperty _, exists_outcome_of_total socketsProperty _,
    exists_outcome_of_total_option (p := vcpusProperty) rfl _, hmodel, hfinite,
    exists_outcome_of_total_option (p := unitsProperty) rfl _, exists_outcome_of_total numaProperty _,
    List.forall_mem_nil _⟩

section Forms

variable {as : List Attribute} {f : Form} {p p' : Processor}

theorem FieldsRead.writable (h : p.FieldsRead p') : ∀ a ∈ p.attributes, ∃ o, a.outcome = .ok o := by
  obtain ⟨h₁, h₂, h₃, h₄, h₅, h₆, h₇⟩ := h
  simp only [attributes, List.forall_mem_cons]
  exact ⟨h₁.writable, h₂.writable, h₃.writable, h₄.writable, h₅.writable, h₆.writable, h₇.writable,
    List.forall_mem_nil _⟩

theorem decode_report_iff (hnd : (as.map Attribute.name).Nodup) (hf : Form.ofAttributes .create as = .ok f)
    (hsub : p.attributes ⊆ as) : decode f.report = .ok p' ↔ p.FieldsRead p' := by
  have hread {α : Type} [Wire α] {q : Property α} {a b : α} (hq : q.attribute a ∈ p.attributes) :
      q.extract f.report = .ok b ↔ q.ReadsAs a b := Form.extract_report hnd hf (hsub hq)
  rw [decode_eq_ok]
  refine and_congr (hread ?_) (and_congr (hread ?_) (and_congr (hread ?_) (and_congr (hread ?_)
    (and_congr (hread ?_) (and_congr (hread ?_) (hread ?_)))))) <;> simp [attributes]

theorem decode_applyTo (hnd : (as.map Attribute.name).Nodup) (hf : Form.ofAttributes .update as = .ok f)
    (hsub : p.attributes ⊆ as) (hown : p.FieldsRead p') (state : Report) : decode (f.applyTo state) = .ok p' := by
  obtain ⟨h₁, h₂, h₃, h₄, h₅, h₆, h₇⟩ := hown
  have hread {α : Type} [Wire α] {q : Property α} {a b : α} (he : q.emission = .omitDefault) (h : q.ReadsAs a b)
      (hq : q.attribute a ∈ p.attributes) : q.extract (f.applyTo state) = .ok b :=
    Form.extract_applyTo hnd hf state (hsub hq) (speaks_of_omitDefault he a) h
  refine decode_eq_ok.2 ⟨hread rfl h₁ ?_, hread rfl h₂ ?_, hread rfl h₃ ?_, hread rfl h₄ ?_, hread rfl h₅ ?_,
    hread rfl h₆ ?_, hread rfl h₇ ?_⟩ <;> simp [attributes]

end Forms

theorem cores_accepts_iff {n : U32} : coresProperty.Accepts n ↔ 1 ≤ n.val := by
  rw [accepts_iff rfl, atLeastOne, decide_eq_true_eq]

theorem sockets_accepts_iff {n : U32} : socketsProperty.Accepts n ↔ 1 ≤ n.val := by
  rw [accepts_iff rfl, atLeastOne, decide_eq_true_eq]

theorem units_accepts_iff {units : Option U32} :
    unitsProperty.Accepts units ↔ ∀ n ∈ units, 1 ≤ n.val ∧ n.val ≤ 262144 := by
  rw [accepts_iff rfl]
  cases units <;> simp

theorem isFinite_of_between {low high : ℤ} {x : Double} (h : Double.between low high x = true) : x.isFinite = true := by
  cases x with
  | nan => cases h
  | infinite negative => cases h
  | finite negative m => rfl

/-- what a processor must be to read back, apart from its model -/
structure InRange (p : Processor) : Prop where
  cores : 1 ≤ p.cores.val
  sockets : 1 ≤ p.sockets.val
  limit : Double.between 0 128 p.limit = true
  units : ∀ units ∈ p.units, 1 ≤ units.val ∧ units.val ≤ 262144

theorem fieldsRead_iff {p p' : Processor} :
    p.FieldsRead p' ↔ p' = { p with model := p'.model } ∧ p.InRange ∧ modelProperty.ReadsAs p.model p'.model := by
  obtain ⟨cores, sockets, vcpus, model, limit, units, numa⟩ := p
  obtain ⟨cores', sockets', vcpus', model', limit', units', numa'⟩ := p'
  have hcores := exists_outcome_of_total coresProperty cores
  have hsockets := exists_outcome_of_total socketsProperty sockets
  have hvcpus := exists_outcome_of_total_option (p := vcpusProperty) rfl vcpus
  have hunits := exists_outcome_of_total_option (p := unitsProperty) rfl units
  have hnuma := exists_outcome_of_total numaProperty numa
  unfold FieldsRead
  rw [cores_faithful.readsAs_iff, sockets_faithful.readsAs_iff, vcpus_faithful.readsAs_iff,
    limit_faithful.readsAs_iff, units_faithful.readsAs_iff, numa_faithful.readsAs_iff, cores_accepts_iff,
    sockets_accepts_iff, units_accepts_iff]
  constructor
  · rintro ⟨⟨rfl, -, h₁⟩, ⟨rfl, -, h₂⟩, ⟨rfl, -⟩, hmodel, ⟨rfl, -, h₃⟩, ⟨rfl, -, h₄⟩, rfl, -⟩
    exact ⟨rfl, ⟨h₁, h₂, h₃, h₄⟩, hmodel⟩
  · rintro ⟨h, ⟨h₁, h₂, h₃, h₄⟩, hmodel⟩
    obtain ⟨rfl, rfl, rfl, -, rfl, rfl, rfl⟩ := Processor.mk.inj h
    have hlimit : ∃ o, limitProperty.outcome limit' = .ok o :=
      exists_outcome_of_encode (Double.encode_eq_ok.2 ⟨isFinite_of_between h₃, rfl⟩)
    exact ⟨⟨rfl, hcores, h₁⟩, ⟨rfl, hsockets, h₂⟩, ⟨rfl, hvcpus, rfl⟩, hmodel, ⟨rfl, hlimit, h₃⟩, ⟨rfl, hunits, h₄⟩,
      rfl, hnuma, rfl⟩

theorem inRange_of_decode {report : Report} {p : Processor} (h : decode report = .ok p) : p.InRange := by
  obtain ⟨h₁, h₂, -, -, h₅, h₆, -⟩ := decode_eq_ok.1 h
  exact ⟨cores_accepts_iff.1 (cores_faithful.accepts _ _ h₁), sockets_accepts_iff.1 (sockets_faithful.accepts _ _ h₂),
    limit_faithful.accepts _ _ h₅, units_accepts_iff.1 (units_faithful.accepts _ _ h₆)⟩

theorem beq_iff {a b : Processor} :
    (a == b) = true ↔
      a.cores = b.cores ∧ a.sockets = b.sockets ∧ a.vcpus = b.vcpus ∧ a.model = b.model ∧
        (a.limit == b.limit) = true ∧ a.units = b.units ∧ a.numa = b.numa := by
  cases a
  cases b
  change instBEqProcessor.beq _ _ = true ↔ _
  simp [instBEqProcessor.beq]

theorem attributes_nodup (p : Processor) : (p.attributes.map Attribute.name).Nodup := by
  rw [show p.attributes.map Attribute.name =
    ["cores", "sockets", "vcpus", "cpu", "cpulimit", "cpuunits", "numa"] from rfl]
  decide

/-- a processor reads back property by property -/
theorem readsAs_iff {p p' : Processor} : Record.ReadsAs p p' ↔ p.FieldsRead p' :=
  Record.readsAs_iff_fields FieldsRead.writable fun _ hf => decode_report_iff p.attributes_nodup hf fun _ h => h

/-- a processor that comes back equal comes back the same -/
theorem FieldsRead.eq_of_beq {p p' : Processor} (h : p.FieldsRead p') (heq : (p' == p) = true) : p' = p := by
  obtain ⟨hp, -⟩ := fieldsRead_iff.1 h
  obtain ⟨-, -, -, hmodel, -⟩ := beq_iff.1 heq
  rw [hp, hmodel]

end Processor

/-! ## Devices -/

section Devices

variable {α : Type} [Wire α]

omit [Wire α] in
theorem slot_isMember (slot : String) : (slotProperty α slot).IsMember := ⟨rfl, rfl, rfl, rfl, rfl⟩

theorem devicesOf_eq_ok {report : Report} {slots : List String} (hnd : slots.Nodup) {devices : Table String α} :
    devicesOf report slots = .ok devices ↔ MembersOf (slotProperty α) slots report devices :=
  Table.collect_eq_ok hnd

theorem mem_deviceAttributes {devices : Table String α} {slots : List String} :
    ∀ slot ∈ slots, (slotProperty α slot).attribute (devices.get? slot) ∈ deviceAttributes devices slots :=
  fun slot h => List.mem_map.2 ⟨slot, h, rfl⟩

theorem deviceAttributes_names (devices : Table String α) (slots : List String) :
    (deviceAttributes devices slots).map Attribute.name = slots := by
  rw [deviceAttributes, List.map_map]
  exact List.map_id slots

end Devices

/-! ## Configurations -/

namespace Config

theorem name_faithful : nameProperty.Faithful := faithful_of_optional (by decide) rfl rfl rfl

theorem onboot_faithful : onbootProperty.Faithful := faithful_of_default rfl rfl rfl ⟨false, rfl, rfl⟩

theorem nicSlots_nodup : nicSlots.Nodup := by decide

theorem diskSlots_nodup : diskSlots.Nodup := by decide

theorem decode_eq_ok {report : Report} {c : Config} :
    decode report = .ok c ↔
      nameProperty.extract report = .ok c.name ∧ onbootProperty.extract report = .ok c.onboot ∧
        Processor.decode report = .ok c.processor ∧ Memory.decode report = .ok c.memory ∧
        devicesOf report nicSlots = .ok c.nics ∧ devicesOf report diskSlots = .ok c.disks ∧
        digestProperty.extract report = .ok c.digest := by
  simp only [decode, bind_eq_ok, pure_eq_ok]
  constructor
  · rintro ⟨_, h₁, _, h₂, _, h₃, _, h₄, _, h₅, _, h₆, _, h₇, rfl⟩
    exact ⟨h₁, h₂, h₃, h₄, h₅, h₆, h₇⟩
  · intro ⟨h₁, h₂, h₃, h₄, h₅, h₆, h₇⟩
    exact ⟨_, h₁, _, h₂, _, h₃, _, h₄, _, h₅, _, h₆, _, h₇, rfl⟩

theorem attributes_names (c : Config) :
    c.attributes.map Attribute.name =
      ["name", "onboot", "cores", "sockets", "vcpus", "cpu", "cpulimit", "cpuunits", "numa", "memory", "balloon",
        "shares"] ++ nicSlots ++ diskSlots ++ ["digest"] := by
  simp only [attributes, List.map_append, deviceAttributes_names]
  rfl

theorem attributes_nodup (c : Config) : (c.attributes.map Attribute.name).Nodup := by
  rw [attributes_names]
  decide

/-- each property reads back as that of the other -/
def FieldsRead (c c' : Config) : Prop :=
  nameProperty.ReadsAs c.name c'.name ∧ onbootProperty.ReadsAs c.onboot c'.onboot ∧
    c.processor.FieldsRead c'.processor ∧ c.memory.FieldsRead c'.memory ∧
    MembersRead (slotProperty Nic) nicSlots c.nics c'.nics ∧
    MembersRead (slotProperty Disk) diskSlots c.disks c'.disks ∧ digestProperty.ReadsAs c.digest c'.digest

theorem FieldsRead.writable {c c' : Config} (h : c.FieldsRead c') : ∀ a ∈ c.attributes, ∃ o, a.outcome = .ok o := by
  obtain ⟨h₁, h₂, h₃, h₄, h₅, h₆, h₇⟩ := h
  simp only [attributes, List.forall_mem_append, List.forall_mem_cons]
  exact ⟨⟨⟨⟨⟨⟨h₁.writable, h₂.writable, List.forall_mem_nil _⟩, h₃.writable⟩, h₄.writable⟩, h₅.writable⟩, h₆.writable⟩,
    h₇.writable, List.forall_mem_nil _⟩

theorem processor_attributes_subset (c : Config) : c.processor.attributes ⊆ c.attributes := by
  intro a ha
  simp [attributes, ha]

theorem memory_attributes_subset (c : Config) : c.memory.attributes ⊆ c.attributes := by
  intro a ha
  simp [attributes, ha]

theorem nic_attributes_subset (c : Config) : deviceAttributes c.nics nicSlots ⊆ c.attributes := by
  intro a ha
  simp [attributes, ha]

theorem disk_attributes_subset (c : Config) : deviceAttributes c.disks diskSlots ⊆ c.attributes := by
  intro a ha
  simp [attributes, ha]

/-- a configuration reads back property by property -/
theorem readsAs_iff {c c' : Config} : Record.ReadsAs c c' ↔ c.FieldsRead c' := by
  refine Record.readsAs_iff_fields FieldsRead.writable fun f hf => ?_
  have hnd := c.attributes_nodup
  change decode f.report = .ok c' ↔ _
  rw [decode_eq_ok, devicesOf_eq_ok nicSlots_nodup, devicesOf_eq_ok diskSlots_nodup]
  exact and_congr (Form.extract_report hnd hf (by simp [attributes]))
    (and_congr (Form.extract_report hnd hf (by simp [attributes]))
    (and_congr (Processor.decode_report_iff hnd hf c.processor_attributes_subset)
    (and_congr (Memory.decode_report_iff hnd hf c.memory_attributes_subset)
    (and_congr (membersOf_report_iff hnd hf fun slot hs => c.nic_attributes_subset (mem_deviceAttributes slot hs))
    (and_congr (membersOf_report_iff hnd hf fun slot hs => c.disk_attributes_subset (mem_deviceAttributes slot hs))
      (Form.extract_report hnd hf (by simp [attributes])))))))

/-- an update sets all but the fingerprint, and puts the devices that are set over those that were there -/
theorem decode_applyTo {c old : Config} {f : Form} {state : Report}
    (hf : Form.ofAttributes .update c.attributes = .ok f) (hown : c.FieldsRead c) (hold : decode state = .ok old) :
    decode (f.applyTo state) =
      .ok { c with nics := Table.overlay c.nics old.nics, disks := Table.overlay c.disks old.disks,
                   digest := old.digest } := by
  obtain ⟨h₁, h₂, h₃, h₄, h₅, h₆, -⟩ := hown
  obtain ⟨-, -, -, -, k₅, k₆, k₇⟩ := decode_eq_ok.1 hold
  have hnd := c.attributes_nodup
  have hname := Form.extract_applyTo hnd hf state (p := nameProperty) (by simp [attributes])
    (speaks_of_omitDefault rfl c.name) h₁
  have honboot := Form.extract_applyTo hnd hf state (p := onbootProperty) (by simp [attributes])
    (speaks_of_omitDefault rfl c.onboot) h₂
  have hprocessor := Processor.decode_applyTo hnd hf c.processor_attributes_subset h₃ state
  have hmemory := Memory.decode_applyTo hnd hf c.memory_attributes_subset h₄ state
  have hnics := membersOf_applyTo slot_isMember hnd hf
    (fun slot hs => c.nic_attributes_subset (mem_deviceAttributes slot hs)) h₅ ((devicesOf_eq_ok nicSlots_nodup).1 k₅)
  have hdisks := membersOf_applyTo slot_isMember hnd hf
    (fun slot hs => c.disk_attributes_subset (mem_deviceAttributes slot hs)) h₆ ((devicesOf_eq_ok diskSlots_nodup).1 k₆)
  have hdigest := Form.extract_applyTo_of_skip hnd hf state (p := digestProperty) (a := c.digest) (by simp [attributes])
    (outcome_of_never rfl c.digest)
  exact decode_eq_ok.2 ⟨hname, honboot, hprocessor, hmemory, (devicesOf_eq_ok nicSlots_nodup).2 hnics,
    (devicesOf_eq_ok diskSlots_nodup).2 hdisks, hdigest.trans k₇⟩

/-- what it takes for a configuration to read back as itself -/
theorem fieldsRead_self_iff {c : Config} :
    c.FieldsRead c ↔
      c.processor.InRange ∧ c.memory.InRange ∧ c.digest = none ∧
        (∀ model ∈ c.processor.model, Wire.RoundTrips .propertyString model) ∧
        ((∀ slot, c.nics.get? slot ≠ none → slot ∈ nicSlots) ∧
          ∀ slot nic, c.nics.get? slot = some nic → Wire.RoundTrips .strict nic) ∧
        ((∀ slot, c.disks.get? slot ≠ none → slot ∈ diskSlots) ∧
          ∀ slot disk, c.disks.get? slot = some disk → Wire.RoundTrips .propertyString disk) := by
  have hname : nameProperty.ReadsAs c.name c.name :=
    (name_faithful.readsAs_iff _ _).2 ⟨rfl, exists_outcome_of_total_option (p := nameProperty) rfl _, rfl⟩
  have honboot : onbootProperty.ReadsAs c.onboot c.onboot :=
    (onboot_faithful.readsAs_iff _ _).2 ⟨rfl, exists_outcome_of_total onbootProperty _, rfl⟩
  have hdigest : digestProperty.ReadsAs c.digest c.digest ↔ c.digest = none :=
    readsAs_of_unsent rfl rfl rfl
  have hmodel : Processor.modelProperty.ReadsAs c.processor.model c.processor.model ↔
      ∀ model ∈ c.processor.model, Wire.RoundTrips .propertyString model :=
    readsAs_self_of_optional rfl (by decide) rfl rfl
  have hnics : MembersRead (slotProperty Nic) nicSlots c.nics c.nics ↔ _ := membersRead_self_iff slot_isMember
  have hdisks : MembersRead (slotProperty Disk) diskSlots c.disks c.disks ↔ _ := membersRead_self_iff slot_isMember
  unfold FieldsRead
  rw [hdigest, hnics, hdisks, Processor.fieldsRead_iff, hmodel, Memory.fieldsRead_iff]
  constructor
  · intro ⟨_, _, ⟨_, h₁, h₂⟩, ⟨_, h₃⟩, h₄, h₅, h₆⟩
    exact ⟨h₁, h₃, h₆, h₂, h₄, h₅⟩
  · intro ⟨h₁, h₃, h₆, h₂, h₄, h₅⟩
    exact ⟨hname, honboot, ⟨rfl, h₁, h₂⟩, ⟨rfl, h₃⟩, h₄, h₅, h₆⟩

/-! ### Equality -/

theorem beq_iff {a b : Config} :
    (a == b) = true ↔
      a.name = b.name ∧ a.onboot = b.onboot ∧ (a.processor == b.processor) = true ∧ a.memory = b.memory ∧
        (a.nics == b.nics) = true ∧ (a.disks == b.disks) = true ∧ a.digest = b.digest := by
  cases a
  cases b
  change instBEqConfig.beq _ _ = true ↔ _
  simp [instBEqConfig.beq]

/-- a configuration that comes back equal comes back the same -/
theorem FieldsRead.eq_of_beq {c c' : Config} (h : c.FieldsRead c') (heq : (c' == c) = true) : c' = c := by
  obtain ⟨-, -, hprocessor, -, hnics, hdisks, -⟩ := h
  obtain ⟨h₁, h₂, h₃, h₄, h₅, h₆, h₇⟩ := beq_iff.1 heq
  have hp := hprocessor.eq_of_beq h₃
  have hnics' : c'.nics = c.nics := hnics.eq_of_beq slot_isMember
    (fun nic nic' w hw hread hbeq => by
      obtain ⟨-, haddress, hbridge, -⟩ := Nic.beq_iff.1 hbeq
      exact (Nic.eq_of_read hw hread haddress hbridge).1) h₅
  have hdisks' : c'.disks = c.disks := hdisks.eq_of_beq slot_isMember (fun _ _ _ _ _ hbeq => LawfulBEq.eq_of_beq hbeq) h₆
  obtain ⟨name, onboot, processor, memory, nics, disks, digest⟩ := c
  obtain ⟨name', onboot', processor', memory', nics', disks', digest'⟩ := c'
  simp only at h₁ h₂ hp h₄ hnics' hdisks' h₇
  simp [h₁, h₂, hp, h₄, hnics', hdisks', h₇]

/-- a configuration that reads back is equal to itself -/
theorem FieldsRead.beq_self {c : Config} (h : c.FieldsRead c) : (c == c) = true := by
  obtain ⟨hprocessor, -, -, -, ⟨-, hnics⟩, -⟩ := fieldsRead_self_iff.1 h
  have hlimit := Double.beq_self_of_isFinite (Processor.isFinite_of_between hprocessor.limit)
  refine beq_iff.2 ⟨rfl, rfl, Processor.beq_iff.2 ⟨rfl, rfl, rfl, rfl, hlimit, rfl, rfl⟩, rfl, ?_, ?_, rfl⟩
  · exact Table.beq_self fun slot nic hnic => Nic.beq_self (Nic.roundTrips_iff.1 (hnics slot nic hnic)).1.rate
  · exact Table.beq_self fun slot disk _ => beq_self_eq_true disk

theorem survives_iff_fieldsRead {c : Config} : Record.Survives c ↔ c.FieldsRead c := by
  constructor
  · exact fun h => readsAs_iff.1 (h.readsAs_self fun _ hread => (readsAs_iff.1 hread).eq_of_beq)
  · intro h
    exact ⟨c, readsAs_iff.2 h, h.beq_self⟩

end Config

end Hypervisor.Guest
