/-
What was read, written and read again.

Everything that a report says of a guest or of a cluster node can be written, and all of it comes back but for the
positional parts of packed values. These are read from a key too, as in `file=...`, but written bare, so a part that is
empty, holds the entry separator, or is the name of an option behind it is lost.
-/
import Hypervisor.Proofs.Record.Create

namespace Hypervisor

open Fallible Property EntryList

/-- the texts under these keys are not too long to be read -/
def Form.Fits (f : Form) (keys : List String) : Prop :=
  ∀ key ∈ keys, ∀ text, (key, text) ∈ f.pairs → text.utf8ByteSize ≤ 65536

/-! ## Guests -/

namespace Guest

/-- the properties of a guest with packed values -/
def compositeKeys : List String := Processor.modelProperty.name :: (nicSlots ++ diskSlots)

namespace Config

/-- the processor model and the volumes are plain where they are written -/
structure PlainParts (c : Config) : Prop where
  model : ∀ model ∈ c.processor.model, PlainPart model.name model.written
  disks : ∀ slot disk, c.disks.get? slot = some disk → PlainPart disk.volume disk.written

section Decoded

variable {report : Report} {c : Config}

/-- packed values that were read can be written -/
theorem exists_encode_of_decode (h : Record.decode report = .ok c) :
    (∀ slot nic, c.nics.get? slot = some nic → nic.Portable) ∧
      ∀ slot disk, c.disks.get? slot = some disk → ∃ w, Wire.encode .propertyString disk = .ok (some w) := by
  obtain ⟨-, -, -, -, hnics, hdisks, -⟩ := decode_eq_ok.1 h
  constructor
  · intro slot nic hnic
    obtain ⟨raw, hraw⟩ := ((devicesOf_eq_ok nicSlots_nodup).1 hnics).exists_text slot_isMember hnic
    exact Nic.portable_of_decode hraw
  · intro slot disk hdisk
    obtain ⟨raw, hraw⟩ := ((devicesOf_eq_ok diskSlots_nodup).1 hdisks).exists_text slot_isMember hdisk
    exact Disk.exists_encode_of_decode hraw

theorem flagsFit_of_decode (h : Record.decode report = .ok c) :
    ∀ model ∈ c.processor.model, CpuModel.FlagsFit model.flags := by
  intro model hmodel
  obtain ⟨-, -, hprocessor, -⟩ := decode_eq_ok.1 h
  obtain ⟨-, -, -, hread, -⟩ := Processor.decode_eq_ok.1 hprocessor
  rw [Option.mem_def.1 hmodel] at hread
  obtain ⟨raw, hraw⟩ := Packed.exists_text_of_resolve (p := Processor.modelProperty) rfl rfl hread
  exact CpuModel.flagsFit_of_decode hraw

/-- everything that was read can be written -/
theorem writable_of_decode (h : Record.decode report = .ok c) : ∀ a ∈ c.attributes, ∃ o, a.outcome = .ok o := by
  obtain ⟨hnics, hdisks⟩ := exists_encode_of_decode h
  obtain ⟨-, -, hprocessor, hmemory, -⟩ := decode_eq_ok.1 h
  have hlimit := Processor.isFinite_of_between (Processor.inRange_of_decode hprocessor).limit
  simp only [attributes, List.forall_mem_append, List.forall_mem_cons]
  refine ⟨⟨⟨⟨⟨⟨?_, ?_, List.forall_mem_nil _⟩, ?_⟩, ?_⟩, ?_⟩, ?_⟩, ?_, List.forall_mem_nil _⟩
  · exact exists_outcome_of_total_option (p := nameProperty) rfl c.name
  · exact exists_outcome_of_total onbootProperty c.onboot
  · exact c.processor.writable hlimit
  · exact c.memory.writable
  · exact members_writable slot_isMember fun slot nic hnic => (hnics slot nic hnic).exists_encode
  · exact members_writable slot_isMember hdisks
  · exact ⟨.skip, outcome_of_never (p := digestProperty) rfl c.digest⟩

/-- the texts of a form fit when those of the packed values do -/
theorem fits_iff {f : Form} (hf : Record.form .create c = .ok f) (h : Record.decode report = .ok c) :
    f.Fits compositeKeys ↔
      (∀ model ∈ c.processor.model, ∀ w, Wire.encode .propertyString model = .ok (some w) → w.utf8ByteSize ≤ 65536) ∧
      (∀ slot nic, c.nics.get? slot = some nic →
        ∀ w, Wire.encode .strict nic = .ok (some w) → w.utf8ByteSize ≤ 65536) ∧
      ∀ slot disk, c.disks.get? slot = some disk →
        ∀ w, Wire.encode .propertyString disk = .ok (some w) → w.utf8ByteSize ≤ 65536 := by
  have hnd := c.attributes_nodup
  obtain ⟨-, -, -, -, hnics, hdisks, -⟩ := decode_eq_ok.1 h
  have hmodel : (∀ text, (Processor.modelProperty.name, text) ∈ f.pairs → text.utf8ByteSize ≤ 65536) ↔
      ∀ model ∈ c.processor.model, ∀ w, Wire.encode .propertyString model = .ok (some w) → w.utf8ByteSize ≤ 65536 :=
    Form.forall_pairs_iff hnd hf (c.processor_attributes_subset (by simp [Processor.attributes])) rfl (by decide)
  have hnicPairs : (∀ slot ∈ nicSlots, ∀ text, (slot, text) ∈ f.pairs → text.utf8ByteSize ≤ 65536) ↔ _ :=
    forall_member_pairs_iff (slot_isMember (α := Nic)) hnd hf
      (fun slot hs => c.nic_attributes_subset (mem_deviceAttributes slot hs))
      ((devicesOf_eq_ok nicSlots_nodup).1 hnics).2
  have hdiskPairs : (∀ slot ∈ diskSlots, ∀ text, (slot, text) ∈ f.pairs → text.utf8ByteSize ≤ 65536) ↔ _ :=
    forall_member_pairs_iff (slot_isMember (α := Disk)) hnd hf
      (fun slot hs => c.disk_attributes_subset (mem_deviceAttributes slot hs))
      ((devicesOf_eq_ok diskSlots_nodup).1 hdisks).2
  unfold Form.Fits compositeKeys
  rw [List.forall_mem_cons, List.forall_mem_append, hmodel, hnicPairs, hdiskPairs]
  rfl

/-- what was read reads back from its create form, without its fingerprint, exactly if the texts fit and the parts are
plain -/
theorem fieldsRead_iff_of_decode {f : Form} (hf : Record.form .create c = .ok f) (h : Record.decode report = .ok c) :
    FieldsRead { c with digest := none } { c with digest := none } ↔ f.Fits compositeKeys ∧ c.PlainParts := by
  obtain ⟨-, -, hprocessor, hmemory, hnics, hdisks, -⟩ := decode_eq_ok.1 h
  have hnicSlots := ((devicesOf_eq_ok nicSlots_nodup).1 hnics).2
  have hdiskSlots := ((devicesOf_eq_ok diskSlots_nodup).1 hdisks).2
  obtain ⟨hportable, hdiskTexts⟩ := exists_encode_of_decode h
  have hflags := flagsFit_of_decode h
  rw [fieldsRead_self_iff, fits_iff hf h]
  constructor
  · intro ⟨_, _, _, hmodel, ⟨_, hnic⟩, _, hdisk⟩
    refine ⟨⟨fun model hm => ?_, fun slot nic hn => ?_, fun slot disk hd => ?_⟩, fun model hm => ?_,
      fun slot disk hd => ?_⟩
    · exact (Wire.exists_encode_and_iff model.exists_encode).1 (CpuModel.roundTrips_iff.1 (hmodel model hm)).1
    · exact (Wire.exists_encode_and_iff (hportable slot nic hn).exists_encode).1 (Nic.roundTrips_iff.1 (hnic slot nic hn)).2
    · exact (Wire.exists_encode_and_iff (hdiskTexts slot disk hd)).1 (Disk.roundTrips_iff.1 (hdisk slot disk hd)).1
    · exact (CpuModel.roundTrips_iff.1 (hmodel model hm)).2.2
    · exact (Disk.roundTrips_iff.1 (hdisk slot disk hd)).2
  · intro ⟨⟨hmodel, hnic, hdisk⟩, hplain⟩
    refine ⟨Processor.inRange_of_decode hprocessor, Memory.inRange_of_decode hmemory, rfl, fun model hm => ?_,
      ⟨hnicSlots, fun slot nic hn => ?_⟩, hdiskSlots, fun slot disk hd => ?_⟩
    · exact CpuModel.roundTrips_iff.2 ⟨(Wire.exists_encode_and_iff model.exists_encode).2 (hmodel model hm),
        hflags model hm, hplain.model model hm⟩
    · exact Nic.roundTrips_iff.2 ⟨hportable slot nic hn,
        (Wire.exists_encode_and_iff (hportable slot nic hn).exists_encode).2 (hnic slot nic hn)⟩
    · exact Disk.roundTrips_iff.2 ⟨(Wire.exists_encode_and_iff (hdiskTexts slot disk hd)).2 (hdisk slot disk hd),
        hplain.disks slot disk hd⟩

end Decoded

end Config

end Guest

/-! ## Nodes -/

namespace Cluster

/-- the properties of a node with packed values -/
def linkKeys : List String := (List.range linkCount).map fun number => (linkProperty number).name

namespace Node

/-- the addresses are plain where they are written -/
def PlainParts (n : Node) : Prop :=
  ∀ number link, n.links.get? number = some link → PlainPart link.address link.written

/-- every node can be written -/
theorem writable (n : Node) : ∀ a ∈ n.attributes, ∃ o, a.outcome = .ok o := by
  simp only [attributes, List.forall_mem_append, List.forall_mem_cons]
  refine ⟨⟨?_, ?_, ?_, List.forall_mem_nil _⟩, ?_⟩
  · exact exists_outcome_of_total nameProperty n.name
  · exact exists_outcome_of_total_option (p := idProperty) rfl n.id
  · exact exists_outcome_of_total votesProperty n.votes
  · exact members_writable link_isMember fun _ link _ => link.exists_encode

section Decoded

variable {report : Report} {n : Node}

/-- the texts of a form fit when those of the links do -/
theorem fits_iff {f : Form} (hf : Record.form .create n = .ok f) (h : Record.decode report = .ok n) :
    f.Fits linkKeys ↔
      ∀ number link, n.links.get? number = some link →
        ∀ w, Wire.encode .propertyString link = .ok (some w) → w.utf8ByteSize ≤ 65536 := by
  obtain ⟨-, -, -, -, hnumbers⟩ := decode_eq_ok.1 h
  unfold Form.Fits linkKeys
  rw [List.forall_mem_map]
  exact forall_member_pairs_iff link_isMember n.attributes_nodup hf n.link_mem_attributes hnumbers

/-- what was read reads back from its create form exactly if the texts fit and the addresses are plain -/
theorem fieldsRead_iff_of_decode {f : Form} (hf : Record.form .create n = .ok f) (h : Record.decode report = .ok n) :
    n.FieldsRead n ↔ f.Fits linkKeys ∧ n.PlainParts := by
  obtain ⟨-, hid, -, -, hnumbers⟩ := decode_eq_ok.1 h
  have hid := id_accepts_iff.1 (id_faithful.accepts _ _ hid)
  rw [fieldsRead_self_iff, fits_iff hf h]
  constructor
  · intro ⟨_, _, hlinks⟩
    refine ⟨fun number link hl => ?_, fun number link hl => ?_⟩
    · exact (Wire.exists_encode_and_iff link.exists_encode).1 (Link.roundTrips_iff.1 (hlinks number link hl)).1
    · exact (Link.roundTrips_iff.1 (hlinks number link hl)).2
  · intro ⟨hlinks, hplain⟩
    refine ⟨hid, fun number hn => List.mem_range.1 (hnumbers number hn), fun number link hl => ?_⟩
    exact Link.roundTrips_iff.2 ⟨(Wire.exists_encode_and_iff link.exists_encode).2 (hlinks number link hl),
      hplain number link hl⟩

end Decoded

end Node

end Cluster

/-! ## Both -/

/-- **Read, then written.** What a report says of a guest or of a node can be written, and comes back from the create
form, the fingerprint of a guest left out, exactly if the packed texts are not too long and the positional parts are
plain. -/
theorem reread_iff_plain (report : Report) :
    (∀ c : Guest.Config, Record.decode report = .ok c →
      ∃ f, Record.form .create c = .ok f ∧
        (Record.decode f.report = .ok { c with digest := none } ↔ f.Fits Guest.compositeKeys ∧ c.PlainParts) ∧
        (Record.Restores f.report { c with digest := none } ↔ f.Fits Guest.compositeKeys ∧ c.PlainParts)) ∧
      ∀ n : Cluster.Node, Record.decode report = .ok n →
        ∃ f, Record.form .create n = .ok f ∧
          (Record.decode f.report = .ok n ↔ f.Fits Cluster.linkKeys ∧ n.PlainParts) ∧
          (Record.Restores f.report n ↔ f.Fits Cluster.linkKeys ∧ n.PlainParts) := by
  constructor
  · intro c h
    obtain ⟨f, hf⟩ := Form.exists_ofAttributes.2 (Guest.Config.writable_of_decode h)
    -- the fingerprint is never sent, so the form does not depend on it
    have hform : Record.form .create { c with digest := none } = .ok f := hf
    refine ⟨f, hf, ?_, ?_⟩
    · rw [Record.decode_report_iff_readsAs hform, Guest.Config.readsAs_iff, Guest.Config.fieldsRead_iff_of_decode hf h]
    · rw [Record.restores_iff_survives hform, Guest.Config.survives_iff_fieldsRead,
        Guest.Config.fieldsRead_iff_of_decode hf h]
  · intro n h
    obtain ⟨f, hf⟩ := Form.exists_ofAttributes.2 n.writable
    have hf : Record.form .create n = .ok f := hf
    refine ⟨f, hf, ?_, ?_⟩
    · rw [Record.decode_report_iff_readsAs hf, Cluster.Node.readsAs_iff, Cluster.Node.fieldsRead_iff_of_decode hf h]
    · rw [Record.restores_iff_survives hf, Cluster.Node.survives_iff_fieldsRead,
        Cluster.Node.fieldsRead_iff_of_decode hf h]

/-- a volume with the entry separator is read under its key and lost where it is written bare -/
theorem reread_loses_volume :
    ∃ (c : Guest.Config) (f : Form), Record.decode (Report.ofPairs [("scsi0", "file=a=b")]) = .ok c ∧
      Record.form .create c = .ok f ∧ f.pairs = [("scsi0", "a=b")] ∧ f.Fits Guest.compositeKeys ∧
      ¬ Record.Restores f.report { c with digest := none } := by
  obtain ⟨c, f, hc, hf, hpairs, disk, hdisk, hvolume⟩ :
      ∃ (c : Guest.Config) (f : Form), Record.decode (Report.ofPairs [("scsi0", "file=a=b")]) = .ok c ∧
        Record.form .create c = .ok f ∧ f.pairs = [("scsi0", "a=b")] ∧
        ∃ disk, c.disks.get? "scsi0" = some disk ∧ disk.volume = "a=b" :=
    ⟨_, _, rfl, rfl, rfl, _, rfl, rfl⟩
  obtain ⟨f', hf', -, hrestores⟩ := (reread_iff_plain _).1 c hc
  obtain rfl := Except.ok.inj (hf.symm.trans hf')
  refine ⟨c, f, hc, hf, hpairs, fun key _ text htext => ?_, fun h => ?_⟩
  · rw [hpairs, List.mem_singleton] at htext
    rw [(Prod.mk.inj htext).2]
    decide
  · have hplain := ((hrestores.1 h).2.disks "scsi0" disk hdisk).no_equals
    rw [hvolume] at hplain
    exact hplain (by decide)

end Hypervisor
