/-
Updates overwrite whatever the node held.

An update names each property of the record as sent or as cleared, and leaves out only the ones that belong to the node
or that the record goes by. So what is read afterwards does not depend on what was there before, apart from these and
from the devices and links that the new record does not set.
-/
import Hypervisor.Proofs.Availability.Group
import Hypervisor.Proofs.Cluster.Node
import Hypervisor.Proofs.Firewall.Rule
import Hypervisor.Proofs.Guest.Config
import Hypervisor.Proofs.Storage.Definition

namespace Hypervisor

open Record

namespace Record

variable {α : Type} [Record α]

/-- there is an update form for `new`, and a node that held `state` reads as `result` after it -/
def UpdatesTo (new : α) (state : Report) (result : α) : Prop :=
  ∃ f, form .update new = .ok f ∧ decode (f.applyTo state) = .ok result

/-- a record with a create form has an update form -/
theorem exists_revision {a b : α} (hnd : ((attributes .create a).map Attribute.name).Nodup)
    (hsub : (attributes .update a).Sublist (attributes .create a)) (h : ReadsAs a b) :
    ∃ g f, Form.Revision (attributes .create a) (attributes .update a) g f ∧ decode g.report = .ok b := by
  obtain ⟨g, hg, hback⟩ := h
  have hwritable := Form.exists_ofAttributes.1 ⟨g, hg⟩
  obtain ⟨f, hf⟩ := Form.exists_ofAttributes.2 fun x hx => hwritable x (hsub.subset hx)
  exact ⟨g, f, ⟨hnd, hsub, hg, hf⟩, hback⟩

end Record

variable {state : Report}

theorem Guest.Memory.updatesTo {new : Memory} (h : Survives new) : UpdatesTo new state new := by
  have hown := readsAs_iff.1 (survives_iff_readsAs.1 h)
  obtain ⟨f, hf⟩ := Form.exists_ofAttributes.2 hown.writable
  exact ⟨f, hf, decode_applyTo new.attributes_nodup hf (fun _ ha => ha) hown state⟩

theorem Guest.Processor.updatesTo {new : Processor} (h : Survives new) : UpdatesTo new state new := by
  have hown := readsAs_iff.1 (h.readsAs_self fun _ hread => (readsAs_iff.1 hread).eq_of_beq)
  obtain ⟨f, hf⟩ := Form.exists_ofAttributes.2 hown.writable
  exact ⟨f, hf, decode_applyTo new.attributes_nodup hf (fun _ ha => ha) hown state⟩

theorem Guest.Config.updatesTo {new old : Config} (h : Survives new) (hold : decode state = .ok old) :
    UpdatesTo new state { new with nics := Table.overlay new.nics old.nics
                                   disks := Table.overlay new.disks old.disks
                                   digest := old.digest } := by
  have hown := survives_iff_fieldsRead.1 h
  obtain ⟨f, hf⟩ := Form.exists_ofAttributes.2 hown.writable
  exact ⟨f, hf, decode_applyTo hf hown hold⟩

theorem Cluster.Node.updatesTo {new old : Node} (h : Survives new) (hold : decode state = .ok old) :
    UpdatesTo new state { new with links := Table.overlay new.links old.links } := by
  have hown := survives_iff_fieldsRead.1 h
  obtain ⟨f, hf⟩ := Form.exists_ofAttributes.2 hown.writable
  exact ⟨f, hf, decode_applyTo hf hown hold⟩

theorem Firewall.Rule.updatesTo {new old : Rule} (h : Survives new) (hold : decode state = .ok old) :
    UpdatesTo new state
      { new with position := old.position, ipversion := old.ipversion, digest := old.digest } := by
  obtain ⟨g, f, hr, hback⟩ := exists_revision new.attributes_nodup (List.Sublist.refl _) (survives_iff_readsAs.1 h)
  exact ⟨f, hr.update, decode_applyTo hr hback hold⟩

theorem Availability.Group.updatesTo {new old : Group} (h : Survives new) (hold : decode state = .ok old) :
    UpdatesTo new state { new with name := old.name, digest := old.digest } := by
  have hsub : (new.attributes .update).Sublist (new.attributes .create) := by
    rw [attributes_update]
    exact List.sublist_cons_self _ _
  obtain ⟨g, f, hr, hback⟩ := exists_revision new.attributes_nodup hsub (survives_iff_readsAs.1 h)
  exact ⟨f, hr.update, decode_applyTo hr hback hold⟩

theorem Storage.Definition.updatesTo {new old : Definition} (h : Survives new) (hold : decode state = .ok old)
    (hkind : old.kind = new.kind) : UpdatesTo new state { new with id := old.id, digest := old.digest } := by
  have hsub : (new.attributes .update).Sublist (new.attributes .create) := by
    rw [attributes_update]
    exact (List.sublist_cons_self _ _).trans (List.sublist_cons_self _ _)
  obtain ⟨g, f, hr, hback⟩ := exists_revision new.attributes_nodup hsub (survives_iff_readsAs.1 h)
  exact ⟨f, hr.update, decode_applyTo hr hback hold hkind⟩

/-- **Updates overwrite.** Take a record that survives its create form and any report that reads as a record of its
type, of its kind too if it is a storage. The update form exists, and after it the report reads as the new record, with
the old value only of what belongs to the node, of what the record goes by, and of devices and links that are not set. -/
theorem update_overwrites :
    (∀ (new old : Guest.Config) (state : Report), Survives new → decode state = .ok old →
      UpdatesTo new state { new with nics := Table.overlay new.nics old.nics
                                     disks := Table.overlay new.disks old.disks
                                     digest := old.digest }) ∧
    (∀ (new old : Guest.Processor) (state : Report), Survives new → decode state = .ok old →
      UpdatesTo new state new) ∧
    (∀ (new old : Guest.Memory) (state : Report), Survives new → decode state = .ok old → UpdatesTo new state new) ∧
    (∀ (new old : Firewall.Rule) (state : Report), Survives new → decode state = .ok old →
      UpdatesTo new state
        { new with position := old.position, ipversion := old.ipversion, digest := old.digest }) ∧
    (∀ (new old : Availability.Group) (state : Report), Survives new → decode state = .ok old →
      UpdatesTo new state { new with name := old.name, digest := old.digest }) ∧
    (∀ (new old : Cluster.Node) (state : Report), Survives new → decode state = .ok old →
      UpdatesTo new state { new with links := Table.overlay new.links old.links }) ∧
    (∀ (new old : Storage.Definition) (state : Report), Survives new → decode state = .ok old → old.kind = new.kind →
      UpdatesTo new state { new with id := old.id, digest := old.digest }) := by
  refine ⟨?_, ?_, ?_, ?_, ?_, ?_, ?_⟩
  · exact fun _ _ _ h hold => Guest.Config.updatesTo h hold
  · exact fun _ _ _ h _ => Guest.Processor.updatesTo h
  · exact fun _ _ _ h _ => Guest.Memory.updatesTo h
  · exact fun _ _ _ h hold => Firewall.Rule.updatesTo h hold
  · exact fun _ _ _ h hold => Availability.Group.updatesTo h hold
  · exact fun _ _ _ h hold => Cluster.Node.updatesTo h hold
  · exact fun _ _ _ h hold hkind => Storage.Definition.updatesTo h hold hkind

/-- an update that takes back the sharing which is the default of its backend, and one that keeps a volume which it does
not set -/
theorem update_overwrites_storage_and_guest :
    (∃ new old : Storage.Definition,
      decode (Report.ofPairs [("storage", "nas"), ("type", "nfs"), ("shared", "0")]) = .ok new ∧ Survives new ∧
        decode (Report.ofPairs [("storage", "tank"), ("type", "nfs"), ("digest", "1f")]) = .ok old ∧
        old.kind = new.kind ∧ new.shared = false ∧ old.shared = true ∧
        UpdatesTo new (Report.ofPairs [("storage", "tank"), ("type", "nfs"), ("digest", "1f")])
          { new with id := old.id, digest := old.digest }) ∧
    ∃ new old : Guest.Config,
      decode (Report.ofPairs [("cores", "4")]) = .ok new ∧ Survives new ∧
        decode (Report.ofPairs [("name", "web01"), ("scsi0", "local:vm-1")]) = .ok old ∧
        new.disks.get? "scsi0" = none ∧ (old.disks.get? "scsi0").isSome ∧
        UpdatesTo new (Report.ofPairs [("name", "web01"), ("scsi0", "local:vm-1")])
          { new with nics := Table.overlay new.nics old.nics
                     disks := Table.overlay new.disks old.disks
                     digest := old.digest } := by
  constructor
  · obtain ⟨new, g, hnew, hform, hback, hunshared, hkind⟩ :
        ∃ (new : Storage.Definition) (g : Form),
          decode (Report.ofPairs [("storage", "nas"), ("type", "nfs"), ("shared", "0")]) = .ok new ∧
            form .create new = .ok g ∧ decode g.report = .ok new ∧ new.shared = false ∧ new.kind = .known .nfs :=
      ⟨_, _, rfl, rfl, rfl, rfl, rfl⟩
    obtain ⟨old, hold, hshared, hkind'⟩ :
        ∃ old : Storage.Definition,
          decode (Report.ofPairs [("storage", "tank"), ("type", "nfs"), ("digest", "1f")]) = .ok old ∧
            old.shared = true ∧ old.kind = .known .nfs := ⟨_, rfl, rfl, rfl⟩
    have hsurvives : Survives new := survives_iff_readsAs.2 ⟨g, hform, hback⟩
    have hsame : old.kind = new.kind := hkind'.trans hkind.symm
    exact ⟨new, old, hnew, hsurvives, hold, hsame, hunshared, hshared,
      update_overwrites.2.2.2.2.2.2 new old _ hsurvives hold hsame⟩
  · obtain ⟨new, g, hnew, hform, hback, hunset, heq⟩ :
        ∃ (new : Guest.Config) (g : Form), decode (Report.ofPairs [("cores", "4")]) = .ok new ∧
          form .create new = .ok g ∧ decode g.report = .ok new ∧ new.disks.get? "scsi0" = none ∧ (new == new) = true :=
      ⟨_, _, rfl, rfl, rfl, rfl, rfl⟩
    obtain ⟨old, hold, hset⟩ :
        ∃ old : Guest.Config, decode (Report.ofPairs [("name", "web01"), ("scsi0", "local:vm-1")]) = .ok old ∧
          (old.disks.get? "scsi0").isSome := ⟨_, rfl, rfl⟩
    have hsurvives : Survives new := ⟨new, ⟨g, hform, hback⟩, heq⟩
    exact ⟨new, old, hnew, hsurvives, hold, hunset, hset, update_overwrites.1 new old _ hsurvives hold⟩

end Hypervisor
