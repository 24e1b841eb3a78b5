/-
Which guest configurations and cluster nodes survive the form that makes them.

The conditions are of three sorts: numbers in the range that reading checks, keys that name a slot or a link there is,
and packed values that survive on their own. The last are exact for each type in `CpuModel.roundTrips_iff`,
`Nic.roundTrips_iff`, `Disk.roundTrips_iff` and `Link.roundTrips_iff`.
-/
import Hypervisor.Proofs.Cluster.Node
import Hypervisor.Proofs.Guest.Config

namespace Hypervisor

/-- what a configuration must be to come back from its create form -/
structure Guest.Config.Lasting (c : Guest.Config) : Prop where
  cores : 1 ≤ c.processor.cores.val
  sockets : 1 ≤ c.processor.sockets.val
  limit_finite : c.processor.limit.isFinite = true
  limit : Double.between 0 128 c.processor.limit = true
  units : ∀ units ∈ c.processor.units, 1 ≤ units.val ∧ units.val ≤ 262144
  memory : 16 ≤ c.memory.size.val
  shares : ∀ shares ∈ c.memory.shares, shares.val ≤ 50000
  /-- the node sets the fingerprint, so it is never sent -/
  digest : c.digest = none
  nic_slots : ∀ slot, c.nics.get? slot ≠ none → slot ∈ Guest.nicSlots
  disk_slots : ∀ slot, c.disks.get? slot ≠ none → slot ∈ Guest.diskSlots
  model : ∀ model ∈ c.processor.model, Wire.Survives (Wire.dialect Guest.CpuModel) model
  nics : ∀ slot nic, c.nics.get? slot = some nic → Wire.Survives (Wire.dialect Guest.Nic) nic
  disks : ∀ slot disk, c.disks.get? slot = some disk → Wire.Survives (Wire.dialect Guest.Disk) disk

/-- what a node must be to come back from its create form -/
structure Cluster.Node.Lasting (n : Cluster.Node) : Prop where
  id : ∀ id ∈ n.id, id.val ≠ 0
  numbers : ∀ number, n.links.get? number ≠ none → number < 8
  links : ∀ number link, n.links.get? number = some link → Wire.Survives (Wire.dialect Cluster.Link) link

theorem Guest.Config.fieldsRead_iff_lasting {c : Guest.Config} : c.FieldsRead c ↔ c.Lasting := by
  have hmodel : ∀ model : Guest.CpuModel, Wire.Survives (Wire.dialect Guest.CpuModel) model ↔
      Wire.RoundTrips .propertyString model := fun _ => Wire.survives_iff_roundTrips
  have hnic : ∀ nic : Guest.Nic, Wire.Survives (Wire.dialect Guest.Nic) nic ↔ Wire.RoundTrips .strict nic :=
    fun _ => Guest.Nic.survives_iff
  have hdisk : ∀ disk : Guest.Disk, Wire.Survives (Wire.dialect Guest.Disk) disk ↔
      Wire.RoundTrips .propertyString disk := fun _ => Wire.survives_iff_roundTrips
  rw [fieldsRead_self_iff]
  constructor
  · intro ⟨hp, hm, hdigest, hmodels, ⟨hnicSlots, hnics⟩, hdiskSlots, hdisks⟩
    exact ⟨hp.cores, hp.sockets, Processor.isFinite_of_between hp.limit, hp.limit, hp.units, hm.size, hm.shares, hdigest,
      hnicSlots, hdiskSlots, fun model h => (hmodel model).2 (hmodels model h),
      fun slot nic h => (hnic nic).2 (hnics slot nic h), fun slot disk h => (hdisk disk).2 (hdisks slot disk h)⟩
  · intro h
    exact ⟨⟨h.cores, h.sockets, h.limit, h.units⟩, ⟨h.memory, h.shares⟩, h.digest,
      fun model hm => (hmodel model).1 (h.model model hm),
      ⟨h.nic_slots, fun slot nic hn => (hnic nic).1 (h.nics slot nic hn)⟩,
      h.disk_slots, fun slot disk hd => (hdisk disk).1 (h.disks slot disk hd)⟩

theorem Cluster.Node.fieldsRead_iff_lasting {n : Cluster.Node} : n.FieldsRead n ↔ n.Lasting := by
  have hlink : ∀ link : Cluster.Link, Wire.Survives (Wire.dialect Cluster.Link) link ↔
      Wire.RoundTrips .propertyString link := fun _ => Wire.survives_iff_roundTrips
  rw [fieldsRead_self_iff]
  constructor
  · intro ⟨hid, hnumbers, hlinks⟩
    exact ⟨hid, hnumbers, fun number link h => (hlink link).2 (hlinks number link h)⟩
  · intro h
    exact ⟨h.id, h.numbers, fun number link hl => (hlink link).1 (h.links number link hl)⟩

/-- **Survivors of a create form.** A configuration comes back equal from its create form exactly if it is lasting, and
so does a cluster node. -/
theorem survives_create_iff_lasting :
    (∀ c : Guest.Config, Record.Survives c ↔ c.Lasting) ∧ ∀ n : Cluster.Node, Record.Survives n ↔ n.Lasting := by
  constructor
  · intro c
    rw [Guest.Config.survives_iff_fieldsRead, Guest.Config.fieldsRead_iff_lasting]
  · intro n
    rw [Cluster.Node.survives_iff_fieldsRead, Cluster.Node.fieldsRead_iff_lasting]

end Hypervisor
