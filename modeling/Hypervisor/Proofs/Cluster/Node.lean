/-
Cluster nodes property by property: what it takes to read one, and how one reads back from its create form.
-/
import Hypervisor.Proofs.Cluster.Link
import Hypervisor.Proofs.Record.Members

namespace Hypervisor.Cluster.Node

open Fallible Property

theorem name_faithful : nameProperty.Faithful := faithful_of_required rfl rfl rfl

theorem id_faithful : idProperty.Faithful := faithful_of_optional (by decide) rfl rfl rfl

theorem votes_faithful : votesProperty.Faithful :=
  faithful_of_default rfl rfl rfl ⟨⟨1, by decide, by decide⟩, rfl, rfl⟩

theorem link_isMember (number : ℕ) : (linkProperty number).IsMember := ⟨rfl, rfl, rfl, rfl, rfl⟩

theorem id_accepts_iff {id : Option U32} : idProperty.Accepts id ↔ ∀ n ∈ id, n.val ≠ 0 := by
  rw [accepts_iff rfl]
  cases id <;> simp

theorem decode_eq_ok {report : Report} {n : Node} :
    decode report = .ok n ↔
      nameProperty.extract report = .ok n.name ∧ idProperty.extract report = .ok n.id ∧
        votesProperty.extract report = .ok n.votes ∧ MembersOf linkProperty (List.range linkCount) report n.links := by
  have hlinks : ∀ links, linksOf report = .ok links ↔ MembersOf linkProperty (List.range linkCount) report links :=
    fun _ => Table.collect_eq_ok List.nodup_range
  simp only [decode, bind_eq_ok, pure_eq_ok, hlinks]
  constructor
  · rintro ⟨_, h₁, _, h₂, _, h₃, _, h₄, rfl⟩
    exact ⟨h₁, h₂, h₃, h₄⟩
  · intro ⟨h₁, h₂, h₃, h₄⟩
    exact ⟨_, h₁, _, h₂, _, h₃, _, h₄, rfl⟩

theorem attributes_names (n : Node) :
    n.attributes.map Attribute.name =
      ["name", "nodeid", "votes", "link0", "link1", "link2", "link3", "link4", "link5", "link6", "link7"] := rfl

theorem attributes_nodup (n : Node) : (n.attributes.map Attribute.name).Nodup := by
  rw [attributes_names]
  decide

theorem link_mem_attributes (n : Node) :
    ∀ number ∈ List.range linkCount, (linkProperty number).attribute (n.links.get? number) ∈ n.attributes :=
  fun number h => List.mem_append_right _ (List.mem_map.2 ⟨number, h, rfl⟩)

/-- each property reads back as that of the other -/
def FieldsRead (n n' : Node) : Prop :=
  nameProperty.ReadsAs n.name n'.name ∧ idProperty.ReadsAs n.id n'.id ∧ votesProperty.ReadsAs n.votes n'.votes ∧
    MembersRead linkProperty (List.range linkCount) n.links n'.links

theorem FieldsRead.writable {n n' : Node} (h : n.FieldsRead n') : ∀ a ∈ n.attributes, ∃ o, a.outcome = .ok o := by
  obtain ⟨h₁, h₂, h₃, h₄⟩ := h
  simp only [attributes, List.forall_mem_append, List.forall_mem_cons]
  exact ⟨⟨h₁.writable, h₂.writable, h₃.writable, List.forall_mem_nil _⟩, h₄.writable⟩

/-- a node reads back property by property -/
theorem readsAs_iff {n n' : Node} : Record.ReadsAs n n' ↔ n.FieldsRead n' := by
  refine Record.readsAs_iff_fields FieldsRead.writable fun f hf => ?_
  have hnd := n.attributes_nodup
  change decode f.report = .ok n' ↔ _
  rw [decode_eq_ok]
  exact and_congr (Form.extract_report hnd hf (by simp [attributes]))
    (and_congr (Form.extract_report hnd hf (by simp [attributes]))
    (and_congr (Form.extract_report hnd hf (by simp [attributes]))
      (membersOf_report_iff hnd hf n.link_mem_attributes)))

/-- an update sets the node and puts the links that are set over those that were there -/
theorem decode_applyTo {n old : Node} {f : Form} {state : Report} (hf : Form.ofAttributes .update n.attributes = .ok f)
    (hown : n.FieldsRead n) (hold : decode state = .ok old) :
    decode (f.applyTo state) = .ok { n with links := Table.overlay n.links old.links } := by
  obtain ⟨h₁, h₂, h₃, h₄⟩ := hown
  obtain ⟨-, -, -, k₄⟩ := decode_eq_ok.1 hold
  have hnd := n.attributes_nodup
  have hname := Form.extract_applyTo hnd hf state (p := nameProperty) (by simp [attributes])
    (speaks_of_always rfl n.name) h₁
  have hid := Form.extract_applyTo hnd hf state (p := idProperty) (by simp [attributes])
    (speaks_of_omitDefault rfl n.id) h₂
  have hvotes := Form.extract_applyTo hnd hf state (p := votesProperty) (by simp [attributes])
    (speaks_of_omitDefault rfl n.votes) h₃
  exact decode_eq_ok.2 ⟨hname, hid, hvotes, membersOf_applyTo link_isMember hnd hf n.link_mem_attributes h₄ k₄⟩

/-- what it takes for a node to read back as itself -/
theorem fieldsRead_self_iff {n : Node} :
    n.FieldsRead n ↔
      (∀ id ∈ n.id, id.val ≠ 0) ∧ (∀ number, n.links.get? number ≠ none → number < linkCount) ∧
        ∀ number link, n.links.get? number = some link → Wire.RoundTrips .propertyString link := by
  have hname := exists_outcome_of_total nameProperty n.name
  have hid := exists_outcome_of_total_option (p := idProperty) rfl n.id
  have hvotes := exists_outcome_of_total votesProperty n.votes
  have hlinks : MembersRead linkProperty (List.range linkCount) n.links n.links ↔ _ :=
    membersRead_self_iff link_isMember
  unfold FieldsRead
  rw [name_faithful.readsAs_iff, id_faithful.readsAs_iff, votes_faithful.readsAs_iff, id_accepts_iff, hlinks]
  simp only [List.mem_range]
  constructor
  · intro ⟨_, ⟨_, _, h₂⟩, _, h₄⟩
    exact ⟨h₂, h₄⟩
  · intro ⟨h₂, h₄⟩
    exact ⟨⟨trivial, hname, rfl⟩, ⟨trivial, hid, h₂⟩, ⟨trivial, hvotes, rfl⟩, h₄⟩

/-! ## Equality -/

theorem beq_iff {a b : Node} :
    (a == b) = true ↔ a.name = b.name ∧ a.id = b.id ∧ a.votes = b.votes ∧ (a.links == b.links) = true := by
  cases a
  cases b
  change instBEqNode.beq _ _ = true ↔ _
  simp [instBEqNode.beq]

/-- a node that comes back equal comes back the same -/
theorem FieldsRead.eq_of_beq {n n' : Node} (h : n.FieldsRead n') (heq : (n' == n) = true) : n' = n := by
  obtain ⟨-, -, -, hlinks⟩ := h
  obtain ⟨h₁, h₂, h₃, h₄⟩ := beq_iff.1 heq
  have hlinks' : n'.links = n.links := hlinks.eq_of_beq link_isMember (fun _ _ _ _ _ hbeq => LawfulBEq.eq_of_beq hbeq) h₄
  cases n
  cases n'
  simp only at h₁ h₂ h₃ hlinks'
  simp [h₁, h₂, h₃, hlinks']

theorem beq_self (n : Node) : (n == n) = true :=
  beq_iff.2 ⟨rfl, rfl, rfl, Table.beq_self fun _ link _ => beq_self_eq_true link⟩

theorem survives_iff_fieldsRead {n : Node} : Record.Survives n ↔ n.FieldsRead n := by
  constructor
  · exact fun h => readsAs_iff.1 (h.readsAs_self fun _ hread => (readsAs_iff.1 hread).eq_of_beq)
  · intro h
    exact ⟨n, readsAs_iff.2 h, n.beq_self⟩

end Hypervisor.Cluster.Node
