/-
Which groups survive the form that makes them.

A node takes one entry, whose value is the decimal of its priority, so the names alone decide whether an entry is well
formed (`NodeList.entryOf_wellFormed_iff`), and a list of nodes reads back exactly if the list of its entries does. The
nodes that are read are named by keys of entries, and what is written for them is no longer than what was read, since a
priority loses its leading zeros and nothing is added. So every group that was read comes back but for its fingerprint,
which the node sets.
-/
import Hypervisor.Proofs.Availability.Group
import Hypervisor.Proofs.Packed.Survivors
import Hypervisor.Proofs.Text.Length

namespace Hypervisor.Availability

open Fallible Property

namespace NodeList

/-! ## Nodes and their entries -/

/-- a name that is read whole from in front of a priority -/
structure NodeName (name : String) : Prop where
  ne_empty : name ≠ ""
  no_comma : ',' ∉ name.toList
  no_colon : ':' ∉ name.toList

theorem memberOf_eq_ok {e : Entry} {m : Member} :
    memberOf e = .ok m ↔ e.key = m.node ∧
      (e.value = none ∧ m.priority = none ∨
        ∃ raw priority, e.value = some raw ∧ Ranged.read? .u32 raw = some priority ∧ m.priority = some priority) := by
  obtain ⟨key, value⟩ := e
  obtain ⟨node, priority⟩ := m
  cases value with
  | none => simp [memberOf, eq_comm]
  | some raw =>
    cases hparse : Scalar.parse (α := U32) raw with
    | ok p =>
      have hread : Ranged.read? .u32 raw = some p := Scalar.parse_eq_ok.1 hparse
      simp [memberOf, hparse, hread, eq_comm]
    | error fault =>
      have hread : ∀ p, Ranged.read? .u32 raw ≠ some p := by
        intro p hp
        rw [Scalar.parse_eq_ok.2 hp] at hparse
        cases hparse
      simp [memberOf, hparse, hread]

theorem memberOf_entryOf (m : Member) : memberOf (entryOf m) = .ok m := by
  refine memberOf_eq_ok.2 ⟨rfl, ?_⟩
  cases hm : m.priority with
  | none => exact .inl ⟨by rw [entryOf, hm]; rfl, rfl⟩
  | some p => exact .inr ⟨_, p, by rw [entryOf, hm]; rfl, p.read?_integerText, rfl⟩

/-- the decimal of a priority holds no separator -/
theorem entryOf_wellFormed_iff {m : Member} : (entryOf m).WellFormed .nodePriority ↔ NodeName m.node := by
  constructor
  · intro h
    exact ⟨h.key_ne_empty, h.list_not_mem_key, h.entry_not_mem_key⟩
  · intro h
    refine ⟨h.ne_empty, h.no_comma, h.no_colon, fun value hvalue => ?_, fun _ => rfl, fun _ => by decide⟩
    obtain ⟨p, -, rfl⟩ := Option.map_eq_some_iff.1 hvalue
    exact (tame_integerText p.val).not_mem rfl

/-- what is written for a node is no longer than what it was read from -/
theorem write_entryOf_le {d : Dialect} {e : Entry} {m : Member} (h : memberOf e = .ok m) :
    String.utf8Len ((entryOf m).write d) ≤ String.utf8Len (e.write d) := by
  obtain ⟨hkey, hvalue⟩ := memberOf_eq_ok.1 h
  unfold Entry.write entryOf
  rcases hvalue with ⟨hnone, hpriority⟩ | ⟨raw, p, hsome, hread, hpriority⟩
  · simp only [hnone, hpriority, hkey, Option.map_none, le_refl]
  · have hlength := Ranged.utf8ByteSize_integerText_le hread
    rw [← Text.utf8Len_toList, ← Text.utf8Len_toList] at hlength
    simp only [hsome, hpriority, hkey, Option.map_some, String.utf8Len_append, String.utf8Len_cons]
    omega

/-! ## Lists of nodes -/

theorem ofEntries_eq_ok {list : EntryList} {l : NodeList} :
    ofEntries list = .ok l ↔ List.Forall₂ (fun e m => memberOf e = .ok m) list.entries l.members := by
  rw [ofEntries, map_eq_ok]
  constructor
  · rintro ⟨ms, hms, rfl⟩
    exact mapM_eq_ok.1 hms
  · intro h
    exact ⟨l.members, mapM_eq_ok.2 h, rfl⟩

theorem ofEntries_toEntries (l : NodeList) : ofEntries l.toEntries = .ok l := by
  refine ofEntries_eq_ok.2 ?_
  rw [toEntries, List.forall₂_map_left_iff, List.forall₂_same]
  exact fun m _ => memberOf_entryOf m

theorem encode_eq {d : Dialect} (l : NodeList) : Wire.encode d l = .ok (some (l.toEntries.write d)) := rfl

/-- what a list of nodes must be to come back from its text -/
structure Lasting (l : NodeList) : Prop where
  count : l.members.length ≤ 256
  names : ∀ m ∈ l.members, NodeName m.node
  fits : Wire.Fits .nodePriority l

/-- what is written for nodes is no longer than what they were read from -/
theorem write_toEntries_le {d : Dialect} {list : EntryList} {l : NodeList} (h : ofEntries list = .ok l) :
    (l.toEntries.write d).utf8ByteSize ≤ (list.write d).utf8ByteSize := by
  have hpieces : List.Forall₂ (fun piece piece' => String.utf8Len piece ≤ String.utf8Len piece')
      ((l.members.map entryOf).map (Entry.write d)) (list.entries.map (Entry.write d)) := by
    simp only [List.map_map, List.forall₂_map_left_iff, List.forall₂_map_right_iff]
    exact (ofEntries_eq_ok.1 h).flip.imp fun _ _ hread => write_entryOf_le hread
  unfold EntryList.write
  rw [String.utf8ByteSize_ofList, String.utf8ByteSize_ofList]
  exact Text.utf8Len_intercalate_le hpieces

/-- what is read from well-formed entries comes back -/
theorem lasting_of_ofEntries {list : EntryList} {l : NodeList} (hlist : list.WellFormed .nodePriority)
    (h : ofEntries list = .ok l) : l.Lasting := by
  have hmembers := ofEntries_eq_ok.1 h
  refine ⟨hmembers.length_eq ▸ hlist.count, fun m hm => ?_, fun w hw => ?_⟩
  · obtain ⟨e, he, hread⟩ := exists_of_mem_right hmembers hm
    have hentry := hlist.entries e he
    rw [← (memberOf_eq_ok.1 hread).1]
    exact ⟨hentry.key_ne_empty, hentry.list_not_mem_key, hentry.entry_not_mem_key⟩
  · obtain rfl := Option.some.inj (Except.ok.inj hw)
    exact (write_toEntries_le h).trans hlist.size

/-- what is read from any value at all comes back -/
theorem lasting_of_decode {v : Value} {l : NodeList} (h : Wire.decode .nodePriority v = .ok l) : l.Lasting := by
  obtain ⟨raw, rfl⟩ := Packed.exists_text_of_decode h
  obtain ⟨list, hparse, hlist⟩ := Packed.decode_text_eq_ok.1 h
  exact lasting_of_ofEntries (EntryList.parse_eq_ok_iff.1 hparse).2 hlist

/-- the text of nodes that come back is read as their entries -/
theorem Lasting.parse_write {l : NodeList} (h : l.Lasting) :
    EntryList.parse .nodePriority (l.toEntries.write .nodePriority) = .ok l.toEntries := by
  refine EntryList.parse_eq_ok_iff.2 ⟨rfl, ?_, h.fits _ l.encode_eq, ?_⟩
  · exact (List.length_map entryOf).trans_le h.count
  · exact List.forall_mem_map.2 fun m hm => entryOf_wellFormed_iff.2 (h.names m hm)

/-- **Lists of nodes that come back.** There are no more than 256 nodes, each has a name that stands in front of a
priority, and the text is not too long; no nodes at all come back too. -/
theorem roundTrips_iff_lasting {l : NodeList} : Wire.RoundTrips .nodePriority l ↔ l.Lasting := by
  constructor
  · intro ⟨w, _, hread⟩
    exact lasting_of_decode hread
  · intro h
    exact ⟨_, l.encode_eq, Packed.decode_text_eq_ok.2 ⟨l.toEntries, h.parse_write, l.ofEntries_toEntries⟩⟩

end NodeList

namespace Group

/-! ## Property by property -/

/-- each property reads back as that of the other -/
def FieldsRead (g g' : Group) : Prop :=
  nameProperty.ReadsAs g.name g'.name ∧ nodesProperty.ReadsAs g.nodes g'.nodes ∧
    restrictedProperty.ReadsAs g.restricted g'.restricted ∧ nofailbackProperty.ReadsAs g.nofailback g'.nofailback ∧
    commentProperty.ReadsAs g.comment g'.comment ∧ digestProperty.ReadsAs g.digest g'.digest

theorem FieldsRead.writable {g g' : Group} (h : g.FieldsRead g') :
    ∀ a ∈ g.attributes .create, ∃ o, a.outcome = .ok o := by
  obtain ⟨h₁, h₂, h₃, h₄, h₅, h₆⟩ := h
  simp only [attributes, ↓reduceIte, List.singleton_append, List.forall_mem_cons]
  exact ⟨h₁.writable, h₂.writable, h₃.writable, h₄.writable, h₅.writable, h₆.writable, List.forall_mem_nil _⟩

/-- a group reads back property by property -/
theorem readsAs_iff {g g' : Group} : Record.ReadsAs g g' ↔ g.FieldsRead g' := by
  refine Record.readsAs_iff_fields FieldsRead.writable fun f hf => ?_
  have hback {α : Type} [Wire α] {p : Property α} {a b : α} (hp : p.attribute a ∈ g.attributes .create) :
      p.extract f.report = .ok b ↔ p.ReadsAs a b := Form.extract_report g.attributes_nodup hf hp
  change decode f.report = .ok g' ↔ _
  rw [decode_eq_ok, FieldsRead, hback (a := g.name), hback (a := g.nodes), hback (a := g.restricted),
    hback (a := g.nofailback), hback (a := g.comment), hback (a := g.digest)] <;> simp [attributes]

theorem name_readsAs_iff {a b : String} : nameProperty.ReadsAs a b ↔ b = a := by
  have hfaithful : nameProperty.Faithful := faithful_of_required rfl rfl rfl
  rw [hfaithful.readsAs_iff]
  exact and_iff_left ⟨exists_outcome_of_total nameProperty a, rfl⟩

/-- the nodes are always sent, an empty list as the empty text -/
theorem nodes_readsAs_self_iff {nodes : NodeList} : nodesProperty.ReadsAs nodes nodes ↔ nodes.Lasting := by
  rw [readsAs_of_always rfl rfl, ← NodeList.roundTrips_iff_lasting]
  refine exists_congr fun w => ⟨fun ⟨hw, hread, _⟩ => ⟨hw, hread⟩, fun ⟨hw, hread⟩ => ⟨hw, hread, rfl⟩⟩

theorem restricted_readsAs_iff {a b : Bool} : restrictedProperty.ReadsAs a b ↔ b = a := by
  have hfaithful : restrictedProperty.Faithful := faithful_of_default rfl rfl rfl ⟨false, rfl, rfl⟩
  rw [hfaithful.readsAs_iff]
  exact and_iff_left ⟨exists_outcome_of_total restrictedProperty a, rfl⟩

theorem nofailback_readsAs_iff {a b : Bool} : nofailbackProperty.ReadsAs a b ↔ b = a := by
  have hfaithful : nofailbackProperty.Faithful := faithful_of_default rfl rfl rfl ⟨false, rfl, rfl⟩
  rw [hfaithful.readsAs_iff]
  exact and_iff_left ⟨exists_outcome_of_total nofailbackProperty a, rfl⟩

theorem comment_readsAs_iff {a b : Option String} : commentProperty.ReadsAs a b ↔ b = a :=
  readsAs_of_total_option rfl (by decide) rfl

/-! ## Groups that survive -/

/-- what a group must be to come back from its create form -/
structure Lasting (g : Group) : Prop where
  nodes : g.nodes.Lasting
  /-- the node sets the fingerprint, so it is never sent -/
  digest : g.digest = none

/-- a group whose nodes come back does so itself, without the fingerprint -/
theorem readsAs_undigested {g : Group} (h : g.nodes.Lasting) : Record.ReadsAs g { g with digest := none } := by
  refine readsAs_iff.2 ⟨name_readsAs_iff.2 rfl, nodes_readsAs_self_iff.2 h, restricted_readsAs_iff.2 rfl,
    nofailback_readsAs_iff.2 rfl, comment_readsAs_iff.2 rfl, ?_⟩
  exact (readsAs_of_unsent rfl rfl rfl).2 rfl

theorem survives_iff {g : Group} : Record.Survives g ↔ g.Lasting := by
  rw [Record.survives_iff_readsAs]
  constructor
  · intro h
    obtain ⟨-, hnodes, -, -, -, hdigest⟩ := readsAs_iff.1 h
    exact ⟨nodes_readsAs_self_iff.1 hnodes, (readsAs_of_unsent rfl rfl rfl).1 hdigest⟩
  · intro h
    have hback := readsAs_undigested h.nodes
    rw [← h.digest] at hback
    exact hback

/-- the nodes of a group that was read come back -/
theorem nodes_lasting_of_decode {report : Report} {g : Group} (h : decode report = .ok g) : g.nodes.Lasting := by
  obtain ⟨-, hnodes, -⟩ := decode_eq_ok.1 h
  rcases read_plain rfl hnodes with hmissing | ⟨v, hv⟩
  · cases hmissing
  · exact NodeList.lasting_of_decode (decodePresent_eq_ok.1 hv).1

/-- **Groups that survive a create form.** A group comes back equal from its create form exactly if it has at most 256
nodes, each with a name that is not empty and holds neither a comma nor a colon, the text of the nodes takes at most
64 KiB, and the fingerprint, which the node sets, is unset. So every group that was read, from whatever report, comes
back but for its fingerprint, its nodes in order and as often as they were listed. -/
theorem groups_survive_iff :
    (∀ g : Group, Record.Survives g ↔ g.Lasting) ∧
      ∀ (report : Report) (g : Group), Record.decode report = .ok g →
        ∃ f, Record.form .create g = .ok f ∧ Record.decode f.report = .ok { g with digest := none } :=
  ⟨fun _ => survives_iff, fun _ _ h => readsAs_undigested (nodes_lasting_of_decode h)⟩

/-- priorities with leading zeros and a node listed twice come back, the fingerprint does not -/
theorem groups_survive_iff_zeros :
    ∃ (g : Group) (f : Form),
      Record.decode (Report.ofPairs [("group", "web"), ("nodes", "pve1:002,pve2,pve1:01"), ("digest", "5f1e")]) =
        .ok g ∧
      Record.form .create g = .ok f ∧ f.get? "nodes" = some "pve1:2,pve2,pve1:1" ∧
      Record.decode f.report = .ok { g with digest := none } ∧ ¬ Record.Survives g := by
  obtain ⟨hsurvive, hreread⟩ := groups_survive_iff
  obtain ⟨g, hg, hnodes, hdigest⟩ :
      ∃ g : Group,
        Record.decode (Report.ofPairs [("group", "web"), ("nodes", "pve1:002,pve2,pve1:01"), ("digest", "5f1e")]) =
          .ok g ∧
        (Record.form .create g).map (Form.get? · "nodes") = .ok (some "pve1:2,pve2,pve1:1") ∧ g.digest ≠ none :=
    ⟨_, rfl, rfl, nofun⟩
  obtain ⟨f, hf, hback⟩ := hreread _ g hg
  rw [hf] at hnodes
  exact ⟨g, f, hg, hf, Except.ok.inj hnodes, hback, fun h => hdigest ((hsurvive g).1 h).digest⟩

end Group

end Hypervisor.Availability
