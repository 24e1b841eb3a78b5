/-
Links that read back from their text: those whose address can stand bare and is not the word `priority` before a
priority.
-/
import Hypervisor.Cluster
import Hypervisor.Proofs.Packed.Layout

namespace Hypervisor.Cluster.Link

open Fallible Property EntryList

theorem priority_faithful : priorityProperty.Faithful := faithful_of_optional (by decide) rfl rfl rfl

/-- the options behind the address -/
def options (l : Link) : List Attribute := [priorityProperty.attribute l.priority]

/-- the entries behind the address -/
def written (l : Link) : List Entry := l.options.flatMap Attribute.sentEntries

theorem options_nodup (l : Link) : (l.options.map Attribute.name).Nodup := by simp [options]

theorem written_wellFormed (l : Link) : ∀ e ∈ l.written, e.WellFormed .propertyString := by
  refine Attribute.IsTame.wellFormed rfl rfl (by decide) fun a ha => ?_
  rw [List.mem_singleton.1 ha]
  exact attribute_isTame _ _ (by decide) (by decide)

theorem written_length (l : Link) : l.written.length < 256 :=
  lt_of_le_of_lt (length_options_le l.options) (show 1 < 256 by omega)

theorem address_not_written (l : Link) : ∀ e ∈ l.written, e.key ≠ addressProperty.name := by
  refine forall_options_key_ne.2 fun a ha _ => ?_
  rw [List.mem_singleton.1 ha]
  exact (by decide : priorityProperty.name ≠ addressProperty.name)

theorem writable (l : Link) : ∀ a ∈ l.options, ∃ o, a.outcome = .ok o := by
  intro a ha
  rw [List.mem_singleton.1 ha]
  exact exists_outcome_of_total_option (p := priorityProperty) rfl l.priority

theorem ofEntries_eq_ok {list : EntryList} {l : Link} :
    ofEntries list = .ok l ↔
      list.Leads addressProperty.name l.address ∧ priorityProperty.extractEntry list = .ok l.priority := by
  refine (read_part_eq_ok (p := addressProperty) rfl rfl rfl).trans ?_
  simp only [bind_eq_ok, pure_eq_ok]
  constructor
  · rintro ⟨_, haddress, _, hpriority, rfl⟩
    exact ⟨haddress, hpriority⟩
  · intro ⟨haddress, hpriority⟩
    exact ⟨_, haddress, _, hpriority, rfl⟩

theorem toEntries_eq_ok {list : EntryList} {l : Link} :
    toEntries l = .ok list ↔
      (∀ a ∈ l.options, ∃ o, a.outcome = .ok o) ∧ list = ⟨⟨l.address, none⟩ :: l.written⟩ :=
  layOut_eq_ok

/-- **Links that read back.** The text is not too long, and the address is plain before the priority. -/
theorem roundTrips_iff {l : Link} :
    Wire.RoundTrips .propertyString l ↔
      (∃ w, Wire.encode .propertyString l = .ok (some w) ∧ w.utf8ByteSize ≤ 65536) ∧
        PlainPart l.address l.written := by
  refine Packed.roundTrips_positional (fun _ => toEntries_eq_ok) (fun _ => ofEntries_eq_ok) l.written_wellFormed
    l.written_length l.address_not_written fun hout _ => ?_
  have hmem : priorityProperty.attribute l.priority ∈ l.options := List.mem_singleton.2 rfl
  have hread : priorityProperty.extractEntry ⟨⟨l.address, none⟩ :: l.written⟩ = .ok l.priority ↔ _ :=
    extractEntry_behind_part l.options_nodup hout hmem priority_faithful rfl
  rw [hread, written, forall_options_key_ne]
  simp [options]

theorem exists_encode (l : Link) : ∃ w, Wire.encode .propertyString l = .ok (some w) :=
  ⟨_, Packed.encode_eq_ok.2 ⟨_, toEntries_eq_ok.2 ⟨l.writable, rfl⟩, rfl⟩⟩

end Hypervisor.Cluster.Link
