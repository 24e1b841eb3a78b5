/-
Groups property by property: what it takes to read one, and what an update leaves of the group that was there.
-/
import Hypervisor.Availability
import Hypervisor.Proofs.Record.RoundTrip

namespace Hypervisor.Availability.Group

open Fallible Property

theorem decode_eq_ok {report : Report} {g : Group} :
    decode report = .ok g ↔
      nameProperty.extract report = .ok g.name ∧ nodesProperty.extract report = .ok g.nodes ∧
        restrictedProperty.extract report = .ok g.restricted ∧ nofailbackProperty.extract report = .ok g.nofailback ∧
        commentProperty.extract report = .ok g.comment ∧ digestProperty.extract report = .ok g.digest := by
  simp only [decode, bind_eq_ok, pure_eq_ok]
  constructor
  · rintro ⟨_, h₁, _, h₂, _, h₃, _, h₄, _, h₅, _, h₆, rfl⟩
    exact ⟨h₁, h₂, h₃, h₄, h₅, h₆⟩
  · intro ⟨h₁, h₂, h₃, h₄, h₅, h₆⟩
    exact ⟨_, h₁, _, h₂, _, h₃, _, h₄, _, h₅, _, h₆, rfl⟩

theorem attributes_names (g : Group) :
    (g.attributes .create).map Attribute.name =
      ["group", "nodes", "restricted", "nofailback", "comment", "digest"] := rfl

theorem attributes_nodup (g : Group) : ((g.attributes .create).map Attribute.name).Nodup := by
  rw [attributes_names]
  decide

/-- an update leaves the name out -/
theorem attributes_update (g : Group) : g.attributes .create = nameProperty.attribute g.name :: g.attributes .update :=
  rfl

/-- an update sets all but the name, which it goes by, and the fingerprint -/
theorem decode_applyTo {g old : Group} {created f : Form} {state : Report}
    (hr : Form.Revision (g.attributes .create) (g.attributes .update) created f)
    (hback : decode created.report = .ok g) (hold : decode state = .ok old) :
    decode (f.applyTo state) = .ok { g with name := old.name, digest := old.digest } := by
  obtain ⟨-, h₂, h₃, h₄, h₅, -⟩ := decode_eq_ok.1 hback
  obtain ⟨k₁, -, -, -, -, k₆⟩ := decode_eq_ok.1 hold
  have hset {α : Type} [Wire α] {p : Property α} {a : α} (hs : p.Speaks)
      (h : p.extract created.report = .ok a) (hp : p.attribute a ∈ g.attributes .update) :
      p.extract (f.applyTo state) = .ok a := hr.extract_set state hp hs h
  have hname : nameProperty.extract (f.applyTo state) = nameProperty.extract state := by
    refine hr.extract_unnamed state ?_
    have hnd := g.attributes_nodup
    rw [attributes_update] at hnd
    exact (List.nodup_cons.1 hnd).1
  have hdigest := hr.extract_kept state (p := digestProperty) (a := g.digest) (by simp [attributes]) rfl
  refine decode_eq_ok.2 ⟨hname.trans k₁, hset (speaks_of_always rfl) h₂ ?_, hset (speaks_of_omitDefault rfl) h₃ ?_,
    hset (speaks_of_omitDefault rfl) h₄ ?_, hset (speaks_of_omitDefault rfl) h₅ ?_, hdigest.trans k₆⟩ <;>
    simp [attributes]

end Hypervisor.Availability.Group
