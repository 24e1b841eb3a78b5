/-
Storage definitions property by property: what it takes to read one, and what an update leaves of the definition that
was there.
-/
import Hypervisor.Storage
import Hypervisor.Proofs.Record.RoundTrip

namespace Hypervisor

namespace DefaultTable

variable {κ α : Type} [DecidableEq κ] (t : DefaultTable κ) (kind : κ) (p : Property α)

@[simp] theorem apply_name : (t.apply kind p).name = p.name := by
  unfold apply Property.orDefault
  split <;> rfl

@[simp] theorem apply_emission : (t.apply kind p).emission = p.emission := by
  unfold apply Property.orDefault
  split <;> rfl

@[simp] theorem apply_transform : (t.apply kind p).transform = p.transform := by
  unfold apply Property.orDefault
  split <;> rfl

@[simp] theorem apply_check : (t.apply kind p).check = p.check := by
  unfold apply Property.orDefault
  split <;> rfl

@[simp] theorem apply_effectiveDialect [Wire α] : (t.apply kind p).effectiveDialect = p.effectiveDialect := by
  unfold apply Property.orDefault
  split <;> rfl

/-- with a default of its own or of the kind -/
theorem apply_default? (h : p.default?.isSome) : (t.apply kind p).default?.isSome := by
  unfold apply Property.orDefault
  split
  · rfl
  · exact h

end DefaultTable

namespace Storage.Definition

open Fallible Property

theorem decode_eq_ok {report : Report} {s : Definition} :
    decode report = .ok s ↔
      idProperty.extract report = .ok s.id ∧ kindProperty.extract report = .ok s.kind ∧
        (contentProperty s.kind).extract report = .ok s.content ∧
        (sharedProperty s.kind).extract report = .ok s.shared ∧ disableProperty.extract report = .ok s.disable ∧
        nodesProperty.extract report = .ok s.nodes ∧ pathProperty.extract report = .ok s.path ∧
        serverProperty.extract report = .ok s.server ∧ exportProperty.extract report = .ok s.exportPath ∧
        optionsProperty.extract report = .ok s.options ∧ vgnameProperty.extract report = .ok s.vgname ∧
        thinpoolProperty.extract report = .ok s.thinpool ∧ poolProperty.extract report = .ok s.pool ∧
        (sparseProperty s.kind).extract report = .ok s.sparse ∧ digestProperty.extract report = .ok s.digest := by
  simp only [decode, bind_eq_ok, pure_eq_ok]
  constructor
  · rintro ⟨_, h₁, _, h₂, _, h₃, _, h₄, _, h₅, _, h₆, _, h₇, _, h₈, _, h₉, _, h₁₀, _, h₁₁, _, h₁₂, _, h₁₃, _, h₁₄, _,
      h₁₅, rfl⟩
    exact ⟨h₁, h₂, h₃, h₄, h₅, h₆, h₇, h₈, h₉, h₁₀, h₁₁, h₁₂, h₁₃, h₁₄, h₁₅⟩
  · intro ⟨h₁, h₂, h₃, h₄, h₅, h₆, h₇, h₈, h₉, h₁₀, h₁₁, h₁₂, h₁₃, h₁₄, h₁₅⟩
    exact ⟨_, h₁, _, h₂, _, h₃, _, h₄, _, h₅, _, h₆, _, h₇, _, h₈, _, h₉, _, h₁₀, _, h₁₁, _, h₁₂, _, h₁₃, _, h₁₄, _,
      h₁₅, rfl⟩

theorem attributes_names (s : Definition) :
    (s.attributes .create).map Attribute.name =
      ["storage", "type", "content", "shared", "disable", "nodes", "path", "server", "export", "options", "vgname",
        "thinpool", "pool", "sparse", "digest"] := by
  simp [attributes, contentProperty, sharedProperty, sparseProperty, idProperty, kindProperty,
    disableProperty, nodesProperty, pathProperty, serverProperty, exportProperty, optionsProperty, vgnameProperty,
    thinpoolProperty, poolProperty, digestProperty, textProperty]

theorem attributes_nodup (s : Definition) : ((s.attributes .create).map Attribute.name).Nodup := by
  rw [attributes_names]
  decide

/-- an update leaves id and kind out -/
theorem attributes_update (s : Definition) :
    s.attributes .create = idProperty.attribute s.id :: kindProperty.attribute s.kind :: s.attributes .update := rfl

/-- an update of a definition of the same kind sets all but the id, which it goes by, and the fingerprint -/
theorem decode_applyTo {s old : Definition} {g f : Form} {state : Report}
    (hr : Form.Revision (s.attributes .create) (s.attributes .update) g f) (hback : decode g.report = .ok s)
    (hold : decode state = .ok old) (hkind : old.kind = s.kind) :
    decode (f.applyTo state) = .ok { s with id := old.id, digest := old.digest } := by
  obtain ⟨-, -, h₃, h₄, h₅, h₆, h₇, h₈, h₉, h₁₀, h₁₁, h₁₂, h₁₃, h₁₄, -⟩ := decode_eq_ok.1 hback
  obtain ⟨k₁, k₂, -, -, -, -, -, -, -, -, -, -, -, -, k₁₅⟩ := decode_eq_ok.1 hold
  rw [hkind] at k₂
  have hset {α : Type} [Wire α] {p : Property α} {a : α} (he : p.emission = .omitDefault)
      (h : p.extract g.report = .ok a) (hp : p.attribute a ∈ s.attributes .update) :
      p.extract (f.applyTo state) = .ok a := hr.extract_set state hp (speaks_of_omitDefault he) h
  have hnd := s.attributes_nodup
  rw [attributes_update, List.map_cons, List.map_cons, List.nodup_cons, List.nodup_cons] at hnd
  have hid : idProperty.extract (f.applyTo state) = idProperty.extract state :=
    hr.extract_unnamed state fun h => hnd.1 (List.mem_cons_of_mem _ h)
  have hkindKept : kindProperty.extract (f.applyTo state) = kindProperty.extract state :=
    hr.extract_unnamed state hnd.2.1
  have hdigest := hr.extract_kept state (p := digestProperty) (a := s.digest) (by simp [attributes]) rfl
  refine decode_eq_ok.2 ⟨hid.trans k₁, hkindKept.trans k₂, hset (defaults.apply_emission s.kind _) h₃ ?_,
    hset (defaults.apply_emission s.kind _) h₄ ?_, hset rfl h₅ ?_, hset rfl h₆ ?_, hset rfl h₇ ?_, hset rfl h₈ ?_, hset rfl h₉ ?_,
    hset rfl h₁₀ ?_, hset rfl h₁₁ ?_, hset rfl h₁₂ ?_, hset rfl h₁₃ ?_, hset (defaults.apply_emission s.kind _) h₁₄ ?_,
    hdigest.trans k₁₅⟩ <;> simp [attributes]

end Storage.Definition

end Hypervisor
