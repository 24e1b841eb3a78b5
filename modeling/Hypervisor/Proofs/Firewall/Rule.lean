/-
Firewall rules property by property: what it takes to read one, and what an update leaves of the rule that was there.
-/
import Hypervisor.Firewall
import Hypervisor.Proofs.Record.RoundTrip

namespace Hypervisor.Firewall.Rule

open Fallible Property

theorem decode_eq_ok {report : Report} {r : Rule} :
    decode report = .ok r ↔
      positionProperty.extract report = .ok r.position ∧ kindProperty.extract report = .ok r.kind ∧
        actionProperty.extract report = .ok r.action ∧ enableProperty.extract report = .ok r.enable ∧
        macroProperty.extract report = .ok r.macroName ∧ sourceProperty.extract report = .ok r.source ∧
        destProperty.extract report = .ok r.dest ∧ protoProperty.extract report = .ok r.proto ∧
        dportProperty.extract report = .ok r.dport ∧ sportProperty.extract report = .ok r.sport ∧
        ifaceProperty.extract report = .ok r.iface ∧ logProperty.extract report = .ok r.log ∧
        commentProperty.extract report = .ok r.comment ∧ ipversionProperty.extract report = .ok r.ipversion ∧
        digestProperty.extract report = .ok r.digest := by
  simp only [decode, bind_eq_ok, pure_eq_ok]
  constructor
  · rintro ⟨_, h₁, _, h₂, _, h₃, _, h₄, _, h₅, _, h₆, _, h₇, _, h₈, _, h₉, _, h₁₀, _, h₁₁, _, h₁₂, _, h₁₃, _, h₁₄, _,
      h₁₅, rfl⟩
    exact ⟨h₁, h₂, h₃, h₄, h₅, h₆, h₇, h₈, h₉, h₁₀, h₁₁, h₁₂, h₁₃, h₁₄, h₁₅⟩
  · intro ⟨h₁, h₂, h₃, h₄, h₅, h₆, h₇, h₈, h₉, h₁₀, h₁₁, h₁₂, h₁₃, h₁₄, h₁₅⟩
    exact ⟨_, h₁, _, h₂, _, h₃, _, h₄, _, h₅, _, h₆, _, h₇, _, h₈, _, h₉, _, h₁₀, _, h₁₁, _, h₁₂, _, h₁₃, _, h₁₄, _,
      h₁₅, rfl⟩

theorem attributes_names (r : Rule) :
    r.attributes.map Attribute.name =
      ["pos", "type", "action", "enable", "macro", "source", "dest", "proto", "dport", "sport", "iface", "log",
        "comment", "ipversion", "digest"] := rfl

theorem attributes_nodup (r : Rule) : (r.attributes.map Attribute.name).Nodup := by
  rw [attributes_names]
  decide

/-- an update sets all but the place, the version and the fingerprint, which belong to the node -/
theorem decode_applyTo {r old : Rule} {g f : Form} {state : Report} (hr : Form.Revision r.attributes r.attributes g f)
    (hback : decode g.report = .ok r) (hold : decode state = .ok old) :
    decode (f.applyTo state) =
      .ok { r with position := old.position, ipversion := old.ipversion, digest := old.digest } := by
  obtain ⟨-, h₂, h₃, h₄, h₅, h₆, h₇, h₈, h₉, h₁₀, h₁₁, h₁₂, h₁₃, -, -⟩ := decode_eq_ok.1 hback
  obtain ⟨k₁, -, -, -, -, -, -, -, -, -, -, -, -, k₁₄, k₁₅⟩ := decode_eq_ok.1 hold
  have hset {α : Type} [Wire α] {p : Property α} {a : α} (he : p.emission = .omitDefault)
      (h : p.extract g.report = .ok a) (hp : p.attribute a ∈ r.attributes) : p.extract (f.applyTo state) = .ok a :=
    hr.extract_set state hp (speaks_of_omitDefault he) h
  have hposition := hr.extract_kept state (p := positionProperty) (a := r.position) (by simp [attributes]) rfl
  have hkind := hr.extract_set state (p := kindProperty) (a := r.kind) (by simp [attributes]) (speaks_of_always rfl) h₂
  have haction := hr.extract_set state (p := actionProperty) (a := r.action) (by simp [attributes])
    (speaks_of_always rfl) h₃
  have hipversion := hr.extract_kept state (p := ipversionProperty) (a := r.ipversion) (by simp [attributes]) rfl
  have hdigest := hr.extract_kept state (p := digestProperty) (a := r.digest) (by simp [attributes]) rfl
  refine decode_eq_ok.2 ⟨hposition.trans k₁, hkind, haction, hset rfl h₄ ?_, hset rfl h₅ ?_, hset rfl h₆ ?_,
    hset rfl h₇ ?_, hset rfl h₈ ?_, hset rfl h₉ ?_, hset rfl h₁₀ ?_, hset rfl h₁₁ ?_, hset rfl h₁₂ ?_, hset rfl h₁₃ ?_,
    hipversion.trans k₁₄, hdigest.trans k₁₅⟩ <;> simp [attributes]

end Hypervisor.Firewall.Rule
