/-
Records read back from the form that makes them. `Record.ReadsAs` relates a record to the one that its create form reads
back as; a record that comes back equal to itself survives.
-/
import Hypervisor.Proofs.Form.Apply

namespace Hypervisor.Record

variable {α : Type} [Record α]

/-- there is a create form for `a`, and it reads back as `b` -/
def ReadsAs (a b : α) : Prop := ∃ f, form .create a = .ok f ∧ decode f.report = .ok b

/-- a record equal to `a` under `==` is read -/
def Restores [BEq α] (report : Report) (a : α) : Prop := ∃ b, decode report = .ok b ∧ (b == a) = true

/-- the record comes back from its create form, equal under `==` -/
def Survives [BEq α] (a : α) : Prop := ∃ b, ReadsAs a b ∧ (b == a) = true

/-- a record reads back by its properties when each of them can be written and is read on its own -/
theorem readsAs_iff_fields {a b : α} {Fields : Prop}
    (hwritable : Fields → ∀ x ∈ attributes .create a, ∃ o, x.outcome = .ok o)
    (hread : ∀ f, Form.ofAttributes .create (attributes .create a) = .ok f → (decode f.report = .ok b ↔ Fields)) :
    ReadsAs a b ↔ Fields := by
  constructor
  · intro ⟨f, hf, hb⟩
    exact (hread f hf).1 hb
  · intro h
    obtain ⟨f, hf⟩ := Form.exists_ofAttributes.2 (hwritable h)
    exact ⟨f, hf, (hread f hf).2 h⟩

theorem decode_report_iff_readsAs {a b : α} {f : Form} (hf : form .create a = .ok f) :
    decode f.report = .ok b ↔ ReadsAs a b := by
  constructor
  · intro h
    exact ⟨f, hf, h⟩
  · intro ⟨f', hf', h⟩
    obtain rfl := Except.ok.inj (hf.symm.trans hf')
    exact h

theorem restores_iff_survives [BEq α] {a : α} {f : Form} (hf : form .create a = .ok f) :
    Restores f.report a ↔ Survives a :=
  exists_congr fun _ => and_congr_left' (decode_report_iff_readsAs hf)

/-- a record that survives reads back as itself, where reading back equal is reading back the same -/
theorem Survives.readsAs_self [BEq α] {a : α} (h : Survives a)
    (hexact : ∀ b, ReadsAs a b → (b == a) = true → b = a) : ReadsAs a a := by
  obtain ⟨b, hb, heq⟩ := h
  obtain rfl := hexact b hb heq
  exact hb

theorem survives_iff_readsAs [BEq α] [LawfulBEq α] {a : α} : Survives a ↔ ReadsAs a a := by
  constructor
  · exact fun h => h.readsAs_self fun _ _ heq => eq_of_beq heq
  · exact fun h => ⟨a, h, beq_self_eq_true a⟩

end Hypervisor.Record

namespace Hypervisor.Property

variable {α : Type} [Wire α] {p : Property α} {a b : α}

/-- a value that is read back could be written -/
theorem ReadsAs.writable (h : p.ReadsAs a b) : ∃ o, (p.attribute a).outcome = .ok o := by
  obtain ⟨o, ho, -⟩ := h
  exact ⟨o, ho⟩

end Hypervisor.Property
