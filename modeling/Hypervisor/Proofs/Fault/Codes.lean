/-
Codes in messages.

A message opens with the code of the class of its fault, and no message opens with two codes (`FaultKind.Opens.unique`).
Token, property and task faults word each cause under its own code. An encode fault is worded under one code whatever
its source, while its class is that of the source; the two agree for a source of one class only
(`EncodeFault.opens_iff`). So that they always agree is a fact about all that can be written: values of every type,
packed ones and lists of them included, lack a text or are unset over a default, and fail in no other way.
-/
import Hypervisor.Proofs.Form.Steps
import Hypervisor.Proofs.Record.Wordless
import Hypervisor.Proofs.Wire.Rewritten
import Hypervisor.Task.Status

namespace Hypervisor

open Fallible

/-! ## Heads of messages -/

namespace FaultKind

/-- the message opens with the code of the class, in brackets -/
def Opens (kind : FaultKind) (message : String) : Prop := ∃ rest, message = "[" ++ kind.code ++ "]" ++ rest

theorem Opens.append {kind : FaultKind} {head : String} (h : kind.Opens head) (tail : String) :
    kind.Opens (head ++ tail) := by
  obtain ⟨rest, rfl⟩ := h
  exact ⟨rest ++ tail, String.append_assoc⟩

theorem length_code (kind : FaultKind) : kind.code.toList.length = 4 := by
  cases kind <;> rfl

theorem code_injective : Function.Injective code := by
  intro k₁ k₂ h
  cases k₁ <;> cases k₂ <;> first | rfl | exact absurd h (by decide)

theorem Opens.take_toList {kind : FaultKind} {message : String} (h : kind.Opens message) :
    message.toList.take 5 = '[' :: kind.code.toList := by
  obtain ⟨rest, rfl⟩ := h
  have hlen : ('[' :: kind.code.toList).length = 5 := congrArg (· + 1) kind.length_code
  have hmessage : ("[" ++ kind.code ++ "]" ++ rest).toList = ('[' :: kind.code.toList) ++ (']' :: rest.toList) := by
    simp only [String.toList_append]
    show ['['] ++ kind.code.toList ++ [']'] ++ rest.toList = _
    simp
  rw [hmessage, ← hlen, List.take_left]

/-- a message opens with one code at most -/
theorem Opens.unique {k₁ k₂ : FaultKind} {message : String} (h₁ : k₁.Opens message) (h₂ : k₂.Opens message) :
    k₁ = k₂ := by
  have hcodes := h₁.take_toList.symm.trans h₂.take_toList
  exact code_injective (String.toList_inj.1 (List.cons.inj hcodes).2)

end FaultKind

/-! ## Faults under their own code -/

theorem TokenFault.opens (fault : TokenFault) : fault.kind.Opens fault.message := by
  cases fault with
  | unrecognized _ expected raw =>
    have head : FaultKind.unrecognizedToken.Opens "[W001] unrecognized " := ⟨" unrecognized ", rfl⟩
    exact ((head.append _).append _).append _
  | noText typeName =>
    have head : FaultKind.unknownVariant.Opens "[W002] " := ⟨" ", rfl⟩
    exact (head.append _).append _
  | malformed raw position defect =>
    have head : FaultKind.malformedEntry.Opens "[W003] malformed entry " := ⟨" malformed entry ", rfl⟩
    exact ((((head.append _).append _).append _).append _).append _
  | unsetOverDefault default =>
    have head : FaultKind.unknownVariant.Opens "[W002] unset value would read back as the default " :=
      ⟨" unset value would read back as the default ", rfl⟩
    exact head.append _
  | tooLong subject length =>
    have head : FaultKind.malformedEntry.Opens "[W003] " := ⟨" ", rfl⟩
    exact ((((head.append _).append _).append _).append _).append _

theorem PropertyFault.opens (fault : PropertyFault) : fault.kind.Opens fault.message := by
  cases fault with
  | missing name =>
    have head : FaultKind.missingProperty.Opens "[W004] missing required property " :=
      ⟨" missing required property ", rfl⟩
    have hmessage : message (.missing name) = "[W004] missing required property " ++ name := rfl
    rw [hmessage]
    exact head.append _
  | invalid name value reason =>
    have head : FaultKind.invalidProperty.Opens "[W005] invalid value " := ⟨" invalid value ", rfl⟩
    have hmessage : message (.invalid name value reason) =
        "[W005] invalid value " ++ value.render ++ " for property " ++ name ++ ": " ++ reason.message := rfl
    rw [hmessage]
    exact ((((head.append _).append _).append _).append _).append _

theorem Task.Fault.opens (fault : Task.Fault) : fault.kind.Opens fault.message := by
  cases fault with
  | remote id exitStatus =>
    have head : FaultKind.remoteTask.Opens "[W006] task " := ⟨" task ", rfl⟩
    exact ((head.append _).append _).append _
  | transport fault =>
    have head : FaultKind.transport.Opens "[W007] status check failed: " := ⟨" status check failed: ", rfl⟩
    exact head.append _
  | pollerLost id =>
    have head : FaultKind.pollerLost.Opens "[W008] poller for task " := ⟨" poller for task ", rfl⟩
    exact (head.append _).append _
  | cancelled id =>
    have head : FaultKind.cancelled.Opens "[W009] polling task " := ⟨" polling task ", rfl⟩
    exact (head.append _).append _

/-! ## Faults of writing -/

theorem TokenFault.isWordless_iff {fault : TokenFault} :
    fault.IsWordless ↔ (∃ typeName, fault = .noText typeName) ∨ ∃ default, fault = .unsetOverDefault default := by
  cases fault <;> simp [IsWordless, kind]

namespace EncodeFault

theorem opens_unknownVariant (fault : EncodeFault) : FaultKind.unknownVariant.Opens fault.message := by
  have head : FaultKind.unknownVariant.Opens "[W002] cannot encode property " := ⟨" cannot encode property ", rfl⟩
  exact ((head.append _).append _).append _

/-- the message fits the class exactly for want of a text -/
theorem opens_iff {fault : EncodeFault} : fault.kind.Opens fault.message ↔ fault.source.IsWordless :=
  ⟨fun h => h.unique fault.opens_unknownVariant, fun h => by
    rw [kind, h]
    exact fault.opens_unknownVariant⟩

/-- the source lacks a text, and the message fits the class -/
def IsTagged (fault : EncodeFault) : Prop := fault.source.IsWordless ∧ fault.kind.Opens fault.message

theorem isTagged_of_kind {fault : EncodeFault} (h : fault.kind = .unknownVariant) : fault.IsTagged :=
  ⟨h, opens_iff.2 h⟩

end EncodeFault

theorem ValueType.wordlessWire {α : Type} [Wire α] (h : ValueType α) : WordlessWire α := by
  induction h with
  | flag | text | integer | size | number | choice => infer_instance
  | entries => exact ⟨fun _ _ => Faults.pure⟩
  | disk | card | processor | nodes | link => infer_instance
  | option _ ih => infer_instance
  | list _ ih => infer_instance

theorem Packed.faults_toEntries {α : Type} [Packed α] [WordlessWire α] (a : α) :
    Faults TokenFault.IsWordless (Packed.toEntries a) := by
  intro fault h
  refine WordlessWire.faults_encode .propertyString a fault ?_
  show (Packed.toEntries a).map _ = .error fault
  rw [h]
  rfl

theorem EntryList.faults_pushAttribute {α : Type} [Wire α] [WordlessWire α] (l : EntryList) (p : Property α) (a : α) :
    Faults TokenFault.IsWordless (l.pushAttribute (p.attribute a)) := (p.faults_outcome a).map.map

theorem Form.faults_take {α : Type} [Wire α] [WordlessWire α] (mode : Mode) (f : Form) (p : Property α) (a : α) :
    Faults EncodeFault.IsTagged (take mode f (.attribute (p.attribute a))).2 := by
  intro fault hfault
  cases ho : (p.attribute a).outcome with
  | error source =>
    rw [take_fault ho] at hfault
    obtain rfl := Except.error.inj hfault
    exact EncodeFault.isTagged_of_kind (p.faults_outcome a source ho)
  | ok o =>
    rw [take_outcome ho] at hfault
    cases hfault

namespace Record

/-- the faults of the forms of such records lack a text, under messages that fit -/
def IsTagged (α : Type) [Record α] : Prop := ∀ mode (a : α), Faults EncodeFault.IsTagged (form mode a)

theorem isTagged {α : Type} [Record α] [Declared α]
    (h : ∀ a : α, ∀ x ∈ attributes .create a, Faults TokenFault.IsWordless x.outcome) : IsTagged α :=
  fun _ a fault hfault => EncodeFault.isTagged_of_kind (faults_form (h a) fault hfault)

end Record

/-! ## All faults -/

/-- **The code in the message is the class of the fault.** For token, property and task faults whatever the cause, and
for encode faults wherever they arise: a value of any type under any description has no text, or is unset over a
default, or can be written, as it stands and as an entry of a packed value, and so for packed values and records. -/
theorem messages_open_with_code :
    (∀ fault : TokenFault, fault.kind.Opens fault.message) ∧
      (∀ fault : PropertyFault, fault.kind.Opens fault.message) ∧
      (∀ fault : Task.Fault, fault.kind.Opens fault.message) ∧
      (∀ fault : TokenFault, fault.IsWordless ↔
        (∃ typeName, fault = .noText typeName) ∨ ∃ default, fault = .unsetOverDefault default) ∧
      (∀ {α : Type} [Wire α], ValueType α →
        (∀ d (a : α), Faults TokenFault.IsWordless (Wire.encode d a)) ∧
          ∀ (p : Property α) (a : α), Faults TokenFault.IsWordless (p.outcome a) ∧
            (∀ l : EntryList, Faults TokenFault.IsWordless (l.pushAttribute (p.attribute a))) ∧
            ∀ mode f, Faults EncodeFault.IsTagged (Form.take mode f (.attribute (p.attribute a))).2) ∧
      (∀ {α : Type} [Packed α], ValueType α → ∀ a : α, Faults TokenFault.IsWordless (Packed.toEntries a)) ∧
      (Record.IsTagged Guest.Config ∧ Record.IsTagged Guest.Processor ∧ Record.IsTagged Guest.Memory ∧
        Record.IsTagged Firewall.Rule ∧ Record.IsTagged Availability.Group ∧ Record.IsTagged Cluster.Node ∧
        Record.IsTagged Storage.Definition) := by
  refine ⟨TokenFault.opens, PropertyFault.opens, Task.Fault.opens, fun _ => TokenFault.isWordless_iff, ?_, ?_, ?_⟩
  · intro α _ hα
    have := hα.wordlessWire
    exact ⟨WordlessWire.faults_encode, fun p a => ⟨p.faults_outcome a, fun l => l.faults_pushAttribute p a,
      fun mode f => f.faults_take mode p a⟩⟩
  · intro α _ hα
    have := hα.wordlessWire
    exact Packed.faults_toEntries
  · exact ⟨Record.isTagged Guest.Config.faults_attributes, Record.isTagged Guest.Processor.faults_attributes,
      Record.isTagged Guest.Memory.faults_attributes, Record.isTagged Firewall.Rule.faults_attributes,
      Record.isTagged Availability.Group.faults_attributes, Record.isTagged Cluster.Node.faults_attributes,
      Record.isTagged Storage.Definition.faults_attributes⟩

/-- an infinite limit, and options unset over a default -/
theorem messages_open_with_code_unwritable :
    ∃ (p : Property Double) (q : Property (Option String)) (infinite unset : EncodeFault),
      p = { name := "cpulimit", presence := .default "0", emission := .omitDefault } ∧
      q = { name := "options", presence := .default "vers=3", emission := .omitDefault } ∧
      (Form.take .create .empty (.attribute (p.attribute (.infinite false)))).2 = .error infinite ∧
      infinite.source = .noText "number" ∧ infinite.IsTagged ∧
      (Form.take .update .empty (.attribute (q.attribute none))).2 = .error unset ∧
      unset.source = .unsetOverDefault "vers=3" ∧ unset.IsTagged := by
  obtain ⟨-, -, -, -, hvalues, -⟩ := messages_open_with_code
  refine ⟨_, _, ⟨"cpulimit", .noText "number"⟩, ⟨"options", .unsetOverDefault "vers=3"⟩, rfl, rfl, rfl, rfl, ?_, rfl,
    rfl, ?_⟩
  · obtain ⟨-, houtcome⟩ := hvalues .number
    obtain ⟨-, -, htake⟩ :=
      houtcome { name := "cpulimit", presence := .default "0", emission := .omitDefault } (.infinite false)
    exact htake .create .empty _ rfl
  · obtain ⟨-, houtcome⟩ := hvalues (.option .text)
    obtain ⟨-, -, htake⟩ :=
      houtcome { name := "options", presence := .default "vers=3", emission := .omitDefault } none
    exact htake .update .empty _ rfl

end Hypervisor
