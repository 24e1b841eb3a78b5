/-
Values without a text.

A member outside of its vocabulary and a number that is not finite have no text; every other value has one, or need not
be sent. `isWordless` marks such values, from single ones up to the attributes of a form: a form fails at its first
attribute without a text, and the class of the fault is the same for all.
-/
import Hypervisor.Proofs.Cluster.Link
import Hypervisor.Proofs.Guest.CpuModel
import Hypervisor.Proofs.Guest.Disk
import Hypervisor.Proofs.Guest.Nic
import Hypervisor.Availability

namespace Hypervisor

open Fallible

/-! ## Values -/

theorem Double.encode_eq (d : Dialect) (x : Double) :
    Wire.encode d x = if x.isFinite then .ok (some x.toText) else .error (.noText "number") := rfl

namespace Wire

/-- the value cannot be written -/
def isWordless {α : Type} [Wire α] (d : Dialect) (a : α) : Bool := (fault? (encode d a)).isSome

variable {α : Type} [Wire α] {d : Dialect}

theorem isWordless_eq_false {a : α} : isWordless d a = false ↔ ∃ w, encode d a = .ok w := by
  rw [isWordless, Option.isSome_eq_false_iff, Option.isNone_iff_eq_none, fault?_eq_none]

theorem exists_text_iff [VoicedWire α] {a : α} : (∃ w, encode d a = .ok (some w)) ↔ isWordless d a = false := by
  rw [isWordless_eq_false]
  constructor
  · rintro ⟨w, hw⟩
    exact ⟨some w, hw⟩
  · rintro ⟨_ | w, hw⟩
    · exact absurd hw (VoicedWire.encode_ne_none d a)
    · exact ⟨w, hw⟩

theorem isWordless_of_total [TotalWire α] : isWordless (α := α) d = fun _ => false := by
  funext a
  obtain ⟨w, hw⟩ := TotalWire.exists_encode d a
  exact isWordless_eq_false.2 ⟨some w, hw⟩

theorem isWordless_double : isWordless (α := Double) d = fun x => !x.isFinite := by
  funext x
  rw [isWordless, Double.encode_eq]
  cases x.isFinite <;> rfl

theorem isWordless_choice {α : Type} [Vocabulary α] : isWordless (α := Choice α) d = Choice.isUnknown := by
  funext c
  cases c <;> rfl

/-- one item without a text is enough -/
theorem isWordless_list (items : List α) : isWordless d items = items.any (isWordless d) := by
  rw [isWordless, fault?_encode_list, List.isSome_findSome?]
  rfl

theorem isWordless_option : isWordless (α := Option α) d = fun a => a.any (isWordless d) := by
  funext a
  cases a <;> rfl

end Wire

open Wire

/-- what was read can be written, whatever it was read from -/
class RewritableWire (α : Type) [Wire α] : Prop where
  isWordless_decoded : ∀ (d : Dialect) (v : Value) (a : α), Wire.decode d v = .ok a → isWordless d a = false
  isWordless_absent : ∀ (d : Dialect) (a : α), Wire.absent = some a → isWordless d a = false

instance {α : Type} [Vocabulary α] : RewritableWire (Choice α) where
  isWordless_decoded d v c h := by
    cases v with
    | text raw =>
      obtain ⟨a, -, rfl⟩ := Option.map_eq_some_iff.1 (decodeScalar_eq_ok.1 h)
      rfl
    | _ => cases h
  isWordless_absent _ _ h := by cases h

instance {α : Type} [Wire α] [RewritableWire α] : RewritableWire (Option α) where
  isWordless_decoded d v a h := by
    cases a with
    | none => rfl
    | some x =>
      have hx : Wire.decode d v = .ok x := by
        cases v with
        | absent => cases h
        | _ =>
          obtain ⟨y, hy, heq⟩ := map_eq_ok.1 h
          obtain rfl := Option.some.inj heq
          exact hy
      exact RewritableWire.isWordless_decoded d v x hx
  isWordless_absent _ a h := by
    obtain rfl := Option.some.inj h
    rfl

/-- a sequence and the pieces of a text are read alike, item by item -/
theorem Wire.exists_items_of_decode {α : Type} [Wire α] {d : Dialect} {v : Value} {items : List α}
    (h : Wire.decode d v = .ok items) :
    ∃ vs : List Value, vs.mapM (Wire.decode d) = .ok items ∧
      (v = .sequence vs ∨ (∃ raw, v = .text raw) ∧ ∀ v ∈ vs, ∃ piece, v = .text piece) := by
  cases v with
  | sequence vs => exact ⟨vs, h, .inl rfl⟩
  | text raw =>
    change (if raw.toList = [] then Except.ok []
      else (raw.toList.splitOn d.listSeparator).mapM fun piece => Wire.decode d (.text (String.ofList piece))) =
        .ok items at h
    split_ifs at h
    · exact ⟨[], h, .inr ⟨⟨raw, rfl⟩, List.forall_mem_nil _⟩⟩
    · refine ⟨(raw.toList.splitOn d.listSeparator).map fun piece => .text (String.ofList piece), ?_,
        .inr ⟨⟨raw, rfl⟩, List.forall_mem_map.2 fun piece _ => ⟨_, rfl⟩⟩⟩
      rw [List.mapM_map]
      exact h
  | _ => cases h

instance {α : Type} [Wire α] [RewritableWire α] : RewritableWire (List α) where
  isWordless_decoded d v items h := by
    obtain ⟨vs, hvs, -⟩ := exists_items_of_decode h
    rw [isWordless_list, List.any_eq_false]
    intro x hx
    obtain ⟨v, -, hv⟩ := exists_of_mem_right (mapM_eq_ok.1 hvs) hx
    rw [RewritableWire.isWordless_decoded d v x hv]
    decide
  isWordless_absent _ _ h := by cases h

instance : TotalWire Guest.CpuModel := ⟨fun _ c => ⟨_, Packed.encode_eq_ok.2 ⟨_, c.toEntries_eq, rfl⟩⟩⟩

instance : TotalWire Cluster.Link :=
  ⟨fun _ l => ⟨_, Packed.encode_eq_ok.2 ⟨_, Cluster.Link.toEntries_eq_ok.2 ⟨l.writable, rfl⟩, rfl⟩⟩⟩

instance : TotalWire Availability.NodeList := ⟨fun _ _ => ⟨_, rfl⟩⟩

instance {α : Type} [Wire α] [TotalWire α] : TotalWire (List α) where
  exists_encode d items := by
    rw [exists_text_iff, isWordless_list, isWordless_of_total]
    exact List.any_eq_false.2 fun _ _ => Bool.false_ne_true

/-! ## Attributes -/

namespace Attribute

/-- there is nothing that can be done about the attribute -/
def isWordless (a : Attribute) : Bool := (fault? a.outcome).isSome

/-- the names of the attributes without a text, in order -/
def wordless (as : List Attribute) : List String := (as.filter isWordless).map name

theorem isWordless_eq_false {a : Attribute} : a.isWordless = false ↔ ∃ o, a.outcome = .ok o := by
  rw [isWordless, Option.isSome_eq_false_iff, Option.isNone_iff_eq_none, fault?_eq_none]

theorem wordless_cons (a : Attribute) (as : List Attribute) :
    wordless (a :: as) = (if a.isWordless then [a.name] else []) ++ wordless as := by
  unfold wordless
  rw [List.filter_cons]
  split_ifs <;> rfl

theorem wordless_append (as bs : List Attribute) : wordless (as ++ bs) = wordless as ++ wordless bs := by
  unfold wordless
  rw [List.filter_append, List.map_append]

theorem wordless_sublist (as : List Attribute) : (wordless as).Sublist (as.map name) :=
  List.filter_sublist.map name

theorem wordless_eq_nil {as : List Attribute} : wordless as = [] ↔ ∀ a ∈ as, ∃ o, a.outcome = .ok o := by
  unfold wordless
  rw [List.map_eq_nil_iff, List.filter_eq_nil_iff]
  simp only [Bool.not_eq_true, isWordless_eq_false]

end Attribute

/-- the first attribute without a text is the fault -/
theorem Form.fault?_ofAttributes (mode : Mode) (as : List Attribute) :
    fault? (ofAttributes mode as) = as.findSome? fun a => (fault? a.outcome).map (EncodeFault.mk a.name) := by
  induction as with
  | nil => rfl
  | cons a as ih =>
    have hattribute : fault? (ofAttribute mode a) = (fault? a.outcome).map (EncodeFault.mk a.name) := by
      unfold ofAttribute
      split <;> rename_i h <;> rw [h] <;> rfl
    -- what the attribute contributes does not matter for the faults behind it
    have hrest : ∀ f, ofAttribute mode a = .ok f →
        fault? (ofAttributes mode as >>= fun g => (pure (f ++ g) : Except EncodeFault Form)) =
          fault? (ofAttributes mode as) := fun _ _ => fault?_bind_pure
    rw [ofAttributes, fault?_bind hrest, ih, hattribute, List.findSome?_cons]
    cases (fault? a.outcome).map (EncodeFault.mk a.name) <;> rfl

theorem Form.fault_name (mode : Mode) (as : List Attribute) :
    (fault? (ofAttributes mode as)).map EncodeFault.name = (Attribute.wordless as).head? := by
  rw [Form.fault?_ofAttributes]
  induction as with
  | nil => rfl
  | cons a as ih =>
    rw [List.findSome?_cons, Attribute.wordless_cons, Attribute.isWordless]
    cases fault? a.outcome with
    | none => exact ih
    | some source => rfl

namespace Property

section Attributes

variable {α : Type} [Wire α] {p : Property α} {a : α}

theorem isWordless_of_never (he : p.emission = .never) : (p.attribute a).isWordless = false :=
  Attribute.isWordless_eq_false.2 ⟨.skip, outcome_of_never he a⟩

/-- a property that is always sent fails where its value does -/
theorem isWordless_of_always (he : p.emission = .always) :
    (p.attribute a).isWordless = Wire.isWordless p.effectiveDialect a := by
  show (fault? (p.outcome a)).isSome = (fault? (Wire.encode p.effectiveDialect a)).isSome
  unfold outcome
  rw [he]
  cases Wire.encode p.effectiveDialect a <;> rfl

/-- so does one that is left out when it is the default -/
theorem isWordless_of_default [VoicedWire α] (he : p.emission = .omitDefault) (hp : p.default?.isSome) :
    (p.attribute a).isWordless = Wire.isWordless p.effectiveDialect a := by
  obtain ⟨token, htoken⟩ := Option.isSome_iff_exists.1 hp
  show (fault? (p.outcome a)).isSome = (fault? (Wire.encode p.effectiveDialect a)).isSome
  unfold outcome
  rw [he, htoken]
  cases hw : Wire.encode p.effectiveDialect a with
  | error fault => rfl
  | ok w =>
    cases w with
    | none => exact absurd hw (VoicedWire.encode_ne_none _ a)
    | some w => rfl

end Attributes

/-- an unset value need not be written -/
theorem isWordless_of_optional {β : Type} [Wire β] {p : Property (Option β)} {a : Option β}
    (hp : p.presence = .optional) (he : p.emission ≠ .never) :
    (p.attribute a).isWordless = a.any (Wire.isWordless p.effectiveDialect) := by
  cases a with
  | none => exact Attribute.isWordless_eq_false.2 (exists_outcome_none hp)
  | some x =>
    show (fault? (p.outcome (some x))).isSome = (fault? (Wire.encode p.effectiveDialect (some x))).isSome
    unfold outcome default?
    rw [hp]
    cases hem : p.emission with
    | never => exact absurd hem he
    | always => cases Wire.encode p.effectiveDialect (some x) <;> rfl
    | omitDefault => cases Wire.encode p.effectiveDialect (some x) <;> rfl

/-- what is read from a report can be written -/
theorem isWordless_of_extract {α : Type} [Wire α] [RewritableWire α] {p : Property α} (ht : p.transform = none)
    {report : Report} {a : α} (h : p.extract report = .ok a) : Wire.isWordless p.effectiveDialect a = false := by
  have hdecoded : ∀ v, p.decode v = .ok a → Wire.isWordless p.effectiveDialect a = false := fun v hv =>
    RewritableWire.isWordless_decoded _ v a (mapError_decode_eq_ok.1 hv)
  rcases read_plain ht h with hmissing | ⟨v, hv⟩
  · unfold missing at hmissing
    split at hmissing
    · cases hmissing
    · split at hmissing
      · rename_i b habsent
        obtain rfl := Except.ok.inj hmissing
        exact RewritableWire.isWordless_absent _ b habsent
      · cases hmissing
    · exact hdecoded _ hmissing
  · exact RewritableWire.isWordless_decoded _ v a (decodePresent_eq_ok.1 hv).1

end Property

/-! ## Packed values -/

/-- the layout fails where one of its attributes does -/
theorem EntryList.fault?_layOut (positional : List Entry) (as : List Attribute) :
    fault? (layOut positional as) = as.findSome? fun a => fault? a.outcome := by
  have hentries : ∀ a : Attribute, fault? a.entries = fault? a.outcome := by
    intro a
    unfold Attribute.entries
    cases a.outcome <;> rfl
  rw [layOut, fault?_bind_pure, fault?_mapM]
  simp only [hentries]

theorem Wire.isWordless_packed {α : Type} [Packed α] {d : Dialect} (a : α) :
    isWordless d a = (fault? (Packed.toEntries a)).isSome := by
  show (fault? ((Packed.toEntries a).map fun list => some (list.write d))).isSome = _
  cases Packed.toEntries a <;> rfl

namespace Guest

open Property

/-- the model of the card, or its rate, has no text -/
def Nic.isWordless (n : Nic) : Bool := n.model.isUnknown || n.rate.any fun rate => !rate.isFinite

/-- one of the modes of the disk has no text -/
def Disk.isWordless (disk : Disk) : Bool :=
  disk.cache.any Choice.isUnknown || disk.discard.any Choice.isUnknown || disk.media.any Choice.isUnknown ||
    disk.format.any Choice.isUnknown

theorem Nic.wire_isWordless {d : Dialect} : Wire.isWordless (α := Nic) d = Nic.isWordless := by
  funext n
  rw [isWordless_packed]
  show (fault? n.toEntries).isSome = _
  -- of the options only the rate may have no text
  have hoptions : (n.options.findSome? fun a => fault? a.outcome).isSome = n.rate.any fun rate => !rate.isFinite := by
    rw [List.isSome_findSome?]
    change n.options.any Attribute.isWordless = _
    simp (disch := first | rfl | decide) only [options, List.any_cons, List.any_nil, isWordless_of_optional,
      isWordless_of_default, isWordless_of_total, isWordless_double, Option.any_false, Bool.or_false, Bool.false_or]
  unfold toEntries isWordless
  rw [fault?_bind fun model _ => EntryList.fault?_layOut _ n.options, Option.isSome_or, hoptions]
  cases n.model <;> rfl

theorem Disk.wire_isWordless {d : Dialect} : Wire.isWordless (α := Disk) d = Disk.isWordless := by
  funext disk
  rw [isWordless_packed]
  show (fault? (EntryList.layOut [⟨disk.volume, none⟩] disk.options)).isSome = _
  rw [EntryList.fault?_layOut, List.isSome_findSome?]
  change disk.options.any Attribute.isWordless = _
  simp (disch := first | rfl | decide) only [options, List.any_cons, List.any_nil, isWordless_of_optional,
    isWordless_of_default, isWordless_of_total, isWordless_choice, Option.any_false, Bool.or_false, Bool.false_or]
  simp only [isWordless, Bool.or_assoc]

end Guest

/-! ## The class of the fault -/

/-- the fault of a value without a text -/
def TokenFault.IsWordless (fault : TokenFault) : Prop := fault.kind = .unknownVariant

/-- no value of the type fails otherwise than for want of a text -/
class WordlessWire (α : Type) [Wire α] : Prop where
  faults_encode : ∀ (d : Dialect) (a : α), Faults TokenFault.IsWordless (Wire.encode d a)

instance {α : Type} [Wire α] [TotalWire α] : WordlessWire α where
  faults_encode d a := by
    obtain ⟨w, hw⟩ := TotalWire.exists_encode d a
    rw [hw]
    exact Faults.pure

instance : WordlessWire Double where
  faults_encode d x := by
    intro fault h
    rw [Double.encode_eq] at h
    split_ifs at h
    obtain rfl := Except.error.inj h
    rfl

instance {α : Type} [Vocabulary α] : WordlessWire (Choice α) where
  faults_encode d c := by
    intro fault h
    cases c with
    | known a => cases h
    | unknown =>
      obtain rfl := Except.error.inj h
      rfl

instance {α : Type} [Wire α] [WordlessWire α] : WordlessWire (Option α) where
  faults_encode d a := by
    cases a with
    | none => exact Faults.pure
    | some x => exact WordlessWire.faults_encode d x

instance {α : Type} [Wire α] [WordlessWire α] : WordlessWire (List α) where
  faults_encode d _ := (Faults.mapM fun item _ => WordlessWire.faults_encode d item).bind fun _ => Faults.pure

/-- an unset value that would read back as a default is an unknown variant too -/
theorem Property.faults_outcome {α : Type} [Wire α] [WordlessWire α] (p : Property α) (a : α) :
    Faults TokenFault.IsWordless (p.outcome a) := by
  have hencode := WordlessWire.faults_encode p.effectiveDialect a
  unfold outcome
  cases p.emission with
  | never => exact Faults.pure
  | always => exact hencode.map
  | omitDefault =>
    simp only
    split
    · refine hencode.bind fun w => ?_
      cases w with
      | none =>
        intro fault h
        obtain rfl := Except.error.inj h
        rfl
      | some w => exact Faults.pure
    · split_ifs
      · exact Faults.pure
      · exact hencode.map

/-- a packed value fails where one of its attributes does -/
theorem EntryList.faults_layOut {positional : List Entry} {as : List Attribute}
    (h : ∀ a ∈ as, Faults TokenFault.IsWordless a.outcome) :
    Faults TokenFault.IsWordless (layOut positional as) :=
  (Faults.mapM fun a ha => (h a ha).map).bind fun _ => Faults.pure

namespace Guest

open Property

instance : WordlessWire Nic where
  faults_encode d n := by
    have hmodel : Faults TokenFault.IsWordless (Scalar.write n.model) := by
      intro fault h
      cases hm : n.model with
      | known model =>
        rw [hm] at h
        cases h
      | unknown =>
        rw [hm] at h
        obtain rfl := Except.error.inj h
        rfl
    refine Faults.map (hmodel.bind fun model => EntryList.faults_layOut ?_)
    simp [Nic.options, faults_outcome]

instance : WordlessWire Disk where
  faults_encode d disk := by
    refine Faults.map (EntryList.faults_layOut ?_)
    simp [Disk.options, faults_outcome]

end Guest

/-- every fault of a form is an unknown variant -/
theorem Form.faults_ofAttributes {mode : Mode} {as : List Attribute}
    (h : ∀ a ∈ as, Faults TokenFault.IsWordless a.outcome) :
    Faults (fun fault : EncodeFault => fault.kind = .unknownVariant) (ofAttributes mode as) := by
  intro fault hfault
  rw [← fault?_eq_some, fault?_ofAttributes] at hfault
  obtain ⟨a, ha, hname⟩ := List.exists_of_findSome?_eq_some hfault
  obtain ⟨source, hsource, rfl⟩ := Option.map_eq_some_iff.1 hname
  exact h a ha source (fault?_eq_some.1 hsource)

end Hypervisor
