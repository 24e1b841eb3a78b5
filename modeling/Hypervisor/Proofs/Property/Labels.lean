/-
Labels of faults.

A fault passes through up to three layers on its way out: a token is not recognised, which rejects the value of a
property, which may stand inside of a packed property. Whoever reads the fault must find the name of the property with
the token, at every level. A type of values takes part when what it reports from inside of a value is labelled
(`LabelledWire`); the property that the value was given for puts its own name on the rest.
-/
import Hypervisor.Availability
import Hypervisor.Cluster
import Hypervisor.Guest.Config
import Hypervisor.Proofs.Fallible

namespace Hypervisor

open Fallible

mutual

/-- a token that was not recognised carries this name, and a fault from inside of a packed value is labelled -/
def Rejection.LabelledAs (name : String) : Rejection → Prop
  | .token (.unrecognized property _ _) => property = some name
  | .entry fault => fault.Labelled
  | _ => True

/-- at every level, a token that was not recognised carries the name of the property whose value it rejects -/
def PropertyFault.Labelled : PropertyFault → Prop
  | .missing _ => True
  | .invalid name _ reason => reason.LabelledAs name

end

namespace Rejection

/-- a fault from inside of a packed value is labelled -/
def Nested (reason : Rejection) : Prop := ∀ fault, reason = .entry fault → fault.Labelled

theorem nested_entry {fault : PropertyFault} (h : fault.Labelled) : (entry fault).Nested := by
  intro fault' heq
  cases heq
  exact h

/-- the property names the token that rejects its value; all else is labelled already -/
theorem labelledAs_withProperty {reason : Rejection} (h : reason.Nested) (name : String) :
    (reason.withProperty name).LabelledAs name := by
  cases reason with
  | token fault => cases fault <;> simp [withProperty, TokenFault.withProperty, LabelledAs]
  | entry fault => exact h fault rfl
  | _ => trivial

end Rejection

/-- what the type reports from inside of a value is labelled -/
class LabelledWire (α : Type) [Wire α] : Prop where
  nested_decode : ∀ (d : Dialect) (v : Value), Faults Rejection.Nested (Wire.decode (α := α) d v)

/-! ## Scalars -/

section Scalars

variable {α : Type}

/-- a fault that comes from no entry -/
theorem faults_nested_error {reason : Rejection} (h : ∀ fault, reason ≠ .entry fault) :
    Faults Rejection.Nested (.error reason : Except Rejection α) := by
  intro reason' heq fault hentry
  obtain rfl := Except.error.inj heq
  exact absurd hentry (h fault)

theorem faults_nested_ok {a : α} : Faults Rejection.Nested (.ok a) := Faults.pure

theorem faults_nested_token {x : Except TokenFault α} : Faults Rejection.Nested (x.mapError Rejection.token) :=
  Faults.mapError fun _ _ _ h => by cases h

theorem nested_decodeScalar [Scalar α] (v : Value) :
    Faults Rejection.Nested (Wire.decodeScalar v : Except Rejection α) := by
  cases v with
  | text raw => exact faults_nested_token
  | _ => exact faults_nested_error (by simp)

theorem nested_ofDouble (t : IntegerType) (x : Double) : Faults Rejection.Nested (Ranged.ofDouble t x) := by
  unfold Ranged.ofDouble
  split
  · exact faults_nested_error (by simp)
  · split
    · exact faults_nested_error (by simp)
    · exact faults_nested_ok

end Scalars

instance : LabelledWire Bool where
  nested_decode _ v := by
    cases v with
    | number x =>
      show Faults Rejection.Nested (if x.integer? = some 0 then .ok false
        else if x.integer? = some 1 then .ok true else .error .notBoolean)
      split_ifs
      · exact faults_nested_ok
      · exact faults_nested_ok
      · exact faults_nested_error (by simp)
    | _ => exact nested_decodeScalar _

instance : LabelledWire String := ⟨fun _ => nested_decodeScalar⟩

instance (t : IntegerType) : LabelledWire (Ranged t) where
  nested_decode _ v := by
    cases v with
    | number x => exact nested_ofDouble t x
    | _ => exact nested_decodeScalar _

instance : LabelledWire ByteSize where
  nested_decode _ v := by
    cases v with
    | number x => exact (nested_ofDouble .u64 x).map
    | _ => exact nested_decodeScalar _

instance : LabelledWire Double where
  nested_decode _ v := by
    cases v with
    | number x => exact faults_nested_ok
    | text raw =>
      show Faults Rejection.Nested (match (Double.ofText? raw.toList).filter Double.isFinite with
        | some x => .ok x
        | none => .error (.token (.unrecognized none "number" raw)))
      split
      · exact faults_nested_ok
      · exact faults_nested_error (by simp)
    | _ => exact faults_nested_error (by simp)

instance {α : Type} [Vocabulary α] : LabelledWire (Choice α) := ⟨fun _ => nested_decodeScalar⟩

/-! ## Options, lists and packed values -/

instance : LabelledWire EntryList where
  nested_decode _ v := by
    cases v with
    | text raw => exact faults_nested_token
    | _ => exact faults_nested_error (by simp)

instance {α : Type} [Wire α] [LabelledWire α] : LabelledWire (Option α) where
  nested_decode d v := by
    cases v with
    | absent => exact faults_nested_ok
    | _ => exact (LabelledWire.nested_decode (α := α) d _).map

instance {α : Type} [Wire α] [LabelledWire α] : LabelledWire (List α) where
  nested_decode d v := by
    cases v with
    | sequence items => exact Faults.mapM fun item _ => LabelledWire.nested_decode d item
    | text raw =>
      show Faults Rejection.Nested (if raw.toList = [] then .ok []
        else (raw.toList.splitOn d.listSeparator).mapM fun piece => Wire.decode d (.text (String.ofList piece)))
      split_ifs
      · exact faults_nested_ok
      · exact Faults.mapM fun piece _ => LabelledWire.nested_decode d _
    | _ => exact faults_nested_error (by simp)

/-- the faults of a packed record are those of its entries -/
theorem LabelledWire.of_ofEntries {α : Type} [Packed α]
    (h : ∀ list, Faults PropertyFault.Labelled (Packed.ofEntries (α := α) list)) : LabelledWire α where
  nested_decode d v := by
    refine (LabelledWire.nested_decode (α := EntryList) d v).bind fun list => ?_
    exact Faults.mapError fun fault hfault => Rejection.nested_entry (h list fault hfault)

/-! ## Properties -/

namespace Property

variable {α : Type} [Wire α] [LabelledWire α] (p : Property α)

theorem labelled_decode (v : Value) : Faults PropertyFault.Labelled (p.decode v) :=
  Faults.mapError fun reason h =>
    Rejection.labelledAs_withProperty (LabelledWire.nested_decode p.effectiveDialect v reason h) p.name

theorem labelled_missing : Faults PropertyFault.Labelled p.missing := by
  have hmissing : Faults PropertyFault.Labelled (.error (.missing p.name) : Except PropertyFault α) := by
    intro fault h
    obtain rfl := Except.error.inj h
    trivial
  unfold missing
  split
  · exact hmissing
  · split
    · exact Faults.pure
    · exact hmissing
  · exact p.labelled_decode _

theorem labelled_resolve (found : Option Value) : Faults PropertyFault.Labelled (p.resolve found) := by
  have hpresent : ∀ v, Faults PropertyFault.Labelled (p.decodePresent v) := by
    -- a failed check comes with no token
    intro v
    refine (p.labelled_decode v).bind fun a => ?_
    split_ifs
    · exact Faults.pure
    · intro fault h
      obtain rfl := Except.error.inj h
      trivial
  unfold resolve
  split
  · exact p.labelled_missing.bind fun _ => Faults.pure
  · exact p.labelled_missing.bind fun _ => Faults.pure
  · exact (hpresent _).bind fun _ => Faults.pure

theorem labelled_extract (report : Report) : Faults PropertyFault.Labelled (p.extract report) := p.labelled_resolve _

theorem labelled_extractEntry (list : EntryList) : Faults PropertyFault.Labelled (p.extractEntry list) :=
  p.labelled_resolve _

end Property

/-! ## Packed records -/

open Property

/-- a reader that begins with a part, bare in front or under its key -/
theorem labelled_read_part {β : Type} (p : Property String) (list : EntryList) {f : String → Except PropertyFault β}
    (hf : ∀ part, Faults PropertyFault.Labelled (f part)) :
    Faults PropertyFault.Labelled
      (match list.firstBare? with
        | some part => (pure part : Except PropertyFault String) >>= f
        | none => p.extractEntry list >>= f) := by
  cases list.firstBare? with
  | some part => exact Faults.pure.bind hf
  | none => exact (p.labelled_extractEntry list).bind hf

namespace Guest

/-- a faulty list of switches is blamed on its key -/
theorem CpuModel.labelled_flagsOf (list : EntryList) : Faults PropertyFault.Labelled (flagsOf list) := by
  unfold flagsOf
  split
  · exact Faults.mapError fun fault _ => Rejection.labelledAs_withProperty (fun _ h => by cases h) "flags"
  · exact Faults.pure

instance : LabelledWire CpuModel := by
  apply LabelledWire.of_ofEntries
  intro list
  apply labelled_read_part CpuModel.nameProperty list
  intro name
  exact (CpuModel.labelled_flagsOf list).bind fun _ => (labelled_extractEntry _ list).bind fun _ => Faults.pure

instance : LabelledWire Disk := by
  apply LabelledWire.of_ofEntries
  intro list
  apply labelled_read_part Disk.fileProperty list
  intro volume
  iterate 8 refine (labelled_extractEntry _ list).bind fun _ => ?_
  exact Faults.pure

/-- the options of a card, read after model and address -/
theorem Nic.labelled_options (list : EntryList) (model : Choice NicModel) (address : Option String) :
    Faults PropertyFault.Labelled (do
      let bridge ← bridgeProperty.extractEntry list
      let firewall ← firewallProperty.extractEntry list
      let linkDown ← linkDownProperty.extractEntry list
      let tag ← tagProperty.extractEntry list
      let mtu ← mtuProperty.extractEntry list
      let rate ← rateProperty.extractEntry list
      let queues ← queuesProperty.extractEntry list
      pure ({ model, address, bridge, firewall, linkDown, tag, mtu, rate, queues } : Nic)) := by
  iterate 7 refine (labelled_extractEntry _ list).bind fun _ => ?_
  exact Faults.pure

instance : LabelledWire Nic := by
  apply LabelledWire.of_ofEntries
  intro list
  show Faults PropertyFault.Labelled (Nic.ofEntries list)
  unfold Nic.ofEntries
  split
  · exact Nic.labelled_options list _ _
  · refine (labelled_extractEntry _ list).bind fun model => (labelled_extractEntry _ list).bind fun address => ?_
    exact Nic.labelled_options list model address

end Guest

instance : LabelledWire Cluster.Link := by
  apply LabelledWire.of_ofEntries
  intro list
  apply labelled_read_part Cluster.Link.addressProperty list
  intro address
  exact (labelled_extractEntry _ list).bind fun _ => Faults.pure

instance : LabelledWire Availability.NodeList := by
  apply LabelledWire.of_ofEntries
  intro list
  -- a priority that is no number is blamed on the list
  have hmember : ∀ e, Faults PropertyFault.Labelled (Availability.NodeList.memberOf e) := by
    intro e
    unfold Availability.NodeList.memberOf
    split
    · split
      · exact Faults.pure
      · intro fault h
        obtain rfl := Except.error.inj h
        exact Rejection.labelledAs_withProperty (fun _ hentry => by cases hentry) "nodes"
    · exact Faults.pure
  exact (Faults.mapM fun e _ => hmember e).map

end Hypervisor
