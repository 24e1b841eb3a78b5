/-
Values read back from the text that is written for them.

`LawfulWire` holds for the types whose every text reads back: flags, text, numbers, sizes, members of vocabularies, and
options of these. All types but options have a text whenever they can be written (`VoicedWire`), flags, text and whole
numbers always can be (`TotalWire`), and what was read from a text can be (`ClosedWire`). Packed records are not lawful
as such, so `Wire.RoundTrips` singles out the values that do read back, and `Wire.Survives` asks for a value that is
merely equal under `==`.
-/
import Hypervisor.Packed
import Hypervisor.Proofs.Fallible
import Hypervisor.Proofs.Number.RoundTrip
import Hypervisor.Proofs.Number.Whole
import Hypervisor.Proofs.Scalar.RoundTrip

namespace Hypervisor

open Fallible

/-! ## Lawful types -/

/-- every text reads back as the value that it was written for -/
class LawfulWire (α : Type) [Wire α] : Prop where
  decode_encode : ∀ (d : Dialect) (a : α) (w : String), Wire.encode d a = .ok (some w) → Wire.decode d (.text w) = .ok a

/-- what can be written has a text -/
class VoicedWire (α : Type) [Wire α] : Prop where
  encode_ne_none : ∀ (d : Dialect) (a : α), Wire.encode d a ≠ .ok none

/-- every value has a text -/
class TotalWire (α : Type) [Wire α] : Prop where
  exists_encode : ∀ (d : Dialect) (a : α), ∃ w, Wire.encode d a = .ok (some w)

/-- what was read from a text can be written -/
class ClosedWire (α : Type) [Wire α] : Prop where
  exists_encode_of_decode : ∀ (d : Dialect) (raw : String) (a : α), Wire.decode d (.text raw) = .ok a →
    ∃ w, Wire.encode d a = .ok (some w)

/-- texts hold no separator of any dialect -/
class TameWire (α : Type) [Wire α] : Prop where
  tame_encode : ∀ (d : Dialect) (a : α) (w : String), Wire.encode d a = .ok (some w) → Tame w

namespace Wire

variable {α : Type}

theorem encodeScalar_eq_ok [Scalar α] {a : α} {w : Option String} :
    encodeScalar a = .ok w ↔ ∃ raw, Scalar.write a = .ok raw ∧ w = some raw := by
  unfold encodeScalar
  rw [map_eq_ok]
  simp only [eq_comm]

theorem decodeScalar_eq_ok [Scalar α] {a : α} {raw : String} :
    decodeScalar (.text raw) = .ok a ↔ Scalar.read? raw = some a := by
  unfold decodeScalar
  rw [mapError_eq_ok, Scalar.parse_eq_ok]

/-- an option is read like its value, where there is one -/
theorem decode_option_eq_ok [Wire α] {d : Dialect} {v : Value} {a : Option α} (hv : v ≠ .absent) :
    Wire.decode d v = .ok a ↔ ∃ x, Wire.decode d v = .ok x ∧ some x = a := by
  cases v with
  | absent => exact absurd rfl hv
  | _ => exact map_eq_ok

/-- a scalar reads back where its token does -/
theorem decodeScalar_of_encodeScalar [Scalar α] [LawfulScalar α] {a : α} {w : String}
    (h : encodeScalar a = .ok (some w)) : decodeScalar (.text w) = .ok a := by
  obtain ⟨raw, hraw, hw⟩ := encodeScalar_eq_ok.1 h
  obtain rfl := Option.some.inj hw
  exact decodeScalar_eq_ok.2 (LawfulScalar.read?_write a w hraw)

end Wire

open Wire

instance : LawfulWire Bool where
  decode_encode _ _ _ h := decodeScalar_of_encodeScalar h

instance : LawfulWire String where
  decode_encode _ _ _ h := decodeScalar_of_encodeScalar h

instance (t : IntegerType) : LawfulWire (Ranged t) where
  decode_encode _ _ _ h := decodeScalar_of_encodeScalar h

instance : LawfulWire ByteSize where
  decode_encode _ _ _ h := decodeScalar_of_encodeScalar h

instance {α : Type} [Vocabulary α] : LawfulWire (Choice α) where
  decode_encode _ _ _ h := decodeScalar_of_encodeScalar h

/-- a whole number is finite -/
theorem Double.isFinite_of_integer? {x : Double} {n : ℤ} (h : x.integer? = some n) : x.isFinite = true := by
  cases x with
  | nan => cases h
  | infinite negative => cases h
  | finite negative m => rfl

theorem Double.beq_self_of_isFinite {x : Double} (h : x.isFinite = true) : (x == x) = true := by
  cases x with
  | nan => cases h
  | infinite negative => cases h
  | finite negative m =>
    change (m == m && (negative == negative || m.val == 0)) = true
    simp

theorem Double.encode_eq_ok {d : Dialect} {x : Double} {w : Option String} :
    Wire.encode d x = .ok w ↔ x.isFinite = true ∧ w = some x.toText := by
  show (if x.isFinite = true then Except.ok (some x.toText) else .error (TokenFault.noText "number")) = .ok w ↔ _
  split_ifs with h
  · simp [h, eq_comm]
  · simp [h]

/-- a number is read from the texts of finite numbers -/
theorem Double.decode_text_eq_ok {d : Dialect} {raw : String} {x : Double} :
    Wire.decode d (.text raw) = .ok x ↔ Double.ofText? raw.toList = some x ∧ x.isFinite = true := by
  rw [← Option.filter_eq_some_iff]
  cases hread : (Double.ofText? raw.toList).filter Double.isFinite <;> simp [Wire.decode, hread]

instance : LawfulWire Double where
  decode_encode d x w h := by
    obtain ⟨hx, hw⟩ := Double.encode_eq_ok.1 h
    obtain rfl := Option.some.inj hw
    exact Double.decode_text_eq_ok.2 ⟨Double.ofText?_toText x, hx⟩

instance {α : Type} [Wire α] [LawfulWire α] : LawfulWire (Option α) where
  decode_encode d a w h := by
    cases a with
    | none => cases h
    | some a => exact map_eq_ok.2 ⟨a, LawfulWire.decode_encode d a w h, rfl⟩

/-! ## Voiced types -/

theorem encodeScalar_ne_none {α : Type} [Scalar α] (a : α) : encodeScalar a ≠ .ok none := by
  intro h
  obtain ⟨raw, -, hnone⟩ := encodeScalar_eq_ok.1 h
  cases hnone

instance : VoicedWire Bool := ⟨fun _ => encodeScalar_ne_none⟩

instance : VoicedWire String := ⟨fun _ => encodeScalar_ne_none⟩

instance (t : IntegerType) : VoicedWire (Ranged t) := ⟨fun _ => encodeScalar_ne_none⟩

instance : VoicedWire ByteSize := ⟨fun _ => encodeScalar_ne_none⟩

instance {α : Type} [Vocabulary α] : VoicedWire (Choice α) := ⟨fun _ => encodeScalar_ne_none⟩

instance : VoicedWire Double where
  encode_ne_none _ _ h := by cases (Double.encode_eq_ok.1 h).2

instance : VoicedWire EntryList := ⟨fun _ _ h => by cases h⟩

instance {α : Type} [Wire α] : VoicedWire (List α) where
  encode_ne_none _ _ h := by
    obtain ⟨texts, -, hnone⟩ := bind_eq_ok.1 h
    cases hnone

/-- a list cannot be written for the first of its items that cannot -/
theorem Wire.fault?_encode_list {α : Type} [Wire α] (d : Dialect) (items : List α) :
    fault? (Wire.encode d items) = items.findSome? fun a => fault? (Wire.encode d a) :=
  fault?_bind_pure.trans fault?_mapM

instance {α : Type} [Packed α] : VoicedWire α where
  encode_ne_none _ _ h := by
    obtain ⟨list, -, hnone⟩ := map_eq_ok.1 h
    cases hnone

/-! ## Values that can be written -/

instance : TotalWire Bool := ⟨fun _ _ => ⟨_, rfl⟩⟩

instance : TotalWire String := ⟨fun _ _ => ⟨_, rfl⟩⟩

instance (t : IntegerType) : TotalWire (Ranged t) := ⟨fun _ _ => ⟨_, rfl⟩⟩

instance : TotalWire ByteSize := ⟨fun _ _ => ⟨_, rfl⟩⟩

instance {α : Type} [Wire α] [TotalWire α] : ClosedWire α := ⟨fun d _ a _ => TotalWire.exists_encode d a⟩

instance {α : Type} [Vocabulary α] : ClosedWire (Choice α) where
  exists_encode_of_decode d raw c h := by
    obtain ⟨a, -, rfl⟩ := Option.map_eq_some_iff.1 (decodeScalar_eq_ok.1 h)
    exact ⟨_, rfl⟩

instance : ClosedWire Double where
  exists_encode_of_decode _ _ _ h := ⟨_, Double.encode_eq_ok.2 ⟨(Double.decode_text_eq_ok.1 h).2, rfl⟩⟩

/-! ## Tame types -/

theorem tame_of_encodeScalar {α : Type} [Scalar α] {a : α} {w : String} (htame : ∀ raw, Scalar.write a = .ok raw → Tame raw)
    (h : encodeScalar a = .ok (some w)) : Tame w := by
  obtain ⟨raw, hraw, hw⟩ := encodeScalar_eq_ok.1 h
  obtain rfl := Option.some.inj hw
  exact htame w hraw

instance : TameWire Bool where
  tame_encode _ b _ h := tame_of_encodeScalar (fun raw hraw => by
    obtain rfl := Except.ok.inj hraw
    cases b <;> decide) h

instance (t : IntegerType) : TameWire (Ranged t) where
  tame_encode _ n _ h := tame_of_encodeScalar (fun raw hraw => by
    obtain rfl := Except.ok.inj hraw
    exact tame_integerText n.val) h

instance : TameWire ByteSize where
  tame_encode _ s _ h := tame_of_encodeScalar (fun raw hraw => by
    obtain rfl := Except.ok.inj hraw
    exact s.tame_text) h

/-- the texts of a vocabulary are its tokens -/
theorem Choice.encode_eq_ok {α : Type} [Vocabulary α] {d : Dialect} {c : Choice α} {w : String} :
    Wire.encode d c = .ok (some w) ↔ ∃ a, c = .known a ∧ w = Vocabulary.token a := by
  cases c with
  | known a =>
    show encodeScalar (Choice.known a) = _ ↔ _
    rw [encodeScalar_eq_ok]
    simp [Scalar.write, Choice.token?, eq_comm]
  | unknown =>
    show encodeScalar (Choice.unknown : Choice α) = _ ↔ _
    rw [encodeScalar_eq_ok]
    simp [Scalar.write, Choice.token?]

theorem Choice.tameWire {α : Type} [Vocabulary α] (h : ∀ a : α, Tame (Vocabulary.token a)) : TameWire (Choice α) where
  tame_encode _ c w hw := by
    obtain ⟨a, -, rfl⟩ := Choice.encode_eq_ok.1 hw
    exact h a

theorem Double.tame_toText (x : Double) : Tame x.toText := by
  cases x with
  | nan => decide
  | infinite negative => cases negative <;> decide
  | finite negative m =>
    have hmagnitude : ∀ c ∈ magnitudeText m.val, isTame c = true := by
      intro c hc
      unfold magnitudeText at hc
      split_ifs at hc
      · rw [List.mem_singleton.1 hc]; rfl
      · obtain ⟨whole, fraction, hnum, -⟩ := positional_numeral (shortest m.val).1 (shortest m.val).2
        rcases hnum.mem hc with hdigit | rfl
        · exact isTame_of_isDigit hdigit
        · rfl
    intro c hc
    rw [toText, String.toList_ofList] at hc
    rcases List.mem_append.1 hc with hc | hc
    · split_ifs at hc
      · rw [List.mem_singleton.1 hc]; rfl
      · cases hc
    · exact hmagnitude c hc

instance : TameWire Double where
  tame_encode _ x _ h := by
    obtain ⟨-, hw⟩ := Double.encode_eq_ok.1 h
    obtain rfl := Option.some.inj hw
    exact x.tame_toText

instance {α : Type} [Wire α] [TameWire α] : TameWire (Option α) where
  tame_encode d a w h := by
    cases a with
    | none => cases h
    | some a => exact TameWire.tame_encode d a w h

/-! ## Single values -/

namespace Wire

variable {α : Type} [Wire α]

/-- there is a text for the value, and it reads back as the value -/
def RoundTrips (d : Dialect) (a : α) : Prop := ∃ w, encode d a = .ok (some w) ∧ decode d (.text w) = .ok a

/-- there is a text for the value, and it reads back as an equal one -/
def Survives [BEq α] (d : Dialect) (a : α) : Prop :=
  ∃ w b, encode d a = .ok (some w) ∧ decode d (.text w) = .ok b ∧ (b == a) = true

/-- a value has one text at most, so that its text and each of its texts are the same thing -/
theorem exists_encode_and_iff {d : Dialect} {a : α} (h : ∃ w, encode d a = .ok (some w)) {P : String → Prop} :
    (∃ w, encode d a = .ok (some w) ∧ P w) ↔ ∀ w, encode d a = .ok (some w) → P w := by
  obtain ⟨w, hw⟩ := h
  constructor
  · intro ⟨w₁, hw₁, hP⟩ w₂ hw₂
    obtain rfl := Option.some.inj (Except.ok.inj (hw₁.symm.trans hw₂))
    exact hP
  · intro hP
    exact ⟨w, hw, hP w hw⟩

theorem roundTrips_of_total [LawfulWire α] [TotalWire α] (d : Dialect) (a : α) : RoundTrips d a := by
  obtain ⟨w, hw⟩ := TotalWire.exists_encode d a
  exact ⟨w, hw, LawfulWire.decode_encode d a w hw⟩

theorem survives_iff_roundTrips [BEq α] [LawfulBEq α] {d : Dialect} {a : α} : Survives d a ↔ RoundTrips d a := by
  constructor
  · rintro ⟨w, b, hw, hb, heq⟩
    obtain rfl := eq_of_beq heq
    exact ⟨w, hw, hb⟩
  · rintro ⟨w, hw, ha⟩
    exact ⟨w, a, hw, ha, beq_self_eq_true a⟩

end Wire

end Hypervisor
