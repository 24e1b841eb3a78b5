/-
What was read can be written, over all the types that values of properties have.

Reading takes a value from a number, a text or a sequence, and each way in has to keep out what has no text. They all do
but one: a number is taken for a number as it stands, also where it is not finite, while the text of such a number is
refused. So a value that was read can be written exactly if every number that it was read from is finite
(`Value.isFinite`), and otherwise the fault is that of a number (`decoded_writable_iff_finite`).

The types are a closed family, `ValueType`; the proof is by induction on how the type is put together, with one lemma
for each type that is not.
-/
import Hypervisor.Proofs.Property.Wordless

namespace Hypervisor

open Fallible

/-! ## Finite values -/

namespace Value

mutual

/-- every number in the value is finite -/
def isFinite : Value → Bool
  | number x => x.isFinite
  | sequence items => isFiniteItems items
  | text _ => true
  | absent => true

def isFiniteItems : List Value → Bool
  | [] => true
  | v :: rest => isFinite v && isFiniteItems rest

end

theorem isFinite_sequence (items : List Value) : (sequence items).isFinite = items.all isFinite := by
  show isFiniteItems items = _
  induction items with
  | nil => rfl
  | cons v rest ih => rw [isFiniteItems, ih, List.all_cons]

end Value

/-! ## Types of values -/

/-- the types that values of properties have -/
inductive ValueType : (α : Type) → [Wire α] → Prop
  | flag : ValueType Bool
  | text : ValueType String
  | integer (t : IntegerType) : ValueType (Ranged t)
  | size : ValueType ByteSize
  | number : ValueType Double
  | choice {α : Type} [Vocabulary α] : ValueType (Choice α)
  | entries : ValueType EntryList
  | disk : ValueType Guest.Disk
  | card : ValueType Guest.Nic
  | processor : ValueType Guest.CpuModel
  | nodes : ValueType Availability.NodeList
  | link : ValueType Cluster.Link
  | option {α : Type} [Wire α] : ValueType α → ValueType (Option α)
  | list {α : Type} [Wire α] : ValueType α → ValueType (List α)

/-- what was read is written again, or lacks a text for a number that is not finite -/
def Wire.Rewrites (α : Type) [Wire α] : Prop :=
  ∀ (d : Dialect) (v : Value) (a : α), Wire.decode d v = .ok a →
    fault? (Wire.encode d a) = if v.isFinite then none else some (.noText "number")

namespace Wire.Rewrites

/-- a type that reads from finite values only, and none but what it can write -/
theorem of_finite {α : Type} [Wire α]
    (h : ∀ (d : Dialect) (v : Value) (a : α), Wire.decode d v = .ok a →
      v.isFinite = true ∧ ∃ w, Wire.encode d a = .ok w) : Rewrites α := by
  intro d v a ha
  obtain ⟨hfinite, hwrite⟩ := h d v a ha
  rw [hfinite, fault?_eq_none.2 hwrite]
  rfl

/-! ## Scalars -/

theorem flag : Rewrites Bool := by
  refine of_finite fun d v b h => ⟨?_, _, rfl⟩
  cases v with
  | text raw => rfl
  | number x =>
    change (if x.integer? = some 0 then Except.ok false else if x.integer? = some 1 then .ok true
      else .error Rejection.notBoolean) = .ok b at h
    split_ifs at h with hzero hone
    · exact Double.isFinite_of_integer? hzero
    · exact Double.isFinite_of_integer? hone
  | _ => cases h

theorem text : Rewrites String := by
  refine of_finite fun d v s h => ⟨?_, _, rfl⟩
  cases v with
  | text raw => rfl
  | _ => cases h

theorem integer (t : IntegerType) : Rewrites (Ranged t) := by
  refine of_finite fun d v n h => ⟨?_, _, rfl⟩
  cases v with
  | text raw => rfl
  | number x => exact Double.isFinite_of_integer? (Ranged.ofDouble_eq_ok.1 h)
  | _ => cases h

theorem size : Rewrites ByteSize := by
  refine of_finite fun d v s h => ⟨?_, _, rfl⟩
  cases v with
  | text raw => rfl
  | number x =>
    obtain ⟨n, hn, -⟩ := map_eq_ok.1 h
    exact Double.isFinite_of_integer? (Ranged.ofDouble_eq_ok.1 hn)
  | _ => cases h

/-- the one type with a way in that is not guarded -/
theorem number : Rewrites Double := by
  intro d v x h
  rw [Double.encode_eq]
  cases v with
  | text raw =>
    rw [(Double.decode_text_eq_ok.1 h).2]
    rfl
  | number y =>
    obtain rfl := Except.ok.inj h
    show fault? _ = if y.isFinite then none else _
    cases y.isFinite <;> rfl
  | _ => cases h

theorem choice {α : Type} [Vocabulary α] : Rewrites (Choice α) := by
  refine of_finite fun d v c h => ⟨?_, Wire.isWordless_eq_false.1 (RewritableWire.isWordless_decoded d v c h)⟩
  cases v with
  | text raw => rfl
  | _ => cases h

theorem entries : Rewrites EntryList := by
  refine of_finite fun d v l h => ⟨?_, _, rfl⟩
  cases v with
  | text raw => rfl
  | _ => cases h

/-! ## Packed values -/

/-- packed values are read from texts -/
theorem packed {α : Type} [Packed α]
    (h : ∀ (l : EntryList) (a : α), Packed.ofEntries l = .ok a → ∃ l', Packed.toEntries a = .ok l') : Rewrites α := by
  refine of_finite fun d v a ha => ?_
  obtain ⟨raw, rfl⟩ := Packed.exists_text_of_decode ha
  obtain ⟨l, -, hl⟩ := Packed.decode_text_eq_ok.1 ha
  obtain ⟨l', hl'⟩ := h l a hl
  exact ⟨rfl, _, Packed.encode_eq_ok.2 ⟨l', hl', rfl⟩⟩

theorem disk : Rewrites Guest.Disk :=
  packed fun _ _ h => ⟨_, Guest.Disk.toEntries_eq_ok.2 ⟨Guest.Disk.writable_of_ofEntries h, rfl⟩⟩

/-- the model is known and the rate finite -/
theorem card : Rewrites Guest.Nic := by
  refine packed fun l n h => ?_
  obtain ⟨hlead, -, -, -, -, -, hrate, -⟩ := Guest.Nic.ofEntries_eq_ok.1 h
  obtain ⟨m, hm⟩ := hlead.exists_model
  have hfinite := Guest.Nic.rate_writable_iff.1 (Guest.Nic.rate_faithful.writable _ _ hrate)
  exact ⟨_, Guest.Nic.toEntries_eq_ok.2 ⟨m, hm, Guest.Nic.writable_iff.2 hfinite, rfl⟩⟩

theorem processor : Rewrites Guest.CpuModel := packed fun _ c _ => ⟨_, c.toEntries_eq⟩

theorem nodes : Rewrites Availability.NodeList := packed fun _ _ _ => ⟨_, rfl⟩

theorem link : Rewrites Cluster.Link :=
  packed fun _ l _ => ⟨_, Cluster.Link.toEntries_eq_ok.2 ⟨l.writable, rfl⟩⟩

/-! ## Options and lists -/

theorem option {α : Type} [Wire α] (ih : Rewrites α) : Rewrites (Option α) := by
  intro d v a h
  by_cases hv : v = .absent
  · subst hv
    obtain rfl := Except.ok.inj h
    rfl
  · obtain ⟨x, hx, rfl⟩ := (decode_option_eq_ok hv).1 h
    exact ih d v x hx

/-- the first item without a text was read from the first value that is not finite -/
theorem items {α : Type} [Wire α] (ih : Rewrites α) {d : Dialect} {vs : List Value} {as : List α}
    (h : List.Forall₂ (fun v a => Wire.decode d v = .ok a) vs as) :
    (as.findSome? fun a => fault? (Wire.encode d a)) =
      if vs.all Value.isFinite then none else some (.noText "number") := by
  induction h with
  | nil => rfl
  | @cons v a vs as ha _ hrest =>
    rw [List.findSome?_cons, ih d v a ha, List.all_cons, hrest]
    cases v.isFinite <;> rfl

theorem list {α : Type} [Wire α] (ih : Rewrites α) : Rewrites (List α) := by
  intro d v as h
  obtain ⟨vs, hvs, hshape⟩ := Wire.exists_items_of_decode h
  rw [Wire.fault?_encode_list, ih.items (mapM_eq_ok.1 hvs)]
  rcases hshape with rfl | ⟨⟨raw, rfl⟩, htexts⟩
  · rw [Value.isFinite_sequence]
  · have hfinite : vs.all Value.isFinite = true := by
      refine List.all_eq_true.2 fun v hv => ?_
      obtain ⟨piece, rfl⟩ := htexts v hv
      rfl
    rw [hfinite]
    rfl

end Wire.Rewrites

theorem ValueType.rewrites {α : Type} [Wire α] (h : ValueType α) : Wire.Rewrites α := by
  induction h with
  | flag => exact .flag
  | text => exact .text
  | integer t => exact .integer t
  | size => exact .size
  | number => exact .number
  | choice => exact .choice
  | entries => exact .entries
  | disk => exact .disk
  | card => exact .card
  | processor => exact .processor
  | nodes => exact .nodes
  | link => exact .link
  | option _ ih => exact ih.option
  | list _ ih => exact ih.list

/-- **What was read can be written, but for numbers that are not finite.** -/
theorem decoded_writable_iff_finite {α : Type} [Wire α] (hα : ValueType α) {d : Dialect} {v : Value} {a : α}
    (h : Wire.decode d v = .ok a) :
    ((∃ w, Wire.encode d a = .ok w) ↔ v.isFinite = true) ∧
      (v.isFinite = false → Wire.encode d a = .error (.noText "number")) := by
  have hfault := hα.rewrites d v a h
  constructor
  · rw [← fault?_eq_none, hfault]
    cases v.isFinite <;> simp
  · intro hfinite
    rw [hfinite] at hfault
    exact fault?_eq_some.1 hfault

/-- infinity is read from a number, and then there is no text to send -/
theorem decoded_infinity_not_writable :
    Wire.decode .propertyString (.number (.infinite false)) = .ok (Double.infinite false) ∧
      Wire.encode .propertyString (Double.infinite false) = .error (.noText "number") :=
  ⟨rfl, (decoded_writable_iff_finite .number (d := .propertyString) (v := .number (.infinite false)) rfl).2 rfl⟩

end Hypervisor
