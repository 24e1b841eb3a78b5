/-
Families of properties, one for each key, whose values are kept in a map: devices in their slots, links by number.

A member that is set is sent, one that is not set is passed over, so that after an update the map holds the new members
over the old ones.
-/
import Hypervisor.Proofs.Packed.Layout
import Hypervisor.Proofs.Record.RoundTrip

namespace Hypervisor

open Fallible Property

variable {α : Type} [Wire α]

/-- the property of a member: it may be unset, is sent when it is set, and is read as it is -/
structure Property.IsMember (p : Property (Option α)) : Prop where
  presence : p.presence = .optional
  emission : p.emission = .always
  check : p.check = none
  transform : p.transform = none
  dialect : p.dialect = none

namespace Property.IsMember

variable {p : Property (Option α)} (hp : p.IsMember)

include hp

theorem effectiveDialect_eq : p.effectiveDialect = Wire.dialect α := by
  unfold effectiveDialect
  rw [hp.dialect]; rfl

omit [Wire α] in
theorem emission_ne : p.emission ≠ .never := by
  rw [hp.emission]
  decide

theorem readsAs_self_iff [VoicedWire α] {a : Option α} :
    p.ReadsAs a a ↔ ∀ x ∈ a, Wire.RoundTrips (Wire.dialect α) x := by
  rw [readsAs_self_of_optional hp.presence hp.emission_ne hp.transform hp.check, hp.effectiveDialect_eq]

theorem outcome_none_eq : p.outcome none = .ok .skip :=
  (outcome_of_always hp.emission).2 ⟨none, rfl, rfl⟩

theorem outcome_some_ne [VoicedWire α] (x : α) : p.outcome (some x) ≠ .ok .skip := by
  intro h
  obtain ⟨w, -, hw⟩ := (outcome_some hp.presence hp.emission_ne).1 h
  cases hw

end Property.IsMember

/-! ## Maps of members -/

section Members

variable {κ : Type} [Ord κ] [Std.TransOrd κ] [Std.LawfulEqOrd κ] [BEq κ] [LawfulBEq κ]

/-- the map of the members that a report has at these keys -/
def MembersOf (family : κ → Property (Option α)) (keys : List κ) (report : Report) (members : Table κ α) : Prop :=
  (∀ k ∈ keys, (family k).extract report = .ok (members.get? k)) ∧ ∀ k, members.get? k ≠ none → k ∈ keys

/-- each member reads back as that of the other map, which has none at other keys -/
def MembersRead (family : κ → Property (Option α)) (keys : List κ) (members members' : Table κ α) : Prop :=
  (∀ k ∈ keys, (family k).ReadsAs (members.get? k) (members'.get? k)) ∧ ∀ k, members'.get? k ≠ none → k ∈ keys

variable {family : κ → Property (Option α)} {keys : List κ} {members members' old : Table κ α} {as : List Attribute}
  {f : Form} {state : Report}

omit [Std.TransOrd κ] [Std.LawfulEqOrd κ] [LawfulBEq κ] in
theorem MembersRead.writable (h : MembersRead family keys members members') :
    ∀ a ∈ keys.map fun k => (family k).attribute (members.get? k), ∃ o, a.outcome = .ok o := by
  intro a ha
  obtain ⟨k, hk, rfl⟩ := List.mem_map.1 ha
  exact (h.1 k hk).writable

omit [Std.TransOrd κ] [Std.LawfulEqOrd κ] [LawfulBEq κ] in
theorem membersOf_report_iff (hnd : (as.map Attribute.name).Nodup) (hf : Form.ofAttributes .create as = .ok f)
    (hmem : ∀ k ∈ keys, (family k).attribute (members.get? k) ∈ as) :
    MembersOf family keys f.report members' ↔ MembersRead family keys members members' :=
  and_congr_left fun _ => forall₂_congr fun k hk => Form.extract_report hnd hf (hmem k hk)

omit [Std.TransOrd κ] [Std.LawfulEqOrd κ] [LawfulBEq κ] in
theorem membersRead_self_iff [VoicedWire α] (hfamily : ∀ k, (family k).IsMember) :
    MembersRead family keys members members ↔
      (∀ k, members.get? k ≠ none → k ∈ keys) ∧
        ∀ k x, members.get? k = some x → Wire.RoundTrips (Wire.dialect α) x := by
  constructor
  · intro ⟨hread, hkeys⟩
    refine ⟨hkeys, fun k x hx => ?_⟩
    have hk := hkeys k (by rw [hx]; simp)
    exact (hfamily k).readsAs_self_iff.1 (hread k hk) x hx
  · intro ⟨hkeys, hread⟩
    exact ⟨fun k _ => (hfamily k).readsAs_self_iff.2 (hread k), hkeys⟩

omit [Std.TransOrd κ] [Std.LawfulEqOrd κ] [LawfulBEq κ] in
theorem members_writable (hfamily : ∀ k, (family k).IsMember)
    (h : ∀ k x, members.get? k = some x → ∃ w, Wire.encode (Wire.dialect α) x = .ok (some w)) :
    ∀ a ∈ keys.map fun k => (family k).attribute (members.get? k), ∃ o, a.outcome = .ok o := by
  intro a ha
  obtain ⟨k, -, rfl⟩ := List.mem_map.1 ha
  cases hget : members.get? k with
  | none => exact exists_outcome_none (hfamily k).presence
  | some x =>
    obtain ⟨w, hw⟩ := h k x hget
    rw [← (hfamily k).effectiveDialect_eq] at hw
    exact exists_outcome_of_encode (a := some x) hw

omit [Std.TransOrd κ] [Std.LawfulEqOrd κ] [LawfulBEq κ] in
/-- the pairs of members are their texts -/
theorem forall_member_pairs_iff [VoicedWire α] (hfamily : ∀ k, (family k).IsMember)
    (hnd : (as.map Attribute.name).Nodup) {mode : Mode} (hf : Form.ofAttributes mode as = .ok f)
    (hmem : ∀ k ∈ keys, (family k).attribute (members.get? k) ∈ as) (hkeys : ∀ k, members.get? k ≠ none → k ∈ keys)
    {P : String → Prop} :
    (∀ k ∈ keys, ∀ text, ((family k).name, text) ∈ f.pairs → P text) ↔
      ∀ k x, members.get? k = some x → ∀ w, Wire.encode (Wire.dialect α) x = .ok (some w) → P w := by
  have hpairs : ∀ k ∈ keys, (∀ text, ((family k).name, text) ∈ f.pairs → P text) ↔
      ∀ x ∈ members.get? k, ∀ w, Wire.encode (Wire.dialect α) x = .ok (some w) → P w := by
    intro k hk
    rw [Form.forall_pairs_iff hnd hf (hmem k hk) (hfamily k).presence (hfamily k).emission_ne,
      (hfamily k).effectiveDialect_eq]
  constructor
  · intro h k x hx
    have hk := hkeys k (by rw [hx]; simp)
    exact (hpairs k hk).1 (h k hk) x hx
  · intro h k hk
    exact (hpairs k hk).2 (h k)

/-- members that come back equal come back the same, where equal texts of one member mean the same member -/
theorem MembersRead.eq_of_beq [BEq α] [VoicedWire α] (hfamily : ∀ k, (family k).IsMember)
    (hexact : ∀ (x y : α) (w : String), Wire.encode (Wire.dialect α) x = .ok (some w) →
      Wire.decode (Wire.dialect α) (.text w) = .ok y → (y == x) = true → y = x)
    (h : MembersRead family keys members members') (heq : (members' == members) = true) : members' = members := by
  obtain ⟨hread, hkeys⟩ := h
  refine Table.ext fun k => ?_
  have hk := Table.get?_beq heq k
  cases hget' : members'.get? k with
  | none =>
    rw [hget'] at hk
    cases hget : members.get? k with
    | none => rfl
    | some x => rw [hget] at hk; cases hk
  | some y =>
    have hmem := hkeys k (by rw [hget']; simp)
    have hmember := hread k hmem
    rw [hget'] at hmember hk
    rcases (readsAs_of_optional (hfamily k).presence (hfamily k).emission_ne (hfamily k).transform).1 hmember with
      ⟨-, h0⟩ | ⟨x, w, y', hx, hy', hw, hy, -⟩
    · cases h0
    · obtain rfl := Option.some.inj hy'
      rw [(hfamily k).effectiveDialect_eq] at hw hy
      rw [hx] at hk ⊢
      exact congrArg some (hexact x y w hw hy hk)

/-- **Members after an update**: the new ones over the old ones. -/
theorem membersOf_applyTo [VoicedWire α] (hfamily : ∀ k, (family k).IsMember) (hnd : (as.map Attribute.name).Nodup)
    (hf : Form.ofAttributes .update as = .ok f) (hmem : ∀ k ∈ keys, (family k).attribute (members.get? k) ∈ as)
    (hown : MembersRead family keys members members) (hold : MembersOf family keys state old) :
    MembersOf family keys (f.applyTo state) (Table.overlay members old) := by
  constructor
  · intro k hk
    rw [Table.get?_overlay]
    have hattribute := hmem k hk
    cases hget : members.get? k with
    | none =>
      rw [hget] at hattribute
      rw [Option.none_or, Form.extract_applyTo_of_skip hnd hf state hattribute (hfamily k).outcome_none_eq]
      exact hold.1 k hk
    | some x =>
      have hself := hown.1 k hk
      rw [hget] at hattribute hself
      exact Form.extract_applyTo hnd hf state hattribute ((hfamily k).outcome_some_ne x) hself
  · intro k hk
    rw [Table.get?_overlay] at hk
    cases hget : members.get? k with
    | none =>
      rw [hget, Option.none_or] at hk
      exact hold.2 k hk
    | some x => exact hown.2 k (by rw [hget]; simp)

end Members

/-- packed members are read from texts -/
theorem MembersOf.exists_text {κ β : Type} [Ord κ] [BEq κ] [Packed β] {family : κ → Property (Option β)}
    (hfamily : ∀ k, (family k).IsMember) {keys : List κ} {report : Report} {members : Table κ β}
    (h : MembersOf family keys report members) {k : κ} {x : β} (hx : members.get? k = some x) :
    ∃ raw, Wire.decode (Wire.dialect β) (.text raw) = .ok x := by
  have hread := h.1 k (h.2 k (by rw [hx]; simp))
  rw [hx] at hread
  rw [← (hfamily k).effectiveDialect_eq]
  exact Packed.exists_text_of_resolve (hfamily k).presence (hfamily k).transform hread

end Hypervisor
