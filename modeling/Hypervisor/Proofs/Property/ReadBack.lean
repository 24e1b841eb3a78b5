/-
What a node holds after a form, property by property, and what is read back from it.

`Outcome.after` is the effect of one outcome on the value that the node held, `ReadsAs` relates a value to the one that
is read back where the node held nothing. Most properties are `Faithful`: a value that can be written and passes the
check reads back as itself, and no other value reads back at all. Properties of packed records read back as whatever
their text is read as, and a property that belongs to the node reads back unset.
-/
import Hypervisor.Proofs.Wire.RoundTrip

namespace Hypervisor.Property

open Fallible

variable {α : Type}

@[simp] theorem attribute_name [Wire α] (p : Property α) (a : α) : (p.attribute a).name = p.name := rfl

@[simp] theorem attribute_outcome [Wire α] (p : Property α) (a : α) : (p.attribute a).outcome = p.outcome a := rfl

/-! ## Effect of an outcome -/

/-- the value that the node holds afterwards, given what it held -/
def Outcome.after : Outcome → Option Value → Option Value
  | .send text, _ => some (.text text)
  | .omit, _ => none
  | .skip, old => old

@[simp] theorem Outcome.after_send (text : String) (old : Option Value) :
    (Outcome.send text).after old = some (.text text) := rfl

@[simp] theorem Outcome.after_omit (old : Option Value) : Outcome.omit.after old = none := rfl

@[simp] theorem Outcome.after_skip (old : Option Value) : Outcome.skip.after old = old := rfl

theorem Outcome.after_of_ne_skip {o : Outcome} (h : o ≠ .skip) (old : Option Value) : o.after old = o.after none := by
  rcases o with text | _ | _
  · rfl
  · rfl
  · exact absurd rfl h

/-- what is read back as `b` once `a` is sent to a node that holds nothing -/
def ReadsAs [Wire α] (p : Property α) (a b : α) : Prop :=
  ∃ o, p.outcome a = .ok o ∧ p.resolve (o.after none) = .ok b

/-- the value passes the check, if there is one -/
def Accepts (p : Property α) (a : α) : Prop := (p.check.map (· a)).getD true = true

theorem accepts_of_no_check {p : Property α} (h : p.check = none) (a : α) : p.Accepts a := by
  unfold Accepts
  rw [h]; rfl

theorem accepts_iff {p : Property α} {check : α → Bool} (h : p.check = some check) {a : α} :
    p.Accepts a ↔ check a = true := by
  unfold Accepts
  rw [h]; rfl

/-- every value is sent or cleared, none is passed over -/
def Speaks [Wire α] (p : Property α) : Prop := ∀ a, p.outcome a ≠ .ok .skip

/-! ## Reading -/

section Reading

variable [Wire α] {p : Property α}

theorem mapError_decode_eq_ok {v : Value} {a : α} : p.decode v = .ok a ↔ Wire.decode p.effectiveDialect v = .ok a :=
  mapError_eq_ok

theorem decodePresent_eq_ok {v : Value} {a : α} :
    p.decodePresent v = .ok a ↔ Wire.decode p.effectiveDialect v = .ok a ∧ p.Accepts a := by
  unfold decodePresent
  rw [bind_eq_ok]
  constructor
  · rintro ⟨b, hb, hcheck⟩
    split_ifs at hcheck with hc
    obtain rfl := Except.ok.inj hcheck
    exact ⟨mapError_decode_eq_ok.1 hb, hc⟩
  · rintro ⟨ha, hcheck⟩
    exact ⟨a, mapError_decode_eq_ok.2 ha, if_pos hcheck⟩

/-- a value that is present is read, checked and transformed -/
theorem resolve_some_eq_ok {v : Value} (hv : v ≠ .absent) {b : α} :
    p.resolve (some v) = .ok b ↔
      ∃ a, Wire.decode p.effectiveDialect v = .ok a ∧ p.Accepts a ∧ p.transform.getD id a = b := by
  have hpresent : p.resolve (some v) = p.decodePresent v >>= fun a => pure (p.transform.getD id a) := by
    cases v with
    | absent => exact absurd rfl hv
    | _ => rfl
  rw [hpresent]
  simp only [bind_eq_ok, decodePresent_eq_ok, pure_eq_ok, and_assoc]

theorem resolve_text_eq_ok {w : String} {b : α} :
    p.resolve (some (.text w)) = .ok b ↔
      ∃ a, Wire.decode p.effectiveDialect (.text w) = .ok a ∧ p.Accepts a ∧
        p.transform.getD id a = b :=
  resolve_some_eq_ok (v := .text w) nofun

theorem resolve_none_eq_ok {b : α} :
    p.resolve none = .ok b ↔ ∃ a, p.missing = .ok a ∧ p.transform.getD id a = b := by
  show (p.missing >>= fun a => pure (p.transform.getD id a)) = .ok b ↔ _
  simp only [bind_eq_ok, pure_eq_ok]

/-- whatever is read stands for a missing value or was checked -/
theorem read_of_resolve {found : Option Value} {b : α} (h : p.resolve found = .ok b) :
    ∃ a, (p.missing = .ok a ∨ ∃ v, p.decodePresent v = .ok a) ∧ p.transform.getD id a = b := by
  unfold resolve at h
  simp only at h
  split at h
  · obtain ⟨a, ha, hb⟩ := bind_eq_ok.1 h
    exact ⟨a, .inl ha, pure_eq_ok.1 hb⟩
  · obtain ⟨a, ha, hb⟩ := bind_eq_ok.1 h
    exact ⟨a, .inl ha, pure_eq_ok.1 hb⟩
  · obtain ⟨a, ha, hb⟩ := bind_eq_ok.1 h
    exact ⟨a, .inr ⟨_, ha⟩, pure_eq_ok.1 hb⟩

section Plain

variable (ht : p.transform = none)

include ht

/-- without a transform a text is read and checked -/
theorem resolve_text_plain {w : String} {b : α} :
    p.resolve (some (.text w)) = .ok b ↔ Wire.decode p.effectiveDialect (.text w) = .ok b ∧ p.Accepts b := by
  rw [resolve_text_eq_ok, ht]
  constructor
  · rintro ⟨_, hb, hcheck, rfl⟩
    exact ⟨hb, hcheck⟩
  · intro ⟨hb, hcheck⟩
    exact ⟨b, hb, hcheck, rfl⟩

theorem resolve_none_plain {b : α} : p.resolve none = .ok b ↔ p.missing = .ok b := by
  rw [resolve_none_eq_ok, ht]
  simp

theorem read_plain {found : Option Value} {b : α} (h : p.resolve found = .ok b) :
    p.missing = .ok b ∨ ∃ v, p.decodePresent v = .ok b := by
  obtain ⟨a, hread, hb⟩ := read_of_resolve h
  rw [ht] at hb
  obtain rfl : a = b := hb
  exact hread

end Plain

theorem missing_of_default {token : String} (h : p.presence = .default token) {a : α} :
    p.missing = .ok a ↔ Wire.decode p.effectiveDialect (.text token) = .ok a := by
  unfold missing
  rw [h]
  exact mapError_decode_eq_ok

end Reading

theorem missing_of_optional {β : Type} [Wire β] {p : Property (Option β)} (h : p.presence = .optional) :
    p.missing = .ok none := by
  unfold missing
  rw [h]; rfl

/-! ## Writing -/

section Writing

variable [Wire α] {p : Property α}

theorem outcome_of_never (h : p.emission = .never) (a : α) : p.outcome a = .ok .skip := by
  unfold outcome
  rw [h]

theorem outcome_of_always (h : p.emission = .always) {a : α} {o : Outcome} :
    p.outcome a = .ok o ↔ ∃ w, Wire.encode p.effectiveDialect a = .ok w ∧ (w.map Outcome.send).getD .skip = o := by
  unfold outcome
  rw [h]
  exact map_eq_ok

omit [Wire α] in
theorem exists_presence_of_default? (h : p.default?.isSome) : ∃ token, p.presence = .default token := by
  unfold default? at h
  split at h
  · exact ⟨_, ‹_›⟩
  · cases h

/-- where there is a default, its text is left out and any other text is sent -/
theorem outcome_of_default {token : String} (he : p.emission = .omitDefault) (hp : p.presence = .default token) {a : α}
    {o : Outcome} :
    p.outcome a = .ok o ↔
      ∃ w, Wire.encode p.effectiveDialect a = .ok (some w) ∧ (if w = token then Outcome.omit else .send w) = o := by
  unfold outcome default?
  rw [he, hp]
  cases Wire.encode p.effectiveDialect a with
  | error e => simp [Except.bind]
  | ok w => cases w <;> simp [Except.bind]

/-- where there is none, a value that carries nothing is left out -/
theorem outcome_of_no_default (he : p.emission = .omitDefault) (hp : p.default? = none) (a : α) :
    p.outcome a =
      if Wire.isZero a then .ok .omit
      else (Wire.encode p.effectiveDialect a).map fun w => (w.map Outcome.send).getD .omit := by
  unfold outcome
  rw [he, hp]

theorem speaks_of_omitDefault (h : p.emission = .omitDefault) : p.Speaks := by
  intro a ho
  cases hp : p.default? with
  | some token =>
    obtain ⟨token, htoken⟩ := exists_presence_of_default? (Option.isSome_of_eq_some hp)
    obtain ⟨w, -, hw⟩ := (outcome_of_default h htoken).1 ho
    split_ifs at hw
  | none =>
    rw [outcome_of_no_default h hp] at ho
    split_ifs at ho
    · cases ho
    · obtain ⟨w, -, hw⟩ := map_eq_ok.1 ho
      cases w <;> cases hw

theorem speaks_of_always [VoicedWire α] (h : p.emission = .always) : p.Speaks := by
  intro a ho
  obtain ⟨w, hw, hskip⟩ := (outcome_of_always h).1 ho
  cases w with
  | none => exact VoicedWire.encode_ne_none _ a hw
  | some w => cases hskip

end Writing

/-! ## Values that read back -/

section ReadBack

variable [Wire α] {p : Property α} {a b : α}

/-- one text decides: the value reads back as whatever its text is read as, default or not -/
theorem readsAs_of_default {token : String} (he : p.emission = .omitDefault) (hp : p.presence = .default token)
    (ht : p.transform = none) :
    p.ReadsAs a b ↔
      ∃ w, Wire.encode p.effectiveDialect a = .ok (some w) ∧ Wire.decode p.effectiveDialect (.text w) = .ok b ∧
        (p.Accepts b ∨ w = token) := by
  constructor
  · rintro ⟨o, ho, hb⟩
    obtain ⟨w, hw, hcase⟩ := (outcome_of_default he hp).1 ho
    refine ⟨w, hw, ?_⟩
    split_ifs at hcase with hdefault
    · rw [← hcase, Outcome.after_omit, resolve_none_plain ht] at hb
      rw [hdefault]
      exact ⟨(missing_of_default hp).1 hb, .inr rfl⟩
    · rw [← hcase, Outcome.after_send, resolve_text_plain ht] at hb
      exact ⟨hb.1, .inl hb.2⟩
  · rintro ⟨w, hw, hb, hcheck⟩
    refine ⟨_, (outcome_of_default he hp).2 ⟨w, hw, rfl⟩, ?_⟩
    split_ifs with hdefault
    · rw [Outcome.after_omit, resolve_none_plain ht]
      exact (missing_of_default hp).2 (hdefault ▸ hb)
    · rw [Outcome.after_send, resolve_text_plain ht]
      exact ⟨hb, hcheck.resolve_right hdefault⟩

/-- a value with a default, itself or another, comes back exactly if its text does -/
theorem readsAs_self_of_default (hp : p.default?.isSome) (he : p.emission = .omitDefault) (ht : p.transform = none)
    (hc : p.check = none) : p.ReadsAs a a ↔ Wire.RoundTrips p.effectiveDialect a := by
  obtain ⟨token, htoken⟩ := exists_presence_of_default? hp
  rw [readsAs_of_default he htoken ht]
  exact exists_congr fun w => and_congr_right fun _ => and_iff_left (.inl (accepts_of_no_check hc a))

/-- what is always sent is read under the same description -/
theorem readsAs_of_always [VoicedWire α] (he : p.emission = .always) (ht : p.transform = none) :
    p.ReadsAs a b ↔
      ∃ w, Wire.encode p.effectiveDialect a = .ok (some w) ∧ Wire.decode p.effectiveDialect (.text w) = .ok b ∧
        p.Accepts b := by
  constructor
  · rintro ⟨o, ho, hb⟩
    obtain ⟨w, hw, rfl⟩ := (outcome_of_always he).1 ho
    cases w with
    | none => exact absurd hw (VoicedWire.encode_ne_none _ a)
    | some w =>
      exact ⟨w, hw, (resolve_text_plain ht).1 hb⟩
  · rintro ⟨w, hw, hb⟩
    exact ⟨.send w, (outcome_of_always he).2 ⟨some w, hw, rfl⟩, (resolve_text_plain ht).2 hb⟩

/-- a property of the node is never sent, so that it reads back as missing -/
theorem readsAs_of_never (he : p.emission = .never) : p.ReadsAs a b ↔ p.resolve none = .ok b := by
  constructor
  · rintro ⟨o, ho, hb⟩
    obtain rfl := Except.ok.inj ((outcome_of_never he a).symm.trans ho)
    exact hb
  · exact fun hb => ⟨.skip, outcome_of_never he a, hb⟩

end ReadBack

section Optional

variable {β : Type} [Wire β] {p : Property (Option β)} {a b : Option β}

theorem resolve_none_of_optional (hp : p.presence = .optional) (ht : p.transform = none) :
    p.resolve none = .ok b ↔ b = none := by
  rw [resolve_none_plain ht, missing_of_optional hp]
  simp [eq_comm]

/-- what the node sets reads back unset -/
theorem readsAs_of_unsent (he : p.emission = .never) (hp : p.presence = .optional) (ht : p.transform = none) :
    p.ReadsAs a b ↔ b = none := by
  rw [readsAs_of_never he, resolve_none_of_optional hp ht]

/-- a set option is sent, or passed over if there is no text for what it is set to -/
theorem outcome_some_eq (hp : p.presence = .optional) (he : p.emission ≠ .never) (x : β) :
    p.outcome (some x) = (Wire.encode p.effectiveDialect x).map fun text =>
      (text.map Outcome.send).getD (if p.emission = .always then .skip else .omit) := by
  unfold outcome default?
  rw [hp]
  cases hem : p.emission with
  | never => exact absurd hem he
  | always => rfl
  | omitDefault => rfl

/-- a set option is sent whenever it can be written -/
theorem outcome_some [VoicedWire β] (hp : p.presence = .optional) (he : p.emission ≠ .never) {x : β} {o : Outcome} :
    p.outcome (some x) = .ok o ↔ ∃ w, Wire.encode p.effectiveDialect x = .ok (some w) ∧ Outcome.send w = o := by
  rw [outcome_some_eq hp he, map_eq_ok]
  constructor
  · rintro ⟨w, hw, rfl⟩
    cases w with
    | none => exact absurd hw (VoicedWire.encode_ne_none _ x)
    | some w => exact ⟨w, hw, rfl⟩
  · rintro ⟨w, hw, rfl⟩
    exact ⟨some w, hw, rfl⟩

/-- an unset option is not sent -/
theorem outcome_none (hp : p.presence = .optional) {o : Outcome} (ho : p.outcome none = .ok o) : o.after none = none := by
  unfold outcome default? at ho
  rw [hp] at ho
  cases hem : p.emission with
  | never =>
    rw [hem] at ho
    obtain rfl := Except.ok.inj ho
    rfl
  | always =>
    rw [hem] at ho
    obtain rfl := Except.ok.inj ho
    rfl
  | omitDefault =>
    rw [hem] at ho
    obtain rfl := Except.ok.inj ho
    rfl

/-- what is sent for an option is the text of its value -/
theorem outcome_send_iff [VoicedWire β] (hp : p.presence = .optional) (he : p.emission ≠ .never) {w : String} :
    p.outcome a = .ok (.send w) ↔ ∃ x, a = some x ∧ Wire.encode p.effectiveDialect x = .ok (some w) := by
  cases a with
  | none =>
    constructor
    · intro h
      cases outcome_none hp h
    · intro ⟨x, hx, _⟩
      cases hx
  | some x =>
    rw [outcome_some hp he]
    constructor
    · rintro ⟨w', hw, hsend⟩
      obtain rfl := Outcome.send.inj hsend
      exact ⟨x, rfl, hw⟩
    · rintro ⟨x', hx, hw⟩
      obtain rfl := Option.some.inj hx
      exact ⟨w, hw, rfl⟩

theorem exists_outcome_none (hp : p.presence = .optional) : ∃ o, p.outcome none = .ok o := by
  unfold outcome default?
  rw [hp]
  cases p.emission with
  | never => exact ⟨_, rfl⟩
  | always => exact ⟨_, rfl⟩
  | omitDefault => exact ⟨_, rfl⟩

/-- an unset option reads back unset, a set one as what its text is read as -/
theorem readsAs_of_optional [VoicedWire β] (hp : p.presence = .optional) (he : p.emission ≠ .never)
    (ht : p.transform = none) :
    p.ReadsAs a b ↔ (a = none ∧ b = none) ∨
      ∃ x w y, a = some x ∧ b = some y ∧ Wire.encode p.effectiveDialect x = .ok (some w) ∧
        Wire.decode p.effectiveDialect (.text w) = .ok y ∧ p.Accepts (some y) := by
  cases a with
  | none =>
    constructor
    · rintro ⟨o, ho, hb⟩
      rw [outcome_none hp ho] at hb
      exact .inl ⟨rfl, (resolve_none_of_optional hp ht).1 hb⟩
    · rintro (⟨-, rfl⟩ | ⟨x, w, y, h, -⟩)
      · obtain ⟨o, ho⟩ := exists_outcome_none hp
        exact ⟨o, ho, by rw [outcome_none hp ho]; exact (resolve_none_of_optional hp ht).2 rfl⟩
      · cases h
  | some x =>
    constructor
    · rintro ⟨o, ho, hb⟩
      obtain ⟨w, hw, rfl⟩ := (outcome_some hp he).1 ho
      obtain ⟨hdecode, hcheck⟩ := (resolve_text_plain ht).1 hb
      obtain ⟨y, hy, rfl⟩ := map_eq_ok.1 hdecode
      exact .inr ⟨x, w, y, rfl, rfl, hw, hy, hcheck⟩
    · rintro (⟨h, -⟩ | ⟨x', w, y, hx, rfl, hw, hy, hcheck⟩)
      · cases h
      · obtain rfl := Option.some.inj hx
        exact ⟨.send w, (outcome_some hp he).2 ⟨w, hw, rfl⟩,
          (resolve_text_plain ht).2 ⟨map_eq_ok.2 ⟨y, hy, rfl⟩, hcheck⟩⟩

/-- an option without a check comes back exactly if its value does -/
theorem readsAs_self_of_optional [VoicedWire β] (hp : p.presence = .optional) (he : p.emission ≠ .never)
    (ht : p.transform = none) (hc : p.check = none) :
    p.ReadsAs a a ↔ ∀ x ∈ a, Wire.RoundTrips p.effectiveDialect x := by
  rw [readsAs_of_optional hp he ht]
  constructor
  · rintro (⟨rfl, -⟩ | ⟨x, w, y, rfl, hxy, hw, hy, -⟩) x' hx'
    · cases hx'
    · obtain rfl := Option.some.inj hx'
      obtain rfl := Option.some.inj hxy
      exact ⟨w, hw, hy⟩
  · intro h
    cases a with
    | none => exact .inl ⟨rfl, rfl⟩
    | some x =>
      obtain ⟨w, hw, hx⟩ := h x rfl
      exact .inr ⟨x, w, x, rfl, rfl, hw, hx, accepts_of_no_check hc _⟩

end Optional

/-! ## Encoded values -/

section Encoded

variable [Wire α] {p : Property α} {a : α}

/-- what is sent is the text of the value -/
theorem encode_of_outcome_send {text : String} (h : p.outcome a = .ok (.send text)) :
    Wire.encode p.effectiveDialect a = .ok (some text) := by
  have hsent : ∀ {unsent : Outcome}, unsent ≠ .send text →
      (∃ w, Wire.encode p.effectiveDialect a = .ok w ∧ (w.map Outcome.send).getD unsent = .send text) →
        Wire.encode p.effectiveDialect a = .ok (some text) := by
    rintro unsent hunsent ⟨w, hw, hsend⟩
    cases w with
    | none => exact absurd hsend hunsent
    | some w =>
      obtain rfl := Outcome.send.inj hsend
      exact hw
  cases he : p.emission with
  | never =>
    rw [outcome_of_never he] at h
    cases h
  | always => exact hsent (by simp) ((outcome_of_always he).1 h)
  | omitDefault =>
    cases hp : p.default? with
    | some token =>
      obtain ⟨token, htoken⟩ := exists_presence_of_default? (Option.isSome_of_eq_some hp)
      obtain ⟨w, hw, hcase⟩ := (outcome_of_default he htoken).1 h
      split_ifs at hcase
      obtain rfl := Outcome.send.inj hcase
      exact hw
    | none =>
      rw [outcome_of_no_default he hp] at h
      split_ifs at h
      · cases h
      · exact hsent (by simp) (map_eq_ok.1 h)

/-- a value with a text has an outcome -/
theorem exists_outcome_of_encode {w : String} (h : Wire.encode p.effectiveDialect a = .ok (some w)) :
    ∃ o, p.outcome a = .ok o := by
  unfold outcome
  rw [h]
  cases p.emission with
  | never => exact ⟨_, rfl⟩
  | always => exact ⟨_, rfl⟩
  | omitDefault =>
    simp only
    split
    · exact ⟨_, rfl⟩
    · split_ifs
      · exact ⟨_, rfl⟩
      · exact ⟨_, rfl⟩

theorem exists_outcome_of_total [TotalWire α] (p : Property α) (a : α) : ∃ o, p.outcome a = .ok o := by
  obtain ⟨w, hw⟩ := TotalWire.exists_encode p.effectiveDialect a
  exact exists_outcome_of_encode hw

end Encoded

theorem exists_outcome_of_total_option {β : Type} [Wire β] [TotalWire β] {p : Property (Option β)}
    (hp : p.presence = .optional) (a : Option β) : ∃ o, p.outcome a = .ok o := by
  cases a with
  | none => exact exists_outcome_none hp
  | some x =>
    obtain ⟨w, hw⟩ := TotalWire.exists_encode p.effectiveDialect x
    exact exists_outcome_of_encode (a := some x) hw

/-! ## Faithful properties -/

/-- values read back as themselves or not at all, and every value that is read could have been sent -/
structure Faithful [Wire α] (p : Property α) : Prop where
  /-- what can be written and passes the check reads back, and nothing else does -/
  readsAs_iff : ∀ a b, p.ReadsAs a b ↔ b = a ∧ (∃ o, p.outcome a = .ok o) ∧ p.Accepts a
  /-- a value that is sent is not the one that a missing value stands for -/
  resolve_none_ne : ∀ a text, p.outcome a = .ok (.send text) → p.resolve none ≠ .ok a
  /-- what is read passes the check, the default included -/
  accepts : ∀ a found, p.resolve found = .ok a → p.Accepts a
  /-- what is read from a text can be written -/
  writable : ∀ a (raw : Option String), p.resolve (raw.map .text) = .ok a → ∃ o, p.outcome a = .ok o

/-- a property with a default is faithful when the default is the text of a value that passes the check -/
theorem faithful_of_default [Wire α] [LawfulWire α] [ClosedWire α] {p : Property α} {token : String}
    (he : p.emission = .omitDefault) (hp : p.presence = .default token) (ht : p.transform = none)
    (hdefault : ∃ a, Wire.encode p.effectiveDialect a = .ok (some token) ∧ p.Accepts a) : p.Faithful := by
  obtain ⟨a₀, hencode, hcheck⟩ := hdefault
  have hdecode := LawfulWire.decode_encode _ a₀ token hencode
  have hmissing : ∀ a, p.missing = .ok a → a = a₀ := fun a ha =>
    Except.ok.inj (((missing_of_default hp).1 ha).symm.trans hdecode)
  refine ⟨fun a b => ?_, fun a text hsend hnone => ?_, fun a found h => ?_, fun a raw h => ?_⟩
  · rw [readsAs_of_default he hp ht]
    constructor
    · intro ⟨w, hw, hb, hpass⟩
      have ha := LawfulWire.decode_encode _ a w hw
      obtain rfl : a = b := Except.ok.inj (ha.symm.trans hb)
      refine ⟨rfl, exists_outcome_of_encode hw, hpass.elim id fun hw => ?_⟩
      rw [hw, hdecode] at ha
      obtain rfl := Except.ok.inj ha
      exact hcheck
    · rintro ⟨rfl, ⟨o, ho⟩, hpass⟩
      obtain ⟨w, hw, -⟩ := (outcome_of_default he hp).1 ho
      exact ⟨w, hw, LawfulWire.decode_encode _ b w hw, .inl hpass⟩
  · obtain ⟨w, hw, hcase⟩ := (outcome_of_default he hp).1 hsend
    rw [hmissing a ((resolve_none_plain ht).1 hnone), hencode] at hw
    rw [if_pos (Option.some.inj (Except.ok.inj hw)).symm] at hcase
    cases hcase
  · rcases read_plain ht h with hnone | ⟨v, hv⟩
    · rw [hmissing a hnone]
      exact hcheck
    · exact (decodePresent_eq_ok.1 hv).2
  · cases raw with
    | none =>
      rw [hmissing a ((resolve_none_plain ht).1 h)]
      exact exists_outcome_of_encode hencode
    | some raw =>
      obtain ⟨w, hw⟩ := ClosedWire.exists_encode_of_decode _ raw a ((resolve_text_plain ht).1 h).1
      exact exists_outcome_of_encode hw

theorem faithful_of_optional {β : Type} [Wire β] [VoicedWire β] [LawfulWire β] [ClosedWire β] {p : Property (Option β)}
    (he : p.emission ≠ .never) (hp : p.presence = .optional) (ht : p.transform = none) (hnone : p.Accepts none) :
    p.Faithful := by
  refine ⟨fun a b => ?_, fun a text hsend h => ?_, fun a found h => ?_, fun a raw h => ?_⟩
  · rw [readsAs_of_optional hp he ht]
    constructor
    · rintro (⟨rfl, rfl⟩ | ⟨x, w, y, rfl, rfl, hw, hy, hcheck⟩)
      · exact ⟨rfl, exists_outcome_none hp, hnone⟩
      · obtain rfl : x = y := Except.ok.inj ((LawfulWire.decode_encode _ x w hw).symm.trans hy)
        exact ⟨rfl, exists_outcome_of_encode (a := some x) hw, hcheck⟩
    · rintro ⟨rfl, ⟨o, ho⟩, hcheck⟩
      cases b with
      | none => exact .inl ⟨rfl, rfl⟩
      | some x =>
        obtain ⟨w, hw, -⟩ := (outcome_some hp he).1 ho
        exact .inr ⟨x, w, x, rfl, rfl, hw, LawfulWire.decode_encode _ x w hw, hcheck⟩
  · obtain rfl := (resolve_none_of_optional hp ht).1 h
    have hafter := outcome_none hp hsend
    cases hafter
  · rcases read_plain ht h with hmissing | ⟨v, hv⟩
    · rw [missing_of_optional hp] at hmissing
      obtain rfl := Except.ok.inj hmissing
      exact hnone
    · exact (decodePresent_eq_ok.1 hv).2
  · cases a with
    | none => exact exists_outcome_none hp
    | some x =>
      cases raw with
      | none => cases (resolve_none_of_optional hp ht).1 h
      | some raw =>
        obtain ⟨y, hy, hyx⟩ := map_eq_ok.1 ((resolve_text_plain ht).1 h).1
        obtain rfl := Option.some.inj hyx
        obtain ⟨w, hw⟩ := ClosedWire.exists_encode_of_decode _ raw y hy
        exact exists_outcome_of_encode (a := some y) hw

theorem faithful_of_required [Wire α] [VoicedWire α] [LawfulWire α] [ClosedWire α] {p : Property α}
    (he : p.emission = .always) (hp : p.presence = .required) (ht : p.transform = none) : p.Faithful := by
  have hmissing : ∀ a, p.missing ≠ .ok a := by
    intro a ha
    unfold missing at ha
    rw [hp] at ha
    cases ha
  refine ⟨fun a b => ?_, fun a text hsend hnone => ?_, fun a found h => ?_, fun a raw h => ?_⟩
  · rw [readsAs_of_always he ht]
    constructor
    · intro ⟨w, hw, hb, hcheck⟩
      obtain rfl : a = b := Except.ok.inj ((LawfulWire.decode_encode _ a w hw).symm.trans hb)
      exact ⟨rfl, exists_outcome_of_encode hw, hcheck⟩
    · rintro ⟨rfl, ⟨o, ho⟩, hcheck⟩
      obtain ⟨w, hw, -⟩ := (outcome_of_always he).1 ho
      cases w with
      | none => exact absurd hw (VoicedWire.encode_ne_none _ b)
      | some w => exact ⟨w, hw, LawfulWire.decode_encode _ b w hw, hcheck⟩
  · exact hmissing a ((resolve_none_plain ht).1 hnone)
  · rcases read_plain ht h with hnone | ⟨v, hv⟩
    · exact absurd hnone (hmissing a)
    · exact (decodePresent_eq_ok.1 hv).2
  · cases raw with
    | none => exact absurd ((resolve_none_plain ht).1 h) (hmissing a)
    | some raw =>
      obtain ⟨w, hw⟩ := ClosedWire.exists_encode_of_decode _ raw a ((resolve_text_plain ht).1 h).1
      exact exists_outcome_of_encode hw

/-! ## Options and members -/

/-- an option whose values can all be written reads back as what the transform makes of it -/
theorem readsAs_of_total_option {β : Type} [Wire β] [VoicedWire β] [LawfulWire β] [TotalWire β] {p : Property (Option β)}
    (hp : p.presence = .optional) (he : p.emission ≠ .never) (hc : p.check = none) {a b : Option β} :
    p.ReadsAs a b ↔ b = p.transform.getD id a := by
  have hread : ∃ o, p.outcome a = .ok o ∧ ∀ b, p.resolve (o.after none) = .ok b ↔ p.transform.getD id a = b := by
    cases a with
    | none =>
      obtain ⟨o, ho⟩ := exists_outcome_none hp
      refine ⟨o, ho, fun b => ?_⟩
      rw [outcome_none hp ho, resolve_none_eq_ok, missing_of_optional hp]
      simp
    | some x =>
      obtain ⟨w, hw⟩ := TotalWire.exists_encode p.effectiveDialect x
      refine ⟨.send w, (outcome_some hp he).2 ⟨w, hw, rfl⟩, fun b => ?_⟩
      rw [Outcome.after_send, resolve_text_eq_ok, LawfulWire.decode_encode _ (some x) w hw]
      simp [accepts_of_no_check hc]
  obtain ⟨o, ho, hread⟩ := hread
  constructor
  · rintro ⟨o', ho', hb⟩
    obtain rfl := Except.ok.inj (ho.symm.trans ho')
    exact ((hread b).1 hb).symm
  · intro hb
    exact ⟨o, ho, (hread b).2 hb.symm⟩

/-- a choice that is always sent reads back where it is a member -/
theorem readsAs_of_choice {α : Type} [Vocabulary α] {p : Property (Choice α)} (he : p.emission = .always)
    (hp : p.presence = .required) (ht : p.transform = none) (hc : p.check = none) {a b : Choice α} :
    p.ReadsAs a b ↔ a ≠ .unknown ∧ b = a := by
  have hfaithful : p.Faithful := faithful_of_required he hp ht
  have hmember : (∃ o, p.outcome a = .ok o) ↔ a ≠ .unknown := by
    simp only [outcome_of_always he]
    cases a <;> simp [Wire.encode, Wire.encodeScalar, Scalar.write, Choice.token?, Except.map]
  rw [hfaithful.readsAs_iff, hmember, and_iff_left (accepts_of_no_check hc a), and_comm]

/-- an optional choice reads back unless it is set and no member -/
theorem readsAs_of_optional_choice {α : Type} [Vocabulary α] {p : Property (Option (Choice α))}
    (hp : p.presence = .optional) (he : p.emission ≠ .never) (ht : p.transform = none) (hc : p.check = none)
    {a b : Option (Choice α)} : p.ReadsAs a b ↔ a ≠ some .unknown ∧ b = a := by
  have hfaithful : p.Faithful := faithful_of_optional he hp ht (accepts_of_no_check hc none)
  have hmember : (∃ o, p.outcome a = .ok o) ↔ a ≠ some .unknown := by
    rcases a with _ | member | _
    · simp [exists_outcome_none hp]
    · simp [outcome_some hp he, Choice.encode_eq_ok]
    · simp [outcome_some hp he, Choice.encode_eq_ok]
  rw [hfaithful.readsAs_iff, hmember, and_iff_left (accepts_of_no_check hc a), and_comm]

end Hypervisor.Property
