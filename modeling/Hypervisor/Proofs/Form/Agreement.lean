/-
The writer and the reader of a property agree.

The writer decides by the text of a value, or by its being unset; the reader decides by whether the property is there,
and falls back on its default or on the unset value. A value whose text reads back is read back from what a property adds
to a form for it, whatever the emission, the presence and the type, and whatever the form holds of other properties.

Three cases are left. An unset value cannot be written where leaving it out would bring a default back. It says nothing
where a property is sent whenever there is a text. And an option that is set to an unset option has no text either, so
that it reads back unset (`Hollow`); no other type of options has such values. A form that holds a pair of the property
already is set aside (`Unsent`): forms only grow, and the earlier pair would speak for a value that is left out.
-/
import Hypervisor.Guest.Config
import Hypervisor.Proofs.Form.Steps
import Hypervisor.Storage

namespace Hypervisor

open Fallible

/-! ## What a step adds -/

namespace Form

variable {mode : Mode} {f g : Form} {a : Attribute}

theorem take_eq_ok :
    take mode f (.attribute a) = (g, .ok ()) ↔ ∃ o, a.outcome = .ok o ∧ f ++ contribution mode a.name o = g := by
  cases ho : a.outcome with
  | error source => simp [take_fault ho]
  | ok o => simp [take_outcome ho]

theorem take_fails_iff :
    (∃ fault, (take mode f (.attribute a)).2 = .error fault) ↔ ∃ fault, a.outcome = .error fault := by
  cases ho : a.outcome with
  | error source => simp [take_fault ho]
  | ok o => simp [take_outcome ho]

section

variable {name : String} (hf : name ∉ f.pairs.map Prod.fst) (o : Property.Outcome)

include hf

theorem get?_report_eq_none : f.report.get? name = none := by
  rw [report, Report.ofPairs, Table.ofList, Table.get?_foldl_insert_of_not_mem, Table.get?_empty]
  rwa [List.map_map]

/-- a form without a pair of this name: the report of what it becomes is what the outcome makes of nothing -/
theorem get?_report_append : (f ++ contribution mode name o).report.get? name = o.after none := by
  rcases o with text | _ | _
  · rw [report, append_pairs, contribution, Report.ofPairs, List.map_append, List.map_singleton, Table.ofList,
      List.foldl_append, List.foldl_cons, List.foldl_nil, Table.get?_insert, if_pos (beq_self_eq_true name)]
    rfl
  · have hpairs : (f ++ contribution mode name .omit).pairs = f.pairs := by
      cases mode <;> exact List.append_nil f.pairs
    rw [report, hpairs]
    exact get?_report_eq_none hf
  · rw [contribution, append_empty]
    exact get?_report_eq_none hf

/-- a form without a pair of this name: what it becomes does to the property what the outcome does -/
theorem get?_applyTo_append (state : Report) :
    ((f ++ contribution .update name o).applyTo state).get? name = o.after ((f.applyTo state).get? name) := by
  have hpairs : name ∉ (f.pairs.map fun p => (p.1, Value.text p.2)).map Prod.fst := by rwa [List.map_map]
  rcases o with text | _ | _
  · rw [applyTo, append_pairs, contribution, List.map_append, List.map_singleton, List.foldl_append, List.foldl_cons,
      List.foldl_nil, Table.get?_insert, if_pos (beq_self_eq_true name)]
    rfl
  · have hform : f ++ contribution .update name .omit = f.clear name := (clear_eq f name).symm
    rw [hform, applyTo, clear, Table.get?_foldl_insert_of_not_mem hpairs, Table.get?_foldl_erase, if_pos (by simp)]
    rfl
  · rw [contribution, append_empty]
    rfl

end

end Form

namespace Property

/-- a missing property stands for a default token -/
def HasDefault {α : Type} (p : Property α) : Prop := ∃ token, p.presence = .default token

/-- the form holds no pair of the property -/
def Unsent {α : Type} (p : Property α) (f : Form) : Prop := p.name ∉ f.pairs.map Prod.fst

theorem unsent_empty {α : Type} (p : Property α) : p.Unsent Form.empty := List.not_mem_nil

theorem not_hasDefault_of_optional {α : Type} {p : Property α} (hp : p.presence = .optional) : ¬p.HasDefault := by
  rintro ⟨token, htoken⟩
  rw [hp] at htoken
  cases htoken

/-! ## Values and outcomes -/

section Values

variable {α : Type} [Wire α]

/-- the text of the value, if there is one, is read as the value -/
def Rereads (p : Property α) (a : α) : Prop :=
  ∀ w, Wire.encode p.effectiveDialect a = .ok (some w) → Wire.decode p.effectiveDialect (.text w) = .ok a

/-- there is no text for the value, and the property is sent only when there is one -/
def Silent (p : Property α) (a : α) : Prop :=
  p.emission = .always ∧ Wire.encode p.effectiveDialect a = .ok none

/-- what a property adds to a form for the value `a`, and that `b` is read back from it -/
structure Agrees (p : Property α) (f : Form) (a b : α) : Prop where
  /-- only a value that cannot be written fails, and an unset one that would read back as the default -/
  fails_iff : ∀ mode, (∃ fault, (Form.take mode f (.attribute (p.attribute a))).2 = .error fault) ↔
    (∃ fault, Wire.encode p.effectiveDialect a = .error fault) ∨
      p.emission = .omitDefault ∧ p.HasDefault ∧ Wire.encode p.effectiveDialect a = .ok none
  create : ∀ g, Form.take .create f (.attribute (p.attribute a)) = (g, .ok ()) → ¬(p.Silent a ∧ p.HasDefault) →
    p.extract g.report = .ok b
  /-- a value that is passed over reads back as the default -/
  create_silent : ∀ g, Form.take .create f (.attribute (p.attribute a)) = (g, .ok ()) → p.Silent a → p.HasDefault →
    p.extract g.report = p.extract Table.empty
  update : ∀ g, Form.take .update f (.attribute (p.attribute a)) = (g, .ok ()) → ¬p.Silent a →
    ∀ state, p.extract (g.applyTo state) = .ok b
  /-- a value that is passed over adds nothing -/
  update_silent : ∀ g, Form.take .update f (.attribute (p.attribute a)) = (g, .ok ()) → p.Silent a → g = f

variable {p : Property α} {f : Form} {a b : α}

theorem silent_of_skip (he : p.emission ≠ .never) (h : p.outcome a = .ok .skip) : p.Silent a := by
  cases hem : p.emission with
  | never => exact absurd hem he
  | omitDefault => exact absurd h (speaks_of_omitDefault hem a)
  | always =>
    obtain ⟨w, hw, hskip⟩ := (outcome_of_always hem).1 h
    cases w with
    | none => exact ⟨hem, hw⟩
    | some w => cases hskip

theorem skip_of_silent (h : p.Silent a) : p.outcome a = .ok .skip :=
  (outcome_of_always h.1).2 ⟨none, h.2, rfl⟩

/-- what is sent reads back -/
theorem resolve_of_send (ht : p.transform = none) (hc : p.Accepts a) (hr : p.Rereads a) {w : String}
    (h : p.outcome a = .ok (.send w)) : p.resolve (some (.text w)) = .ok a :=
  (resolve_text_plain ht).2 ⟨hr w (encode_of_outcome_send h), hc⟩

/-- the outcomes decide: when each of them reads back, the property agrees with its reader -/
theorem agrees_of_outcomes (he : p.emission ≠ .never) (hf : p.Unsent f)
    (hfails : (∃ fault, p.outcome a = .error fault) ↔
      (∃ fault, Wire.encode p.effectiveDialect a = .error fault) ∨
        p.emission = .omitDefault ∧ p.HasDefault ∧ Wire.encode p.effectiveDialect a = .ok none)
    (hsend : ∀ w, p.outcome a = .ok (.send w) → p.resolve (some (.text w)) = .ok b)
    (homit : p.outcome a = .ok .omit → p.resolve none = .ok b)
    (hskip : p.outcome a = .ok .skip → ¬p.HasDefault → p.resolve none = .ok b) : p.Agrees f a b := by
  -- outside of the silent case the value is read back where there was nothing
  have hread : ∀ o, p.outcome a = .ok o → ¬(p.Silent a ∧ p.HasDefault) → p.resolve (o.after none) = .ok b := by
    intro o ho hspoken
    rcases o with w | _ | _
    · exact hsend w ho
    · exact homit ho
    · exact hskip ho fun hdefault => hspoken ⟨silent_of_skip he ho, hdefault⟩
  have hadded : ∀ mode g, Form.take mode f (.attribute (p.attribute a)) = (g, .ok ()) →
      ∃ o, p.outcome a = .ok o ∧ f ++ Form.contribution mode p.name o = g := fun mode g => Form.take_eq_ok.1
  have hsilent : ∀ mode g, Form.take mode f (.attribute (p.attribute a)) = (g, .ok ()) → p.Silent a → g = f := by
    intro mode g hg hs
    obtain ⟨o, ho, rfl⟩ := hadded mode g hg
    obtain rfl : Outcome.skip = o := Except.ok.inj ((skip_of_silent hs).symm.trans ho)
    exact f.append_empty
  refine ⟨fun mode => ?_, fun g hg hspoken => ?_, fun g hg hs _ => ?_, fun g hg hspoken state => ?_, hsilent .update⟩
  · exact Form.take_fails_iff.trans hfails
  · obtain ⟨o, ho, rfl⟩ := hadded .create g hg
    rw [extract, Form.get?_report_append hf]
    exact hread o ho hspoken
  · obtain rfl := hsilent .create g hg hs
    rw [extract, Form.get?_report_eq_none hf]
    rfl
  · obtain ⟨o, ho, rfl⟩ := hadded .update g hg
    have hspeaks : o ≠ .skip := by
      rintro rfl
      exact hspoken (silent_of_skip he ho)
    rw [extract, Form.get?_applyTo_append hf, Outcome.after_of_ne_skip hspeaks]
    exact hread o ho fun h => hspoken h.1

end Values

/-! ## With a default -/

section Default

variable {α : Type} [Wire α] {p : Property α} {f : Form} {a : α} {token : String}

theorem outcome_fails_of_default (hp : p.presence = .default token) (he : p.emission ≠ .never) :
    (∃ fault, p.outcome a = .error fault) ↔
      (∃ fault, Wire.encode p.effectiveDialect a = .error fault) ∨
        p.emission = .omitDefault ∧ p.HasDefault ∧ Wire.encode p.effectiveDialect a = .ok none := by
  have hdefault : p.HasDefault := ⟨token, hp⟩
  unfold outcome default?
  cases hem : p.emission with
  | never => exact absurd hem he
  | always =>
    cases Wire.encode p.effectiveDialect a with
    | error fault => simp [Except.map]
    | ok w => simp [Except.map]
  | omitDefault =>
    rw [hp]
    cases Wire.encode p.effectiveDialect a with
    | error fault => simp [Except.bind]
    | ok w => cases w <;> simp [Except.bind, hdefault]

theorem agrees_of_default (hp : p.presence = .default token) (ht : p.transform = none) (he : p.emission ≠ .never)
    (hf : p.Unsent f) (hc : p.Accepts a) (hr : p.Rereads a) : p.Agrees f a a := by
  refine agrees_of_outcomes he hf (outcome_fails_of_default hp he) (fun _ hw => resolve_of_send ht hc hr hw) ?_ ?_
  · -- what is left out has the text of the default, which is read in its place
    intro homit
    cases hem : p.emission with
    | never => exact absurd hem he
    | always =>
      obtain ⟨w, -, hw⟩ := (outcome_of_always hem).1 homit
      cases w <;> cases hw
    | omitDefault =>
      obtain ⟨w, hw, hcase⟩ := (outcome_of_default hem hp).1 homit
      split_ifs at hcase with hdefault
      subst hdefault
      exact (resolve_none_plain ht).2 ((missing_of_default hp).2 (hr w hw))
  · exact fun _ hnone => absurd ⟨token, hp⟩ hnone

end Default

/-! ## Without a default -/

section Optional

variable {β : Type} [Wire β] {p : Property (Option β)} {f : Form} {a b : Option β}

/-- the option is set, and there is no text for what it is set to -/
def Hollow (p : Property (Option β)) (a : Option β) : Prop :=
  ∃ x, a = some x ∧ Wire.encode p.effectiveDialect x = .ok none

theorem not_hollow [VoicedWire β] (p : Property (Option β)) (a : Option β) : ¬p.Hollow a := by
  rintro ⟨x, -, hx⟩
  exact VoicedWire.encode_ne_none _ x hx

/-- an option of an option is hollow only where it is set to the unset one -/
theorem hollow_iff [VoicedWire β] (p : Property (Option (Option β))) (a : Option (Option β)) :
    p.Hollow a ↔ a = some none := by
  constructor
  · rintro ⟨x, rfl, hx⟩
    cases x with
    | none => rfl
    | some y => exact absurd hx (VoicedWire.encode_ne_none _ y)
  · rintro rfl
    exact ⟨none, rfl, rfl⟩

theorem rereads_of_hollow (ha : p.Hollow a) : p.Rereads a := by
  intro w hw
  obtain ⟨x, rfl, hx⟩ := ha
  cases hx.symm.trans hw

theorem outcome_fails_of_optional (hp : p.presence = .optional) (he : p.emission ≠ .never) :
    (∃ fault, p.outcome a = .error fault) ↔ ∃ fault, Wire.encode p.effectiveDialect a = .error fault := by
  cases a with
  | none =>
    obtain ⟨o, ho⟩ := exists_outcome_none hp
    refine iff_of_false ?_ nofun
    rintro ⟨fault, hfault⟩
    cases ho.symm.trans hfault
  | some x =>
    rw [outcome_some_eq hp he]
    show _ ↔ ∃ fault, Wire.encode p.effectiveDialect x = .error fault
    cases Wire.encode p.effectiveDialect x with
    | error fault => simp [Except.map]
    | ok w => simp [Except.map]

/-- what is not sent is unset or hollow -/
theorem unset_of_unsent (hp : p.presence = .optional) (he : p.emission ≠ .never) {o : Outcome}
    (ho : p.outcome a = .ok o) (hunsent : ∀ w, o ≠ .send w) : a = none ∨ p.Hollow a := by
  cases a with
  | none => exact .inl rfl
  | some x =>
    rw [outcome_some_eq hp he, map_eq_ok] at ho
    obtain ⟨w, hw, rfl⟩ := ho
    cases w with
    | none => exact .inr ⟨x, rfl, hw⟩
    | some w => exact absurd rfl (hunsent w)

/-- the unset value is read where nothing was sent -/
theorem agrees_of_unsent (hp : p.presence = .optional) (ht : p.transform = none) (he : p.emission ≠ .never)
    (hf : p.Unsent f) (hsend : ∀ w, p.outcome a = .ok (.send w) → p.resolve (some (.text w)) = .ok b)
    (hunsent : a = none ∨ p.Hollow a → b = none) : p.Agrees f a b := by
  have hnone : ∀ o, p.outcome a = .ok o → (∀ w, o ≠ .send w) → p.resolve none = .ok b := fun o ho hother =>
    (resolve_none_of_optional hp ht).2 (hunsent (unset_of_unsent hp he ho hother))
  refine agrees_of_outcomes he hf ?_ hsend (fun homit => hnone .omit homit nofun) fun hskip _ => hnone .skip hskip nofun
  rw [outcome_fails_of_optional hp he]
  constructor
  · exact .inl
  · rintro (h | ⟨-, hdefault, -⟩)
    · exact h
    · exact absurd hdefault (not_hasDefault_of_optional hp)

theorem agrees_of_optional (hp : p.presence = .optional) (ht : p.transform = none) (he : p.emission ≠ .never)
    (hf : p.Unsent f) (hc : p.Accepts a) (hr : p.Rereads a) (ha : ¬p.Hollow a) : p.Agrees f a a :=
  agrees_of_unsent hp ht he hf (fun _ hw => resolve_of_send ht hc hr hw) fun h => h.resolve_right ha

theorem agrees_of_hollow (hp : p.presence = .optional) (ht : p.transform = none) (he : p.emission ≠ .never)
    (hf : p.Unsent f) (ha : p.Hollow a) : p.Agrees f a none := by
  refine agrees_of_unsent hp ht he hf (fun _ hsend => ?_) fun _ => rfl
  obtain ⟨x, rfl, hx⟩ := ha
  cases hx.symm.trans (encode_of_outcome_send hsend)

/-- a hollow value is written without a fault, and is not what is read back -/
theorem not_agrees_of_hollow (hp : p.presence = .optional) (ht : p.transform = none) (he : p.emission ≠ .never)
    (hf : p.Unsent f) (ha : p.Hollow a) : ¬p.Agrees f a a := by
  intro h
  have hlost := agrees_of_hollow hp ht he hf ha
  obtain ⟨x, rfl, hx⟩ := ha
  have hspoken : ¬(p.Silent (some x) ∧ p.HasDefault) := fun hs => not_hasDefault_of_optional hp hs.2
  obtain ⟨o, ho⟩ : ∃ o, p.outcome (some x) = .ok o := ⟨_, (outcome_some_eq hp he x).trans (congrArg _ hx)⟩
  have htaken : Form.take .create f (.attribute (p.attribute (some x))) =
      (f ++ Form.contribution .create p.name o, .ok ()) := Form.take_outcome ho f
  cases (h.create _ htaken hspoken).symm.trans (hlost.create _ htaken hspoken)

end Optional

/-! ## Agreement -/

/-- an option that is set to the unset option is read back unset, and a flag that is switched off stays on in a form
that has sent it already -/
theorem policies_disagree :
    (∃ p : Property (Option (Option Bool)), p = { name := "onboot", presence := .optional, emission := .omitDefault } ∧
      p.Accepts (some none) ∧ p.Rereads (some none) ∧
      Form.take .create Form.empty (.attribute (p.attribute (some none))) = (Form.empty, .ok ()) ∧
      p.extract Form.empty.report = .ok none ∧ ¬p.Agrees Form.empty (some none) (some none)) ∧
    ∃ f : Form, Form.take .update Form.empty (.attribute (Guest.Config.onbootProperty.attribute true)) = (f, .ok ()) ∧
      Guest.Config.onbootProperty.Accepts false ∧ Guest.Config.onbootProperty.Rereads false ∧
      Form.take .update f (.attribute (Guest.Config.onbootProperty.attribute false)) =
        (⟨[("onboot", "1")], ["onboot"]⟩, .ok ()) ∧
      Guest.Config.onbootProperty.extract ((⟨[("onboot", "1")], ["onboot"]⟩ : Form).applyTo Table.empty) = .ok true ∧
      ¬Guest.Config.onbootProperty.Agrees f false false := by
  constructor
  · refine ⟨_, rfl, rfl, rereads_of_hollow ⟨none, rfl, rfl⟩, rfl, rfl, ?_⟩
    exact not_agrees_of_hollow rfl rfl (by decide) (unsent_empty _) ⟨none, rfl, rfl⟩
  · have hrereads : Guest.Config.onbootProperty.Rereads false := by
      intro w hw
      obtain rfl : "0" = w := Option.some.inj (Except.ok.inj hw)
      rfl
    refine ⟨_, rfl, rfl, hrereads, rfl, rfl, fun h => ?_⟩
    cases h.update _ rfl nofun Table.empty

/-- **Emission and presence agree.** Take a property without a transform that may be sent, a form that holds no pair of
it, and a value that passes its check and whose text, if it has one, is read as the value. Whatever the type where there
is a default, and for an option of any type where there is none, what the property adds to the form reads back as the
value, up to the cases of an unset value. The one exception is an option set to something without a text, which reads
back unset; only an option of an option can be. -/
theorem policies_agree :
    (∀ {α : Type} [Wire α] (p : Property α) (f : Form) (a : α) (token : String), p.presence = .default token →
      p.transform = none → p.emission ≠ .never → p.Unsent f → p.Accepts a → p.Rereads a → p.Agrees f a a) ∧
    (∀ {β : Type} [Wire β] (p : Property (Option β)) (f : Form) (a : Option β), p.presence = .optional →
      p.transform = none → p.emission ≠ .never → p.Unsent f → p.Accepts a → p.Rereads a →
        (p.Agrees f a a ↔ ¬p.Hollow a) ∧ (p.Hollow a → p.Agrees f a none)) ∧
    (∀ {β : Type} [Wire β] [VoicedWire β] (p : Property (Option β)) (a : Option β), ¬p.Hollow a) ∧
    ∀ {β : Type} [Wire β] [VoicedWire β] (p : Property (Option (Option β))) (a : Option (Option β)),
      p.Hollow a ↔ a = some none := by
  refine ⟨?_, ?_, not_hollow, hollow_iff⟩
  · intro α _ p f a token hp ht he hf hc hr
    exact agrees_of_default hp ht he hf hc hr
  · intro β _ p f a hp ht he hf hc hr
    refine ⟨⟨fun h ha => not_agrees_of_hollow hp ht he hf ha h, ?_⟩, agrees_of_hollow hp ht he hf⟩
    exact agrees_of_optional hp ht he hf hc hr

/-- a list over the default of its backend, in a form that holds another property; an option with a check; and an option
that is set to the unset one -/
theorem policies_agree_content_and_shares :
    (∃ f : Form, f = ⟨[("storage", "nas")], []⟩ ∧
      (Storage.Definition.contentProperty (.known .nfs)).presence = .default "images" ∧
      (Storage.Definition.contentProperty (.known .nfs)).Unsent f ∧
      (Storage.Definition.contentProperty (.known .nfs)).Accepts [.known .iso, .known .backup] ∧
      (Storage.Definition.contentProperty (.known .nfs)).Rereads [.known .iso, .known .backup] ∧
      (Storage.Definition.contentProperty (.known .nfs)).Agrees f [.known .iso, .known .backup]
        [.known .iso, .known .backup]) ∧
    (Guest.Memory.sharesProperty.presence = .optional ∧
      Guest.Memory.sharesProperty.Unsent Form.empty ∧
      Guest.Memory.sharesProperty.Accepts (some ⟨1000, by decide, by decide⟩) ∧
      Guest.Memory.sharesProperty.Rereads (some ⟨1000, by decide, by decide⟩) ∧
      Guest.Memory.sharesProperty.Agrees Form.empty (some ⟨1000, by decide, by decide⟩)
        (some ⟨1000, by decide, by decide⟩)) ∧
    ∃ p : Property (Option (Option Bool)), p = { name := "onboot", presence := .optional, emission := .omitDefault } ∧
      p.Hollow (some none) ∧ p.Agrees Form.empty (some none) none := by
  have hcontent : (Storage.Definition.contentProperty (.known .nfs)).Rereads [.known .iso, .known .backup] := by
    intro w hw
    obtain rfl : "iso,backup" = w := Option.some.inj (Except.ok.inj hw)
    rfl
  have hshares : Guest.Memory.sharesProperty.Rereads (some ⟨1000, by decide, by decide⟩) := by
    intro w hw
    obtain rfl : "1000" = w := Option.some.inj (Except.ok.inj hw)
    rfl
  have hother : (Storage.Definition.contentProperty (.known .nfs)).Unsent ⟨[("storage", "nas")], []⟩ := by
    show "content" ∉ ["storage"]
    decide
  have haccepts : Guest.Memory.sharesProperty.Accepts (some ⟨1000, by decide, by decide⟩) := rfl
  have hhollow : ({ name := "onboot", presence := .optional, emission := .omitDefault } :
      Property (Option (Option Bool))).Hollow (some none) := ⟨none, rfl, rfl⟩
  obtain ⟨hdefault, hoptional, hvoiced, -⟩ := policies_agree
  refine ⟨⟨_, rfl, rfl, hother, rfl, hcontent, ?_⟩, ⟨rfl, unsent_empty _, haccepts, hshares, ?_⟩, _, rfl, hhollow, ?_⟩
  · exact hdefault _ _ _ "images" rfl rfl (by decide) hother rfl hcontent
  · exact (hoptional _ _ _ rfl rfl (by decide) (unsent_empty _) haccepts hshares).1.2 (hvoiced _ _)
  · refine (hoptional _ _ _ rfl rfl (by decide) (unsent_empty _) ?_ (rereads_of_hollow hhollow)).2 hhollow
    rfl

end Property

end Hypervisor
