/-
Which firewall rules survive the form that makes them.

A rule that can be sent comes back settled: what the node sets is unset, and the comment has lost the blanks around it
(`readsAs_iff_settled`). So the rules that survive are those that are settled already. Reading settles a comment itself,
and trimming twice is trimming once, so every rule that was read comes back but for what the node sets.
-/
import Mathlib.Data.List.DropRight
import Hypervisor.Proofs.Firewall.Rule
import Hypervisor.Proofs.Property.Wordless

namespace Hypervisor

/-! ## Trimmed texts -/

namespace Text

/-- no blank stands at either end -/
structure Trimmed (s : String) : Prop where
  first : ∀ c ∈ s.toList.head?, isBlank c = false
  last : ∀ c ∈ s.toList.getLast?, isBlank c = false

theorem toList_trim (s : String) : (trim s).toList = (s.toList.dropWhile isBlank).rdropWhile isBlank :=
  String.toList_ofList

theorem trimmed_trim (s : String) : Trimmed (trim s) := by
  refine ⟨fun c hc => ?_, fun c hc => ?_⟩
  · -- what is cut off at the end leaves a prefix, which begins where the cut at the front stopped
    rw [toList_trim] at hc
    obtain ⟨rest, hrest⟩ := List.rdropWhile_prefix isBlank (s.toList.dropWhile isBlank)
    have hfirst : (s.toList.dropWhile isBlank).head? = some c := by
      rw [← hrest, List.head?_append, Option.mem_def.1 hc, Option.some_or]
    have hstop := List.head?_dropWhile_not isBlank s.toList
    rw [hfirst] at hstop
    exact hstop
  · rw [toList_trim] at hc
    have hne : (s.toList.dropWhile isBlank).rdropWhile isBlank ≠ [] := List.ne_nil_of_mem (List.mem_of_getLast? hc)
    have hstop := List.rdropWhile_last_not isBlank (s.toList.dropWhile isBlank) hne
    rw [List.getLast?_eq_some_getLast hne, Option.mem_some_iff] at hc
    rw [hc] at hstop
    exact Bool.eq_false_iff.2 hstop

theorem trim_eq_self_iff {s : String} : trim s = s ↔ Trimmed s := by
  constructor
  · intro h
    rw [← h]
    exact trimmed_trim s
  · intro h
    have hfront : s.toList.dropWhile isBlank = s.toList := by
      refine List.dropWhile_eq_self_iff.2 fun hlength => ?_
      exact Bool.eq_false_iff.1 (h.first _ (List.head?_eq_getElem? ▸ List.getElem?_eq_getElem hlength))
    have hend : s.toList.rdropWhile isBlank = s.toList := by
      refine List.rdropWhile_eq_self_iff.2 fun hne => ?_
      exact Bool.eq_false_iff.1 (h.last _ (List.getLast?_eq_some_getLast hne))
    rw [← String.toList_inj, toList_trim, hfront, hend]

end Text

/-! ## Property by property -/

namespace Firewall.Rule

open Property

/-- each property reads back as that of the other -/
def FieldsRead (r r' : Rule) : Prop :=
  positionProperty.ReadsAs r.position r'.position ∧ kindProperty.ReadsAs r.kind r'.kind ∧
    actionProperty.ReadsAs r.action r'.action ∧ enableProperty.ReadsAs r.enable r'.enable ∧
    macroProperty.ReadsAs r.macroName r'.macroName ∧ sourceProperty.ReadsAs r.source r'.source ∧
    destProperty.ReadsAs r.dest r'.dest ∧ protoProperty.ReadsAs r.proto r'.proto ∧
    dportProperty.ReadsAs r.dport r'.dport ∧ sportProperty.ReadsAs r.sport r'.sport ∧
    ifaceProperty.ReadsAs r.iface r'.iface ∧ logProperty.ReadsAs r.log r'.log ∧
    commentProperty.ReadsAs r.comment r'.comment ∧ ipversionProperty.ReadsAs r.ipversion r'.ipversion ∧
    digestProperty.ReadsAs r.digest r'.digest

theorem FieldsRead.writable {r r' : Rule} (h : r.FieldsRead r') : ∀ a ∈ r.attributes, ∃ o, a.outcome = .ok o := by
  obtain ⟨h₁, h₂, h₃, h₄, h₅, h₆, h₇, h₈, h₉, h₁₀, h₁₁, h₁₂, h₁₃, h₁₄, h₁₅⟩ := h
  simp only [attributes, List.forall_mem_cons]
  exact ⟨h₁.writable, h₂.writable, h₃.writable, h₄.writable, h₅.writable, h₆.writable, h₇.writable, h₈.writable,
    h₉.writable, h₁₀.writable, h₁₁.writable, h₁₂.writable, h₁₃.writable, h₁₄.writable, h₁₅.writable,
    List.forall_mem_nil _⟩

/-- a rule reads back property by property -/
theorem readsAs_iff {r r' : Rule} : Record.ReadsAs r r' ↔ r.FieldsRead r' := by
  refine Record.readsAs_iff_fields FieldsRead.writable fun f hf => ?_
  have hnd := r.attributes_nodup
  have hback {α : Type} [Wire α] {p : Property α} {a b : α} (hp : p.attribute a ∈ r.attributes) :
      p.extract f.report = .ok b ↔ p.ReadsAs a b := Form.extract_report hnd hf hp
  change decode f.report = .ok r' ↔ _
  rw [decode_eq_ok, FieldsRead, hback (a := r.position), hback (a := r.kind), hback (a := r.action),
    hback (a := r.enable), hback (a := r.macroName), hback (a := r.source), hback (a := r.dest), hback (a := r.proto),
    hback (a := r.dport), hback (a := r.sport), hback (a := r.iface), hback (a := r.log), hback (a := r.comment),
    hback (a := r.ipversion), hback (a := r.digest)] <;> simp [attributes]

theorem action_faithful : actionProperty.Faithful := faithful_of_required rfl rfl rfl

theorem enable_faithful : enableProperty.Faithful := faithful_of_default rfl rfl rfl ⟨false, rfl, rfl⟩

theorem action_accepts_iff {action : String} : actionProperty.Accepts action ↔ action ≠ "" := by
  rw [accepts_iff rfl]
  simp

theorem action_readsAs_iff {a b : String} : actionProperty.ReadsAs a b ↔ a ≠ "" ∧ b = a := by
  rw [action_faithful.readsAs_iff, action_accepts_iff]
  have hwritable := exists_outcome_of_total actionProperty a
  exact ⟨fun ⟨hb, _, ha⟩ => ⟨ha, hb⟩, fun ⟨ha, hb⟩ => ⟨hb, hwritable, ha⟩⟩

theorem enable_readsAs_iff {a b : Bool} : enableProperty.ReadsAs a b ↔ b = a := by
  rw [enable_faithful.readsAs_iff]
  exact and_iff_left ⟨exists_outcome_of_total enableProperty a, rfl⟩

theorem text_readsAs_iff {name : String} {a b : Option String} : (textProperty name).ReadsAs a b ↔ b = a :=
  readsAs_of_total_option rfl (by simp [textProperty]) rfl

theorem comment_readsAs_iff {a b : Option String} : commentProperty.ReadsAs a b ↔ b = a.map Text.trim :=
  readsAs_of_total_option rfl (by decide) rfl

/-! ## Settled rules -/

/-- what a rule must be to have a form that can be read -/
structure Sendable (r : Rule) : Prop where
  kind : r.kind ≠ .unknown
  action : r.action ≠ ""
  log : r.log ≠ some .unknown

/-- the rule as it comes back: without what the node sets, and without blanks around its comment -/
def settled (r : Rule) : Rule :=
  { r with position := none, comment := r.comment.map Text.trim, ipversion := none, digest := none }

theorem fieldsRead_iff {r r' : Rule} : r.FieldsRead r' ↔ r.Sendable ∧ r' = r.settled := by
  have hkind : kindProperty.ReadsAs r.kind r'.kind ↔ r.kind ≠ .unknown ∧ r'.kind = r.kind :=
    readsAs_of_choice rfl rfl rfl rfl
  have hlog : logProperty.ReadsAs r.log r'.log ↔ r.log ≠ some .unknown ∧ r'.log = r.log :=
    readsAs_of_optional_choice rfl (by decide) rfl rfl
  have hposition : positionProperty.ReadsAs r.position r'.position ↔ r'.position = none := readsAs_of_unsent rfl rfl rfl
  have hipversion : ipversionProperty.ReadsAs r.ipversion r'.ipversion ↔ r'.ipversion = none :=
    readsAs_of_unsent rfl rfl rfl
  have hdigest : digestProperty.ReadsAs r.digest r'.digest ↔ r'.digest = none := readsAs_of_unsent rfl rfl rfl
  unfold FieldsRead
  simp only [hkind, hlog, hposition, hipversion, hdigest, action_readsAs_iff, enable_readsAs_iff, comment_readsAs_iff,
    macroProperty, sourceProperty, destProperty, protoProperty, dportProperty, sportProperty, ifaceProperty,
    text_readsAs_iff]
  constructor
  · rintro ⟨h₁, ⟨hk, h₂⟩, ⟨ha, h₃⟩, h₄, h₅, h₆, h₇, h₈, h₉, h₁₀, h₁₁, ⟨hl, h₁₂⟩, h₁₃, h₁₄, h₁₅⟩
    refine ⟨⟨hk, ha, hl⟩, ?_⟩
    cases r'
    simp only at h₁ h₂ h₃ h₄ h₅ h₆ h₇ h₈ h₉ h₁₀ h₁₁ h₁₂ h₁₃ h₁₄ h₁₅
    simp [settled, *]
  · rintro ⟨h, rfl⟩
    exact ⟨rfl, ⟨h.kind, rfl⟩, ⟨h.action, rfl⟩, rfl, rfl, rfl, rfl, rfl, rfl, rfl, rfl, ⟨h.log, rfl⟩, rfl, rfl, rfl⟩

/-- a rule that can be sent comes back settled, and no other rule comes back at all -/
theorem readsAs_iff_settled {r r' : Rule} : Record.ReadsAs r r' ↔ r.Sendable ∧ r' = r.settled :=
  readsAs_iff.trans fieldsRead_iff

/-- what a rule must be to come back from its create form -/
structure Lasting (r : Rule) : Prop extends Sendable r where
  comment : ∀ comment ∈ r.comment, Text.Trimmed comment
  /-- the node sets the place of a rule, the version it is for and the fingerprint, so they are never sent -/
  position : r.position = none
  ipversion : r.ipversion = none
  digest : r.digest = none

theorem settled_eq_self_iff {r : Rule} :
    r = r.settled ↔
      (∀ comment ∈ r.comment, Text.Trimmed comment) ∧ r.position = none ∧ r.ipversion = none ∧ r.digest = none := by
  have hcomment : r.comment = r.comment.map Text.trim ↔ ∀ comment ∈ r.comment, Text.Trimmed comment := by
    cases r.comment with
    | none => simp
    | some comment => simp [← Text.trim_eq_self_iff, eq_comm]
  rw [← hcomment]
  cases r
  simp only [settled, mk.injEq, true_and]
  tauto

theorem survives_iff {r : Rule} : Record.Survives r ↔ r.Lasting := by
  rw [Record.survives_iff_readsAs, readsAs_iff_settled, settled_eq_self_iff]
  constructor
  · intro ⟨hsend, hcomment, hposition, hipversion, hdigest⟩
    exact ⟨hsend, hcomment, hposition, hipversion, hdigest⟩
  · intro h
    exact ⟨h.toSendable, h.comment, h.position, h.ipversion, h.digest⟩

/-! ## Rules that were read -/

section Decoded

variable {report : Report} {r : Rule}

/-- what was read can be sent -/
theorem sendable_of_decode (h : decode report = .ok r) : r.Sendable := by
  obtain ⟨-, hkind, haction, -, -, -, -, -, -, -, -, hlog, -, -, -⟩ := decode_eq_ok.1 h
  have hkind : r.kind.isUnknown = false := by
    simpa only [Wire.isWordless_choice] using isWordless_of_extract rfl hkind
  have hlog : r.log.any Choice.isUnknown = false := by
    simpa only [Wire.isWordless_option, Wire.isWordless_choice] using isWordless_of_extract rfl hlog
  refine ⟨?_, action_accepts_iff.1 (action_faithful.accepts _ _ haction), ?_⟩
  · rintro hunknown
    rw [hunknown] at hkind
    cases hkind
  · rintro hunknown
    rw [hunknown] at hlog
    cases hlog

/-- what was read is trimmed -/
theorem trimmed_of_decode (h : decode report = .ok r) : r.comment.map Text.trim = r.comment := by
  obtain ⟨-, -, -, -, -, -, -, -, -, -, -, -, hcomment, -, -⟩ := decode_eq_ok.1 h
  obtain ⟨comment, -, htrim⟩ := read_of_resolve hcomment
  rw [← htrim]
  cases comment with
  | none => rfl
  | some comment => exact congrArg some (Text.trim_eq_self_iff.2 (Text.trimmed_trim comment))

end Decoded

/-- **Rules that survive a create form.** A rule comes back equal from its create form exactly if its direction is known,
its action is not empty, its log level is known where it is set, there are no blanks around its comment, and the place,
the version and the fingerprint, which the node sets, are unset. So every rule that was read, from whatever report,
comes back from its create form but for what the node sets. -/
theorem rules_survive_iff :
    (∀ r : Rule, Record.Survives r ↔ r.Lasting) ∧
      ∀ (report : Report) (r : Rule), Record.decode report = .ok r →
        ∃ f, Record.form .create r = .ok f ∧
          Record.decode f.report = .ok { r with position := none, ipversion := none, digest := none } := by
  refine ⟨fun r => survives_iff, fun report r h => ?_⟩
  have hsettled : { r with position := none, ipversion := none, digest := none } = r.settled := by
    rw [settled, trimmed_of_decode h]
  exact readsAs_iff_settled.2 ⟨sendable_of_decode h, hsettled⟩

/-- a rule whose comment stood between blanks comes back but for its place, and not as it was read -/
theorem rules_survive_iff_blanks :
    ∃ (r : Rule) (f : Form),
      Record.decode (Report.ofPairs [("pos", "0"), ("type", "in"), ("action", "ACCEPT"),
        ("comment", "\u00a0ssh from lan\u2003")]) = .ok r ∧
      r.comment = some "ssh from lan" ∧ Record.form .create r = .ok f ∧
      Record.decode f.report = .ok { r with position := none, ipversion := none, digest := none } ∧
      ¬ Record.Survives r := by
  obtain ⟨hsurvive, hreread⟩ := rules_survive_iff
  obtain ⟨r, hr, hcomment, hposition⟩ :
      ∃ r : Rule,
        Record.decode (Report.ofPairs [("pos", "0"), ("type", "in"), ("action", "ACCEPT"),
          ("comment", "\u00a0ssh from lan\u2003")]) = .ok r ∧
        r.comment = some "ssh from lan" ∧ r.position ≠ none :=
    ⟨_, rfl, rfl, nofun⟩
  obtain ⟨f, hf, hback⟩ := hreread _ r hr
  exact ⟨r, f, hr, hcomment, hf, hback, fun h => hposition ((hsurvive r).1 h).position⟩

end Firewall.Rule

end Hypervisor
