/-
Storages against the defaults of their backend.

A form decides on texts: it leaves a value out where its text is the token of the default. That this comes to comparing
values rests on two facts. Texts that read back are injective, so at most one such value is left out (`eq_of_omit`); and
the tokens of every backend are the texts of what they are read as, so the default is one of them (`content_default`).
The list of nodes needs no default of its own to be told from: the only lists with an empty text are the empty one and
that of one nameless node.
-/
import Hypervisor.Proofs.Record.Wordless
import Hypervisor.Proofs.Storage.Lasting

namespace Hypervisor

open Fallible

/-! ## Values that are left out -/

namespace Property

variable {α : Type} [Wire α] {p : Property α} {a b : α}

theorem omit_iff_encode {token : String} (he : p.emission = .omitDefault) (hp : p.presence = .default token) :
    p.outcome a = .ok .omit ↔ Wire.encode p.effectiveDialect a = .ok (some token) := by
  rw [outcome_of_default he hp]
  constructor
  · rintro ⟨w, hw, hcase⟩
    split_ifs at hcase with hdefault
    exact hdefault ▸ hw
  · exact fun h => ⟨token, h, if_pos rfl⟩

/-- of the values that read back, at most one is left out -/
theorem eq_of_omit (he : p.emission = .omitDefault) (hp : p.default?.isSome)
    (ha : Wire.RoundTrips p.effectiveDialect a) (hb : Wire.RoundTrips p.effectiveDialect b)
    (hoa : p.outcome a = .ok .omit) (hob : p.outcome b = .ok .omit) : a = b := by
  obtain ⟨token, htoken⟩ := exists_presence_of_default? hp
  rw [omit_iff_encode he htoken] at hoa hob
  obtain ⟨wa, hwa, ha⟩ := ha
  obtain ⟨wb, hwb, hb⟩ := hb
  have htext : wa = wb :=
    Option.some.inj (Except.ok.inj (hwa.symm.trans (hoa.trans (hob.symm.trans hwb))))
  exact Except.ok.inj (ha.symm.trans (htext ▸ hb))

end Property

/-- the create form and the update form leave this value out if it is the default, and else both send it -/
structure Form.LeavesOut {α : Type} [Wire α] (g f : Form) (key : String) (a default : α) : Prop where
  create : key ∉ g.pairs.map Prod.fst ↔ a = default
  update : key ∈ f.delete ↔ a = default
  sent : a ≠ default →
    ∃ text, Wire.encode .propertyString a = .ok (some text) ∧ (key, text) ∈ g.pairs ∧ (key, text) ∈ f.pairs

namespace Record

variable {ρ : Type} [Record ρ] [Declared ρ] {r : ρ} {g f : Form} {α : Type} [Wire α] {p : Property α} {a default : α}

/-- what a property makes of its value is what both forms make of it -/
theorem leavesOut {key : String} (hg : form .create r = .ok g) (hf : form .update r = .ok f)
    (hp : p.attribute a ∈ attributes .update r) (hname : p.name = key) (he : p.emission = .omitDefault)
    (hd : p.effectiveDialect = .propertyString) (homit : p.outcome a = .ok .omit ↔ a = default) :
    g.LeavesOut f key a default := by
  subst hname
  have hp' := (Declared.mode_sublist .update r).subset hp
  have hnd := Declared.attributes_nodup .create r
  have hpair : ∀ {text}, (p.name, text) ∈ g.pairs ↔ p.outcome a = .ok (.send text) :=
    Form.mem_pairs_attribute hnd hg hp'
  have hdelete : p.name ∈ f.delete ↔ p.outcome a = .ok .omit := by
    rw [Form.mem_delete_ofAttributes hf]
    constructor
    · rintro ⟨-, x, hx, hxname, hx'⟩
      obtain rfl : x = p.attribute a := List.inj_on_of_nodup_map (Declared.attributes_nodup .update r) hx hp hxname
      exact hx'
    · exact fun h => ⟨rfl, _, hp, rfl, h⟩
  have hkey : p.name ∈ g.pairs.map Prod.fst ↔ ∃ text, p.outcome a = .ok (.send text) := by
    rw [List.mem_map]
    constructor
    · rintro ⟨⟨_, text⟩, hmem, rfl⟩
      exact ⟨text, hpair.1 hmem⟩
    · exact fun ⟨text, h⟩ => ⟨_, hpair.2 h, rfl⟩
  obtain ⟨o, ho⟩ := Form.exists_ofAttributes.1 ⟨f, hf⟩ _ hp
  change p.outcome a = .ok o at ho
  -- an outcome is one of the two, since a property with a default is never passed over
  have hsend : p.outcome a ≠ .ok .omit → ∃ text, p.outcome a = .ok (.send text) := by
    intro h
    rcases o with text | _ | _
    · exact ⟨text, ho⟩
    · exact absurd ho h
    · exact absurd ho (Property.speaks_of_omitDefault he a)
  refine ⟨?_, hdelete.trans homit, fun hne => ?_⟩
  · rw [← homit, hkey]
    refine ⟨fun h => by_contra fun hno => h (hsend hno), ?_⟩
    rintro h ⟨text, hs⟩
    cases h.symm.trans hs
  · obtain ⟨text, hs⟩ := hsend fun h => hne (homit.1 h)
    exact ⟨text, hd ▸ Property.encode_of_outcome_send hs, hpair.2 hs,
      (Form.mem_pairs_attribute (Declared.attributes_nodup .update r) hf hp).2 hs⟩

end Record

namespace Storage.Definition

open Property

/-! ## Storages of a kind -/

theorem properId_of_ofKind {id : String} {kind : Choice Kind} {d : Definition} (h : ofKind id kind = .ok d) :
    ProperId id ∧ kind ≠ .unknown := by
  have hget := Form.get?_report (f := ⟨[("storage", id), ("type", kind.token?.getD "")], []⟩)
    (show ["storage", "type"].Nodup by decide)
  obtain ⟨hid, hkind, -⟩ := decode_eq_ok.1 h
  constructor
  · have hfound : idProperty.resolve (some (.text id)) = .ok d.id := (congrArg _ (hget "storage")).symm.trans hid
    obtain ⟨hdecode, haccepts⟩ := (resolve_text_plain rfl).1 hfound
    obtain rfl : id = d.id := Except.ok.inj hdecode
    exact validId_iff.1 ((accepts_iff rfl).1 haccepts)
  · rintro rfl
    have hfound : kindProperty.resolve (some (.text "")) = .ok d.kind := (congrArg _ (hget "type")).symm.trans hkind
    cases hfound

/-- a storage can be made of a proper id and a known kind, and then it is the plain one -/
theorem ofKind_eq_ok {id : String} {kind : Choice Kind} {d : Definition} :
    ofKind id kind = .ok d ↔ ProperId id ∧ ∃ k, kind = .known k ∧ d = plain id k := by
  constructor
  · intro h
    obtain ⟨hid, hkind⟩ := properId_of_ofKind h
    cases kind with
    | unknown => exact absurd rfl hkind
    | known k => exact ⟨hid, k, rfl, Except.ok.inj (h.symm.trans (ofKind_plain hid k))⟩
  · rintro ⟨hid, k, rfl, rfl⟩
    exact ofKind_plain hid k

theorem exists_ofKind_iff {id : String} {kind : Choice Kind} :
    (∃ d, ofKind id kind = .ok d) ↔ ProperId id ∧ kind ≠ .unknown := by
  constructor
  · exact fun ⟨d, h⟩ => properId_of_ofKind h
  · rintro ⟨hid, hkind⟩
    cases kind with
    | unknown => exact absurd rfl hkind
    | known k => exact ⟨_, ofKind_plain hid k⟩

/-! ## Property by property -/

/-- the token of every backend is the text of the contents that it stands for -/
theorem content_default (id : String) (kind : Kind) :
    (contentProperty (.known kind)).outcome (plain id kind).content = .ok .omit := by
  cases kind <;> rfl

theorem shared_default (id : String) (kind : Kind) :
    (sharedProperty (.known kind)).outcome (plain id kind).shared = .ok .omit := by
  cases kind <;> rfl

theorem sparse_default (kind : Kind) : (sparseProperty (.known kind)).outcome false = .ok .omit := by
  cases kind <;> rfl

theorem content_omit_iff (id : String) {kind : Kind} {content : List (Choice Content)} (h : .unknown ∉ content) :
    (contentProperty (.known kind)).outcome content = .ok .omit ↔ content = (plain id kind).content := by
  have hdialect : (contentProperty (.known kind)).effectiveDialect = .propertyString :=
    defaults.apply_effectiveDialect _ _
  have hreads : ∀ {content : List (Choice Content)}, .unknown ∉ content →
      Wire.RoundTrips (contentProperty (.known kind)).effectiveDialect content := fun h => by
    rw [hdialect]
    exact content_roundTrips_iff.2 h
  constructor
  · exact fun homit => eq_of_omit (defaults.apply_emission _ _) (defaults.apply_default? _ _ rfl) (hreads h)
      (hreads (by cases kind <;> simp [plain])) homit (content_default id kind)
  · rintro rfl
    exact content_default id kind

theorem flag_omit_iff {p : Property Bool} (he : p.emission = .omitDefault) (hp : p.default?.isSome) {b default : Bool}
    (h : p.outcome default = .ok .omit) : p.outcome b = .ok .omit ↔ b = default := by
  constructor
  · exact fun homit => eq_of_omit he hp (Wire.roundTrips_of_total _ b) (Wire.roundTrips_of_total _ default) homit h
  · rintro rfl
    exact h

/-- a nameless node has the text of no nodes -/
theorem nodes_omit_iff {nodes : List String} (h : nodes ≠ [""]) :
    nodesProperty.outcome nodes = .ok .omit ↔ nodes = [] := by
  have hdefault : nodesProperty.presence = .default "" := rfl
  rw [omit_iff_encode rfl hdefault, encode_list_empty]
  refine or_iff_left ?_
  rintro ⟨name, rfl, hname⟩
  obtain rfl : name = "" := Option.some.inj (Except.ok.inj hname)
  exact h rfl

theorem text_omit_iff (name : String) {a : Option String} : (textProperty name).outcome a = .ok .omit ↔ a = none := by
  cases a with
  | none => exact iff_of_true rfl rfl
  | some text => exact iff_of_false (fun h => by cases h) (Option.some_ne_none text)

/-! ## Forms -/

theorem exists_form {s : Definition} (hkind : s.kind ≠ .unknown) (hcontent : .unknown ∉ s.content) (mode : Mode) :
    ∃ f, Record.form mode s = .ok f := by
  refine Form.exists_ofAttributes.2 (Attribute.wordless_eq_nil.1 ?_)
  have hknown : s.kind.isUnknown = false := by
    cases h : s.kind with
    | known => rfl
    | unknown => exact absurd h hkind
  have hcontents : s.content.any Choice.isUnknown = false := by
    rw [List.any_eq_false]
    intro c hc
    cases c with
    | known => exact Bool.false_ne_true
    | unknown => exact absurd hc hcontent
  show Attribute.wordless (s.attributes mode) = []
  rw [wordless_attributes, wordless, hknown, hcontents]
  simp

/-- property by property, the forms leave out what the storage has in common with another -/
structure LeavesOut (s d : Definition) (g f : Form) : Prop where
  content : g.LeavesOut f "content" s.content d.content
  shared : g.LeavesOut f "shared" s.shared d.shared
  disable : g.LeavesOut f "disable" s.disable d.disable
  nodes : g.LeavesOut f "nodes" s.nodes d.nodes
  path : g.LeavesOut f "path" s.path d.path
  server : g.LeavesOut f "server" s.server d.server
  exportPath : g.LeavesOut f "export" s.exportPath d.exportPath
  options : g.LeavesOut f "options" s.options d.options
  vgname : g.LeavesOut f "vgname" s.vgname d.vgname
  thinpool : g.LeavesOut f "thinpool" s.thinpool d.thinpool
  pool : g.LeavesOut f "pool" s.pool d.pool
  sparse : g.LeavesOut f "sparse" s.sparse d.sparse

theorem leavesOut_plain {s : Definition} {g f : Form} {kind : Kind} (hkind : s.kind = .known kind)
    (hcontent : .unknown ∉ s.content) (hnodes : s.nodes ≠ [""]) (hg : Record.form .create s = .ok g)
    (hf : Record.form .update s = .ok f) (id : String) : s.LeavesOut (plain id kind) g f := by
  have htext : ∀ (name : String) (a : Option String), (textProperty name).attribute a ∈ s.attributes .update →
      g.LeavesOut f name a none := fun name a hp =>
    Record.leavesOut hg hf hp rfl rfl rfl (text_omit_iff name)
  -- a flag goes by the default of its property, whichever that is
  have hflag : ∀ {p : Property Bool} {key : String} {b default : Bool}, p.attribute b ∈ s.attributes .update →
      p.name = key → p.emission = .omitDefault → p.default?.isSome → p.effectiveDialect = .propertyString →
      p.outcome default = .ok .omit → g.LeavesOut f key b default := fun hp hname he hd hdialect h =>
    Record.leavesOut hg hf hp hname he hdialect (flag_omit_iff he hd h)
  constructor
  case content =>
    refine Record.leavesOut (p := contentProperty s.kind) hg hf ?_ (defaults.apply_name _ _)
      (defaults.apply_emission _ _) (defaults.apply_effectiveDialect _ _) ?_
    · simp [Record.attributes, attributes]
    · rw [hkind]
      exact content_omit_iff id hcontent
  case shared =>
    refine hflag (p := sharedProperty s.kind) ?_ (defaults.apply_name _ _) (defaults.apply_emission _ _)
      (defaults.apply_default? _ _ rfl) (defaults.apply_effectiveDialect _ _) ?_
    · simp [attributes]
    · rw [hkind]
      exact shared_default id kind
  case disable => exact hflag (p := disableProperty) (by simp [attributes]) rfl rfl rfl rfl rfl
  case nodes =>
    refine Record.leavesOut (p := nodesProperty) hg hf ?_ rfl rfl rfl (nodes_omit_iff hnodes)
    simp [Record.attributes, attributes]
  case path => exact htext _ _ (by simp [attributes, pathProperty])
  case server => exact htext _ _ (by simp [attributes, serverProperty])
  case exportPath => exact htext _ _ (by simp [attributes, exportProperty])
  case options => exact htext _ _ (by simp [attributes, optionsProperty])
  case vgname => exact htext _ _ (by simp [attributes, vgnameProperty])
  case thinpool => exact htext _ _ (by simp [attributes, thinpoolProperty])
  case pool => exact htext _ _ (by simp [attributes, poolProperty])
  case sparse =>
    refine hflag (p := sparseProperty s.kind) ?_ (defaults.apply_name _ _) (defaults.apply_emission _ _)
      (defaults.apply_default? _ _ rfl) (defaults.apply_effectiveDialect _ _) ?_
    · simp [attributes]
    · rw [hkind]
      exact sparse_default kind

/-- **A storage form leaves out what the backend has by default.** A storage can be made of an id and a kind exactly if
the id is proper and the kind known. Any storage of that kind, of known contents and not on one nameless node, has both
forms; for each property, whatever the value, the create form leaves it out and the update form deletes it exactly if
it is the value of the storage just made, and otherwise both send its text. -/
theorem forms_leave_out_defaults :
    (∀ id kind, (∃ d, ofKind id kind = .ok d) ↔ ProperId id ∧ kind ≠ .unknown) ∧
      ∀ (s d : Definition) (id : String), s.kind ≠ .unknown → .unknown ∉ s.content → s.nodes ≠ [""] →
        ofKind id s.kind = .ok d →
          ∃ g f, Record.form .create s = .ok g ∧ Record.form .update s = .ok f ∧ s.LeavesOut d g f := by
  refine ⟨fun _ _ => exists_ofKind_iff, fun s d id hkind hcontent hnodes hd => ?_⟩
  obtain ⟨g, hg⟩ := exists_form hkind hcontent .create
  obtain ⟨f, hf⟩ := exists_form hkind hcontent .update
  obtain ⟨-, kind, hknown, rfl⟩ := ofKind_eq_ok.1 hd
  exact ⟨g, f, hg, hf, leavesOut_plain hknown hcontent hnodes hg hf id⟩

/-- a share of a Ceph file system that is not shared and holds backups only -/
theorem forms_leave_out_defaults_cephFs :
    ∃ (s d : Definition) (g f : Form),
      s = { plain "ceph" .cephFs with content := [.known .backup], shared := false, path := some "/mnt" } ∧
      ofKind "other" s.kind = .ok d ∧ Record.form .create s = .ok g ∧ Record.form .update s = .ok f ∧
      (∃ text, ("content", text) ∈ g.pairs ∧ ("content", text) ∈ f.pairs) ∧ "shared" ∉ f.delete ∧
      "disable" ∉ g.pairs.map Prod.fst ∧ "disable" ∈ f.delete ∧ "path" ∈ g.pairs.map Prod.fst := by
  obtain ⟨hmade, hforms⟩ := forms_leave_out_defaults
  obtain ⟨d, hd⟩ := (hmade "other" (.known .cephFs)).2 ⟨validId_iff.1 (by decide), by simp⟩
  obtain rfl : d = plain "other" .cephFs := by
    obtain ⟨-, _, ⟨⟩, h⟩ := ofKind_eq_ok.1 hd
    exact h
  obtain ⟨g, f, hg, hf, hleft⟩ :=
    hforms { plain "ceph" .cephFs with content := [.known .backup], shared := false, path := some "/mnt" } _ "other"
      (by decide) (by decide) (by decide) hd
  refine ⟨_, _, g, f, rfl, hd, hg, hf, ?_, fun h => ?_, hleft.disable.create.2 rfl, hleft.disable.update.2 rfl, ?_⟩
  · obtain ⟨text, -, hpair⟩ := hleft.content.sent (by decide)
    exact ⟨text, hpair⟩
  · exact absurd (hleft.shared.update.1 h) (by decide)
  · by_contra h
    exact absurd (hleft.path.create.1 h) (by decide)

end Storage.Definition

end Hypervisor
