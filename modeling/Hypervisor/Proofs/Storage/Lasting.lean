/-
Which storages survive the form that makes them.

A property with a default reads back exactly if its value has a text that reads back, whatever the default is: the form
leaves the default out, and reading puts it in again (`readsAs_self_of_default`). So the defaults of the kinds cost
nothing, and what is left are the conditions on id, kind and fingerprint, and on the two lists, whose joined texts have
to fall into their items again.
-/
import Hypervisor.Proofs.Storage.Definition
import Hypervisor.Proofs.Wire.List

namespace Hypervisor

namespace Storage

open Property

/-! ## Lists -/

theorem Content.tame_token (c : Content) : Tame (Vocabulary.token c) ∧ Vocabulary.token c ≠ "" := by
  cases c <;> decide

/-- kinds of volumes come back if all of them are known, and none at all do too -/
theorem content_roundTrips_iff {content : List (Choice Content)} :
    Wire.RoundTrips .propertyString content ↔ .unknown ∉ content := by
  rw [roundTrips_list_iff]
  constructor
  · rintro ⟨hitems, -⟩ hmem
    obtain ⟨text, htext, -⟩ := hitems _ hmem
    obtain ⟨c, hc, -⟩ := Choice.encode_eq_ok.1 htext
    cases hc
  · intro hknown
    refine ⟨fun a ha => ?_, ?_⟩
    · cases a with
      | unknown => exact absurd ha hknown
      | known c => exact ⟨_, Choice.encode_eq_ok.2 ⟨c, rfl, rfl⟩, c.tame_token.1.not_mem (by decide)⟩
    · rintro ⟨a, -, ha⟩
      obtain ⟨c, -, hempty⟩ := Choice.encode_eq_ok.1 ha
      exact c.tame_token.2 hempty.symm

/-- node names come back if they can be told apart in the joined text -/
theorem nodes_roundTrips_iff {nodes : List String} :
    Wire.RoundTrips .propertyString nodes ↔ (∀ name ∈ nodes, ',' ∉ name.toList) ∧ nodes ≠ [""] := by
  have htext : ∀ name text : String, Wire.encode .propertyString name = .ok (some text) ↔ name = text := by
    intro name text
    change Except.ok (some name) = Except.ok (some text) ↔ name = text
    simp
  rw [roundTrips_list_iff]
  simp only [htext, exists_eq_left', exists_eq_right, ne_eq]
  exact Iff.rfl

namespace Definition

/-! ## Ids -/

/-- an ASCII letter -/
def Letter (c : Char) : Prop := ('a' ≤ c ∧ c ≤ 'z') ∨ ('A' ≤ c ∧ c ≤ 'Z')

/-- an ASCII digit -/
def Digit (c : Char) : Prop := '0' ≤ c ∧ c ≤ '9'

/-- a letter, then letters, digits, `-`, `_` and `.` -/
def ProperId (id : String) : Prop :=
  ∃ first rest, id.toList = first :: rest ∧ Letter first ∧
    ∀ c ∈ rest, Letter c ∨ Digit c ∨ c = '-' ∨ c = '_' ∨ c = '.'

theorem isAlpha_iff {c : Char} : c.isAlpha = true ↔ Letter c := by
  change (decide ('A' ≤ c ∧ c ≤ 'Z') || (decide ('a' ≤ c) && decide (c ≤ 'z'))) = true ↔ _
  rw [Bool.or_eq_true, Bool.and_eq_true, decide_eq_true_eq, decide_eq_true_eq, decide_eq_true_eq]
  exact or_comm

theorem isDigit_iff {c : Char} : c.isDigit = true ↔ Digit c := by
  change (decide ('0' ≤ c) && decide (c ≤ '9')) = true ↔ _
  rw [Bool.and_eq_true, decide_eq_true_eq, decide_eq_true_eq]
  exact Iff.rfl

theorem idTail_iff {c : Char} :
    (c.isAlphanum || c == '-' || c == '_' || c == '.') = true ↔ Letter c ∨ Digit c ∨ c = '-' ∨ c = '_' ∨ c = '.' := by
  change (c.isAlpha || c.isDigit || c == '-' || c == '_' || c == '.') = true ↔ _
  simp only [Bool.or_eq_true, beq_iff_eq, isAlpha_iff, isDigit_iff, or_assoc]

theorem validId_iff {id : String} : validId id = true ↔ ProperId id := by
  unfold validId ProperId
  cases id.toList with
  | nil => simp
  | cons first rest =>
    simp only [Bool.and_eq_true, List.all_eq_true, isAlpha_iff, idTail_iff]
    constructor
    · exact fun h => ⟨first, rest, rfl, h.1, h.2⟩
    · rintro ⟨_, _, heq, hfirst, hrest⟩
      obtain ⟨rfl, rfl⟩ := List.cons.inj heq
      exact ⟨hfirst, hrest⟩

/-! ## Property by property -/

/-- each property reads back as itself -/
def FieldsRead (s : Definition) : Prop :=
  idProperty.ReadsAs s.id s.id ∧ kindProperty.ReadsAs s.kind s.kind ∧
    (contentProperty s.kind).ReadsAs s.content s.content ∧ (sharedProperty s.kind).ReadsAs s.shared s.shared ∧
    disableProperty.ReadsAs s.disable s.disable ∧ nodesProperty.ReadsAs s.nodes s.nodes ∧
    pathProperty.ReadsAs s.path s.path ∧ serverProperty.ReadsAs s.server s.server ∧
    exportProperty.ReadsAs s.exportPath s.exportPath ∧ optionsProperty.ReadsAs s.options s.options ∧
    vgnameProperty.ReadsAs s.vgname s.vgname ∧ thinpoolProperty.ReadsAs s.thinpool s.thinpool ∧
    poolProperty.ReadsAs s.pool s.pool ∧ (sparseProperty s.kind).ReadsAs s.sparse s.sparse ∧
    digestProperty.ReadsAs s.digest s.digest

theorem FieldsRead.writable {s : Definition} (h : s.FieldsRead) :
    ∀ a ∈ s.attributes .create, ∃ o, a.outcome = .ok o := by
  obtain ⟨h₁, h₂, h₃, h₄, h₅, h₆, h₇, h₈, h₉, h₁₀, h₁₁, h₁₂, h₁₃, h₁₄, h₁₅⟩ := h
  simp only [attributes, if_true, List.forall_mem_append, List.forall_mem_cons]
  exact ⟨⟨h₁.writable, h₂.writable, List.forall_mem_nil _⟩, h₃.writable, h₄.writable, h₅.writable, h₆.writable,
    h₇.writable, h₈.writable, h₉.writable, h₁₀.writable, h₁₁.writable, h₁₂.writable, h₁₃.writable, h₁₄.writable,
    h₁₅.writable, List.forall_mem_nil _⟩

/-- a storage comes back property by property -/
theorem readsAs_self_iff {s : Definition} : Record.ReadsAs s s ↔ s.FieldsRead := by
  refine Record.readsAs_iff_fields FieldsRead.writable fun f hf => ?_
  have hnd := s.attributes_nodup
  have hback : ∀ {α : Type} [Wire α] {p : Property α} {a : α}, p.attribute a ∈ s.attributes .create →
      (p.extract f.report = .ok a ↔ p.ReadsAs a a) := fun hp => Form.extract_report hnd hf hp
  change decode f.report = .ok s ↔ _
  rw [decode_eq_ok, FieldsRead, hback, hback, hback, hback, hback, hback, hback, hback, hback, hback, hback, hback,
    hback, hback, hback] <;> simp [attributes]

/-- what a storage must be to come back from its create form -/
structure Lasting (s : Definition) : Prop where
  id : ProperId s.id
  kind : s.kind ≠ .unknown
  content : .unknown ∉ s.content
  nodes : ∀ name ∈ s.nodes, ',' ∉ name.toList
  /-- the text of a nameless node is that of no nodes -/
  nodes_ne : s.nodes ≠ [""]
  /-- the node sets the fingerprint, so it is never sent -/
  digest : s.digest = none

theorem id_readsAs_iff {id : String} : idProperty.ReadsAs id id ↔ ProperId id := by
  have hfaithful : idProperty.Faithful := faithful_of_required rfl rfl rfl
  rw [hfaithful.readsAs_iff, accepts_iff rfl, validId_iff]
  exact ⟨fun h => h.2.2, fun h => ⟨rfl, exists_outcome_of_total _ id, h⟩⟩

theorem kind_readsAs_iff {kind : Choice Kind} : kindProperty.ReadsAs kind kind ↔ kind ≠ .unknown := by
  rw [readsAs_of_choice rfl rfl rfl rfl]
  exact and_iff_left rfl

theorem content_readsAs_iff {kind : Choice Kind} {content : List (Choice Content)} :
    (contentProperty kind).ReadsAs content content ↔ .unknown ∉ content := by
  have hdialect : (contentProperty kind).effectiveDialect = .propertyString := defaults.apply_effectiveDialect kind _
  have hself : (contentProperty kind).ReadsAs content content ↔
      Wire.RoundTrips (contentProperty kind).effectiveDialect content :=
    readsAs_self_of_default (defaults.apply_default? _ _ rfl) (defaults.apply_emission _ _)
      (defaults.apply_transform _ _) (defaults.apply_check _ _)
  rw [hself, hdialect, content_roundTrips_iff]

theorem nodes_readsAs_iff {nodes : List String} :
    nodesProperty.ReadsAs nodes nodes ↔ (∀ name ∈ nodes, ',' ∉ name.toList) ∧ nodes ≠ [""] := by
  rw [readsAs_self_of_default rfl rfl rfl rfl]
  exact nodes_roundTrips_iff

/-- a flag comes back, whatever its default -/
theorem flag_readsAs {p : Property Bool} (hp : p.default?.isSome) (he : p.emission = .omitDefault)
    (ht : p.transform = none) (hc : p.check = none) (b : Bool) : p.ReadsAs b b :=
  (readsAs_self_of_default hp he ht hc).2 (Wire.roundTrips_of_total _ b)

theorem text_readsAs (name : String) (a : Option String) : (textProperty name).ReadsAs a a :=
  (readsAs_self_of_optional rfl (by simp [textProperty]) rfl rfl).2 fun x _ => Wire.roundTrips_of_total _ x

theorem digest_readsAs_iff {digest : Option String} : digestProperty.ReadsAs digest digest ↔ digest = none :=
  readsAs_of_unsent rfl rfl rfl

theorem fieldsRead_iff_lasting {s : Definition} : s.FieldsRead ↔ s.Lasting := by
  have hshared : (sharedProperty s.kind).ReadsAs s.shared s.shared :=
    flag_readsAs (defaults.apply_default? _ _ rfl) (defaults.apply_emission _ _) (defaults.apply_transform _ _)
      (defaults.apply_check _ _) _
  have hsparse : (sparseProperty s.kind).ReadsAs s.sparse s.sparse :=
    flag_readsAs (defaults.apply_default? _ _ rfl) (defaults.apply_emission _ _) (defaults.apply_transform _ _)
      (defaults.apply_check _ _) _
  unfold FieldsRead
  rw [id_readsAs_iff, kind_readsAs_iff, content_readsAs_iff, nodes_readsAs_iff, digest_readsAs_iff]
  constructor
  · intro ⟨hid, hkind, hcontent, _, _, ⟨hnodes, hne⟩, _, _, _, _, _, _, _, _, hdigest⟩
    exact ⟨hid, hkind, hcontent, hnodes, hne, hdigest⟩
  · intro h
    exact ⟨h.id, h.kind, h.content, hshared, flag_readsAs rfl rfl rfl rfl _, ⟨h.nodes, h.nodes_ne⟩, text_readsAs _ _,
      text_readsAs _ _, text_readsAs _ _, text_readsAs _ _, text_readsAs _ _, text_readsAs _ _, text_readsAs _ _,
      hsparse, h.digest⟩

theorem readsAs_self_iff_lasting {s : Definition} : Record.ReadsAs s s ↔ s.Lasting :=
  readsAs_self_iff.trans fieldsRead_iff_lasting

/-! ## Kinds -/

/-- a storage as its backend has it where nothing is said -/
def plain (id : String) (kind : Kind) : Definition where
  id := id
  kind := .known kind
  content :=
    match kind with
    | .dir | .lvm | .lvmThin | .zfsPool => [.known .images, .known .rootdir]
    | .nfs | .cifs | .rbd => [.known .images]
    | .cephFs => [.known .vztmpl, .known .iso, .known .backup]
    | .pbs => [.known .backup]
  shared :=
    match kind with
    | .nfs | .cifs | .rbd | .cephFs | .pbs => true
    | .dir | .lvm | .lvmThin | .zfsPool => false
  disable := false
  nodes := []
  path := none
  server := none
  exportPath := none
  options := none
  vgname := none
  thinpool := none
  pool := none
  sparse := false
  digest := none

/-- nothing but id and kind is sent of it -/
theorem form_plain (id : String) (kind : Kind) :
    Record.form .create (plain id kind) = .ok ⟨[("storage", id), ("type", Vocabulary.token kind)], []⟩ := by
  cases kind <;> rfl

theorem plain_lasting {id : String} (hid : ProperId id) (kind : Kind) : (plain id kind).Lasting := by
  refine ⟨hid, by simp [plain], ?_, by simp [plain], by simp [plain], rfl⟩
  cases kind <;> simp [plain]

/-- what is read of a storage with nothing but id and kind -/
theorem ofKind_plain {id : String} (hid : ProperId id) (kind : Kind) : ofKind id (.known kind) = .ok (plain id kind) :=
  (Record.decode_report_iff_readsAs (form_plain id kind)).2 (readsAs_self_iff_lasting.2 (plain_lasting hid kind))

/-- every backend holds something where nothing is said -/
theorem exists_content_default (kind : Kind) :
    ∃ token, (contentProperty (.known kind)).default? = some token ∧ token ≠ "" := by
  cases kind <;> exact ⟨_, rfl, by decide⟩

/-- that a storage holds nothing is sent, since leaving it out would bring the default back -/
theorem content_outcome_nil (kind : Kind) : (contentProperty (.known kind)).outcome [] = .ok (.send "") := by
  cases kind <;> rfl

/-- a storage that holds nothing says so in its create form -/
theorem content_mem_form {s : Definition} (hs : s.Lasting) (hcontent : s.content = []) :
    ∃ f, Record.form .create s = .ok f ∧ ("content", "") ∈ f.pairs ∧ Record.decode f.report = .ok s := by
  obtain ⟨f, hf, hback⟩ := readsAs_self_iff_lasting.2 hs
  refine ⟨f, hf, ?_, hback⟩
  have hname : (contentProperty s.kind).name = "content" := defaults.apply_name _ _
  rw [← hname]
  refine (Form.mem_pairs_attribute s.attributes_nodup hf (a := s.content) (by simp [attributes])).2 ?_
  cases hkind : s.kind with
  | known kind => rw [hcontent, content_outcome_nil]
  | unknown => exact absurd hkind hs.kind

/-! ## Survivors -/

/-- **Survivors of a create form.** A storage comes back equal from its create form exactly if its id is a letter
followed by letters, digits, `-`, `_` and `.`, its kind and all kinds of its volumes are known, no node name holds a
comma, the nodes are not one without a name, and the fingerprint is unset. So a storage that holds nothing comes back,
because its form says so against the default of its backend; and each kind has its own defaults on both sides, which
its form leaves out and reading puts in. -/
theorem survives_iff_lasting :
    (∀ s : Definition, Record.Survives s ↔ s.Lasting) ∧
    (∀ s : Definition, s.Lasting → s.content = [] →
      ∃ f, Record.form .create s = .ok f ∧ ("content", "") ∈ f.pairs ∧ Record.decode f.report = .ok s) ∧
    ∀ kind : Kind, (∃ token, (contentProperty (.known kind)).default? = some token ∧ token ≠ "") ∧
      ∀ id, ProperId id →
        Record.form .create (plain id kind) = .ok ⟨[("storage", id), ("type", Vocabulary.token kind)], []⟩ ∧
        ofKind id (.known kind) = .ok (plain id kind) := by
  refine ⟨fun s => ?_, fun s hs hcontent => content_mem_form hs hcontent, fun kind => ⟨exists_content_default kind,
    fun id hid => ⟨form_plain id kind, ofKind_plain hid kind⟩⟩⟩
  rw [Record.survives_iff_readsAs, readsAs_self_iff_lasting]

/-- a Ceph file system that holds nothing, and the plain one -/
theorem survives_iff_lasting_cephFs :
    (Record.Survives { plain "ceph" .cephFs with content := [] }) ∧
    (∃ f, Record.form .create { plain "ceph" .cephFs with content := [] } = .ok f ∧ ("content", "") ∈ f.pairs ∧
      Record.decode f.report = .ok { plain "ceph" .cephFs with content := [] }) ∧
    ofKind "ceph" (.known .cephFs) = .ok (plain "ceph" .cephFs) := by
  obtain ⟨hsurvives, hnothing, hkinds⟩ := survives_iff_lasting
  have hid : ProperId "ceph" := validId_iff.1 (by decide)
  have hs : Lasting { plain "ceph" .cephFs with content := [] } := ⟨hid, by decide, by simp, by decide, by decide, rfl⟩
  exact ⟨(hsurvives _).2 hs, hnothing _ hs rfl, ((hkinds .cephFs).2 "ceph" hid).2⟩

end Definition

end Storage

end Hypervisor
