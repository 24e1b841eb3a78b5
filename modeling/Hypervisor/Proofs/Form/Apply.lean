/-
What a node reports after a form. `applyTo` clears the names of the delete list and sets the pairs, so that each
attribute acts on its own property by its outcome and every other property stays as it was.
-/
import Hypervisor.Record
import Hypervisor.Proofs.Property.ReadBack
import Hypervisor.Proofs.Table.Laws

namespace Hypervisor.Form

open Fallible Property

/-- the report of a node that held `state` and took the form -/
def applyTo (f : Form) (state : Report) : Report :=
  (f.pairs.map fun p => (p.1, Value.text p.2)).foldl (fun t p => t.insert p.1 p.2) (f.delete.foldl Table.erase state)

/-! ## Contents -/

/-- what an attribute with this outcome contributes -/
def contribution (mode : Mode) (name : String) : Outcome → Form
  | .send text => ⟨[(name, text)], []⟩
  | .omit => if mode = .update then ⟨[], [name]⟩ else empty
  | .skip => empty

theorem ofAttribute_eq_ok {mode : Mode} {a : Attribute} {f : Form} :
    ofAttribute mode a = .ok f ↔ ∃ o, a.outcome = .ok o ∧ contribution mode a.name o = f := by
  unfold ofAttribute
  split <;> rename_i h <;> simp [h, contribution]

theorem ofAttributes_cons_eq_ok {mode : Mode} {a : Attribute} {rest : List Attribute} {f : Form} :
    ofAttributes mode (a :: rest) = .ok f ↔
      ∃ o g, a.outcome = .ok o ∧ ofAttributes mode rest = .ok g ∧ contribution mode a.name o ++ g = f := by
  simp only [ofAttributes, bind_eq_ok, pure_eq_ok, ofAttribute_eq_ok]
  constructor
  · rintro ⟨_, ⟨o, ho, rfl⟩, g, hg, hf⟩
    exact ⟨o, g, ho, hg, hf⟩
  · rintro ⟨o, g, ho, hg, hf⟩
    exact ⟨_, ⟨o, ho, rfl⟩, g, hg, hf⟩

theorem append_pairs (f g : Form) : (f ++ g).pairs = f.pairs ++ g.pairs := rfl

theorem append_delete (f g : Form) : (f ++ g).delete = f.delete ++ g.delete := rfl

theorem append_empty (f : Form) : f ++ empty = f := by
  obtain ⟨pairs, delete⟩ := f
  show (⟨pairs ++ [], delete ++ []⟩ : Form) = ⟨pairs, delete⟩
  rw [List.append_nil, List.append_nil]

/-- there is a form exactly when every attribute has an outcome -/
theorem exists_ofAttributes {mode : Mode} {as : List Attribute} :
    (∃ f, ofAttributes mode as = .ok f) ↔ ∀ a ∈ as, ∃ o, a.outcome = .ok o := by
  induction as with
  | nil => exact ⟨fun _ _ h => absurd h List.not_mem_nil, fun _ => ⟨_, rfl⟩⟩
  | cons a rest ih =>
    simp only [ofAttributes_cons_eq_ok, List.forall_mem_cons, ← ih]
    constructor
    · intro ⟨_, o, g, ho, hg, _⟩
      exact ⟨⟨o, ho⟩, g, hg⟩
    · intro ⟨⟨o, ho⟩, g, hg⟩
      exact ⟨_, o, g, ho, hg, rfl⟩

theorem mem_pairs_ofAttributes {mode : Mode} {as : List Attribute} {f : Form} (h : ofAttributes mode as = .ok f)
    {key text : String} :
    (key, text) ∈ f.pairs ↔ ∃ a ∈ as, a.name = key ∧ a.outcome = .ok (.send text) := by
  induction as generalizing f with
  | nil =>
    obtain rfl := Except.ok.inj h
    simp [empty]
  | cons a rest ih =>
    obtain ⟨o, g, ho, hg, rfl⟩ := ofAttributes_cons_eq_ok.1 h
    have hhead : (key, text) ∈ (contribution mode a.name o).pairs ↔ a.name = key ∧ a.outcome = .ok (.send text) := by
      rw [ho]
      rcases o with t | _ | _
      · simp [contribution, eq_comm]
      · unfold contribution; split_ifs <;> simp [empty]
      · simp [contribution, empty]
    rw [append_pairs, List.mem_append, ih hg, hhead, List.exists_mem_cons_iff]

theorem mem_delete_ofAttributes {mode : Mode} {as : List Attribute} {f : Form} (h : ofAttributes mode as = .ok f)
    {key : String} :
    key ∈ f.delete ↔ mode = .update ∧ ∃ a ∈ as, a.name = key ∧ a.outcome = .ok .omit := by
  induction as generalizing f with
  | nil =>
    obtain rfl := Except.ok.inj h
    simp [empty]
  | cons a rest ih =>
    obtain ⟨o, g, ho, hg, rfl⟩ := ofAttributes_cons_eq_ok.1 h
    have hhead : key ∈ (contribution mode a.name o).delete ↔
        mode = .update ∧ a.name = key ∧ a.outcome = .ok .omit := by
      rw [ho]
      rcases o with t | _ | _
      · simp [contribution]
      · unfold contribution; split_ifs with hm <;> simp [empty, hm, eq_comm]
      · simp [contribution, empty]
    rw [append_delete, List.mem_append, ih hg, hhead, List.exists_mem_cons_iff, ← and_or_left]

/-- the keys of a form are names of its attributes, in order -/
theorem keys_sublist_ofAttributes {mode : Mode} {as : List Attribute} {f : Form} (h : ofAttributes mode as = .ok f) :
    (f.pairs.map Prod.fst).Sublist (as.map Attribute.name) := by
  induction as generalizing f with
  | nil =>
    obtain rfl := Except.ok.inj h
    exact List.Sublist.slnil
  | cons a rest ih =>
    obtain ⟨o, g, -, hg, rfl⟩ := ofAttributes_cons_eq_ok.1 h
    rw [append_pairs, List.map_append, List.map_cons]
    rcases o with t | _ | _
    · exact (ih hg).cons_cons a.name
    · unfold contribution; split_ifs <;> exact (ih hg).cons a.name
    · exact (ih hg).cons a.name

/-! ## Effect -/

/-- a key that is sent has the text sent last, any other is cleared or kept -/
theorem get?_applyTo {f : Form} (hnd : (f.pairs.map Prod.fst).Nodup) (state : Report) (key : String) :
    (f.applyTo state).get? key =
      ((f.pairs.map fun p => (p.1, Value.text p.2)).lookup key).or
        (if f.delete.contains key then none else state.get? key) := by
  have hnd' : ((f.pairs.map fun p => (p.1, Value.text p.2)).map Prod.fst).Nodup := by
    rw [List.map_map]; exact hnd
  rw [applyTo, Table.get?_foldl_insert hnd', Table.get?_foldl_erase]

section Attributes

variable {mode : Mode} {as : List Attribute} {f : Form}

/-- attributes with names apart: each property is what its outcome makes of it -/
theorem get?_applyTo_attribute (hnd : (as.map Attribute.name).Nodup) (h : ofAttributes mode as = .ok f)
    (state : Report) {a : Attribute} (ha : a ∈ as) {o : Outcome} (ho : a.outcome = .ok o)
    (hmode : mode = .update ∨ state.get? a.name = none) :
    (f.applyTo state).get? a.name = o.after (state.get? a.name) := by
  have hkeys := List.Nodup.sublist (keys_sublist_ofAttributes h) hnd
  have hpairs : ((f.pairs.map fun p => (p.1, Value.text p.2)).map Prod.fst).Nodup := by
    rw [List.map_map]; exact hkeys
  have hunique : ∀ b ∈ as, b.name = a.name → b = a := fun b hb hname => List.inj_on_of_nodup_map hnd hb ha hname
  -- the pair of this key, if there is one, is that of the attribute
  have hsent : ∀ v, (f.pairs.map fun p => (p.1, Value.text p.2)).lookup a.name = some v ↔
      ∃ text, o = .send text ∧ v = .text text := by
    intro v
    rw [Table.lookup_eq_some_iff_mem hpairs, List.mem_map]
    constructor
    · intro ⟨⟨key, text⟩, hmem, heq⟩
      obtain ⟨rfl, rfl⟩ := Prod.mk.inj heq
      obtain ⟨b, hb, hname, hout⟩ := (mem_pairs_ofAttributes h).1 hmem
      rw [hunique b hb hname, ho] at hout
      exact ⟨text, Except.ok.inj hout, rfl⟩
    · intro ⟨text, hsend, hv⟩
      exact ⟨(a.name, text), (mem_pairs_ofAttributes h).2 ⟨a, ha, rfl, hsend ▸ ho⟩, by rw [hv]⟩
  have hcleared : f.delete.contains a.name = true ↔ mode = .update ∧ o = .omit := by
    rw [List.contains_iff_mem, mem_delete_ofAttributes h]
    constructor
    · intro ⟨hm, b, hb, hname, hout⟩
      rw [hunique b hb hname, ho] at hout
      exact ⟨hm, Except.ok.inj hout⟩
    · intro ⟨hm, homit⟩
      exact ⟨hm, a, ha, rfl, homit ▸ ho⟩
  rw [get?_applyTo hkeys]
  cases hlookup : (f.pairs.map fun p => (p.1, Value.text p.2)).lookup a.name with
  | some v =>
    obtain ⟨text, rfl, rfl⟩ := (hsent v).1 hlookup
    rfl
  | none =>
    rw [Option.none_or]
    rcases o with text | _ | _
    · rw [(hsent (.text text)).2 ⟨text, rfl, rfl⟩] at hlookup
      cases hlookup
    · rw [Outcome.after_omit]
      split_ifs with hc
      · rfl
      · exact hmode.resolve_left fun hm => hc (hcleared.2 ⟨hm, rfl⟩)
    · rw [if_neg fun hc => by cases (hcleared.1 hc).2]
      rfl

/-- a property that no attribute names stays as it was -/
theorem get?_applyTo_of_not_mem (hnd : (as.map Attribute.name).Nodup) (h : ofAttributes mode as = .ok f)
    (state : Report) {key : String} (hkey : key ∉ as.map Attribute.name) :
    (f.applyTo state).get? key = state.get? key := by
  have hsub := keys_sublist_ofAttributes h
  have hpairs : key ∉ (f.pairs.map fun p => (p.1, Value.text p.2)).map Prod.fst := by
    rw [List.map_map]; exact fun hmem => hkey (hsub.subset hmem)
  have hdelete : ¬f.delete.contains key = true := by
    rw [List.contains_iff_mem, mem_delete_ofAttributes h]
    intro ⟨_, a, ha, hname, _⟩
    exact hkey (hname ▸ List.mem_map_of_mem ha)
  rw [get?_applyTo (List.Nodup.sublist hsub hnd), Table.lookup_eq_none_of_not_mem hpairs, Option.none_or,
    if_neg hdelete]

theorem report_eq_applyTo (h : ofAttributes .create as = .ok f) : f.report = f.applyTo Table.empty := by
  have hdelete : f.delete = [] := by
    refine List.eq_nil_iff_forall_not_mem.2 fun key hkey => ?_
    cases ((mem_delete_ofAttributes h).1 hkey).1
  rw [report, Report.ofPairs, Table.ofList, applyTo, hdelete]
  rfl

/-! ## Reading back -/

variable {α : Type} [Wire α] {p : Property α} {a b : α}

/-- a property is read back from a create form as if it had been sent alone -/
theorem extract_report (hnd : (as.map Attribute.name).Nodup) (h : ofAttributes .create as = .ok f)
    (hp : p.attribute a ∈ as) : p.extract f.report = .ok b ↔ p.ReadsAs a b := by
  obtain ⟨o, ho⟩ := exists_ofAttributes.1 ⟨f, h⟩ _ hp
  have hget := get?_applyTo_attribute hnd h Table.empty hp ho (.inr rfl)
  rw [extract, report_eq_applyTo h]
  change p.resolve ((f.applyTo Table.empty).get? (p.attribute a).name) = .ok b ↔ _
  rw [hget]
  constructor
  · exact fun hb => ⟨o, ho, hb⟩
  · intro ⟨o', ho', hb⟩
    obtain rfl : o = o' := Except.ok.inj (ho.symm.trans ho')
    exact hb

/-- the pair of a property is the text of its value -/
theorem mem_pairs_attribute (hnd : (as.map Attribute.name).Nodup) (h : ofAttributes mode as = .ok f)
    (hp : p.attribute a ∈ as) {text : String} : (p.name, text) ∈ f.pairs ↔ p.outcome a = .ok (.send text) := by
  rw [mem_pairs_ofAttributes h]
  constructor
  · intro ⟨b, hb, hname, hout⟩
    obtain rfl : b = p.attribute a := List.inj_on_of_nodup_map hnd hb hp hname
    exact hout
  · intro hout
    exact ⟨p.attribute a, hp, rfl, hout⟩

/-- the pairs of an option are the texts of its value -/
theorem forall_pairs_iff {β : Type} [Wire β] [VoicedWire β] {p : Property (Option β)} {a : Option β}
    (hnd : (as.map Attribute.name).Nodup) (h : ofAttributes mode as = .ok f) (hp : p.attribute a ∈ as)
    (hpresence : p.presence = .optional) (he : p.emission ≠ .never) {P : String → Prop} :
    (∀ text, (p.name, text) ∈ f.pairs → P text) ↔
      ∀ x ∈ a, ∀ w, Wire.encode p.effectiveDialect x = .ok (some w) → P w := by
  simp only [mem_pairs_attribute hnd h hp, outcome_send_iff hpresence he]
  constructor
  · intro hall x hx w hw
    exact hall w ⟨x, hx, hw⟩
  · intro hall text ⟨x, hx, hw⟩
    exact hall x hx text hw

/-- a property that is sent or cleared reads back from an update as from a create, whatever was there -/
theorem extract_applyTo (hnd : (as.map Attribute.name).Nodup) (h : ofAttributes .update as = .ok f) (state : Report)
    (hp : p.attribute a ∈ as) (hspeaks : p.outcome a ≠ .ok .skip) (hown : p.ReadsAs a b) :
    p.extract (f.applyTo state) = .ok b := by
  obtain ⟨o, ho, hb⟩ := hown
  have hget := get?_applyTo_attribute hnd h state hp ho (.inl rfl)
  have hskip : o ≠ .skip := fun hs => hspeaks (hs ▸ ho)
  rw [Outcome.after_of_ne_skip hskip] at hget
  rw [extract]
  change p.resolve ((f.applyTo state).get? (p.attribute a).name) = .ok b
  rw [hget]
  exact hb

/-- a property that is passed over stays as it was -/
theorem extract_applyTo_of_skip (hnd : (as.map Attribute.name).Nodup) (h : ofAttributes .update as = .ok f)
    (state : Report) (hp : p.attribute a ∈ as) (hskip : p.outcome a = .ok .skip) :
    p.extract (f.applyTo state) = p.extract state := by
  have hget := get?_applyTo_attribute hnd h state hp hskip (.inl rfl)
  exact congrArg p.resolve hget

theorem extract_applyTo_of_not_mem (hnd : (as.map Attribute.name).Nodup) (h : ofAttributes .update as = .ok f)
    (state : Report) (hp : p.name ∉ as.map Attribute.name) : p.extract (f.applyTo state) = p.extract state :=
  congrArg p.resolve (get?_applyTo_of_not_mem hnd h state hp)

end Attributes

/-! ## Updates -/

/-- a create form and an update form of one record, where an update has no attributes of its own -/
structure Revision (cs us : List Attribute) (g f : Form) : Prop where
  nodup : (cs.map Attribute.name).Nodup
  sublist : us.Sublist cs
  create : ofAttributes .create cs = .ok g
  update : ofAttributes .update us = .ok f

namespace Revision

variable {cs us : List Attribute} {g f : Form} (r : Revision cs us g f) (state : Report) {α : Type} [Wire α]
  {p : Property α} {a b : α}

include r

theorem update_nodup : (us.map Attribute.name).Nodup := r.nodup.sublist (r.sublist.map Attribute.name)

/-- what reads back from the create form reads back from the update, whatever was there -/
theorem extract_set (hp : p.attribute a ∈ us) (hspeaks : p.Speaks) (h : p.extract g.report = .ok b) :
    p.extract (f.applyTo state) = .ok b :=
  extract_applyTo r.update_nodup r.update state hp (hspeaks a)
    ((extract_report r.nodup r.create (r.sublist.subset hp)).1 h)

/-- what belongs to the node stays as it was -/
theorem extract_kept (hp : p.attribute a ∈ us) (he : p.emission = .never) :
    p.extract (f.applyTo state) = p.extract state :=
  extract_applyTo_of_skip r.update_nodup r.update state hp (outcome_of_never he a)

/-- what an update does not name stays as it was -/
theorem extract_unnamed (hp : p.name ∉ us.map Attribute.name) : p.extract (f.applyTo state) = p.extract state :=
  extract_applyTo_of_not_mem r.update_nodup r.update state hp

end Revision

end Hypervisor.Form
