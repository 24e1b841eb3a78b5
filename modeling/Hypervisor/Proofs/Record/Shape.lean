/-
The shape of record forms.

A form names properties of its record only, in declaration order and each at most once: what is sent and what is deleted
are apart. A create deletes nothing; an update sends or deletes each property that has a default or may be unset, and
sends what a create sends but for the properties that it goes by.
-/
import Hypervisor.Proofs.Record.Fields

namespace Hypervisor

open Fallible Property

/-! ## Contents of a form -/

namespace Attribute

/-- the pair of an attribute with a text to send -/
def pair? (a : Attribute) : Option (String × String) :=
  match a.outcome with
  | .ok (.send text) => some (a.name, text)
  | _ => none

/-- the attribute is left out of a create and deleted in an update -/
def isOmitted (a : Attribute) : Bool :=
  match a.outcome with
  | .ok .omit => true
  | _ => false

theorem pair?_eq_some_iff {a : Attribute} {key text : String} :
    a.pair? = some (key, text) ↔ a.name = key ∧ a.outcome = .ok (.send text) := by
  unfold pair?
  split <;> rename_i h
  · simp [h]
  · simp only [reduceCtorEq, false_iff, not_and]
    exact fun _ => h text

end Attribute

namespace Form

/-- a form is what its attributes send, and in an update the names of those that are left out -/
theorem ofAttributes_eq_ok {mode : Mode} {as : List Attribute} {f : Form} (h : ofAttributes mode as = .ok f) :
    f.pairs = as.filterMap Attribute.pair? ∧
      f.delete = if mode = .update then (as.filter Attribute.isOmitted).map Attribute.name else [] := by
  induction as generalizing f with
  | nil =>
    obtain rfl := Except.ok.inj h
    simp [empty]
  | cons a rest ih =>
    obtain ⟨o, g, ho, hg, rfl⟩ := ofAttributes_cons_eq_ok.1 h
    obtain ⟨hpairs, hdelete⟩ := ih hg
    rw [append_pairs, append_delete, hpairs, hdelete]
    rcases o with text | _ | _
    · simp [contribution, Attribute.pair?, Attribute.isOmitted, ho]
    · cases mode <;> simp [contribution, Attribute.pair?, Attribute.isOmitted, ho, empty]
    · simp [contribution, Attribute.pair?, Attribute.isOmitted, ho, empty]

theorem delete_sublist_ofAttributes {mode : Mode} {as : List Attribute} {f : Form} (h : ofAttributes mode as = .ok f) :
    f.delete.Sublist (as.map Attribute.name) := by
  rw [(ofAttributes_eq_ok h).2]
  split_ifs
  · exact List.filter_sublist.map Attribute.name
  · exact List.nil_sublist _

theorem lookup_map_text (pairs : List (String × String)) (key : String) :
    (pairs.map fun p => (p.1, Value.text p.2)).lookup key = (pairs.lookup key).map Value.text := by
  induction pairs with
  | nil => rfl
  | cons p rest ih =>
    rw [List.map_cons, List.lookup_cons, List.lookup_cons, ih]
    cases key == p.1 <;> rfl

/-- where each key is sent once, the value sent for a key is what the node reports -/
theorem get?_report {f : Form} (hnd : (f.pairs.map Prod.fst).Nodup) (key : String) :
    f.report.get? key = (f.get? key).map Value.text := by
  have hnd' : ((f.pairs.map fun p => (p.1, Value.text p.2)).map Prod.fst).Nodup := by
    rw [List.map_map]
    exact hnd
  rw [report, Report.ofPairs, Table.ofList, Table.get?_foldl_insert hnd', Table.get?_empty, Option.or_none,
    lookup_map_text]
  rfl

/-- names without commas are recovered from the text that joins them -/
theorem splitOn_intercalate_comma {names : List String} (hne : names ≠ []) (hplain : ∀ n ∈ names, ',' ∉ n.toList) :
    ((",".intercalate names).toList.splitOn ',').map String.ofList = names := by
  have hpieces : ∀ piece ∈ names.map String.toList, ',' ∉ piece := by
    intro piece hpiece
    obtain ⟨n, hn, rfl⟩ := List.mem_map.1 hpiece
    exact hplain n hn
  rw [String.toList_intercalate]
  change ((([','] : List Char).intercalate (names.map String.toList)).splitOn ',').map String.ofList = names
  rw [List.splitOn_intercalate ',' hpieces (by simpa using hne), List.map_map]
  exact (List.map_congr_left fun n _ => String.ofList_toList).trans (List.map_id names)

/-! ## Shape -/

/-- the form of a record with these properties -/
structure Shaped (mode : Mode) (fields : List Field) (f : Form) : Prop where
  pairs_ordered : (f.pairs.map Prod.fst).Sublist (fields.map Field.name)
  delete_ordered : f.delete.Sublist (fields.map Field.name)
  pairs_nodup : (f.pairs.map Prod.fst).Nodup
  delete_nodup : f.delete.Nodup
  disjoint : ∀ name ∈ f.delete, name ∉ f.pairs.map Prod.fst
  /-- a look-up in the form finds what the node would report -/
  report : ∀ key, f.report.get? key = (f.get? key).map Value.text
  /-- what belongs to the node is neither sent nor deleted -/
  never : ∀ field ∈ fields, field.emission = .never → field.name ∉ f.pairs.map Prod.fst ∧ field.name ∉ f.delete
  create : mode = .create → f.delete = []
  update : mode = .update → ∀ field ∈ fields, field.emission = .omitDefault →
    field.name ∈ f.pairs.map Prod.fst ∨ field.name ∈ f.delete
  delete_only : ∀ name ∈ f.delete, ∃ field ∈ fields, field.name = name ∧ field.emission = .omitDefault
  flatten_pairs : f.delete = [] → f.flatten = f.pairs
  /-- the delete list is sent last, as one text from which it can be read again -/
  flatten_delete : f.delete ≠ [] → ∃ text, f.flatten = f.pairs ++ [(deleteKey, text)] ∧
    (text.toList.splitOn ',').map String.ofList = f.delete

end Form

/-- only a property that may be omitted is -/
theorem Attribute.Of.emission_of_omit {a : Attribute} {field : Field} (h : a.Of field) (ho : a.outcome = .ok .omit) :
    field.emission = .omitDefault := by
  obtain ⟨v, rfl⟩ := h
  change field.property.outcome v = .ok .omit at ho
  cases he : field.property.emission with
  | omitDefault => exact he
  | never => cases (outcome_of_never he v).symm.trans ho
  | always =>
    obtain ⟨w, -, hw⟩ := (outcome_of_always he).1 ho
    cases w <;> cases hw

theorem Attribute.Of.outcome_of_never {a : Attribute} {field : Field} (h : a.Of field) (he : field.emission = .never) :
    a.outcome = .ok .skip := by
  obtain ⟨v, rfl⟩ := h
  exact Property.outcome_of_never he v

theorem Attribute.Of.outcome_ne_skip {a : Attribute} {field : Field} (h : a.Of field)
    (he : field.emission = .omitDefault) : a.outcome ≠ .ok .skip := by
  obtain ⟨v, rfl⟩ := h
  exact speaks_of_omitDefault he v

namespace Record.Declared

variable {α : Type} [Record α] [Record.Declared α]

theorem names_eq (a : α) : (attributes .create a).map Attribute.name = (fields a).map Field.name :=
  Attribute.names_eq (attributes_of a)

theorem mode_sublist (mode : Mode) (a : α) : (attributes mode a).Sublist (attributes .create a) := by
  cases mode with
  | create => exact List.Sublist.refl _
  | update =>
    obtain ⟨keys, hcreate, -⟩ := attributes_create a
    rw [hcreate]
    exact List.sublist_append_right _ _

theorem names_sublist (mode : Mode) (a : α) :
    ((attributes mode a).map Attribute.name).Sublist ((fields a).map Field.name) := by
  rw [← names_eq]
  exact (mode_sublist mode a).map Attribute.name

theorem attributes_nodup (mode : Mode) (a : α) : ((attributes mode a).map Attribute.name).Nodup :=
  (names_nodup a).sublist (names_sublist mode a)

/-- a property is known by its name, so the attribute of that name is its own -/
theorem of_name_eq {mode : Mode} {a : α} {x : Attribute} (hx : x ∈ attributes mode a) {field : Field}
    (hfield : field ∈ fields a) (hname : x.name = field.name) : x.Of field := by
  obtain ⟨field', hfield', hof⟩ := Attribute.exists_field (attributes_of a) ((mode_sublist mode a).subset hx)
  obtain rfl : field' = field :=
    List.inj_on_of_nodup_map (names_nodup a) hfield' hfield (hof.name_eq.symm.trans hname)
  exact hof

/-- a property that an update does not go by has its attribute there -/
theorem exists_update_attribute {a : α} {field : Field} (hfield : field ∈ fields a)
    (he : field.emission = .omitDefault) : ∃ x ∈ attributes .update a, x.Of field := by
  obtain ⟨x, hx, hof⟩ := Field.exists_attribute (attributes_of a) hfield
  obtain ⟨keys, hcreate, hkeys⟩ := attributes_create a
  rw [hcreate] at hx
  rcases List.mem_append.1 hx with hkey | hx
  · have hidentity : field.name ∈ identity α := by
      rw [← hkeys, ← hof.name_eq]
      exact List.mem_map_of_mem hkey
    rw [identity_always a field hfield hidentity] at he
    cases he
  · exact ⟨x, hx, hof⟩

variable {a : α} {mode : Mode} {f g : Form}

theorem shaped (hf : form mode a = .ok f) : f.Shaped mode (fields a) := by
  have hnd := attributes_nodup mode a
  have hpairs := (Form.keys_sublist_ofAttributes hf).trans (names_sublist mode a)
  have hdelete := (Form.delete_sublist_ofAttributes hf).trans (names_sublist mode a)
  have hkeys : (f.pairs.map Prod.fst).Nodup := (names_nodup a).sublist hpairs
  have hsent : ∀ name ∈ f.pairs.map Prod.fst, ∃ x ∈ attributes mode a, x.name = name ∧ x.IsSent := by
    intro name hname
    obtain ⟨⟨key, text⟩, hmem, rfl⟩ := List.mem_map.1 hname
    obtain ⟨x, hx, hkey, ho⟩ := (Form.mem_pairs_ofAttributes hf).1 hmem
    exact ⟨x, hx, hkey, text, ho⟩
  have homitted : ∀ name ∈ f.delete, ∃ x ∈ attributes mode a, x.name = name ∧ x.outcome = .ok .omit :=
    fun name hname => ((Form.mem_delete_ofAttributes hf).1 hname).2
  refine ⟨hpairs, hdelete, hkeys, (names_nodup a).sublist hdelete, ?_, ?_, ?_, ?_, ?_, ?_, ?_, ?_⟩
  · -- a name on both sides would be that of one attribute with two outcomes
    intro name hname hpair
    obtain ⟨x, hx, hxname, hout⟩ := homitted name hname
    obtain ⟨y, hy, hyname, text, htext⟩ := hsent name hpair
    obtain rfl : x = y := List.inj_on_of_nodup_map hnd hx hy (hxname.trans hyname.symm)
    rw [hout] at htext
    cases htext
  · exact Form.get?_report hkeys
  · intro field hfield he
    constructor
    · intro hpair
      obtain ⟨x, hx, hname, text, htext⟩ := hsent _ hpair
      rw [(of_name_eq hx hfield hname).outcome_of_never he] at htext
      cases htext
    · intro hname
      obtain ⟨x, hx, hxname, hout⟩ := homitted _ hname
      rw [(of_name_eq hx hfield hxname).outcome_of_never he] at hout
      cases hout
  · rintro rfl
    rw [(Form.ofAttributes_eq_ok hf).2, if_neg (by decide)]
  · rintro rfl field hfield he
    obtain ⟨x, hx, hof⟩ := exists_update_attribute hfield he
    obtain ⟨o, ho⟩ := Form.exists_ofAttributes.1 ⟨f, hf⟩ x hx
    rcases o with text | _ | _
    · exact .inl (List.mem_map.2 ⟨_, (Form.mem_pairs_ofAttributes hf).2 ⟨x, hx, hof.name_eq, ho⟩, rfl⟩)
    · exact .inr ((Form.mem_delete_ofAttributes hf).2 ⟨rfl, x, hx, hof.name_eq, ho⟩)
    · exact absurd ho (hof.outcome_ne_skip he)
  · intro name hname
    obtain ⟨x, hx, hxname, hout⟩ := homitted name hname
    obtain ⟨field, hfield, hof⟩ := Attribute.exists_field (attributes_of a) ((mode_sublist mode a).subset hx)
    exact ⟨field, hfield, hof.name_eq.symm.trans hxname, hof.emission_of_omit hout⟩
  · intro hnone
    rw [Form.flatten, if_pos (by simp [hnone])]
  · intro hsome
    refine ⟨",".intercalate f.delete, ?_, ?_⟩
    · rw [Form.flatten, if_neg (by simp [hsome])]
    · exact Form.splitOn_intercalate_comma hsome fun name hname => names_plain a name (hdelete.subset hname)

/-- an update sends what a create sends, without the properties that it goes by -/
theorem update_pairs (hg : form .create a = .ok g) (hf : form .update a = .ok f) :
    f.pairs = g.pairs.filter fun p => !(identity α).contains p.1 := by
  obtain ⟨keys, hcreate, hkeys⟩ := attributes_create a
  have hnd := attributes_nodup .create a
  rw [hcreate, List.map_append, List.nodup_append, hkeys] at hnd
  obtain ⟨-, -, hapart⟩ := hnd
  have hname : ∀ {as : List Attribute} {p : String × String}, p ∈ as.filterMap Attribute.pair? →
      p.1 ∈ as.map Attribute.name := by
    intro as p hp
    obtain ⟨x, hx, hpair⟩ := List.mem_filterMap.1 hp
    rw [← (Attribute.pair?_eq_some_iff.1 hpair).1]
    exact List.mem_map_of_mem hx
  rw [(Form.ofAttributes_eq_ok hf).1, (Form.ofAttributes_eq_ok hg).1, hcreate, List.filterMap_append,
    List.filter_append]
  have hdropped : (keys.filterMap Attribute.pair?).filter (fun p => !(identity α).contains p.1) = [] := by
    refine List.filter_eq_nil_iff.2 fun p hp => ?_
    have hmem := hname hp
    rw [hkeys] at hmem
    simpa using hmem
  have hkept : ((attributes .update a).filterMap Attribute.pair?).filter (fun p => !(identity α).contains p.1) =
      (attributes .update a).filterMap Attribute.pair? := by
    refine List.filter_eq_self.2 fun p hp => ?_
    simpa using fun hmem => hapart p.1 hmem p.1 (hname hp) rfl
  rw [hdropped, hkept, List.nil_append]

end Record.Declared

namespace Record

/-- each form of such a record is shaped by these properties, and an update sends what a create sends but for the names
that it goes by -/
def FormsShaped (α : Type) [Record α] (fields : α → List Field) (identity : List String) : Prop :=
  (∀ mode a f, form mode a = .ok f → f.Shaped mode (fields a)) ∧
    ∀ (a : α) (g f : Form), form .create a = .ok g → form .update a = .ok f →
      f.pairs = g.pairs.filter fun p => !identity.contains p.1

/-- **Forms of records have a shape.** They name the properties of the record in order, each once and none of those that
belong to the node; a create deletes nothing, an update sends or deletes whatever may be omitted and deletes nothing
else. Only groups and storages have properties that an update goes by. -/
theorem forms_shaped :
    FormsShaped Guest.Config (fun _ => Guest.Config.fields) [] ∧
      FormsShaped Guest.Processor (fun _ => Guest.Processor.fields) [] ∧
      FormsShaped Guest.Memory (fun _ => Guest.Memory.fields) [] ∧
      FormsShaped Firewall.Rule (fun _ => Firewall.Rule.fields) [] ∧
      FormsShaped Availability.Group (fun _ => Availability.Group.fields) ["group"] ∧
      FormsShaped Cluster.Node (fun _ => Cluster.Node.fields) [] ∧
      FormsShaped Storage.Definition (fun s => Storage.Definition.fields s.kind) ["storage", "type"] := by
  have h {α : Type} [Record α] [Record.Declared α] : FormsShaped α Declared.fields (Declared.identity α) :=
    ⟨fun _ _ _ hf => Declared.shaped hf, fun _ _ _ hg hf => Declared.update_pairs hg hf⟩
  exact ⟨h, h, h, h, h, h, h⟩

/-- a share whose default is switched off: both forms, and what the shape says of them -/
theorem forms_shaped_share :
    ∃ (s : Storage.Definition) (g f : Form),
      decode (Report.ofPairs [("storage", "nas"), ("type", "nfs"), ("shared", "0"), ("path", "/mnt")]) = .ok s ∧
        form .create s = .ok g ∧ form .update s = .ok f ∧
        g.pairs = [("storage", "nas"), ("type", "nfs"), ("shared", "0"), ("path", "/mnt")] ∧
        f.delete = ["content", "disable", "nodes", "server", "export", "options", "vgname", "thinpool", "pool",
          "sparse"] ∧
        g.Shaped .create (Storage.Definition.fields s.kind) ∧ f.Shaped .update (Storage.Definition.fields s.kind) ∧
        f.pairs = g.pairs.filter fun p => !(["storage", "type"].contains p.1) := by
  obtain ⟨s, g, f, hs, hg, hf, hpairs, hdelete⟩ :
      ∃ (s : Storage.Definition) (g f : Form),
        decode (Report.ofPairs [("storage", "nas"), ("type", "nfs"), ("shared", "0"), ("path", "/mnt")]) = .ok s ∧
          form .create s = .ok g ∧ form .update s = .ok f ∧
          g.pairs = [("storage", "nas"), ("type", "nfs"), ("shared", "0"), ("path", "/mnt")] ∧
          f.delete = ["content", "disable", "nodes", "server", "export", "options", "vgname", "thinpool", "pool",
            "sparse"] :=
    ⟨_, _, _, rfl, rfl, rfl, rfl, rfl⟩
  obtain ⟨-, -, -, -, -, -, hshaped, hupdate⟩ := forms_shaped
  exact ⟨s, g, f, hs, hg, hf, hpairs, hdelete, hshaped .create s g hg, hshaped .update s f hf, hupdate s g f hg hf⟩

end Record

end Hypervisor
