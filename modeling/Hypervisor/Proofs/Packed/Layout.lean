/-
Packed records laid out as entries and read from them.

The entry of an option is found under the name of its attribute, unless a positional entry bears that name: then the
option reads as missing. A positional part is written bare but may be read under a key too, so a text that starts
otherwise than intended can still yield a part; `eq_of_read_positional` shows that it never yields the intended one.
-/
import Hypervisor.Proofs.Entry.RoundTrip
import Hypervisor.Proofs.Property.ReadBack

namespace Hypervisor

open Fallible Property

/-! ## Entries of attributes -/

namespace Attribute

/-- the attribute has a text to send -/
def IsSent (a : Attribute) : Prop := ∃ text, a.outcome = .ok (.send text)

/-- the entries of an attribute, none if there is a fault -/
def sentEntries (a : Attribute) : List Entry :=
  match a.outcome with
  | .ok (.send text) => [⟨a.name, some text⟩]
  | _ => []

theorem entries_eq_ok {a : Attribute} {es : List Entry} :
    a.entries = .ok es ↔ (∃ o, a.outcome = .ok o) ∧ es = a.sentEntries := by
  unfold entries sentEntries
  rw [map_eq_ok]
  cases a.outcome with
  | error e => simp
  | ok o => rcases o with text | _ | _ <;> simp [eq_comm]

theorem mem_sentEntries {a : Attribute} {e : Entry} :
    e ∈ a.sentEntries ↔ ∃ text, a.outcome = .ok (.send text) ∧ e = ⟨a.name, some text⟩ := by
  unfold sentEntries
  split
  · rename_i text h; simp [h]
  · rename_i h
    constructor
    · intro hmem; cases hmem
    · intro ⟨text, ho, _⟩; exact absurd ho (h text)

theorem length_sentEntries_le (a : Attribute) : a.sentEntries.length ≤ 1 := by
  unfold sentEntries
  split <;> simp

end Attribute

namespace EntryList

theorem mapM_entries_eq_ok {as : List Attribute} {ess : List (List Entry)} :
    as.mapM Attribute.entries = .ok ess ↔
      (∀ a ∈ as, ∃ o, a.outcome = .ok o) ∧ ess = as.map Attribute.sentEntries := by
  rw [mapM_eq_ok]
  induction as generalizing ess with
  | nil => simp
  | cons a rest ih =>
    rw [List.forall₂_cons_left_iff]
    simp only [ih]
    simp only [Attribute.entries_eq_ok, List.forall_mem_cons, List.map_cons]
    constructor
    · rintro ⟨es, ess', ⟨ho, rfl⟩, ⟨hrest, rfl⟩, rfl⟩
      exact ⟨⟨ho, hrest⟩, rfl⟩
    · rintro ⟨⟨ho, hrest⟩, rfl⟩
      exact ⟨_, _, ⟨ho, rfl⟩, ⟨hrest, rfl⟩, rfl⟩

/-- the layout: positional entries, then those of the attributes that are sent -/
theorem layOut_eq_ok {positional : List Entry} {as : List Attribute} {l : EntryList} :
    layOut positional as = .ok l ↔
      (∀ a ∈ as, ∃ o, a.outcome = .ok o) ∧ l = ⟨positional ++ as.flatMap Attribute.sentEntries⟩ := by
  unfold layOut
  rw [bind_eq_ok]
  simp only [mapM_entries_eq_ok, pure_eq_ok, List.flatMap]
  constructor
  · rintro ⟨_, ⟨ho, rfl⟩, rfl⟩
    exact ⟨ho, rfl⟩
  · rintro ⟨ho, rfl⟩
    exact ⟨_, ⟨ho, rfl⟩, rfl⟩

theorem mem_options {as : List Attribute} {e : Entry} :
    e ∈ as.flatMap Attribute.sentEntries ↔
      ∃ a ∈ as, ∃ text, a.outcome = .ok (.send text) ∧ e = ⟨a.name, some text⟩ := by
  simp only [List.mem_flatMap, Attribute.mem_sentEntries]

/-- no entry of an option has this key: no attribute of that name is sent -/
theorem forall_options_key_ne {as : List Attribute} {key : String} :
    (∀ e ∈ as.flatMap Attribute.sentEntries, e.key ≠ key) ↔ ∀ a ∈ as, a.IsSent → a.name ≠ key := by
  constructor
  · intro h a ha hsent hname
    obtain ⟨text, htext⟩ := hsent
    exact h _ (mem_options.2 ⟨a, ha, text, htext, rfl⟩) hname
  · intro h e he hkey
    obtain ⟨a, ha, text, htext, rfl⟩ := mem_options.1 he
    exact h a ha ⟨text, htext⟩ hkey

theorem length_options_le (as : List Attribute) : (as.flatMap Attribute.sentEntries).length ≤ as.length := by
  induction as with
  | nil => simp
  | cons a rest ih =>
    have hone := a.length_sentEntries_le
    rw [List.flatMap_cons, List.length_append, List.length_cons]
    omega

/-! ## Look-up -/

theorem get?_cons_self (e : Entry) (rest : List Entry) : get? ⟨e :: rest⟩ e.key = e.value := by
  simp [get?]

theorem get?_cons_of_ne {e : Entry} {key : String} (h : e.key ≠ key) (rest : List Entry) :
    get? ⟨e :: rest⟩ key = get? ⟨rest⟩ key := by
  simp [get?, h]

theorem get?_append_of_ne {es : List Entry} {key : String} (h : ∀ e ∈ es, e.key ≠ key) (rest : List Entry) :
    get? ⟨es ++ rest⟩ key = get? ⟨rest⟩ key := by
  induction es with
  | nil => rfl
  | cons e es ih =>
    obtain ⟨he, hes⟩ := List.forall_mem_cons.1 h
    rw [List.cons_append, get?_cons_of_ne he, ih hes]

theorem get?_eq_none {es : List Entry} {key : String} (h : ∀ e ∈ es, e.key ≠ key) : get? ⟨es⟩ key = none := by
  have := get?_append_of_ne h []
  rw [List.append_nil] at this
  rw [this]; rfl

/-- a value that is found stands in some entry -/
theorem exists_of_get? {l : EntryList} {key value : String} (h : l.get? key = some value) :
    ⟨key, some value⟩ ∈ l.entries := by
  obtain ⟨e, he, hv⟩ := Option.bind_eq_some_iff.1 h
  have hkey : e.key = key := by simpa using List.find?_some he
  have hmem := List.mem_of_find?_eq_some he
  obtain ⟨k, v⟩ := e
  simp only at hkey hv
  rwa [hkey, hv] at hmem

/-- among options with names apart, a name finds the text of its attribute -/
theorem get?_options {as : List Attribute} (hnd : (as.map Attribute.name).Nodup) {a : Attribute} (ha : a ∈ as)
    {o : Outcome} (ho : a.outcome = .ok o) :
    (get? ⟨as.flatMap Attribute.sentEntries⟩ a.name).map Value.text = o.after none := by
  induction as with
  | nil => cases ha
  | cons b rest ih =>
    obtain ⟨hb, hrest⟩ := List.nodup_cons.1 hnd
    rw [List.flatMap_cons]
    rcases List.mem_cons.1 ha with rfl | ha
    · have hnone : get? ⟨rest.flatMap Attribute.sentEntries⟩ a.name = none := by
        refine get?_eq_none fun e he heq => hb ?_
        obtain ⟨c, hc, text, -, rfl⟩ := mem_options.1 he
        exact List.mem_map.2 ⟨c, hc, heq⟩
      rcases o with text | _ | _
      · rw [Attribute.sentEntries, ho, List.singleton_append, get?_cons_self]; rfl
      · rw [Attribute.sentEntries, ho, List.nil_append, hnone]; rfl
      · rw [Attribute.sentEntries, ho, List.nil_append, hnone]; rfl
    · rw [get?_append_of_ne, ih hrest ha]
      intro e he heq
      obtain ⟨text, -, rfl⟩ := Attribute.mem_sentEntries.1 he
      have hname : b.name = a.name := heq
      exact hb (hname ▸ List.mem_map_of_mem ha)

/-! ## Options read back -/

section Options

variable {α : Type} [Wire α] {p : Property α} {a b : α} {as : List Attribute} {positional : List Entry}

/-- an option whose name no positional entry bears reads back as if it had been sent alone -/
theorem extractEntry_options (hnd : (as.map Attribute.name).Nodup) (hout : ∀ a ∈ as, ∃ o, a.outcome = .ok o)
    (hp : p.attribute a ∈ as) (hpos : ∀ e ∈ positional, e.key ≠ p.name) :
    p.extractEntry ⟨positional ++ as.flatMap Attribute.sentEntries⟩ = .ok b ↔ p.ReadsAs a b := by
  obtain ⟨o, ho⟩ := hout _ hp
  have hget := get?_options hnd hp ho
  change (get? _ p.name).map Value.text = o.after none at hget
  rw [extractEntry, get?_append_of_ne hpos, hget]
  constructor
  · exact fun hb => ⟨o, ho, hb⟩
  · intro ⟨o', ho', hb⟩
    obtain rfl : o = o' := Except.ok.inj (ho.symm.trans ho')
    exact hb

/-- behind a bare part, and entries with other keys, an option is read back unless it is sent under the name of the part -/
theorem extractEntry_behind_bare {part : String} {middle : List Entry} (hmiddle : ∀ e ∈ middle, e.key ≠ p.name)
    (hnd : (as.map Attribute.name).Nodup) (hout : ∀ a ∈ as, ∃ o, a.outcome = .ok o) (hp : p.attribute a ∈ as)
    (hf : p.Faithful) (hacc : p.Accepts a) :
    p.extractEntry ⟨⟨part, none⟩ :: (middle ++ as.flatMap Attribute.sentEntries)⟩ = .ok a ↔
      ((p.attribute a).IsSent → p.name ≠ part) := by
  by_cases hname : p.name = part
  · subst hname
    rw [extractEntry, get?_cons_self ⟨p.name, none⟩]
    constructor
    · intro hread hsent
      obtain ⟨text, htext⟩ := hsent
      exact absurd hread (hf.resolve_none_ne a text htext)
    · intro hsent
      obtain ⟨o, ho, ha⟩ := (hf.readsAs_iff a a).2 ⟨rfl, hout _ hp, hacc⟩
      have hafter : o.after none = none := by
        rcases o with text | _ | _
        · exact absurd rfl (hsent ⟨text, ho⟩)
        · rfl
        · rfl
      rwa [hafter] at ha
  · have hpos : ∀ e ∈ (⟨part, none⟩ : Entry) :: middle, e.key ≠ p.name :=
      List.forall_mem_cons.2 ⟨fun h => hname h.symm, hmiddle⟩
    have hread := extractEntry_options (b := a) hnd hout hp hpos
    rw [List.cons_append] at hread
    rw [hread, hf.readsAs_iff]
    exact ⟨fun _ _ => hname, fun _ => ⟨rfl, hout _ hp, hacc⟩⟩

theorem extractEntry_behind_part {part : String} (hnd : (as.map Attribute.name).Nodup)
    (hout : ∀ a ∈ as, ∃ o, a.outcome = .ok o) (hp : p.attribute a ∈ as) (hf : p.Faithful) (hacc : p.Accepts a) :
    p.extractEntry ⟨⟨part, none⟩ :: as.flatMap Attribute.sentEntries⟩ = .ok a ↔
      ((p.attribute a).IsSent → p.name ≠ part) := by
  have hmiddle : ∀ e ∈ ([] : List Entry), e.key ≠ p.name := List.forall_mem_nil _
  exact extractEntry_behind_bare hmiddle hnd hout hp hf hacc

end Options

/-! ## Positional parts -/

/-- the part stands bare in front, or else under its key -/
def Leads (l : EntryList) (key part : String) : Prop :=
  l.firstBare? = some part ∨ l.firstBare? = none ∧ l.get? key = some part

/-- reading that begins with a part, bare in front or under its key -/
theorem read_part_eq_ok {β : Type} {p : Property String} (hp : p.presence = .required) (hc : p.check = none)
    (ht : p.transform = none) {l : EntryList} {f : String → Except PropertyFault β} {b : β} :
    (match l.firstBare? with
      | some part => (pure part : Except PropertyFault String) >>= f
      | none => p.extractEntry l >>= f) = .ok b ↔ ∃ part, l.Leads p.name part ∧ f part = .ok b := by
  unfold Leads
  cases hfirst : l.firstBare? with
  | some first => simp [pure, Except.pure, bind, Except.bind]
  | none =>
    simp only [reduceCtorEq, true_and, false_or]
    rw [bind_eq_ok, extractEntry]
    cases hget : l.get? p.name with
    | none =>
      simp only [Option.map_none, resolve_none_eq_ok, missing, hp]
      simp
    | some value =>
      simp only [Option.map_some, resolve_text_plain ht]
      constructor
      · rintro ⟨_, ⟨ha, -⟩, hb⟩
        obtain rfl := Except.ok.inj ha
        exact ⟨value, rfl, hb⟩
      · rintro ⟨part, hpart, hb⟩
        obtain rfl := Option.some.inj hpart
        exact ⟨value, ⟨rfl, accepts_of_no_check hc _⟩, hb⟩

theorem firstBare?_eq_some_iff {l : EntryList} {name : String} :
    l.firstBare? = some name ↔ ∃ rest, l.entries = ⟨name, none⟩ :: rest := by
  obtain ⟨es⟩ := l
  unfold firstBare?
  cases es with
  | nil => simp
  | cons e rest =>
    obtain ⟨key, value⟩ := e
    cases value <;> simp

/-- the entry that holds a part -/
theorem Leads.mem_entries {l : EntryList} {key part : String} (h : l.Leads key part) :
    ⟨part, none⟩ ∈ l.entries ∨ ⟨key, some part⟩ ∈ l.entries := by
  rcases h with hfirst | ⟨-, hget⟩
  · obtain ⟨rest, hrest⟩ := firstBare?_eq_some_iff.1 hfirst
    rw [hrest]
    exact .inl List.mem_cons_self
  · exact .inr (exists_of_get? hget)

/-- **A positional part is read back from its own entry only.** When a text that leads with a part is read, and the
part is found where it is looked for, then the text is read as the entries that it was made of. -/
theorem eq_of_read_positional {name key : String} {rest : List Entry} {l : EntryList}
    (hparse : EntryList.parse .propertyString (write .propertyString ⟨⟨name, none⟩ :: rest⟩) = .ok l)
    (hrest : ∀ e ∈ rest, e.WellFormed .propertyString) (hkey : ∀ e ∈ rest, e.key ≠ key)
    (hread : l.Leads key name) :
    l = ⟨⟨name, none⟩ :: rest⟩ := by
  obtain ⟨hwrite, hl⟩ := parse_eq_ok_iff.1 hparse
  -- the part was read from an entry, so it holds no list separator and the text is cut where it was joined
  have hcomma : ',' ∉ name.toList := by
    rcases hread.mem_entries with hmem | hmem
    · exact (hl.entries _ hmem).list_not_mem_key
    · exact (hl.entries _ hmem).list_not_mem_value name rfl
  have hne : l.entries ≠ [] := by
    rcases hread.mem_entries with hmem | hmem
    · exact List.ne_nil_of_mem hmem
    · exact List.ne_nil_of_mem hmem
  have hpieces : l.entries.map (Entry.write .propertyString) = name.toList :: rest.map (Entry.write .propertyString) := by
    rw [← splitOn_write hne hl.entries, hwrite, write, String.toList_ofList, List.splitOn_intercalate]
    · rfl
    · intro piece hpiece
      rcases List.mem_cons.1 hpiece with rfl | hpiece
      · exact hcomma
      · obtain ⟨e, he, rfl⟩ := List.mem_map.1 hpiece
        exact Entry.list_not_mem_write (hrest e he)
    · simp
  obtain ⟨es⟩ := l
  cases es with
  | nil => exact absurd rfl hne
  | cons first rest' =>
    obtain ⟨hfirstWrite, hrestWrite⟩ := List.cons.inj hpieces
    obtain ⟨hfirstWf, hrestWf⟩ := List.forall_mem_cons.1 hl.entries
    obtain rfl : rest' = rest := Entry.eq_of_map_write_eq hrestWf hrest hrestWrite
    obtain ⟨k, v⟩ := first
    cases v with
    | none =>
      have hk : k = name := String.toList_inj.1 hfirstWrite
      rw [hk]
    | some v =>
      -- a keyed first entry would hold the part as its value, which is longer than the part itself
      rcases hread with hfirst | ⟨-, hget⟩
      · obtain ⟨es, hes⟩ := firstBare?_eq_some_iff.1 hfirst
        cases hes
      · by_cases hk : k = key
        · subst hk
          rw [get?_cons_self] at hget
          obtain rfl : v = name := Option.some.inj hget
          have hlen := congrArg List.length hfirstWrite
          simp only [Entry.write, List.length_append, List.length_cons] at hlen
          omega
        · rw [get?_cons_of_ne hk, get?_eq_none hkey] at hget
          cases hget

/-- a part that leads a text, and what must hold for it to be read back before these entries -/
structure PlainPart (part : String) (rest : List Entry) : Prop where
  ne_empty : part ≠ ""
  no_comma : ',' ∉ part.toList
  no_equals : '=' ∉ part.toList
  /-- no entry behind it has the part as its key -/
  unclaimed : ∀ e ∈ rest, e.key ≠ part

theorem wellFormed_bare_iff {part : String} :
    (⟨part, none⟩ : Entry).WellFormed .propertyString ↔ part ≠ "" ∧ ',' ∉ part.toList ∧ '=' ∉ part.toList := by
  constructor
  · intro h
    exact ⟨h.key_ne_empty, h.list_not_mem_key, h.entry_not_mem_key⟩
  · intro ⟨hne, hcomma, hequals⟩
    exact ⟨hne, hcomma, hequals, fun _ h => (by cases h), fun _ => rfl, fun h => absurd rfl h⟩

/-- reading a text that leads with a part and finding the part: the text is not too long, the part can stand bare, and
the entries are those written -/
theorem read_positional_iff {part key : String} {rest : List Entry} {Q : EntryList → Prop}
    (hrest : ∀ e ∈ rest, e.WellFormed .propertyString) (hcount : rest.length < 256) (hkey : ∀ e ∈ rest, e.key ≠ key) :
    (∃ l, EntryList.parse .propertyString (write .propertyString ⟨⟨part, none⟩ :: rest⟩) = .ok l ∧
      l.Leads key part ∧ Q l) ↔
      (write .propertyString ⟨⟨part, none⟩ :: rest⟩).utf8ByteSize ≤ 65536 ∧
        (part ≠ "" ∧ ',' ∉ part.toList ∧ '=' ∉ part.toList) ∧ Q ⟨⟨part, none⟩ :: rest⟩ := by
  rw [← wellFormed_bare_iff]
  constructor
  · intro ⟨l, hparse, hread, hQ⟩
    have hl : l = ⟨⟨part, none⟩ :: rest⟩ := eq_of_read_positional hparse hrest hkey hread
    obtain ⟨-, hwf⟩ := parse_eq_ok_iff.1 hparse
    rw [hl] at hwf hQ
    exact ⟨hwf.size, hwf.entries _ List.mem_cons_self, hQ⟩
  · intro ⟨hsize, hpart, hQ⟩
    refine ⟨_, parse_eq_ok_iff.2 ⟨rfl, ⟨?_, hsize, List.forall_mem_cons.2 ⟨hpart, hrest⟩⟩⟩, .inl rfl, hQ⟩
    rw [List.length_cons]; omega

end EntryList

/-! ## Tame options -/

/-- a name, and texts, without separators -/
structure Attribute.IsTame (a : Attribute) : Prop where
  name_ne_empty : a.name ≠ ""
  name : Tame a.name
  texts : ∀ text, a.outcome = .ok (.send text) → Tame text

theorem Property.attribute_isTame {α : Type} [Wire α] [TameWire α] (p : Property α) (a : α) (hne : p.name ≠ "")
    (hname : Tame p.name) : (p.attribute a).IsTame :=
  ⟨hne, hname, fun text h => TameWire.tame_encode _ a text (encode_of_outcome_send h)⟩

theorem Attribute.IsTame.wellFormed {d : Dialect} (hl : isTame d.listSeparator = false)
    (he : isTame d.entrySeparator = false) (hne : d.listSeparator ≠ d.entrySeparator) {as : List Attribute}
    (h : ∀ a ∈ as, a.IsTame) : ∀ e ∈ as.flatMap Attribute.sentEntries, e.WellFormed d := by
  intro e hmem
  obtain ⟨a, ha, text, htext, rfl⟩ := EntryList.mem_options.1 hmem
  obtain ⟨hempty, hname, htexts⟩ := h a ha
  refine ⟨hempty, hname.not_mem hl, hname.not_mem he, ?_, fun h => (by cases h), fun _ => hne⟩
  intro value hvalue
  obtain rfl := Option.some.inj hvalue
  exact (htexts _ htext).not_mem hl

/-! ## Records -/

theorem Packed.decode_text_eq_ok {α : Type} [Packed α] {d : Dialect} {raw : String} {a : α} :
    Wire.decode d (.text raw) = .ok a ↔ ∃ l, EntryList.parse d raw = .ok l ∧ Packed.ofEntries l = .ok a := by
  change (((EntryList.parse d raw).mapError Rejection.token) >>= fun l =>
    (Packed.ofEntries l : Except PropertyFault α).mapError Rejection.entry) = .ok a ↔ _
  simp only [bind_eq_ok, mapError_eq_ok]

/-- packed values are read from texts only -/
theorem Packed.exists_text_of_decode {α : Type} [Packed α] {d : Dialect} {v : Value} {a : α}
    (h : Wire.decode d v = .ok a) : ∃ raw, v = .text raw := by
  change (Wire.decode d v >>= fun l => (Packed.ofEntries l : Except PropertyFault α).mapError Rejection.entry) = .ok a at h
  obtain ⟨l, hl, -⟩ := bind_eq_ok.1 h
  cases v with
  | text raw => exact ⟨raw, rfl⟩
  | number x => cases hl
  | sequence items => cases hl
  | absent => cases hl

/-- a packed option that is read was read from a text -/
theorem Packed.exists_text_of_resolve {α : Type} [Packed α] {p : Property (Option α)} (hp : p.presence = .optional)
    (ht : p.transform = none) {found : Option Value} {a : α} (h : p.resolve found = .ok (some a)) :
    ∃ raw, Wire.decode p.effectiveDialect (.text raw) = .ok a := by
  rcases read_plain ht h with hmissing | ⟨v, hv⟩
  · rw [missing_of_optional hp] at hmissing
    cases hmissing
  · obtain ⟨hdecode, -⟩ := decodePresent_eq_ok.1 hv
    cases v with
    | absent => cases hdecode
    | text raw =>
      obtain ⟨a', ha', heq⟩ := map_eq_ok.1 hdecode
      obtain rfl := Option.some.inj heq
      exact ⟨raw, ha'⟩
    | number x =>
      obtain ⟨a', ha', -⟩ := map_eq_ok.1 hdecode
      obtain ⟨raw, hraw⟩ := Packed.exists_text_of_decode ha'
      cases hraw
    | sequence items =>
      obtain ⟨a', ha', -⟩ := map_eq_ok.1 hdecode
      obtain ⟨raw, hraw⟩ := Packed.exists_text_of_decode ha'
      cases hraw

theorem Packed.encode_eq_ok {α : Type} [Packed α] {d : Dialect} {a : α} {w : String} :
    Wire.encode d a = .ok (some w) ↔ ∃ l, Packed.toEntries a = .ok l ∧ l.write d = w := by
  change (Packed.toEntries a).map (fun l => some (l.write d)) = .ok (some w) ↔ _
  simp only [map_eq_ok, Option.some.injEq]

/-- **Records with a positional part.** When the record is laid out as a bare part with options behind it, and read as
the part with its options, then it reads back exactly if its text is not too long and the part is plain. -/
theorem Packed.roundTrips_positional {α : Type} [Packed α] {a : α} {part key : String} {rest : List Entry} {W : Prop}
    {Q : EntryList → Prop} (hto : ∀ l, Packed.toEntries a = .ok l ↔ W ∧ l = ⟨⟨part, none⟩ :: rest⟩)
    (hof : ∀ l, Packed.ofEntries l = .ok a ↔ l.Leads key part ∧ Q l)
    (hrest : ∀ e ∈ rest, e.WellFormed .propertyString) (hcount : rest.length < 256) (hkey : ∀ e ∈ rest, e.key ≠ key)
    (hQ : W → (EntryList.write .propertyString ⟨⟨part, none⟩ :: rest⟩).utf8ByteSize ≤ 65536 →
      (Q ⟨⟨part, none⟩ :: rest⟩ ↔ ∀ e ∈ rest, e.key ≠ part)) :
    Wire.RoundTrips .propertyString a ↔
      (∃ w, Wire.encode .propertyString a = .ok (some w) ∧ w.utf8ByteSize ≤ 65536) ∧ EntryList.PlainPart part rest := by
  have hencode : ∀ w, Wire.encode .propertyString a = .ok (some w) ↔
      W ∧ EntryList.write .propertyString ⟨⟨part, none⟩ :: rest⟩ = w := by
    intro w
    rw [Packed.encode_eq_ok]
    constructor
    · rintro ⟨l, hl, rfl⟩
      obtain ⟨hW, rfl⟩ := (hto l).1 hl
      exact ⟨hW, rfl⟩
    · intro ⟨hW, hw⟩
      exact ⟨_, (hto _).2 ⟨hW, rfl⟩, hw⟩
  have hread := @EntryList.read_positional_iff part key rest Q hrest hcount hkey
  constructor
  · intro ⟨w, hw, ha⟩
    obtain ⟨hW, rfl⟩ := (hencode w).1 hw
    obtain ⟨l, hparse, hl⟩ := Packed.decode_text_eq_ok.1 ha
    obtain ⟨hsize, ⟨hne, hcomma, hequals⟩, hoptions⟩ := hread.1 ⟨l, hparse, (hof l).1 hl⟩
    exact ⟨⟨_, hw, hsize⟩, hne, hcomma, hequals, (hQ hW hsize).1 hoptions⟩
  · intro ⟨⟨w, hw, hsize⟩, hpart⟩
    obtain ⟨hW, rfl⟩ := (hencode w).1 hw
    obtain ⟨l, hparse, hl⟩ := hread.2
      ⟨hsize, ⟨hpart.ne_empty, hpart.no_comma, hpart.no_equals⟩, (hQ hW hsize).2 hpart.unclaimed⟩
    exact ⟨_, hw, Packed.decode_text_eq_ok.2 ⟨l, hparse, (hof l).2 hl⟩⟩

end Hypervisor
