/-
Network cards that read back from their text. Every entry carries a value, so the first separator of an entry is always
the one that was written; a text reads back unless an address or a bridge holds a comma, a member is outside of its
vocabulary, or a number is outside of its range.
-/
import Hypervisor.Guest.Nic
import Hypervisor.Proofs.Packed.Layout

namespace Hypervisor.Guest.Nic

open Fallible Property EntryList

/-! ## Options -/

theorem bridge_faithful : bridgeProperty.Faithful := faithful_of_optional (by decide) rfl rfl rfl

theorem firewall_faithful : firewallProperty.Faithful := faithful_of_default rfl rfl rfl ⟨false, rfl, rfl⟩

theorem linkDown_faithful : linkDownProperty.Faithful := faithful_of_default rfl rfl rfl ⟨false, rfl, rfl⟩

theorem tag_faithful : tagProperty.Faithful := faithful_of_optional (by decide) rfl rfl rfl

theorem mtu_faithful : mtuProperty.Faithful := faithful_of_optional (by decide) rfl rfl rfl

theorem rate_faithful : rateProperty.Faithful := faithful_of_optional (by decide) rfl rfl rfl

theorem queues_faithful : queuesProperty.Faithful := faithful_of_optional (by decide) rfl rfl rfl

theorem options_names (n : Nic) :
    n.options.map Attribute.name = ["bridge", "firewall", "link_down", "tag", "mtu", "rate", "queues"] := rfl

theorem options_nodup (n : Nic) : (n.options.map Attribute.name).Nodup := by
  rw [options_names]
  decide

/-- the entries behind the first -/
def written (n : Nic) : List Entry := n.options.flatMap Attribute.sentEntries

/-- what a network card must be for its text to read back, apart from the length -/
structure Portable (n : Nic) : Prop where
  model : ∃ m, n.model = .known m
  address : ∀ address ∈ n.address, ',' ∉ address.toList
  bridge : ∀ bridge ∈ n.bridge, ',' ∉ bridge.toList
  tag : ∀ tag ∈ n.tag, 1 ≤ tag.val ∧ tag.val ≤ 4094
  rate : ∀ rate ∈ n.rate, rate.isFinite = true
  queues : ∀ queues ∈ n.queues, queues.val ≤ 64

theorem tag_accepts_iff {tag : Option U16} : tagProperty.Accepts tag ↔ ∀ n ∈ tag, 1 ≤ n.val ∧ n.val ≤ 4094 := by
  rw [accepts_iff rfl]
  cases tag <;> simp

theorem queues_accepts_iff {queues : Option U8} : queuesProperty.Accepts queues ↔ ∀ n ∈ queues, n.val ≤ 64 := by
  rw [accepts_iff rfl]
  cases queues <;> simp

theorem rate_writable_iff {rate : Option Double} :
    (∃ o, rateProperty.outcome rate = .ok o) ↔ ∀ x ∈ rate, x.isFinite = true := by
  cases rate with
  | none => simp [exists_outcome_none (p := rateProperty) rfl]
  | some x =>
    constructor
    · rintro ⟨o, ho⟩ y hy
      obtain rfl := Option.some.inj hy
      obtain ⟨w, hw, -⟩ := (outcome_some (p := rateProperty) rfl (by decide)).1 ho
      exact (Double.encode_eq_ok.1 hw).1
    · intro h
      have hw := Double.encode_eq_ok (d := rateProperty.effectiveDialect).2 ⟨h x rfl, rfl⟩
      exact exists_outcome_of_encode (p := rateProperty) (a := some x) hw

/-- only the rate can be a value without a text -/
theorem writable_iff {n : Nic} : (∀ a ∈ n.options, ∃ o, a.outcome = .ok o) ↔ ∀ x ∈ n.rate, x.isFinite = true := by
  rw [← rate_writable_iff]
  simp only [options, List.forall_mem_cons]
  constructor
  · intro ⟨_, _, _, _, _, hrate, _⟩
    exact hrate
  · intro hrate
    exact ⟨exists_outcome_of_total_option (p := bridgeProperty) rfl _, exists_outcome_of_total firewallProperty _,
      exists_outcome_of_total linkDownProperty _, exists_outcome_of_total_option (p := tagProperty) rfl _,
      exists_outcome_of_total_option (p := mtuProperty) rfl _, hrate,
      exists_outcome_of_total_option (p := queuesProperty) rfl _, fun _ h => absurd h List.not_mem_nil⟩

theorem written_wellFormed {n : Nic} (hbridge : ∀ bridge ∈ n.bridge, ',' ∉ bridge.toList) :
    ∀ e ∈ n.written, e.WellFormed .strict := by
  intro e he
  obtain ⟨a, ha, text, htext, rfl⟩ := mem_options.1 he
  rcases List.mem_cons.1 ha with rfl | ha
  · have hkey : "bridge" ≠ "" ∧ ',' ∉ "bridge".toList ∧ '=' ∉ "bridge".toList := by decide
    refine ⟨hkey.1, hkey.2.1, hkey.2.2, ?_, fun h => (by cases h), fun _ => by decide⟩
    intro value hvalue
    obtain rfl := Option.some.inj hvalue
    have hsent := encode_of_outcome_send (p := bridgeProperty) htext
    cases hb : n.bridge with
    | none => rw [hb] at hsent; cases hsent
    | some bridge =>
      rw [hb] at hsent
      obtain rfl := Option.some.inj (Except.ok.inj hsent)
      exact hbridge _ hb
  · refine Attribute.IsTame.wellFormed rfl rfl (by decide) ?_ _ (mem_options.2 ⟨a, ha, text, htext, rfl⟩)
    simp only [List.forall_mem_cons]
    refine ⟨?_, ?_, ?_, ?_, ?_, ?_, fun _ h => absurd h List.not_mem_nil⟩ <;>
      exact attribute_isTame _ _ (by decide) (by decide)

/-! ## The first entry -/

/-- the first entry of a card with this model -/
def first (n : Nic) (m : NicModel) : Entry :=
  match n.address with
  | some address => ⟨Vocabulary.token m, some address⟩
  | none => ⟨modelProperty.name, some (Vocabulary.token m)⟩

theorem toEntries_eq_ok {n : Nic} {l : EntryList} :
    toEntries n = .ok l ↔
      ∃ m, n.model = .known m ∧ (∀ a ∈ n.options, ∃ o, a.outcome = .ok o) ∧ l = ⟨n.first m :: n.written⟩ := by
  unfold toEntries first
  rw [bind_eq_ok]
  constructor
  · intro ⟨token, htoken, hl⟩
    cases hm : n.model with
    | unknown => rw [hm] at htoken; cases htoken
    | known m =>
      rw [hm] at htoken
      obtain rfl := Except.ok.inj htoken
      exact ⟨m, rfl, layOut_eq_ok.1 hl⟩
  · intro ⟨m, hm, hl⟩
    exact ⟨Vocabulary.token m, by rw [hm]; rfl, layOut_eq_ok.2 hl⟩

/-- model and address, from the first entry or from their keys -/
def LeadRead (n : Nic) (l : EntryList) : Prop :=
  positional? l = some (n.model, n.address) ∨
    positional? l = none ∧ modelProperty.extractEntry l = .ok n.model ∧ addressProperty.extractEntry l = .ok n.address

/-- the options of a card as they are read -/
def OptionsRead (n : Nic) (l : EntryList) : Prop :=
  bridgeProperty.extractEntry l = .ok n.bridge ∧ firewallProperty.extractEntry l = .ok n.firewall ∧
    linkDownProperty.extractEntry l = .ok n.linkDown ∧ tagProperty.extractEntry l = .ok n.tag ∧
    mtuProperty.extractEntry l = .ok n.mtu ∧ rateProperty.extractEntry l = .ok n.rate ∧
    queuesProperty.extractEntry l = .ok n.queues

theorem ofEntries_eq_ok {l : EntryList} {n : Nic} : ofEntries l = .ok n ↔ n.LeadRead l ∧ n.OptionsRead l := by
  have hoptions : ∀ model address, ((do
      let bridge ← bridgeProperty.extractEntry l
      let firewall ← firewallProperty.extractEntry l
      let linkDown ← linkDownProperty.extractEntry l
      let tag ← tagProperty.extractEntry l
      let mtu ← mtuProperty.extractEntry l
      let rate ← rateProperty.extractEntry l
      let queues ← queuesProperty.extractEntry l
      pure { model, address, bridge, firewall, linkDown, tag, mtu, rate, queues } : Except PropertyFault Nic) = .ok n ↔
      (model = n.model ∧ address = n.address) ∧ n.OptionsRead l) := by
    intro model address
    simp only [bind_eq_ok, pure_eq_ok]
    constructor
    · rintro ⟨_, h₁, _, h₂, _, h₃, _, h₄, _, h₅, _, h₆, _, h₇, rfl⟩
      exact ⟨⟨rfl, rfl⟩, h₁, h₂, h₃, h₄, h₅, h₆, h₇⟩
    · rintro ⟨⟨rfl, rfl⟩, h₁, h₂, h₃, h₄, h₅, h₆, h₇⟩
      exact ⟨_, h₁, _, h₂, _, h₃, _, h₄, _, h₅, _, h₆, _, h₇, rfl⟩
  unfold ofEntries LeadRead
  cases hp : positional? l with
  | some p =>
    obtain ⟨model, address⟩ := p
    refine (hoptions model address).trans ?_
    simp
  | none =>
    refine bind_eq_ok.trans ?_
    constructor
    · intro ⟨model, hmodel, hrest⟩
      obtain ⟨address, haddress, hrest⟩ := bind_eq_ok.1 hrest
      obtain ⟨⟨rfl, rfl⟩, hread⟩ := (hoptions model address).1 hrest
      exact ⟨.inr ⟨rfl, hmodel, haddress⟩, hread⟩
    · intro ⟨hlead, hread⟩
      obtain ⟨-, hmodel, haddress⟩ := hlead.resolve_left (by simp)
      exact ⟨_, hmodel, bind_eq_ok.2 ⟨_, haddress, (hoptions _ _).2 ⟨⟨rfl, rfl⟩, hread⟩⟩⟩

/-- a model that was read is a member of the vocabulary -/
theorem LeadRead.exists_model {n : Nic} {l : EntryList} (h : n.LeadRead l) : ∃ m, n.model = .known m := by
  rcases h with hpositional | ⟨-, hmodel, -⟩
  · obtain ⟨e, -, hmap⟩ := Option.bind_eq_some_iff.1 hpositional
    obtain ⟨model, hmodel, heq⟩ := Option.map_eq_some_iff.1 hmap
    obtain ⟨m, -, rfl⟩ := Option.map_eq_some_iff.1 hmodel
    exact ⟨m, (Prod.mk.inj heq).1.symm⟩
  · have hfaithful : modelProperty.Faithful := faithful_of_required rfl rfl rfl
    obtain ⟨o, ho⟩ := hfaithful.writable _ _ hmodel
    cases hm : n.model with
    | known m => exact ⟨m, rfl⟩
    | unknown => rw [hm] at ho; cases ho

theorem token_plain (m : NicModel) :
    Vocabulary.token m ≠ "" ∧ ',' ∉ (Vocabulary.token m).toList ∧ '=' ∉ (Vocabulary.token m).toList := by
  cases m <;> decide

theorem first_wellFormed {n : Nic} (m : NicModel) (haddress : ∀ address ∈ n.address, ',' ∉ address.toList) :
    (n.first m).WellFormed .strict := by
  obtain ⟨hne, hcomma, hequals⟩ := token_plain m
  unfold first
  cases ha : n.address with
  | some address =>
    refine ⟨hne, hcomma, hequals, ?_, fun h => (by cases h), fun _ => by decide⟩
    intro value hvalue
    obtain rfl := Option.some.inj hvalue
    exact haddress _ ha
  | none =>
    have hkey : modelProperty.name ≠ "" ∧ ',' ∉ modelProperty.name.toList ∧ '=' ∉ modelProperty.name.toList := by decide
    refine ⟨hkey.1, hkey.2.1, hkey.2.2, ?_, fun h => (by cases h), fun _ => by decide⟩
    intro value hvalue
    obtain rfl := Option.some.inj hvalue
    exact hcomma

/-- no option has the key of the first entry -/
theorem first_key_not_option (n : Nic) (m : NicModel) : (n.first m).key ∉ n.options.map Attribute.name := by
  have htoken : Vocabulary.token m ∉ ["bridge", "firewall", "link_down", "tag", "mtu", "rate", "queues"] := by
    cases m <;> decide
  rw [options_names]
  unfold first
  cases n.address with
  | some address => exact htoken
  | none => exact show modelProperty.name ∉ ["bridge", "firewall", "link_down", "tag", "mtu", "rate", "queues"] by decide

/-- behind the first entry, model and address are read back as they are -/
theorem leadRead_first {n n' : Nic} {m : NicModel} :
    n'.LeadRead ⟨n.first m :: n.written⟩ ↔ n'.model = .known m ∧ n'.address = n.address := by
  unfold LeadRead first
  cases n.address with
  | some address =>
    have hpositional : positional? ⟨⟨Vocabulary.token m, some address⟩ :: n.written⟩ =
        some (.known m, some address) := by
      change ((Scalar.read? (Vocabulary.token m)).map fun model : Choice NicModel => (model, some address)) = _
      rw [LawfulScalar.read?_write (Choice.known m) _ rfl, Option.map_some]
    simp [hpositional, eq_comm]
  | none =>
    have hpositional : positional? ⟨⟨modelProperty.name, some (Vocabulary.token m)⟩ :: n.written⟩ = none := rfl
    have hmodel : ∀ model, modelProperty.extractEntry
        ⟨⟨modelProperty.name, some (Vocabulary.token m)⟩ :: n.written⟩ = .ok model ↔ model = .known m := by
      intro model
      rw [extractEntry, get?_cons_self ⟨modelProperty.name, some (Vocabulary.token m)⟩, Option.map_some,
        resolve_text_plain rfl]
      have hdecode := LawfulWire.decode_encode modelProperty.effectiveDialect (Choice.known m) _ rfl
      rw [hdecode, Except.ok.injEq, eq_comm, and_iff_left (accepts_of_no_check rfl model)]
    have haddress : ∀ address, addressProperty.extractEntry
        ⟨⟨modelProperty.name, some (Vocabulary.token m)⟩ :: n.written⟩ = .ok address ↔ address = none := by
      intro address
      have hnone : get? ⟨⟨modelProperty.name, some (Vocabulary.token m)⟩ :: n.written⟩ addressProperty.name = none := by
        have hkey : modelProperty.name ≠ addressProperty.name := by decide
        refine get?_eq_none (List.forall_mem_cons.2 ⟨hkey, forall_options_key_ne.2 fun a ha _ hname => ?_⟩)
        have hmem : addressProperty.name ∈ n.options.map Attribute.name := hname ▸ List.mem_map_of_mem ha
        rw [options_names] at hmem
        exact absurd hmem (by decide)
      rw [extractEntry, hnone]
      exact resolve_none_of_optional rfl rfl
    rw [hpositional, hmodel, haddress]
    simp

/-- behind the first entry, options read back as themselves when they are in range -/
theorem optionsRead_iff {n n' : Nic} {m : NicModel} (hout : ∀ a ∈ n.options, ∃ o, a.outcome = .ok o) :
    n'.OptionsRead ⟨n.first m :: n.written⟩ ↔
      (n'.bridge = n.bridge ∧ n'.firewall = n.firewall ∧ n'.linkDown = n.linkDown ∧ n'.tag = n.tag ∧
        n'.mtu = n.mtu ∧ n'.rate = n.rate ∧ n'.queues = n.queues) ∧
        tagProperty.Accepts n.tag ∧ queuesProperty.Accepts n.queues := by
  have hread {α : Type} [Wire α] {p : Property α} {a b : α} (hf : p.Faithful) (hp : p.attribute a ∈ n.options) :
      p.extractEntry ⟨n.first m :: n.written⟩ = .ok b ↔ b = a ∧ p.Accepts a := by
    have hpos : ∀ e ∈ [n.first m], e.key ≠ p.name := by
      intro e he hname
      rw [List.mem_singleton.1 he] at hname
      exact n.first_key_not_option m (hname ▸ List.mem_map_of_mem hp)
    have hoptions := extractEntry_options (b := b) n.options_nodup hout hp hpos
    rw [List.singleton_append] at hoptions
    refine hoptions.trans ((hf.readsAs_iff a b).trans ?_)
    exact ⟨fun ⟨hb, _, hacc⟩ => ⟨hb, hacc⟩, fun ⟨hb, hacc⟩ => ⟨hb, hout _ hp, hacc⟩⟩
  unfold OptionsRead
  rw [hread bridge_faithful (a := n.bridge) (by simp [options]),
    hread firewall_faithful (a := n.firewall) (by simp [options]),
    hread linkDown_faithful (a := n.linkDown) (by simp [options]), hread tag_faithful (a := n.tag) (by simp [options]),
    hread mtu_faithful (a := n.mtu) (by simp [options]), hread rate_faithful (a := n.rate) (by simp [options]),
    hread queues_faithful (a := n.queues) (by simp [options])]
  constructor
  · intro ⟨⟨h₁, _⟩, ⟨h₂, _⟩, ⟨h₃, _⟩, ⟨h₄, htag⟩, ⟨h₅, _⟩, ⟨h₆, _⟩, ⟨h₇, hqueues⟩⟩
    exact ⟨⟨h₁, h₂, h₃, h₄, h₅, h₆, h₇⟩, htag, hqueues⟩
  · intro ⟨⟨h₁, h₂, h₃, h₄, h₅, h₆, h₇⟩, htag, hqueues⟩
    exact ⟨⟨h₁, rfl⟩, ⟨h₂, rfl⟩, ⟨h₃, rfl⟩, ⟨h₄, htag⟩, ⟨h₅, rfl⟩, ⟨h₆, rfl⟩, ⟨h₇, hqueues⟩⟩

/-! ## The round trip -/

/-- a text that is read stands in the list -/
theorem get?_of_extractEntry {p : Property (Option String)} (hp : p.presence = .optional) (ht : p.transform = none)
    {l : EntryList} {s : String} (h : p.extractEntry l = .ok (some s)) : l.get? p.name = some s := by
  rw [extractEntry] at h
  cases hget : l.get? p.name with
  | none =>
    rw [hget] at h
    cases (resolve_none_of_optional hp ht).1 h
  | some value =>
    rw [hget] at h
    exact Except.ok.inj ((resolve_text_plain ht).1 h).1

/-- address and bridge are read from single entries, so they hold no comma -/
theorem no_comma_of_ofEntries {l : EntryList} (hl : ∀ e ∈ l.entries, e.WellFormed .strict) {n : Nic}
    (h : ofEntries l = .ok n) :
    (∀ address ∈ n.address, ',' ∉ address.toList) ∧ ∀ bridge ∈ n.bridge, ',' ∉ bridge.toList := by
  obtain ⟨hlead, hbridge, -⟩ := ofEntries_eq_ok.1 h
  constructor
  · intro address ha
    rcases hlead with hpositional | ⟨-, -, haddress⟩
    · obtain ⟨e, he, hmap⟩ := Option.bind_eq_some_iff.1 hpositional
      obtain ⟨model, -, heq⟩ := Option.map_eq_some_iff.1 hmap
      have hvalue : e.value = n.address := (Prod.mk.inj heq).2
      exact (hl e (List.mem_of_mem_head? he)).list_not_mem_value address (hvalue ▸ ha)
    · rw [Option.mem_def.1 ha] at haddress
      exact (hl _ (exists_of_get? (get?_of_extractEntry rfl rfl haddress))).list_not_mem_value address rfl
  · intro bridge hb
    rw [Option.mem_def.1 hb] at hbridge
    exact (hl _ (exists_of_get? (get?_of_extractEntry rfl rfl hbridge))).list_not_mem_value bridge rfl

/-- **What is read from the text of a card.** If address and bridge come back, then so does everything, and the card is
portable. -/
theorem eq_of_read {n n' : Nic} {w : String} (hw : Wire.encode .strict n = .ok (some w))
    (hread : Wire.decode .strict (.text w) = .ok n') (haddress : n'.address = n.address)
    (hbridge : n'.bridge = n.bridge) : n' = n ∧ n.Portable ∧ w.utf8ByteSize ≤ 65536 := by
  obtain ⟨l, hl, rfl⟩ := Packed.encode_eq_ok.1 hw
  obtain ⟨l', hparse, hl'⟩ := Packed.decode_text_eq_ok.1 hread
  obtain ⟨hwrite, hwf'⟩ := parse_eq_ok_iff.1 hparse
  obtain ⟨m, hm, hout, rfl⟩ := toEntries_eq_ok.1 hl
  obtain ⟨haddress', hbridge'⟩ := no_comma_of_ofEntries hwf'.entries hl'
  rw [haddress] at haddress'
  rw [hbridge] at hbridge'
  have hwf : (⟨n.first m :: n.written⟩ : EntryList).WellFormed .strict := by
    refine ⟨?_, hwrite ▸ hwf'.size, List.forall_mem_cons.2 ⟨first_wellFormed m haddress', written_wellFormed hbridge'⟩⟩
    have hlength : n.written.length ≤ 7 := length_options_le n.options
    change n.written.length + 1 ≤ 256
    omega
  obtain rfl : l' = ⟨n.first m :: n.written⟩ := Except.ok.inj (hparse.symm.trans (parse_eq_ok_iff.2 ⟨rfl, hwf⟩))
  obtain ⟨hlead, hoptions⟩ := ofEntries_eq_ok.1 hl'
  obtain ⟨hmodel, -⟩ := leadRead_first.1 hlead
  obtain ⟨⟨h₁, h₂, h₃, h₄, h₅, h₆, h₇⟩, htag, hqueues⟩ := (optionsRead_iff hout).1 hoptions
  have hn : n' = n := by
    cases n
    cases n'
    simp only at hm hmodel haddress h₁ h₂ h₃ h₄ h₅ h₆ h₇
    simp [hm, hmodel, haddress, h₁, h₂, h₃, h₄, h₅, h₆, h₇]
  exact ⟨hn, ⟨⟨m, hm⟩, haddress', hbridge', tag_accepts_iff.1 htag, writable_iff.1 hout, queues_accepts_iff.1 hqueues⟩,
    hwf.size⟩

/-- **Network cards that read back.** The text is not too long and the card is portable; an address or a bridge may hold
anything but a comma. -/
theorem roundTrips_iff {n : Nic} :
    Wire.RoundTrips .strict n ↔ n.Portable ∧ ∃ w, Wire.encode .strict n = .ok (some w) ∧ w.utf8ByteSize ≤ 65536 := by
  constructor
  · intro ⟨w, hw, hread⟩
    obtain ⟨-, hportable, hsize⟩ := eq_of_read hw hread rfl rfl
    exact ⟨hportable, w, hw, hsize⟩
  · intro ⟨hportable, w, hw, hsize⟩
    refine ⟨w, hw, ?_⟩
    obtain ⟨l, hl, rfl⟩ := Packed.encode_eq_ok.1 hw
    obtain ⟨m, hm, hout, rfl⟩ := toEntries_eq_ok.1 hl
    have hwf : (⟨n.first m :: n.written⟩ : EntryList).WellFormed .strict := by
      refine ⟨?_, hsize, List.forall_mem_cons.2
        ⟨first_wellFormed m hportable.address, written_wellFormed hportable.bridge⟩⟩
      have hlength : n.written.length ≤ 7 := length_options_le n.options
      change n.written.length + 1 ≤ 256
      omega
    refine Packed.decode_text_eq_ok.2 ⟨_, parse_eq_ok_iff.2 ⟨rfl, hwf⟩, ofEntries_eq_ok.2 ⟨?_, ?_⟩⟩
    · exact leadRead_first.2 ⟨hm, rfl⟩
    · exact (optionsRead_iff hout).2 ⟨⟨rfl, rfl, rfl, rfl, rfl, rfl, rfl⟩, tag_accepts_iff.2 hportable.tag,
        queues_accepts_iff.2 hportable.queues⟩

/-- a portable card has a text -/
theorem Portable.exists_encode {n : Nic} (h : n.Portable) : ∃ w, Wire.encode .strict n = .ok (some w) := by
  obtain ⟨m, hm⟩ := h.model
  exact ⟨_, Packed.encode_eq_ok.2 ⟨_, toEntries_eq_ok.2 ⟨m, hm, writable_iff.2 h.rate, rfl⟩, rfl⟩⟩

/-- **Every card that was read is portable**, whatever spelling it was read from. -/
theorem portable_of_decode {n : Nic} {raw : String} (h : Wire.decode .strict (.text raw) = .ok n) : n.Portable := by
  obtain ⟨l, hparse, hl⟩ := Packed.decode_text_eq_ok.1 h
  obtain ⟨haddress, hbridge⟩ := no_comma_of_ofEntries (parse_eq_ok_iff.1 hparse).2.entries hl
  obtain ⟨hlead, -, -, -, htag, -, hrate, hqueues⟩ := ofEntries_eq_ok.1 hl
  exact ⟨hlead.exists_model, haddress, hbridge, tag_accepts_iff.1 (tag_faithful.accepts _ _ htag),
    rate_writable_iff.1 (rate_faithful.writable _ _ hrate), queues_accepts_iff.1 (queues_faithful.accepts _ _ hqueues)⟩

/-! ## Equality -/

theorem beq_iff {a b : Nic} :
    (a == b) = true ↔
      a.model = b.model ∧ a.address = b.address ∧ a.bridge = b.bridge ∧ a.firewall = b.firewall ∧
        a.linkDown = b.linkDown ∧ a.tag = b.tag ∧ a.mtu = b.mtu ∧ (a.rate == b.rate) = true ∧ a.queues = b.queues := by
  cases a
  cases b
  change instBEqNic.beq _ _ = true ↔ _
  simp [instBEqNic.beq]

/-- only a rate that is not a number differs from itself -/
theorem beq_self {n : Nic} (h : ∀ rate ∈ n.rate, rate.isFinite = true) : (n == n) = true := by
  refine beq_iff.2 ⟨rfl, rfl, rfl, rfl, rfl, rfl, rfl, ?_, rfl⟩
  cases hr : n.rate with
  | none => rfl
  | some rate => exact Double.beq_self_of_isFinite (h rate hr)

/-- a card that comes back equal comes back the same -/
theorem survives_iff {n : Nic} : Wire.Survives .strict n ↔ Wire.RoundTrips .strict n := by
  constructor
  · intro ⟨w, n', hw, hread, heq⟩
    obtain ⟨-, haddress, hbridge, -⟩ := beq_iff.1 heq
    obtain ⟨rfl, -, -⟩ := eq_of_read hw hread haddress hbridge
    exact ⟨w, hw, hread⟩
  · intro h
    obtain ⟨hportable, -⟩ := roundTrips_iff.1 h
    obtain ⟨w, hw, hread⟩ := h
    exact ⟨w, n, hw, hread, beq_self hportable.rate⟩

end Hypervisor.Guest.Nic
