/-
Which packed values survive their own text.

The options of a packed value are tame, so that free text alone decides. A part that is written bare shares its place
with the keys of the options: it must not be empty, must hold no separator, and must not be the name of an option that
is written behind it, for that option would then be read from the part and found missing. Which options those are is
told from the value and not from its text: the options that are set, and the switches that are not at their default.

- `disks_and_links_survive_iff`: disks and links, each a bare part with options.
- `CpuModel.models_survive_iff`: processor models, where a list of switches is packed once more between the part and an option.
- `Nic.cards_survive_iff`: network cards, which write no bare part. A comma is all that an address or a bridge may not
  hold, and a text that was cut at such a comma is never read as the card that was written.
-/
import Hypervisor.Proofs.Property.Wordless

namespace Hypervisor

open Fallible Property EntryList

/-! ## Options that are written -/

namespace Property

/-- a set option is sent, an unset one is not -/
theorem isSent_iff_isSome {β : Type} [Wire β] [VoicedWire β] {p : Property (Option β)} {a : Option β}
    (hp : p.presence = .optional) (he : p.emission ≠ .never) (hout : ∃ o, p.outcome a = .ok o) :
    (p.attribute a).IsSent ↔ a.isSome = true := by
  cases a with
  | none =>
    refine iff_of_false ?_ (by simp)
    intro ⟨text, hsent⟩
    cases outcome_none hp hsent
  | some x =>
    refine iff_of_true ?_ rfl
    obtain ⟨o, ho⟩ := hout
    obtain ⟨text, -, rfl⟩ := (outcome_some hp he).1 ho
    exact ⟨text, ho⟩

/-- a switch is sent where it is not at its default -/
theorem isSent_iff_bne {p : Property Bool} {b : Bool} (default : Bool) (he : p.emission = .omitDefault)
    (hp : p.presence = .default (if default then "1" else "0")) :
    (p.attribute b).IsSent ↔ (b != default) = true := by
  have hencode : Wire.encode p.effectiveDialect b = .ok (some (if b then "1" else "0")) := rfl
  have htext : (if b then "1" else "0") = (if default then "1" else "0") ↔ b = default := by
    cases b <;> cases default <;> decide
  rw [bne_iff_ne]
  constructor
  · rintro ⟨text, hsent⟩ hdefault
    obtain ⟨w, hw, hcase⟩ := (outcome_of_default he hp).1 hsent
    obtain rfl := Option.some.inj (Except.ok.inj (hencode.symm.trans hw))
    rw [if_pos (htext.2 hdefault)] at hcase
    cases hcase
  · intro hne
    refine ⟨_, (outcome_of_default he hp).2 ⟨_, hencode, if_neg ?_⟩⟩
    exact fun h => hne (htext.1 h)

end Property

/-- the names that are marked -/
def marked (names : List (String × Bool)) : List String := (names.filter Prod.snd).map Prod.fst

theorem mem_marked {names : List (String × Bool)} {name : String} : name ∈ marked names ↔ (name, true) ∈ names := by
  simp [marked]

/-- where each name is marked if its attribute is sent, the keys of the entries are the marked names -/
theorem forall_key_ne_iff {as : List Attribute} {names : List (String × Bool)}
    (h : List.Forall₂ (fun a name => a.name = name.1 ∧ (a.IsSent ↔ name.2 = true)) as names) {key : String} :
    (∀ e ∈ as.flatMap Attribute.sentEntries, e.key ≠ key) ↔ key ∉ marked names := by
  rw [forall_options_key_ne, mem_marked]
  constructor
  · intro hkey hmem
    obtain ⟨a, ha, hname, hsent⟩ := exists_of_mem_right h hmem
    exact hkey a ha (hsent.2 rfl) hname
  · rintro hkey a ha hsent rfl
    obtain ⟨⟨name, shown⟩, hmem, hname, hshown⟩ := exists_of_mem_right h.flip ha
    obtain rfl : a.name = name := hname
    obtain rfl : shown = true := hshown.1 hsent
    exact hkey hmem

namespace EntryList

/-- a text that can stand bare in front of options with these names -/
structure StandsBare (part : String) (options : List String) : Prop where
  ne_empty : part ≠ ""
  no_comma : ',' ∉ part.toList
  no_equals : '=' ∉ part.toList
  /-- an option of that name would be read from the part -/
  not_option : part ∉ options

theorem plainPart_iff {part : String} {rest : List Entry} {options : List String}
    (h : (∀ e ∈ rest, e.key ≠ part) ↔ part ∉ options) : PlainPart part rest ↔ StandsBare part options := by
  constructor
  · intro hplain
    exact ⟨hplain.ne_empty, hplain.no_comma, hplain.no_equals, h.1 hplain.unclaimed⟩
  · intro hbare
    exact ⟨hbare.ne_empty, hbare.no_comma, hbare.no_equals, h.2 hbare.not_option⟩

end EntryList

/-- no text of the value is too long to be read -/
def Wire.Fits {α : Type} [Wire α] (d : Dialect) (a : α) : Prop :=
  ∀ w, encode d a = .ok (some w) → w.utf8ByteSize ≤ 65536

theorem Choice.any_isUnknown_eq_false {α : Type} {c : Option (Choice α)} :
    c.any isUnknown = false ↔ c ≠ some .unknown := by
  rcases c with _ | _ | _ <;> simp [isUnknown]

/-! ## Disks and links -/

namespace Guest.Disk

/-- the options that a disk writes: those that are set, switches that are on, and `backup` where it is off -/
def optionNames (d : Disk) : List String :=
  marked
    [("size", d.size.isSome), ("cache", d.cache.isSome), ("discard", d.discard.isSome), ("ssd", d.ssd),
      ("iothread", d.iothread), ("backup", !d.backup), ("media", d.media.isSome), ("format", d.format.isSome)]

/-- what a disk must be to come back from its text -/
structure Lasting (d : Disk) : Prop where
  cache : d.cache ≠ some .unknown
  discard : d.discard ≠ some .unknown
  media : d.media ≠ some .unknown
  format : d.format ≠ some .unknown
  volume : StandsBare d.volume d.optionNames
  fits : Wire.Fits .propertyString d

/-- a disk has a text unless one of its modes has none -/
theorem exists_encode_iff {d : Disk} :
    (∃ w, Wire.encode .propertyString d = .ok (some w)) ↔
      d.cache ≠ some .unknown ∧ d.discard ≠ some .unknown ∧ d.media ≠ some .unknown ∧ d.format ≠ some .unknown := by
  rw [Wire.exists_text_iff, wire_isWordless]
  simp only [isWordless, Bool.or_eq_false_iff, Choice.any_isUnknown_eq_false, and_assoc]

/-- behind the volume stand the options that are set or not at their default -/
theorem written_keys {d : Disk} (hout : ∀ a ∈ d.options, ∃ o, a.outcome = .ok o) :
    (∀ e ∈ d.written, e.key ≠ d.volume) ↔ d.volume ∉ d.optionNames := by
  simp only [options, List.forall_mem_cons] at hout
  obtain ⟨h₁, h₂, h₃, -, -, -, h₇, h₈, -⟩ := hout
  refine forall_key_ne_iff ?_
  refine .cons ⟨rfl, isSent_iff_isSome rfl (by decide) h₁⟩ <| .cons ⟨rfl, isSent_iff_isSome rfl (by decide) h₂⟩ <|
    .cons ⟨rfl, isSent_iff_isSome rfl (by decide) h₃⟩ <| .cons ⟨rfl, ?_⟩ <| .cons ⟨rfl, ?_⟩ <| .cons ⟨rfl, ?_⟩ <|
    .cons ⟨rfl, isSent_iff_isSome rfl (by decide) h₇⟩ <| .cons ⟨rfl, isSent_iff_isSome rfl (by decide) h₈⟩ .nil
  · rw [isSent_iff_bne false rfl rfl, Bool.bne_false]
  · rw [isSent_iff_bne false rfl rfl, Bool.bne_false]
  · rw [isSent_iff_bne true rfl rfl, Bool.bne_true]

theorem roundTrips_iff_lasting {d : Disk} : Wire.RoundTrips .propertyString d ↔ d.Lasting := by
  have hplain (hout : ∃ w, Wire.encode .propertyString d = .ok (some w)) :
      PlainPart d.volume d.written ↔ StandsBare d.volume d.optionNames := by
    obtain ⟨w, hw⟩ := hout
    obtain ⟨l, hl, -⟩ := Packed.encode_eq_ok.1 hw
    exact plainPart_iff (written_keys (toEntries_eq_ok.1 hl).1)
  rw [roundTrips_iff]
  constructor
  · intro ⟨⟨w, hw, hsize⟩, hvolume⟩
    obtain ⟨hcache, hdiscard, hmedia, hformat⟩ := exists_encode_iff.1 ⟨w, hw⟩
    exact ⟨hcache, hdiscard, hmedia, hformat, (hplain ⟨w, hw⟩).1 hvolume,
      (Wire.exists_encode_and_iff ⟨w, hw⟩).1 ⟨w, hw, hsize⟩⟩
  · intro h
    have hout := exists_encode_iff.2 ⟨h.cache, h.discard, h.media, h.format⟩
    exact ⟨(Wire.exists_encode_and_iff hout).2 h.fits, (hplain hout).2 h.volume⟩

end Guest.Disk

namespace Cluster.Link

/-- the options that a link writes -/
def optionNames (l : Link) : List String := marked [("priority", l.priority.isSome)]

/-- what a link must be to come back from its text -/
structure Lasting (l : Link) : Prop where
  address : StandsBare l.address l.optionNames
  fits : Wire.Fits .propertyString l

theorem written_keys (l : Link) : (∀ e ∈ l.written, e.key ≠ l.address) ↔ l.address ∉ l.optionNames := by
  have hsent : (priorityProperty.attribute l.priority).IsSent ↔ l.priority.isSome = true :=
    isSent_iff_isSome rfl (by decide) (exists_outcome_of_total_option rfl _)
  exact forall_key_ne_iff (.cons ⟨rfl, hsent⟩ .nil)

theorem roundTrips_iff_lasting {l : Link} : Wire.RoundTrips .propertyString l ↔ l.Lasting := by
  rw [roundTrips_iff, Wire.exists_encode_and_iff l.exists_encode, plainPart_iff l.written_keys]
  constructor
  · intro ⟨hfits, haddress⟩
    exact ⟨haddress, hfits⟩
  · intro h
    exact ⟨h.fits, h.address⟩

end Cluster.Link

/-- **Disks and links that survive their text.** A disk comes back from its text exactly if its modes are known, its
volume can stand bare in front of the options that the disk writes, and the text is not too long; a link comes back
exactly if its address can stand bare in front of its priority, if it has one, and the text is not too long. -/
theorem disks_and_links_survive_iff :
    (∀ d : Guest.Disk, Wire.RoundTrips .propertyString d ↔ d.Lasting) ∧
      ∀ l : Cluster.Link, Wire.RoundTrips .propertyString l ↔ l.Lasting :=
  ⟨fun _ => Guest.Disk.roundTrips_iff_lasting, fun _ => Cluster.Link.roundTrips_iff_lasting⟩

-- a volume may be named like a switch, as long as the switch is at its default and so is not written
example : (Guest.Disk.onVolume "backup").optionNames = [] ∧
    { Guest.Disk.onVolume "backup" with backup := false }.optionNames = ["backup"] := by decide

/-! ## Processor models -/

namespace Guest.CpuModel

/-- the entries behind the name of a model: the switches, if there are any, and `hidden` where it is on -/
def optionNames (c : CpuModel) : List String := marked [("flags", !c.flags.isEmpty), ("hidden", c.hidden)]

/-- what a processor model must be to come back from its text -/
structure Lasting (c : CpuModel) : Prop where
  name : StandsBare c.name c.optionNames
  flags : FlagsFit c.flags
  fits : Wire.Fits .propertyString c

theorem written_keys (c : CpuModel) : (∀ e ∈ c.written, e.key ≠ c.name) ↔ c.name ∉ c.optionNames := by
  have hflags : (∀ e ∈ c.flagEntries, e.key ≠ c.name) ↔ c.name ∉ marked [("flags", !c.flags.isEmpty)] := by
    unfold flagEntries
    cases c.flags <;> simp [marked, eq_comm]
  have hhidden : (∀ e ∈ c.options.flatMap Attribute.sentEntries, e.key ≠ c.name) ↔
      c.name ∉ marked [("hidden", c.hidden)] := by
    have hsent : (hiddenProperty.attribute c.hidden).IsSent ↔ c.hidden = true := by
      rw [isSent_iff_bne false rfl rfl, Bool.bne_false]
    exact forall_key_ne_iff (.cons ⟨rfl, hsent⟩ .nil)
  rw [written, List.forall_mem_append, hflags, hhidden]
  simp [optionNames, mem_marked]

/-- **Processor models that survive their text.** A model comes back from its text exactly if its name can stand bare in
front of its switches and of `hidden`, there are at most 256 switches, no name of a switch is empty or holds a separator
of the switches or of the model, and the text is not too long. -/
theorem models_survive_iff (c : CpuModel) : Wire.RoundTrips .propertyString c ↔ c.Lasting := by
  rw [roundTrips_iff, Wire.exists_encode_and_iff c.exists_encode, plainPart_iff c.written_keys]
  constructor
  · intro ⟨hfits, hflags, hname⟩
    exact ⟨hname, hflags, hfits⟩
  · intro h
    exact ⟨h.fits, h.flags, h.name⟩

end Guest.CpuModel

/-! ## Network cards -/

namespace Guest.Nic

theorem roundTrips_iff_fits {n : Nic} : Wire.RoundTrips .strict n ↔ n.Portable ∧ Wire.Fits .strict n := by
  rw [roundTrips_iff]
  exact and_congr_right fun h => Wire.exists_encode_and_iff h.exists_encode

/-- a text with a comma out of place is refused, or read as a card with another address or bridge -/
theorem lead_ne_of_comma {n n' : Nic} {part w : String} (hpart : n.address = some part ∨ n.bridge = some part)
    (hcomma : ',' ∈ part.toList) (hw : Wire.encode .strict n = .ok (some w))
    (hread : Wire.decode .strict (.text w) = .ok n') : n'.address ≠ n.address ∨ n'.bridge ≠ n.bridge := by
  by_contra hsame
  obtain ⟨haddress, hbridge⟩ : n'.address = n.address ∧ n'.bridge = n.bridge := by simpa using hsame
  obtain ⟨-, hportable, -⟩ := eq_of_read hw hread haddress hbridge
  rcases hpart with h | h
  · exact hportable.address part h hcomma
  · exact hportable.bridge part h hcomma

/-- **Network cards that survive their text.** A card comes back from its text, number for number or merely equal,
exactly if its model is known, its address and its bridge hold no comma, its tag, rate and queues are in range where they
are set, and the text is not too long. Where an address or a bridge does hold a comma, the text is not read as the card,
whatever stands behind the comma: it is refused, or the card that is read differs from the one written in its address or
its bridge. -/
theorem cards_survive_iff :
    (∀ n : Nic,
      (Wire.RoundTrips .strict n ↔ n.Portable ∧ Wire.Fits .strict n) ∧
        (Wire.Survives .strict n ↔ n.Portable ∧ Wire.Fits .strict n)) ∧
      ∀ (n : Nic) (part : String), (n.address = some part ∨ n.bridge = some part) → ',' ∈ part.toList →
        ∀ w, Wire.encode .strict n = .ok (some w) → ∀ n', Wire.decode .strict (.text w) = .ok n' →
          (n'.address ≠ n.address ∨ n'.bridge ≠ n.bridge) ∧ (n' == n) = false := by
  refine ⟨fun n => ⟨roundTrips_iff_fits, survives_iff.trans roundTrips_iff_fits⟩, ?_⟩
  intro n part hpart hcomma w hw n' hread
  have hne := lead_ne_of_comma hpart hcomma hw hread
  refine ⟨hne, Bool.eq_false_iff.2 fun heq => ?_⟩
  obtain ⟨-, haddress, hbridge, -⟩ := beq_iff.1 heq
  exact hne.elim (fun h => h haddress) fun h => h hbridge

/-- an option behind a comma is read as one, so that the card that is read is another; signs of equality do no harm -/
theorem cards_survive_iff_forged :
    (Wire.decode .strict (.text "model=virtio,bridge=vmbr0,firewall=1") =
        .ok { onBridge (.known .virtio) "vmbr0" with firewall := true } ∧
      ({ onBridge (.known .virtio) "vmbr0" with firewall := true } == onBridge (.known .virtio) "vmbr0,firewall=1") =
        false) ∧
      Wire.RoundTrips .strict { onBridge (.known .virtio) "a=b" with address := some "" } := by
  obtain ⟨hsurvive, hforged⟩ := cards_survive_iff
  have hw : Wire.encode .strict (onBridge (.known .virtio) "vmbr0,firewall=1") =
      .ok (some "model=virtio,bridge=vmbr0,firewall=1") := rfl
  have hread : Wire.decode .strict (.text "model=virtio,bridge=vmbr0,firewall=1") =
      .ok { onBridge (.known .virtio) "vmbr0" with firewall := true } := rfl
  refine ⟨⟨hread, (hforged _ "vmbr0,firewall=1" (.inr rfl) (by decide) _ hw _ hread).2⟩, (hsurvive _).1.2 ⟨?_, ?_⟩⟩
  · exact ⟨⟨.virtio, rfl⟩, by simp, by simp [onBridge], by simp [onBridge], by simp [onBridge], by simp [onBridge]⟩
  · intro w hw
    obtain rfl : "virtio=,bridge=a=b" = w := Option.some.inj (Except.ok.inj hw)
    decide

end Guest.Nic

end Hypervisor
