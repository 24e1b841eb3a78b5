/-
Disks that read back from their text: those whose volume can stand bare and is not the name of an option behind it.

Every option is a faithful property with tame texts, so only the volume, which is free text, decides.
-/
import Hypervisor.Guest.Disk
import Hypervisor.Proofs.Packed.Layout

namespace Hypervisor.Guest

open Fallible Property EntryList

instance : TameWire (Choice CacheMode) := Choice.tameWire fun a => by cases a <;> decide

instance : TameWire (Choice Discard) := Choice.tameWire fun a => by cases a <;> decide

instance : TameWire (Choice Media) := Choice.tameWire fun a => by cases a <;> decide

instance : TameWire (Choice DiskFormat) := Choice.tameWire fun a => by cases a <;> decide

namespace Disk

/-! ## Options -/

theorem size_faithful : sizeProperty.Faithful := faithful_of_optional (by decide) rfl rfl rfl

theorem cache_faithful : cacheProperty.Faithful := faithful_of_optional (by decide) rfl rfl rfl

theorem discard_faithful : discardProperty.Faithful := faithful_of_optional (by decide) rfl rfl rfl

theorem ssd_faithful : ssdProperty.Faithful := faithful_of_default rfl rfl rfl ⟨false, rfl, rfl⟩

theorem iothread_faithful : iothreadProperty.Faithful := faithful_of_default rfl rfl rfl ⟨false, rfl, rfl⟩

theorem backup_faithful : backupProperty.Faithful := faithful_of_default rfl rfl rfl ⟨true, rfl, rfl⟩

theorem media_faithful : mediaProperty.Faithful := faithful_of_optional (by decide) rfl rfl rfl

theorem format_faithful : formatProperty.Faithful := faithful_of_optional (by decide) rfl rfl rfl

theorem options_names (d : Disk) :
    d.options.map Attribute.name = ["size", "cache", "discard", "ssd", "iothread", "backup", "media", "format"] := rfl

theorem options_nodup (d : Disk) : (d.options.map Attribute.name).Nodup := by
  rw [options_names]
  decide

theorem options_tame (d : Disk) : ∀ a ∈ d.options, a.IsTame := by
  simp only [options, List.forall_mem_cons]
  refine ⟨?_, ?_, ?_, ?_, ?_, ?_, ?_, ?_, fun _ h => absurd h List.not_mem_nil⟩ <;>
    exact attribute_isTame _ _ (by decide) (by decide)

/-- the entries behind the volume -/
def written (d : Disk) : List Entry := d.options.flatMap Attribute.sentEntries

theorem written_wellFormed (d : Disk) : ∀ e ∈ d.written, e.WellFormed .propertyString :=
  Attribute.IsTame.wellFormed rfl rfl (by decide) d.options_tame

theorem written_length (d : Disk) : d.written.length < 256 :=
  lt_of_le_of_lt (length_options_le d.options) (show 8 < 256 by omega)

theorem file_not_written (d : Disk) : ∀ e ∈ d.written, e.key ≠ fileProperty.name := by
  intro e he hkey
  obtain ⟨a, ha, text, -, rfl⟩ := mem_options.1 he
  have hmem : fileProperty.name ∈ d.options.map Attribute.name := hkey ▸ List.mem_map_of_mem ha
  rw [options_names] at hmem
  exact absurd hmem (by decide)

/-! ## Reading -/

/-- the options of a disk as they are read -/
def OptionsRead (d : Disk) (l : EntryList) : Prop :=
  sizeProperty.extractEntry l = .ok d.size ∧ cacheProperty.extractEntry l = .ok d.cache ∧
    discardProperty.extractEntry l = .ok d.discard ∧ ssdProperty.extractEntry l = .ok d.ssd ∧
    iothreadProperty.extractEntry l = .ok d.iothread ∧ backupProperty.extractEntry l = .ok d.backup ∧
    mediaProperty.extractEntry l = .ok d.media ∧ formatProperty.extractEntry l = .ok d.format

theorem ofEntries_eq_ok {l : EntryList} {d : Disk} :
    ofEntries l = .ok d ↔ l.Leads fileProperty.name d.volume ∧ d.OptionsRead l := by
  refine (read_part_eq_ok (p := fileProperty) rfl rfl rfl).trans ?_
  simp only [bind_eq_ok, pure_eq_ok]
  constructor
  · rintro ⟨_, hvolume, _, h₁, _, h₂, _, h₃, _, h₄, _, h₅, _, h₆, _, h₇, _, h₈, rfl⟩
    exact ⟨hvolume, h₁, h₂, h₃, h₄, h₅, h₆, h₇, h₈⟩
  · intro ⟨hvolume, h₁, h₂, h₃, h₄, h₅, h₆, h₇, h₈⟩
    exact ⟨_, hvolume, _, h₁, _, h₂, _, h₃, _, h₄, _, h₅, _, h₆, _, h₇, _, h₈, rfl⟩

/-- a disk that was read can be written -/
theorem writable_of_ofEntries {l : EntryList} {d : Disk} (h : ofEntries l = .ok d) :
    ∀ a ∈ d.options, ∃ o, a.outcome = .ok o := by
  obtain ⟨-, h₁, h₂, h₃, h₄, h₅, h₆, h₇, h₈⟩ := ofEntries_eq_ok.1 h
  simp only [options, List.forall_mem_cons]
  exact ⟨size_faithful.writable _ _ h₁, cache_faithful.writable _ _ h₂, discard_faithful.writable _ _ h₃,
    ssd_faithful.writable _ _ h₄, iothread_faithful.writable _ _ h₅, backup_faithful.writable _ _ h₆,
    media_faithful.writable _ _ h₇, format_faithful.writable _ _ h₈, fun _ h => absurd h List.not_mem_nil⟩

/-- behind the volume, every option is read back unless the volume hides it -/
theorem optionsRead_iff {d : Disk} (hout : ∀ a ∈ d.options, ∃ o, a.outcome = .ok o) :
    d.OptionsRead ⟨⟨d.volume, none⟩ :: d.written⟩ ↔ ∀ e ∈ d.written, e.key ≠ d.volume := by
  have hread {α : Type} [Wire α] {p : Property α} {a : α} (hf : p.Faithful) (hacc : p.Accepts a)
      (hp : p.attribute a ∈ d.options) :
      p.extractEntry ⟨⟨d.volume, none⟩ :: d.written⟩ = .ok a ↔ ((p.attribute a).IsSent → p.name ≠ d.volume) :=
    extractEntry_behind_part d.options_nodup hout hp hf hacc
  unfold OptionsRead
  rw [hread size_faithful rfl (by simp [options]), hread cache_faithful rfl (by simp [options]),
    hread discard_faithful rfl (by simp [options]), hread ssd_faithful rfl (by simp [options]),
    hread iothread_faithful rfl (by simp [options]), hread backup_faithful rfl (by simp [options]),
    hread media_faithful rfl (by simp [options]), hread format_faithful rfl (by simp [options]), written,
    forall_options_key_ne]
  simp [options]

theorem toEntries_eq_ok {d : Disk} {l : EntryList} :
    toEntries d = .ok l ↔ (∀ a ∈ d.options, ∃ o, a.outcome = .ok o) ∧ l = ⟨⟨d.volume, none⟩ :: d.written⟩ :=
  layOut_eq_ok

/-- **Disks that read back.** The text is not too long, and the volume is plain before the options behind it. -/
theorem roundTrips_iff {d : Disk} :
    Wire.RoundTrips .propertyString d ↔
      (∃ w, Wire.encode .propertyString d = .ok (some w) ∧ w.utf8ByteSize ≤ 65536) ∧ PlainPart d.volume d.written :=
  Packed.roundTrips_positional (fun _ => toEntries_eq_ok) (fun _ => ofEntries_eq_ok) d.written_wellFormed
    d.written_length d.file_not_written fun hout _ => optionsRead_iff hout

/-- a disk that was read from a text can be written again -/
theorem exists_encode_of_decode {d : Disk} {raw : String} (h : Wire.decode .propertyString (.text raw) = .ok d) :
    ∃ w, Wire.encode .propertyString d = .ok (some w) := by
  obtain ⟨l, -, hl⟩ := Packed.decode_text_eq_ok.1 h
  exact ⟨_, Packed.encode_eq_ok.2 ⟨_, toEntries_eq_ok.2 ⟨writable_of_ofEntries hl, rfl⟩, rfl⟩⟩

end Disk

end Hypervisor.Guest
