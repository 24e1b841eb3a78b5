/-
What is read from a packed text is written again as one that is no longer.

Each entry that is written stems from an entry of its own: the first one with its key, whose value was read as the value
that is written, and is no shorter (`EntryList.Covers`). Entries that are unknown, repeated or at their default have no
offspring. So the number of entries and the length of the text can only shrink (`EntryList.rewritten_le`), and a text
that was not too long to be read gives one that is not. An option that the bare first entry hides is read as missing,
thus is not written, and the first entry can stand bare in front of what is.
-/
import Hypervisor.Proofs.Availability.Lasting
import Hypervisor.Proofs.Scalar.Size

namespace Hypervisor

open Fallible Property
open String (utf8Len)

/-! ## Frugal types -/

/-- what was read from a text is written in no more bytes -/
class FrugalWire (α : Type) [Wire α] : Prop where
  encode_le : ∀ (d : Dialect) (raw : String) (a : α) (w : String), Wire.decode d (.text raw) = .ok a →
    Wire.encode d a = .ok (some w) → w.utf8ByteSize ≤ raw.utf8ByteSize

/-- a token is no longer than the one that its value was read from -/
theorem Wire.encodeScalar_le {α : Type} [Scalar α] {raw w : String} {a : α}
    (hle : ∀ token, Scalar.read? raw = some a → Scalar.write a = .ok token → token.utf8ByteSize ≤ raw.utf8ByteSize)
    (hread : decodeScalar (.text raw) = .ok a) (hwrite : encodeScalar a = .ok (some w)) :
    w.utf8ByteSize ≤ raw.utf8ByteSize := by
  obtain ⟨token, htoken, hw⟩ := encodeScalar_eq_ok.1 hwrite
  obtain rfl := Option.some.inj hw
  exact hle w (decodeScalar_eq_ok.1 hread) htoken

instance : FrugalWire Bool where
  encode_le _ raw b _ := Wire.encodeScalar_le fun token hread hwrite => by
    change (if raw = "1" then some true else if raw = "0" then some false else none) = some b at hread
    obtain rfl := Except.ok.inj hwrite
    split_ifs at hread with hone hzero
    · rw [← Option.some.inj hread, hone]; rfl
    · rw [← Option.some.inj hread, hzero]; rfl

instance (t : IntegerType) : FrugalWire (Ranged t) where
  encode_le _ _ k _ := Wire.encodeScalar_le fun token hread hwrite => by
    obtain rfl := Except.ok.inj hwrite
    exact Ranged.utf8ByteSize_integerText_le hread

instance : FrugalWire ByteSize where
  encode_le _ _ s _ := Wire.encodeScalar_le fun token hread hwrite => by
    obtain rfl := Except.ok.inj hwrite
    exact ByteSize.utf8ByteSize_text_le hread

/-- a member is written as the token that it was read from -/
instance {α : Type} [Vocabulary α] : FrugalWire (Choice α) where
  encode_le _ raw c _ := Wire.encodeScalar_le fun token hread hwrite => by
    obtain ⟨a, hfind, rfl⟩ := Option.map_eq_some_iff.1 hread
    obtain rfl := Except.ok.inj hwrite
    have htoken : Vocabulary.token a = raw := by simpa using List.find?_some hfind
    rw [htoken]

instance {α : Type} [Wire α] [FrugalWire α] : FrugalWire (Option α) where
  encode_le d raw a w hread hwrite := by
    obtain ⟨x, hx, rfl⟩ := map_eq_ok.1 hread
    exact FrugalWire.encode_le d raw x w hx hwrite

/-! ## Entries and where they stem from -/

/-- the same key, and a value that is no longer -/
structure Entry.StemsFrom (e source : Entry) : Prop where
  key : e.key = source.key
  value : ∃ text raw, e.value = some text ∧ source.value = some raw ∧ text.utf8ByteSize ≤ raw.utf8ByteSize

theorem Entry.StemsFrom.write_le {e source : Entry} (h : e.StemsFrom source) (d : Dialect) :
    utf8Len (e.write d) ≤ utf8Len (source.write d) := by
  obtain ⟨hkey, text, raw, htext, hraw, hle⟩ := h
  rw [← Text.utf8Len_toList, ← Text.utf8Len_toList raw] at hle
  simp only [Entry.write, htext, hraw, hkey, String.utf8Len_append, String.utf8Len_cons]
  omega

namespace EntryList

/-- the list holds a value for the key of the entry, and none that is shorter -/
def Covers (l : EntryList) (e : Entry) : Prop :=
  ∃ text raw, e.value = some text ∧ l.get? e.key = some raw ∧ text.utf8ByteSize ≤ raw.utf8ByteSize

section Behind

variable {part : String} {rest es : List Entry}

/-- a bare entry hides the values under its key -/
theorem Covers.key_ne {e : Entry} (h : Covers ⟨⟨part, none⟩ :: rest⟩ e) : e.key ≠ part := by
  rintro rfl
  obtain ⟨_, raw, -, hget, -⟩ := h
  rw [get?_cons_self ⟨e.key, none⟩] at hget
  cases hget

theorem Covers.exists_source {e : Entry} (h : Covers ⟨⟨part, none⟩ :: rest⟩ e) :
    ∃ source ∈ rest, e.StemsFrom source := by
  obtain ⟨text, raw, htext, hget, hle⟩ := h
  rcases List.mem_cons.1 (exists_of_get? hget) with hfirst | hmem
  · cases hfirst
  · exact ⟨_, hmem, rfl, text, raw, htext, rfl, hle⟩

/-- entries with keys apart stem from entries apart -/
theorem exists_sources (hnd : (es.map Entry.key).Nodup) (h : ∀ e ∈ es, ∃ source ∈ rest, e.StemsFrom source) :
    ∃ sources, List.Forall₂ Entry.StemsFrom es sources ∧ sources.Subperm rest := by
  obtain ⟨sources, hsources, hmem⟩ : ∃ sources, List.Forall₂ Entry.StemsFrom es sources ∧ sources ⊆ rest := by
    clear hnd
    induction es with
    | nil => exact ⟨[], .nil, List.nil_subset _⟩
    | cons e es ih =>
      obtain ⟨⟨source, hsource, hstem⟩, hrest⟩ := List.forall_mem_cons.1 h
      obtain ⟨sources, hsources, hmem⟩ := ih hrest
      exact ⟨source :: sources, .cons hstem hsources, List.cons_subset.2 ⟨hsource, hmem⟩⟩
  have hkeys : es.map Entry.key = sources.map Entry.key := by
    rw [← List.forall₂_eq_eq_eq, List.forall₂_map_left_iff, List.forall₂_map_right_iff]
    exact hsources.imp fun _ _ hstem => hstem.key
  rw [hkeys] at hnd
  exact ⟨sources, hsources, List.subperm_of_subset hnd.of_map hmem⟩

/-- **What is written behind a part is no more than what stood there.** Neither the entries are more nor is the text
longer, if each entry is covered. -/
theorem rewritten_le (d : Dialect) (hnd : (es.map Entry.key).Nodup)
    (hcov : ∀ e ∈ es, Covers ⟨⟨part, none⟩ :: rest⟩ e) :
    es.length ≤ rest.length ∧
      (write d ⟨⟨part, none⟩ :: es⟩).utf8ByteSize ≤ (write d ⟨⟨part, none⟩ :: rest⟩).utf8ByteSize := by
  obtain ⟨sources, hsources, hsub⟩ := exists_sources hnd fun e he => (hcov e he).exists_source
  refine ⟨hsources.length_eq.trans_le hsub.length_le, ?_⟩
  -- the bytes that an entry adds to the text, its separator included
  set weight : Entry → ℕ := fun e => d.listSeparator.utf8Size + utf8Len (e.write d)
  have hsize (es : List Entry) : (write d ⟨⟨part, none⟩ :: es⟩).utf8ByteSize =
      utf8Len (Entry.write d ⟨part, none⟩) + (es.map weight).sum := by
    rw [write, String.utf8ByteSize_ofList, List.map_cons, Text.utf8Len_intercalate_cons, List.map_map]
    rfl
  have hstems : (es.map weight).sum ≤ (sources.map weight).sum := by
    refine List.Forall₂.sum_le_sum ?_
    rw [List.forall₂_map_left_iff, List.forall₂_map_right_iff]
    exact hsources.imp fun _ _ hstem => Nat.add_le_add_left (hstem.write_le d) _
  have hamong : (sources.map weight).sum ≤ (rest.map weight).sum := by
    obtain ⟨chosen, hperm, hchosen⟩ := hsub
    rw [← (hperm.map weight).sum_eq]
    exact (hchosen.map weight).sum_le_sum fun _ _ => Nat.zero_le _
  rw [hsize, hsize]
  omega

end Behind

/-- the entries of attributes with names apart have keys apart -/
theorem options_keys_nodup {as : List Attribute} (h : (as.map Attribute.name).Nodup) :
    ((as.flatMap Attribute.sentEntries).map Entry.key).Nodup := by
  refine List.Nodup.sublist ?_ h
  induction as with
  | nil => exact List.Sublist.refl _
  | cons a rest ih =>
    have hrest := ih (List.nodup_cons.1 h).2
    rw [List.flatMap_cons, List.map_append, List.map_cons]
    unfold Attribute.sentEntries
    split
    · exact hrest.cons_cons a.name
    · exact hrest.cons a.name

end EntryList

/-- what a faithful property sends for a value that was read is covered by the entry that it was read from -/
theorem Property.covers_of_extract {α : Type} [Wire α] [FrugalWire α] {p : Property α} (hf : p.Faithful)
    (ht : p.transform = none) {l : EntryList} {a : α} (h : p.extractEntry l = .ok a) :
    ∀ e ∈ (p.attribute a).sentEntries, l.Covers e := by
  intro e he
  obtain ⟨text, hsend, rfl⟩ := Attribute.mem_sentEntries.1 he
  unfold extractEntry at h
  cases hget : l.get? p.name with
  | none =>
    rw [hget] at h
    exact absurd h (hf.resolve_none_ne a text hsend)
  | some raw =>
    rw [hget] at h
    have hread := ((resolve_text_plain ht).1 h).1
    exact ⟨text, raw, rfl, hget, FrugalWire.encode_le _ raw a text hread (encode_of_outcome_send hsend)⟩

/-! ## Texts that condense -/

/-- the text `c` is what is written for the value that was read from `raw`; it has no more entries and no more bytes,
and is left as it is when it is read and written once more -/
structure Wire.Condenses {α : Type} [Wire α] (d : Dialect) (raw : String) (a : α) (c : String) : Prop where
  written : encode d a = .ok (some c)
  entries_le : ∃ l l', EntryList.parse d raw = .ok l ∧ EntryList.parse d c = .ok l' ∧
    l'.entries.length ≤ l.entries.length
  bytes_le : c.utf8ByteSize ≤ raw.utf8ByteSize
  reread : decode d (.text c) = .ok a
  settled : ∀ a' : α, decode d (.text c) = .ok a' → encode d a' = .ok (some c)

/-- the first entry of the text is bare -/
def EntryList.StartsBare (raw : String) : Prop :=
  ∃ l part, parse .propertyString raw = .ok l ∧ l.firstBare? = some part

namespace Packed

variable {α : Type} [Packed α] {a : α} {raw : String}

theorem exists_behind_bare (hbare : EntryList.StartsBare raw) (h : Wire.decode .propertyString (.text raw) = .ok a) :
    ∃ part rest, EntryList.parse .propertyString raw = .ok ⟨⟨part, none⟩ :: rest⟩ ∧
      Packed.ofEntries ⟨⟨part, none⟩ :: rest⟩ = .ok a := by
  obtain ⟨l, part, hparse, hfirst⟩ := hbare
  obtain ⟨l', hparse', hl⟩ := decode_text_eq_ok.1 h
  obtain rfl := Except.ok.inj (hparse.symm.trans hparse')
  obtain ⟨rest, hrest⟩ := EntryList.firstBare?_eq_some_iff.1 hfirst
  obtain ⟨es⟩ := l
  obtain rfl : es = ⟨part, none⟩ :: rest := hrest
  exact ⟨part, rest, hparse, hl⟩

/-- **Records with a positional part condense.** The entries behind the part are well-formed and covered, and the record
reads back where its text is not too long and the part is plain: both follow from the text that was read. -/
theorem condenses_positional {part : String} {rest es : List Entry}
    (hparse : EntryList.parse .propertyString raw = .ok ⟨⟨part, none⟩ :: rest⟩)
    (hto : Packed.toEntries a = .ok ⟨⟨part, none⟩ :: es⟩) (hnd : (es.map Entry.key).Nodup)
    (hcov : ∀ e ∈ es, EntryList.Covers ⟨⟨part, none⟩ :: rest⟩ e) (hes : ∀ e ∈ es, e.WellFormed .propertyString)
    (hback : (∃ w, Wire.encode .propertyString a = .ok (some w) ∧ w.utf8ByteSize ≤ 65536) →
      EntryList.PlainPart part es → Wire.RoundTrips .propertyString a) :
    ∃ c, Wire.Condenses .propertyString raw a c := by
  obtain ⟨hraw, hcount, hsize, hentries⟩ := EntryList.parse_eq_ok_iff.1 hparse
  obtain ⟨hfewer, hshorter⟩ := EntryList.rewritten_le .propertyString hnd hcov
  have hfirst := hentries _ List.mem_cons_self
  have hwritten : Wire.encode .propertyString a = .ok (some (EntryList.write .propertyString ⟨⟨part, none⟩ :: es⟩)) :=
    encode_eq_ok.2 ⟨_, hto, rfl⟩
  have hparse' : EntryList.parse .propertyString (EntryList.write .propertyString ⟨⟨part, none⟩ :: es⟩) =
      .ok ⟨⟨part, none⟩ :: es⟩ := by
    refine EntryList.parse_eq_ok_iff.2 ⟨rfl, ?_, hshorter.trans hsize, List.forall_mem_cons.2 ⟨hfirst, hes⟩⟩
    exact (Nat.succ_le_succ hfewer).trans hcount
  obtain ⟨hne, hcomma, hequals⟩ := EntryList.wellFormed_bare_iff.1 hfirst
  obtain ⟨w, hw, hreread⟩ := hback ⟨_, hwritten, hshorter.trans hsize⟩
    ⟨hne, hcomma, hequals, fun e he => (hcov e he).key_ne⟩
  obtain rfl := Option.some.inj (Except.ok.inj (hwritten.symm.trans hw))
  refine ⟨_, hw, ⟨_, _, hparse, hparse', Nat.succ_le_succ hfewer⟩, hraw ▸ hshorter, hreread, fun a' ha' => ?_⟩
  rw [← Except.ok.inj (hreread.symm.trans ha')]
  exact hw

end Packed

/-- a bare first entry is the part -/
theorem EntryList.Leads.eq_of_bare {key first part : String} {rest : List Entry}
    (h : Leads ⟨⟨first, none⟩ :: rest⟩ key part) : part = first := by
  rcases h with hfirst | ⟨hnone, -⟩
  · exact (Option.some.inj hfirst).symm
  · cases hnone

/-! ## Record by record -/

namespace Guest.Disk

theorem covers_written {l : EntryList} {d : Disk} (h : d.OptionsRead l) : ∀ e ∈ d.written, l.Covers e := by
  obtain ⟨h₁, h₂, h₃, h₄, h₅, h₆, h₇, h₈⟩ := h
  refine List.forall_mem_flatMap.2 ?_
  simp only [options, List.forall_mem_cons]
  exact ⟨covers_of_extract size_faithful rfl h₁, covers_of_extract cache_faithful rfl h₂,
    covers_of_extract discard_faithful rfl h₃, covers_of_extract ssd_faithful rfl h₄,
    covers_of_extract iothread_faithful rfl h₅, covers_of_extract backup_faithful rfl h₆,
    covers_of_extract media_faithful rfl h₇, covers_of_extract format_faithful rfl h₈, List.forall_mem_nil _⟩

theorem exists_condensed {raw : String} {d : Disk} (hbare : EntryList.StartsBare raw)
    (h : Wire.decode .propertyString (.text raw) = .ok d) : ∃ c, Wire.Condenses .propertyString raw d c := by
  obtain ⟨part, rest, hparse, hd⟩ := Packed.exists_behind_bare hbare h
  obtain ⟨hvolume, hoptions⟩ := ofEntries_eq_ok.1 hd
  obtain rfl := hvolume.eq_of_bare
  refine Packed.condenses_positional hparse (toEntries_eq_ok.2 ⟨writable_of_ofEntries hd, rfl⟩)
    (EntryList.options_keys_nodup d.options_nodup) (covers_written hoptions) d.written_wellFormed fun hsize hplain => ?_
  exact roundTrips_iff.2 ⟨hsize, hplain⟩

end Guest.Disk

namespace Guest.CpuModel

theorem written_keys_nodup (c : CpuModel) : (c.written.map Entry.key).Nodup := by
  have hflags : (c.flagEntries.map Entry.key).Nodup := by
    unfold flagEntries
    split_ifs
    · exact List.nodup_nil
    · exact List.nodup_singleton _
  rw [written, List.map_append]
  refine hflags.append (EntryList.options_keys_nodup c.options_nodup) fun key hkey hkey' => ?_
  obtain ⟨e, he, rfl⟩ := List.mem_map.1 hkey
  obtain ⟨e', he', heq⟩ := List.mem_map.1 hkey'
  obtain ⟨a, ha, text, -, rfl⟩ := EntryList.mem_options.1 he'
  rw [(mem_flagEntries.1 he).2, List.mem_singleton.1 ha] at heq
  exact absurd heq (by decide : hiddenProperty.name ≠ "flags")

/-- the text of the switches is the very text that they were read from -/
theorem covers_flagEntries {l : EntryList} {c : CpuModel} (h : flagsOf l = .ok c.flags) :
    ∀ e ∈ c.flagEntries, l.Covers e := by
  intro e he
  obtain ⟨hne, rfl⟩ := mem_flagEntries.1 he
  cases hget : l.get? "flags" with
  | none =>
    rw [flagsOf_of_none hget] at h
    exact absurd (Except.ok.inj h).symm hne
  | some raw =>
    obtain ⟨hwrite, -⟩ := Flag.parseList_eq_ok_iff.1 ((flagsOf_of_some hget).1 h)
    exact ⟨_, raw, rfl, hget, hwrite ▸ le_rfl⟩

theorem exists_condensed {raw : String} {c : CpuModel} (hbare : EntryList.StartsBare raw)
    (h : Wire.decode .propertyString (.text raw) = .ok c) : ∃ w, Wire.Condenses .propertyString raw c w := by
  obtain ⟨part, rest, hparse, hc⟩ := Packed.exists_behind_bare hbare h
  obtain ⟨hname, hflags, hhidden⟩ := ofEntries_eq_ok.1 hc
  obtain rfl := hname.eq_of_bare
  have hfit := flagsFit_of_decode h
  have hoptions : ∀ e ∈ c.options.flatMap Attribute.sentEntries, EntryList.Covers ⟨⟨c.name, none⟩ :: rest⟩ e :=
    List.forall_mem_flatMap.2 (List.forall_mem_singleton.2 (covers_of_extract hidden_faithful rfl hhidden))
  refine Packed.condenses_positional hparse c.toEntries_eq c.written_keys_nodup
    (List.forall_mem_append.2 ⟨covers_flagEntries hflags, hoptions⟩) (written_wellFormed hfit) fun hsize hplain => ?_
  exact roundTrips_iff.2 ⟨hsize, hfit, hplain⟩

end Guest.CpuModel

namespace Cluster.Link

theorem exists_condensed {raw : String} {l : Link} (hbare : EntryList.StartsBare raw)
    (h : Wire.decode .propertyString (.text raw) = .ok l) : ∃ c, Wire.Condenses .propertyString raw l c := by
  obtain ⟨part, rest, hparse, hl⟩ := Packed.exists_behind_bare hbare h
  obtain ⟨haddress, hpriority⟩ := ofEntries_eq_ok.1 hl
  obtain rfl := haddress.eq_of_bare
  have hcov : ∀ e ∈ l.written, EntryList.Covers ⟨⟨l.address, none⟩ :: rest⟩ e :=
    List.forall_mem_flatMap.2 (List.forall_mem_singleton.2 (covers_of_extract priority_faithful rfl hpriority))
  refine Packed.condenses_positional hparse (toEntries_eq_ok.2 ⟨l.writable, rfl⟩)
    (EntryList.options_keys_nodup l.options_nodup) hcov l.written_wellFormed fun hsize hplain => ?_
  exact roundTrips_iff.2 ⟨hsize, hplain⟩

end Cluster.Link

namespace Availability.NodeList

/-- every node is written, so that the entries are as many as before -/
theorem exists_condensed {raw : String} {l : NodeList} (h : Wire.decode .nodePriority (.text raw) = .ok l) :
    ∃ c, Wire.Condenses .nodePriority raw l c := by
  obtain ⟨list, hparse, hlist⟩ := Packed.decode_text_eq_ok.1 h
  have hparse' := (lasting_of_decode h).parse_write
  have hreread : Wire.decode .nodePriority (.text (l.toEntries.write .nodePriority)) = .ok l :=
    Packed.decode_text_eq_ok.2 ⟨_, hparse', l.ofEntries_toEntries⟩
  have hcount : l.toEntries.entries.length = list.entries.length :=
    (List.length_map entryOf).trans (ofEntries_eq_ok.1 hlist).length_eq.symm
  refine ⟨_, l.encode_eq, ⟨list, _, hparse, hparse', hcount.le⟩, ?_, hreread, fun l' hl' => ?_⟩
  · rw [← (EntryList.parse_eq_ok_iff.1 hparse).1]
    exact write_toEntries_le hlist
  · rw [← Except.ok.inj (hreread.symm.trans hl')]
    exact l.encode_eq

end Availability.NodeList

/-- **What was read is written no longer, and then stays as it is.** A disk, a processor model or a link that was read
from a text with a bare first entry, and a list of nodes that was read from any text, has a text of its own, with no
more entries and no more bytes. The same value is read from that text, and the same text is written for it. It does
not matter what the first text held: options that are unknown, repeated, at their default, out of order or written at
length, or a first entry with the name of an option. -/
theorem decoded_text_condenses (raw : String) :
    (EntryList.StartsBare raw →
      (∀ d : Guest.Disk, Wire.decode .propertyString (.text raw) = .ok d →
        ∃ c, Wire.Condenses .propertyString raw d c) ∧
      (∀ m : Guest.CpuModel, Wire.decode .propertyString (.text raw) = .ok m →
        ∃ c, Wire.Condenses .propertyString raw m c) ∧
      ∀ l : Cluster.Link, Wire.decode .propertyString (.text raw) = .ok l →
        ∃ c, Wire.Condenses .propertyString raw l c) ∧
    ∀ nodes : Availability.NodeList, Wire.decode .nodePriority (.text raw) = .ok nodes →
      ∃ c, Wire.Condenses .nodePriority raw nodes c :=
  ⟨fun hbare => ⟨fun _ => Guest.Disk.exists_condensed hbare, fun _ => Guest.CpuModel.exists_condensed hbare,
    fun _ => Cluster.Link.exists_condensed hbare⟩, fun _ => Availability.NodeList.exists_condensed⟩

/-- a volume with the name of an option hides that option, and of the rest only a size and a switch are left -/
theorem decoded_text_condenses_cache :
    EntryList.StartsBare "cache,backup=1,size=1048576K,cache=none,size=8G,ssd=1,serial=7" ∧
    ∃ d : Guest.Disk,
      Wire.decode .propertyString (.text "cache,backup=1,size=1048576K,cache=none,size=8G,ssd=1,serial=7") = .ok d ∧
      Wire.Condenses .propertyString "cache,backup=1,size=1048576K,cache=none,size=8G,ssd=1,serial=7" d
        "cache,size=1G,ssd=1" := by
  have hbare : EntryList.StartsBare "cache,backup=1,size=1048576K,cache=none,size=8G,ssd=1,serial=7" :=
    ⟨_, _, rfl, rfl⟩
  obtain ⟨d, hd, hw⟩ : ∃ d : Guest.Disk,
      Wire.decode .propertyString (.text "cache,backup=1,size=1048576K,cache=none,size=8G,ssd=1,serial=7") = .ok d ∧
      Wire.encode .propertyString d = .ok (some "cache,size=1G,ssd=1") := ⟨_, rfl, rfl⟩
  obtain ⟨c, hc⟩ := ((decoded_text_condenses _).1 hbare).1 d hd
  obtain rfl := Option.some.inj (Except.ok.inj (hc.written.symm.trans hw))
  exact ⟨hbare, d, hd, hc⟩

end Hypervisor
