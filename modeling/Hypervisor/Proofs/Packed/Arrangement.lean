/-
Neither the order of options nor unknown or repeated options matter.

A packed record looks at the first entry of its text and, under each of its keys, at the first entry with that key
(`LooksAt`). The first entry has a double part: it holds the positional parts, and it is also the first entry with its
own key, so that it hides every later entry under that key. Behind it, all that counts is which entries stand under one
key and in which order: `options_read_in_any_order`.
-/
import Hypervisor.Cluster
import Hypervisor.Guest.Disk
import Hypervisor.Guest.Nic
import Hypervisor.Guest.Processor
import Hypervisor.Proofs.Packed.Layout

namespace Hypervisor

/-! ## Lists that differ in their arrangement -/

namespace EntryList

/-- a rearrangement that keeps entries with equal keys in their order -/
structure Rearranged (es es' : List Entry) : Prop where
  perm : es.Perm es'
  order : ∀ key, es.filter (fun e => e.key = key) = es'.filter fun e => e.key = key

/-- the same first entry, and behind it the same entries with these keys but for a rearrangement; entries with other
keys are left open -/
structure SameOptions (keys : List String) (l l' : EntryList) : Prop where
  first : l.entries.head? = l'.entries.head?
  rest : Rearranged (l.entries.tail.filter fun e => e.key ∈ keys) (l'.entries.tail.filter fun e => e.key ∈ keys)

/-- a look-up sees the entries with its key only -/
theorem get?_eq_head? (es : List Entry) (key : String) :
    get? ⟨es⟩ key = (es.filter fun e => e.key = key).head?.bind (·.value) := by
  rw [List.head?_filter]
  rfl

/-- entries with keys that are not looked up are passed over -/
theorem get?_filter {keys : List String} {key : String} (h : key ∈ keys) (es : List Entry) :
    get? ⟨es.filter fun e => e.key ∈ keys⟩ key = get? ⟨es⟩ key := by
  have hboth : ∀ e ∈ es, (decide (e.key = key) && decide (e.key ∈ keys)) = decide (e.key = key) := by
    intro e _
    rw [Bool.and_eq_left_iff_imp, decide_eq_true_eq, decide_eq_true_eq]
    rintro rfl
    exact h
  rw [get?_eq_head?, get?_eq_head?, List.filter_filter, List.filter_congr hboth]

/-- neighbours with different keys may change places -/
theorem Rearranged.swap {a b : Entry} (h : a.key ≠ b.key) (rest : List Entry) :
    Rearranged (a :: b :: rest) (b :: a :: rest) := by
  refine ⟨.swap b a rest, fun key => ?_⟩
  by_cases ha : a.key = key
  · have hb : b.key ≠ key := fun hb => h (ha.trans hb.symm)
    simp [ha, hb]
  · simp [List.filter_cons, ha]

theorem Rearranged.get?_eq {es es' : List Entry} (h : Rearranged es es') (key : String) :
    get? ⟨es⟩ key = get? ⟨es'⟩ key := by
  rw [get?_eq_head?, get?_eq_head?, h.order]

theorem SameOptions.get?_eq {keys : List String} {l l' : EntryList} (h : SameOptions keys l l') {key : String}
    (hkey : key ∈ keys) : l.get? key = l'.get? key := by
  obtain ⟨hfirst, hrest⟩ := h
  obtain ⟨es⟩ := l
  obtain ⟨es'⟩ := l'
  cases es with
  | nil =>
    obtain rfl : es' = [] := List.head?_eq_none_iff.1 hfirst.symm
    rfl
  | cons e rest =>
    obtain ⟨rest', rfl⟩ : ∃ rest', es' = e :: rest' := List.head?_eq_some_iff.1 hfirst.symm
    by_cases hfound : e.key = key
    · -- the first entry answers, whatever stands behind it
      rw [← hfound, get?_cons_self, get?_cons_self]
    · rw [get?_cons_of_ne hfound, get?_cons_of_ne hfound]
      calc get? ⟨rest⟩ key = get? ⟨rest.filter fun e => e.key ∈ keys⟩ key := (get?_filter hkey rest).symm
        _ = get? ⟨rest'.filter fun e => e.key ∈ keys⟩ key := hrest.get?_eq key
        _ = get? ⟨rest'⟩ key := get?_filter hkey rest'

/-- an entry is never found behind another with its key -/
theorem get?_repeated {before : List Entry} {e : Entry} (h : e.key ∈ before.map Entry.key) (after : List Entry)
    (key : String) : get? ⟨before ++ e :: after⟩ key = get? ⟨before ++ after⟩ key := by
  rw [get?_eq_head?, get?_eq_head?, List.filter_append, List.filter_append]
  by_cases hkey : e.key = key
  · obtain ⟨b, hb, hbkey⟩ := List.mem_map.1 h
    have hne : before.filter (fun b => b.key = key) ≠ [] :=
      List.ne_nil_of_mem (List.mem_filter.2 ⟨hb, decide_eq_true (hbkey.trans hkey)⟩)
    rw [List.head?_append_of_ne_nil _ hne, List.head?_append_of_ne_nil _ hne]
  · rw [List.filter_cons_of_neg (by simpa using hkey)]

end EntryList

/-! ## What a packed record looks at -/

/-- the record is read from the first entry and, under each of these keys, from the first entry with that key -/
def LooksAt (α : Type) [Packed α] (keys : List String) : Prop :=
  ∀ l l' : EntryList, l.entries.head? = l'.entries.head? → (∀ key ∈ keys, l.get? key = l'.get? key) →
    (Packed.ofEntries l : Except PropertyFault α) = Packed.ofEntries l'

theorem EntryList.firstBare?_congr {l l' : EntryList} (h : l.entries.head? = l'.entries.head?) :
    l.firstBare? = l'.firstBare? := by
  unfold firstBare?
  rw [h]

theorem Property.extractEntry_congr {α : Type} [Wire α] {p : Property α} {l l' : EntryList}
    (h : l.get? p.name = l'.get? p.name) : p.extractEntry l = p.extractEntry l' := by
  unfold extractEntry
  rw [h]

namespace Guest

open EntryList Property

namespace Disk

/-- the key of the volume and the names of the options -/
def keys : List String := ["file", "size", "cache", "discard", "ssd", "iothread", "backup", "media", "format"]

theorem looksAt_keys : LooksAt Disk keys := by
  intro l l' hfirst hkeys
  simp only [keys, List.forall_mem_cons] at hkeys
  obtain ⟨hfile, hsize, hcache, hdiscard, hssd, hiothread, hbackup, hmedia, hformat, -⟩ := hkeys
  change ofEntries l = ofEntries l'
  unfold ofEntries
  rw [firstBare?_congr hfirst, extractEntry_congr (p := fileProperty) hfile,
    extractEntry_congr (p := sizeProperty) hsize, extractEntry_congr (p := cacheProperty) hcache,
    extractEntry_congr (p := discardProperty) hdiscard, extractEntry_congr (p := ssdProperty) hssd,
    extractEntry_congr (p := iothreadProperty) hiothread, extractEntry_congr (p := backupProperty) hbackup,
    extractEntry_congr (p := mediaProperty) hmedia, extractEntry_congr (p := formatProperty) hformat]

end Disk

namespace Nic

/-- the keys of the model and the address and the names of the options -/
def keys : List String :=
  ["model", "macaddr", "bridge", "firewall", "link_down", "tag", "mtu", "rate", "queues"]

theorem looksAt_keys : LooksAt Nic keys := by
  intro l l' hfirst hkeys
  simp only [keys, List.forall_mem_cons] at hkeys
  obtain ⟨hmodel, haddress, hbridge, hfirewall, hlinkDown, htag, hmtu, hrate, hqueues, -⟩ := hkeys
  have hpositional : positional? l = positional? l' := by
    unfold positional?
    rw [hfirst]
  change ofEntries l = ofEntries l'
  unfold ofEntries
  rw [hpositional, extractEntry_congr (p := modelProperty) hmodel, extractEntry_congr (p := addressProperty) haddress,
    extractEntry_congr (p := bridgeProperty) hbridge, extractEntry_congr (p := firewallProperty) hfirewall,
    extractEntry_congr (p := linkDownProperty) hlinkDown, extractEntry_congr (p := tagProperty) htag,
    extractEntry_congr (p := mtuProperty) hmtu, extractEntry_congr (p := rateProperty) hrate,
    extractEntry_congr (p := queuesProperty) hqueues]

end Nic

namespace CpuModel

/-- the key of the name, the key of the switches and the name of the option -/
def keys : List String := ["cputype", "flags", "hidden"]

theorem looksAt_keys : LooksAt CpuModel keys := by
  intro l l' hfirst hkeys
  simp only [keys, List.forall_mem_cons] at hkeys
  obtain ⟨hname, hflags, hhidden, -⟩ := hkeys
  have hswitches : flagsOf l = flagsOf l' := by
    unfold flagsOf
    rw [hflags]
  change ofEntries l = ofEntries l'
  unfold ofEntries
  rw [firstBare?_congr hfirst, extractEntry_congr (p := nameProperty) hname, hswitches,
    extractEntry_congr (p := hiddenProperty) hhidden]

end CpuModel

end Guest

namespace Cluster.Link

open EntryList Property

/-- the key of the address and the name of the option -/
def keys : List String := ["address", "priority"]

theorem looksAt_keys : LooksAt Link keys := by
  intro l l' hfirst hkeys
  simp only [keys, List.forall_mem_cons] at hkeys
  obtain ⟨haddress, hpriority, -⟩ := hkeys
  change ofEntries l = ofEntries l'
  unfold ofEntries
  rw [firstBare?_congr hfirst, extractEntry_congr (p := addressProperty) haddress,
    extractEntry_congr (p := priorityProperty) hpriority]

end Cluster.Link

/-! ## Records that are read alike -/

/-- arrangements of entries that are read alike, as the same record or with the same fault -/
structure ReadInAnyOrder (α : Type) [Packed α] (keys : List String) : Prop where
  /-- options in another order, and others that have no meaning -/
  options : ∀ l l' : EntryList, l.SameOptions keys l' →
    (Packed.ofEntries l : Except PropertyFault α) = Packed.ofEntries l'
  /-- an entry whose key has already occurred -/
  repeated : ∀ (before after : List Entry) (e : Entry), e.key ∈ before.map Entry.key →
    (Packed.ofEntries ⟨before ++ e :: after⟩ : Except PropertyFault α) = Packed.ofEntries ⟨before ++ after⟩

theorem LooksAt.readInAnyOrder {α : Type} [Packed α] {keys : List String} (h : LooksAt α keys) :
    ReadInAnyOrder α keys := by
  refine ⟨fun l l' hsame => h l l' hsame.first fun _ hkey => hsame.get?_eq hkey, fun before after e he => ?_⟩
  have hne : before ≠ [] := by
    rintro rfl
    cases he
  refine h _ _ ?_ fun key _ => EntryList.get?_repeated he after key
  rw [List.head?_append_of_ne_nil _ hne, List.head?_append_of_ne_nil _ hne]

/-- **Options are read in any order.** A disk, a network card, a processor model and a link of a node are each read
alike, faults included, from two lists with the same first entry if behind it the entries under the record's keys are
the same but for a rearrangement that keeps those under one key in order, whatever stands under other keys; and an entry
whose key has already occurred makes no difference. -/
theorem options_read_in_any_order :
    ReadInAnyOrder Guest.Disk Guest.Disk.keys ∧ ReadInAnyOrder Guest.Nic Guest.Nic.keys ∧
      ReadInAnyOrder Guest.CpuModel Guest.CpuModel.keys ∧ ReadInAnyOrder Cluster.Link Cluster.Link.keys :=
  ⟨Guest.Disk.looksAt_keys.readInAnyOrder, Guest.Nic.looksAt_keys.readInAnyOrder,
    Guest.CpuModel.looksAt_keys.readInAnyOrder, Cluster.Link.looksAt_keys.readInAnyOrder⟩

/-- the options of a disk change places around an unknown one, of two switches the first counts in both places, and a
volume named like a switch hides it; a fault is the same fault too -/
theorem options_read_in_any_order_disk :
    (∃ disk : Guest.Disk, disk.ssd = true ∧
      Packed.ofEntries ⟨[⟨"local:vm-1", none⟩, ⟨"size", some "32G"⟩, ⟨"ssd", some "1"⟩, ⟨"ssd", some "0"⟩]⟩ = .ok disk ∧
      Packed.ofEntries
        ⟨[⟨"local:vm-1", none⟩, ⟨"aio", some "native"⟩, ⟨"ssd", some "1"⟩, ⟨"size", some "32G"⟩, ⟨"ssd", some "0"⟩]⟩ =
          .ok disk) ∧
    (Packed.ofEntries ⟨[⟨"ssd", none⟩] ++ ⟨"ssd", some "1"⟩ :: []⟩ : Except PropertyFault Guest.Disk) =
      .ok (.onVolume "ssd") ∧
    (∃ fault, (Packed.ofEntries ⟨[⟨"none", none⟩, ⟨"ssd", some "on"⟩] ++ ⟨"ssd", some "1"⟩ :: []⟩ :
      Except PropertyFault Guest.Disk) = .error fault) := by
  obtain ⟨⟨hoptions, hrepeated⟩, -⟩ := options_read_in_any_order
  have hsame : EntryList.SameOptions Guest.Disk.keys
      ⟨[⟨"local:vm-1", none⟩, ⟨"size", some "32G"⟩, ⟨"ssd", some "1"⟩, ⟨"ssd", some "0"⟩]⟩
      ⟨[⟨"local:vm-1", none⟩, ⟨"aio", some "native"⟩, ⟨"ssd", some "1"⟩, ⟨"size", some "32G"⟩, ⟨"ssd", some "0"⟩]⟩ :=
    ⟨rfl, EntryList.Rearranged.swap (by decide) _⟩
  refine ⟨⟨_, rfl, rfl, ?_⟩, ?_, ?_⟩
  · exact (hoptions _ _ hsame).symm
  · exact (hrepeated [⟨"ssd", none⟩] [] ⟨"ssd", some "1"⟩ (by decide)).trans rfl
  · exact ⟨_, hrepeated [⟨"none", none⟩, ⟨"ssd", some "on"⟩] [] ⟨"ssd", some "1"⟩ (by decide)⟩

end Hypervisor
