/-
Lists of switches read and written: the texts that can be read are the written forms of lists whose names are not empty
and free of both separators of the flag dialect (`parseList_eq_ok_iff`). A text that is a list of entries but not of
switches is refused for the first entry that is not a switch, a name behind its sign without a value
(`ofEntries_of_first`). `lists_read_and_written` puts both together.
-/
import Hypervisor.Flag
import Hypervisor.Proofs.Entry.RoundTrip

namespace Hypervisor.Flag

open Fallible

/-- a switch whose name can be written -/
structure WellFormed (f : Flag) : Prop where
  ne_empty : f.name ≠ ""
  no_semicolon : ';' ∉ f.name.toList
  no_equals : '=' ∉ f.name.toList

/-- the entry of a switch -/
def entry (f : Flag) : Entry := ⟨f.text, none⟩

theorem toList_text (f : Flag) : f.text.toList = f.sign :: f.name.toList := String.toList_ofList

theorem sign_ne (f : Flag) : f.sign ≠ ';' ∧ f.sign ≠ '=' ∧ f.sign ≠ ',' := by
  unfold sign
  split_ifs <;> decide

/-- an entry is read as the one switch whose entry it is -/
theorem ofEntry_eq_ok_iff {position : ℕ} {e : Entry} {f : Flag} :
    ofEntry position e = .ok f ↔ e = f.entry ∧ f.name ≠ "" := by
  obtain ⟨key, value⟩ := e
  obtain ⟨name, enabled⟩ := f
  unfold ofEntry entry
  cases value with
  | some value => simp
  | none =>
    have hkey : key = text ⟨name, enabled⟩ ↔ key.toList = sign ⟨name, enabled⟩ :: name.toList := by
      rw [← toList_text, String.toList_inj]
    simp only [Option.isSome_none, Bool.false_eq_true, if_false, Entry.mk.injEq, and_true, hkey]
    constructor
    · intro h
      split at h
      · rename_i c rest heq
        obtain ⟨rfl, rfl⟩ := Flag.mk.inj (Except.ok.inj h)
        rw [heq]
        simp [sign]
      · rename_i c rest heq
        obtain ⟨rfl, rfl⟩ := Flag.mk.inj (Except.ok.inj h)
        rw [heq]
        simp [sign]
      · cases h
    · intro ⟨htext, hne⟩
      have hchars : ∃ c rest, name.toList = c :: rest := List.exists_cons_of_ne_nil (by simpa using hne)
      obtain ⟨c, rest, hname⟩ := hchars
      have hback : String.ofList (c :: rest) = name := by rw [← hname, String.ofList_toList]
      rw [htext, hname]
      cases enabled with
      | false => exact congrArg (fun s => Except.ok (Flag.mk s false)) hback
      | true => exact congrArg (fun s => Except.ok (Flag.mk s true)) hback

theorem ofEntries_eq_ok_iff {position : ℕ} {es : List Entry} {fs : List Flag} :
    ofEntries position es = .ok fs ↔ es = fs.map entry ∧ ∀ f ∈ fs, f.name ≠ "" := by
  induction es generalizing position fs with
  | nil =>
    simp only [ofEntries, Except.ok.injEq]
    constructor
    · rintro rfl; simp
    · intro ⟨h, _⟩
      exact (List.map_eq_nil_iff.1 h.symm).symm
  | cons e rest ih =>
    simp only [ofEntries, bind_eq_ok, pure_eq_ok, ofEntry_eq_ok_iff, ih]
    constructor
    · rintro ⟨f, ⟨rfl, hf⟩, fs', ⟨rfl, hfs⟩, rfl⟩
      exact ⟨rfl, List.forall_mem_cons.2 ⟨hf, hfs⟩⟩
    · intro ⟨h, hfs⟩
      cases fs with
      | nil => cases h
      | cons f fs' =>
        obtain ⟨rfl, rfl⟩ := List.cons.inj h
        obtain ⟨hf, hfs'⟩ := List.forall_mem_cons.1 hfs
        exact ⟨f, ⟨rfl, hf⟩, fs', ⟨rfl, hfs'⟩, rfl⟩

theorem entry_wellFormed_iff {f : Flag} :
    f.entry.WellFormed .flagList ↔ ';' ∉ f.name.toList ∧ '=' ∉ f.name.toList := by
  obtain ⟨hsemicolon, hequals, -⟩ := f.sign_ne
  constructor
  · intro h
    have hl := h.list_not_mem_key
    have he := h.entry_not_mem_key
    rw [entry, toList_text] at hl he
    exact ⟨fun hmem => hl (List.mem_cons_of_mem _ hmem), fun hmem => he (List.mem_cons_of_mem _ hmem)⟩
  · intro ⟨hl, he⟩
    refine ⟨?_, ?_, ?_, fun _ h => (by cases h), fun _ => rfl, fun h => absurd rfl h⟩
    · intro h0
      have h0' : f.text.toList = [] := by rw [show f.text = "" from h0]; rfl
      rw [toList_text] at h0'
      cases h0'
    · rw [entry, toList_text]
      exact List.not_mem_cons_of_ne_of_not_mem hsemicolon.symm hl
    · rw [entry, toList_text]
      exact List.not_mem_cons_of_ne_of_not_mem hequals.symm he

/-- **A text is read as the one list of switches with that text.** -/
theorem parseList_eq_ok_iff {raw : String} {fs : List Flag} :
    parseList raw = .ok fs ↔
      writeList fs = raw ∧ fs.length ≤ 256 ∧ raw.utf8ByteSize ≤ 65536 ∧ ∀ f ∈ fs, f.WellFormed := by
  unfold parseList
  rw [bind_eq_ok]
  constructor
  · intro ⟨l, hparse, hfs⟩
    obtain ⟨hwrite, hwf⟩ := EntryList.parse_eq_ok_iff.1 hparse
    obtain ⟨hentries, hne⟩ := ofEntries_eq_ok_iff.1 hfs
    obtain ⟨es⟩ := l
    obtain rfl : es = fs.map entry := hentries
    refine ⟨hwrite, by simpa using hwf.count, hwrite ▸ hwf.size, fun f hf => ?_⟩
    obtain ⟨hl, he⟩ := entry_wellFormed_iff.1 (hwf.entries _ (List.mem_map_of_mem hf))
    exact ⟨hne f hf, hl, he⟩
  · rintro ⟨rfl, hcount, hsize, hwf⟩
    refine ⟨⟨fs.map entry⟩, EntryList.parse_eq_ok_iff.2 ⟨rfl, by simpa using hcount, hsize, fun e he => ?_⟩,
      ofEntries_eq_ok_iff.2 ⟨rfl, fun f hf => (hwf f hf).ne_empty⟩⟩
    obtain ⟨f, hf, rfl⟩ := List.mem_map.1 he
    exact entry_wellFormed_iff.2 ⟨(hwf f hf).no_semicolon, (hwf f hf).no_equals⟩

theorem toList_writeList (fs : List Flag) :
    (writeList fs).toList = [';'].intercalate (fs.map fun f => f.sign :: f.name.toList) := by
  rw [writeList, EntryList.write, String.toList_ofList, List.map_map]
  congr 1
  exact List.map_congr_left fun f _ => f.toList_text

/-- a list of switches can be a value in a packed text where no name holds a comma -/
theorem comma_not_mem_writeList {fs : List Flag} :
    ',' ∉ (writeList fs).toList ↔ ∀ f ∈ fs, ',' ∉ f.name.toList := by
  rw [toList_writeList]
  constructor
  · intro h f hf hcomma
    have hpiece : f.sign :: f.name.toList ∈ fs.map fun f => f.sign :: f.name.toList := List.mem_map.2 ⟨f, hf, rfl⟩
    exact h ((infix_intercalate hpiece).subset (List.mem_cons_of_mem _ hcomma))
  · intro h hcomma
    rcases mem_of_mem_intercalate hcomma with heq | ⟨piece, hpiece, hmem⟩
    · exact absurd heq (by decide)
    · obtain ⟨f, hf, rfl⟩ := List.mem_map.1 hpiece
      rcases List.mem_cons.1 hmem with heq | hmem
      · exact f.sign_ne.2.2 heq.symm
      · exact h f hf hmem

/-! ## Entries that are no switches -/

/-- the entry is a name behind a sign, and has no value -/
def IsSwitch (e : Entry) : Prop :=
  e.value = none ∧ ∃ sign ∈ ['+', '-'], ∃ name ≠ [], e.key.toList = sign :: name

/-- what is wrong with an entry that is no switch -/
def defect (e : Entry) : EntryDefect := if e.value.isSome then .flagWithValue else .flagWithoutSign

theorem isSwitch_iff {e : Entry} : IsSwitch e ↔ ∃ f : Flag, e = f.entry ∧ f.name ≠ "" := by
  obtain ⟨key, value⟩ := e
  constructor
  · intro ⟨hvalue, sign, hsign, name, hname, hkey⟩
    obtain ⟨enabled, rfl⟩ : ∃ enabled, sign = Flag.sign ⟨String.ofList name, enabled⟩ := by
      rcases List.mem_pair.1 hsign with rfl | rfl
      · exact ⟨true, rfl⟩
      · exact ⟨false, rfl⟩
    refine ⟨⟨String.ofList name, enabled⟩, ?_, by simpa using hname⟩
    rw [entry, Entry.mk.injEq, ← String.toList_inj, toList_text, String.toList_ofList]
    exact ⟨hkey, hvalue⟩
  · intro ⟨f, hentry, hname⟩
    obtain ⟨rfl, rfl⟩ := Entry.mk.inj hentry
    refine ⟨rfl, f.sign, ?_, f.name.toList, by simpa using hname, f.toList_text⟩
    cases hsign : f.enabled <;> simp [sign, hsign]

theorem exists_ofEntries {position : ℕ} {es : List Entry} (h : ∀ e ∈ es, IsSwitch e) :
    ∃ fs, ofEntries position es = .ok fs := by
  induction es generalizing position with
  | nil => exact ⟨[], rfl⟩
  | cons e es ih =>
    obtain ⟨he, hrest⟩ := List.forall_mem_cons.1 h
    obtain ⟨f, hf⟩ := isSwitch_iff.1 he
    obtain ⟨fs, hfs⟩ : ∃ fs, ofEntries (position + 1) es = .ok fs := ih hrest
    refine ⟨f :: fs, ?_⟩
    rw [ofEntries, ofEntry_eq_ok_iff.2 hf, hfs]
    rfl

theorem ofEntry_of_not_isSwitch {position : ℕ} {e : Entry} (h : ¬IsSwitch e) :
    ofEntry position e = .error (.malformed e.key position (defect e)) := by
  unfold ofEntry defect
  by_cases hvalue : e.value.isSome
  · rw [if_pos hvalue, if_pos hvalue]
  · have hnone : e.value = none := by simpa using hvalue
    rw [if_neg hvalue, if_neg hvalue]
    split
    · rename_i c rest hkey
      exact absurd ⟨hnone, '+', by simp, c :: rest, by simp, hkey⟩ h
    · rename_i c rest hkey
      exact absurd ⟨hnone, '-', by simp, c :: rest, by simp, hkey⟩ h
    · rfl

/-- the first entry that is no switch is the fault, and its index is how many stand before it -/
theorem ofEntries_of_first {position : ℕ} {before after : List Entry} {e : Entry} (hbefore : ∀ b ∈ before, IsSwitch b)
    (he : ¬IsSwitch e) :
    ofEntries position (before ++ e :: after) = .error (.malformed e.key (position + before.length) (defect e)) := by
  induction before generalizing position with
  | nil =>
    rw [List.nil_append, ofEntries, ofEntry_of_not_isSwitch he]
    rfl
  | cons b before ih =>
    obtain ⟨hb, hrest⟩ := List.forall_mem_cons.1 hbefore
    obtain ⟨f, hf⟩ := isSwitch_iff.1 hb
    rw [List.cons_append, ofEntries, ofEntry_eq_ok_iff.2 hf, ih hrest, List.length_cons]
    show Except.error (TokenFault.malformed _ (position + 1 + before.length) _) = _
    rw [Nat.add_right_comm, Nat.add_assoc]

-- a switch without a sign is blamed ahead of one with a value
example : parseList "+aes;pcid;-ht=1" = .error (.malformed "pcid" 1 .flagWithoutSign) := by rfl

theorem parseList_of_entries {raw : String} {l : EntryList} (h : EntryList.parse .flagList raw = .ok l) :
    parseList raw = ofEntries 0 l.entries := by
  rw [parseList, h]
  rfl

/-- **Lists of switches are read and written inversely.** What is read is written back as the same text, and a list is
read back from its text exactly if its names are not empty and free of both separators, and there are no more of them
and no longer a text than a packed text may have. Of a text that is a list of entries, the first entry that is no switch
is blamed, by its key and its index; and a text that is no list of entries has the fault of one. -/
theorem lists_read_and_written :
    (∀ raw fs, parseList raw = .ok fs → writeList fs = raw) ∧
    (∀ fs : List Flag, parseList (writeList fs) = .ok fs ↔
      (∀ f ∈ fs, f.WellFormed) ∧ fs.length ≤ 256 ∧ (writeList fs).utf8ByteSize ≤ 65536) ∧
    (∀ raw l, EntryList.parse .flagList raw = .ok l →
      ((∀ e ∈ l.entries, IsSwitch e) → ∃ fs, parseList raw = .ok fs) ∧
      ((∃ e ∈ l.entries, ¬IsSwitch e) → ∃ before e after, l.entries = before ++ e :: after ∧
        (∀ b ∈ before, IsSwitch b) ∧ ¬IsSwitch e ∧
        parseList raw = .error (.malformed e.key before.length (defect e)))) ∧
    ∀ raw fault, EntryList.parse .flagList raw = .error fault → parseList raw = .error fault := by
  refine ⟨fun raw fs h => (parseList_eq_ok_iff.1 h).1, fun fs => ?_, fun raw l hl => ⟨fun hall => ?_, fun hsome => ?_⟩,
    fun raw fault h => ?_⟩
  · rw [parseList_eq_ok_iff]
    tauto
  · rw [parseList_of_entries hl]
    exact exists_ofEntries hall
  · have hnot : ¬∀ e ∈ l.entries, IsSwitch e := by simpa using hsome
    obtain ⟨before, e, after, hentries, hbefore, he⟩ := exists_first_not hnot
    refine ⟨before, e, after, hentries, hbefore, he, ?_⟩
    rw [parseList_of_entries hl, hentries, ofEntries_of_first hbefore he, Nat.zero_add]
  · rw [parseList, h]
    rfl

end Hypervisor.Flag
