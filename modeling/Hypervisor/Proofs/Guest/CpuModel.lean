/-
Processor models that read back from their text. The switches are a text within the text: their names must be free of
the separators of both dialects, and the name of the model must be plain before the switches and the option behind it.
-/
import Hypervisor.Guest.Processor
import Hypervisor.Proofs.Entry.Flag
import Hypervisor.Proofs.Packed.Layout

namespace Hypervisor.Guest.CpuModel

open Fallible Property EntryList

theorem hidden_faithful : hiddenProperty.Faithful := faithful_of_default rfl rfl rfl ⟨false, rfl, rfl⟩

/-- the options behind the switches -/
def options (c : CpuModel) : List Attribute := [hiddenProperty.attribute c.hidden]

/-- the entry of the switches, if there are any -/
def flagEntries (c : CpuModel) : List Entry :=
  if c.flags.isEmpty then [] else [⟨"flags", some (Flag.writeList c.flags)⟩]

/-- the entries behind the name -/
def written (c : CpuModel) : List Entry := c.flagEntries ++ c.options.flatMap Attribute.sentEntries

theorem options_nodup (c : CpuModel) : (c.options.map Attribute.name).Nodup := by simp [options]

theorem writable (c : CpuModel) : ∀ a ∈ c.options, ∃ o, a.outcome = .ok o := by
  intro a ha
  rw [List.mem_singleton.1 ha]
  exact exists_outcome_of_total hiddenProperty c.hidden

theorem toEntries_eq (c : CpuModel) : toEntries c = .ok ⟨⟨c.name, none⟩ :: c.written⟩ :=
  layOut_eq_ok.2 ⟨c.writable, rfl⟩

theorem ofEntries_eq_ok {l : EntryList} {c : CpuModel} :
    ofEntries l = .ok c ↔
      l.Leads nameProperty.name c.name ∧ flagsOf l = .ok c.flags ∧ hiddenProperty.extractEntry l = .ok c.hidden := by
  refine (read_part_eq_ok (p := nameProperty) rfl rfl rfl).trans ?_
  simp only [bind_eq_ok, pure_eq_ok]
  constructor
  · rintro ⟨_, hname, _, hflags, _, hhidden, rfl⟩
    exact ⟨hname, hflags, hhidden⟩
  · intro ⟨hname, hflags, hhidden⟩
    exact ⟨_, hname, _, hflags, _, hhidden, rfl⟩

/-! ## Entries behind the name -/

theorem mem_flagEntries {c : CpuModel} {e : Entry} :
    e ∈ c.flagEntries ↔ c.flags ≠ [] ∧ e = ⟨"flags", some (Flag.writeList c.flags)⟩ := by
  unfold flagEntries
  cases c.flags <;> simp

theorem key_of_mem_written {c : CpuModel} {e : Entry} (h : e ∈ c.written) : e.key = "flags" ∨ e.key = "hidden" := by
  rcases List.mem_append.1 h with h | h
  · rw [(mem_flagEntries.1 h).2]
    exact .inl rfl
  · obtain ⟨a, ha, text, -, rfl⟩ := mem_options.1 h
    rw [List.mem_singleton.1 ha]
    exact .inr rfl

theorem name_not_written (c : CpuModel) : ∀ e ∈ c.written, e.key ≠ nameProperty.name := by
  intro e he
  rcases key_of_mem_written he with h | h <;> rw [h] <;> decide

theorem written_length (c : CpuModel) : c.written.length < 256 := by
  have hflags : c.flagEntries.length ≤ 1 := by unfold flagEntries; split_ifs <;> simp
  have hoptions := length_options_le c.options
  have hone : c.options.length = 1 := rfl
  rw [written, List.length_append]
  omega

/-- switches that can be written: not too many, and their names free of all separators -/
structure FlagsFit (fs : List Flag) : Prop where
  count : fs.length ≤ 256
  wellFormed : ∀ f ∈ fs, f.WellFormed
  no_comma : ∀ f ∈ fs, ',' ∉ f.name.toList

theorem written_wellFormed {c : CpuModel} (h : FlagsFit c.flags) : ∀ e ∈ c.written, e.WellFormed .propertyString := by
  intro e he
  rcases List.mem_append.1 he with he | he
  · rw [(mem_flagEntries.1 he).2]
    have hkey : "flags" ≠ "" ∧ ',' ∉ "flags".toList ∧ '=' ∉ "flags".toList := by decide
    refine ⟨hkey.1, hkey.2.1, hkey.2.2, ?_, fun h => (by cases h), fun _ => by decide⟩
    intro value hvalue
    obtain rfl := Option.some.inj hvalue
    exact Flag.comma_not_mem_writeList.2 h.no_comma
  · refine Attribute.IsTame.wellFormed rfl rfl (by decide) (fun a ha => ?_) e he
    rw [List.mem_singleton.1 ha]
    exact attribute_isTame _ _ (by decide) (by decide)

/-! ## Switches -/

theorem flagsOf_of_none {l : EntryList} (h : l.get? "flags" = none) : flagsOf l = .ok [] := by
  unfold flagsOf
  rw [h]

theorem flagsOf_of_some {l : EntryList} {raw : String} (h : l.get? "flags" = some raw) {fs : List Flag} :
    flagsOf l = .ok fs ↔ Flag.parseList raw = .ok fs := by
  unfold flagsOf
  rw [h]
  exact mapError_eq_ok

/-- switches that were read can be written -/
theorem flagsFit_of_flagsOf {l : EntryList} (hl : ∀ e ∈ l.entries, e.WellFormed .propertyString) {fs : List Flag}
    (h : flagsOf l = .ok fs) : FlagsFit fs := by
  cases hget : l.get? "flags" with
  | none =>
    rw [flagsOf_of_none hget] at h
    obtain rfl := Except.ok.inj h
    exact ⟨by simp, by simp, by simp⟩
  | some raw =>
    obtain ⟨hwrite, hcount, -, hwf⟩ := Flag.parseList_eq_ok_iff.1 ((flagsOf_of_some hget).1 h)
    have hcomma : ',' ∉ raw.toList := (hl _ (exists_of_get? hget)).list_not_mem_value raw rfl
    exact ⟨hcount, hwf, Flag.comma_not_mem_writeList.1 (hwrite ▸ hcomma)⟩

theorem get?_written_flags (c : CpuModel) :
    get? ⟨c.written⟩ "flags" = if c.flags = [] then none else some (Flag.writeList c.flags) := by
  split_ifs with hempty
  · refine get?_eq_none fun e he => ?_
    rcases List.mem_append.1 he with he | he
    · exact absurd hempty (mem_flagEntries.1 he).1
    · obtain ⟨a, ha, text, -, rfl⟩ := mem_options.1 he
      rw [List.mem_singleton.1 ha]
      exact (by decide : hiddenProperty.name ≠ "flags")
  · have hentries : c.flagEntries = [⟨"flags", some (Flag.writeList c.flags)⟩] := if_neg (by simpa using hempty)
    rw [written, hentries]
    exact get?_cons_self _ _

/-- the text of the switches is not longer than the one that holds it -/
theorem writeList_le_write {c : CpuModel} (h : c.flags ≠ []) :
    (Flag.writeList c.flags).utf8ByteSize ≤ (write .propertyString ⟨⟨c.name, none⟩ :: c.written⟩).utf8ByteSize := by
  have hmem : (⟨"flags", some (Flag.writeList c.flags)⟩ : Entry) ∈ (⟨c.name, none⟩ : Entry) :: c.written :=
    List.mem_cons_of_mem _ (List.mem_append_left _ (mem_flagEntries.2 ⟨h, rfl⟩))
  apply utf8ByteSize_le_of_isInfix
  rw [write, String.toList_ofList]
  refine List.IsInfix.trans ?_ (infix_intercalate (List.mem_map_of_mem hmem))
  exact ⟨"flags=".toList, [], by simp [Entry.write, Dialect.propertyString]⟩

/-- behind the name, the switches are read back unless the name hides them -/
theorem flagsOf_written {c : CpuModel} (hfit : FlagsFit c.flags)
    (hsize : (write .propertyString ⟨⟨c.name, none⟩ :: c.written⟩).utf8ByteSize ≤ 65536) :
    flagsOf ⟨⟨c.name, none⟩ :: c.written⟩ = .ok c.flags ↔ ∀ e ∈ c.flagEntries, e.key ≠ c.name := by
  by_cases hname : c.name = "flags"
  · have hget : get? ⟨⟨c.name, none⟩ :: c.written⟩ "flags" = none := by
      rw [← hname]
      exact get?_cons_self _ _
    rw [flagsOf_of_none hget, Except.ok.injEq]
    constructor
    · intro h e he
      exact absurd h.symm (mem_flagEntries.1 he).1
    · intro h
      by_contra hne
      exact h _ (mem_flagEntries.2 ⟨fun h0 => hne h0.symm, rfl⟩) hname.symm
  · have hget : get? ⟨⟨c.name, none⟩ :: c.written⟩ "flags" = _ :=
      (get?_cons_of_ne hname _).trans c.get?_written_flags
    have hkeys : ∀ e ∈ c.flagEntries, e.key ≠ c.name := by
      intro e he
      rw [(mem_flagEntries.1 he).2]
      exact fun h => hname h.symm
    refine iff_of_true ?_ hkeys
    by_cases hempty : c.flags = []
    · rw [if_pos hempty] at hget
      rw [flagsOf_of_none hget, hempty]
    · rw [if_neg hempty] at hget
      exact (flagsOf_of_some hget).2
        (Flag.parseList_eq_ok_iff.2 ⟨rfl, hfit.count, (writeList_le_write hempty).trans hsize, hfit.wellFormed⟩)

/-! ## The round trip -/

theorem roundTrips_iff_of_flagsFit {c : CpuModel} (hfit : FlagsFit c.flags) :
    Wire.RoundTrips .propertyString c ↔
      (∃ w, Wire.encode .propertyString c = .ok (some w) ∧ w.utf8ByteSize ≤ 65536) ∧ PlainPart c.name c.written := by
  have hto : ∀ l, Packed.toEntries c = .ok l ↔ True ∧ l = ⟨⟨c.name, none⟩ :: c.written⟩ := by
    intro l
    change toEntries c = .ok l ↔ _
    rw [toEntries_eq, Except.ok.injEq, true_and, eq_comm]
  refine Packed.roundTrips_positional hto (fun _ => ofEntries_eq_ok) (written_wellFormed hfit) c.written_length
    c.name_not_written fun _ hsize => ?_
  have hmiddle : ∀ e ∈ c.flagEntries, e.key ≠ hiddenProperty.name := by
    intro e he
    rw [(mem_flagEntries.1 he).2]
    exact (by decide : "flags" ≠ hiddenProperty.name)
  have hmem : hiddenProperty.attribute c.hidden ∈ c.options := List.mem_singleton.2 rfl
  have hhidden : hiddenProperty.extractEntry ⟨⟨c.name, none⟩ :: c.written⟩ = .ok c.hidden ↔ _ :=
    extractEntry_behind_bare hmiddle c.options_nodup c.writable hmem hidden_faithful rfl
  rw [flagsOf_written hfit hsize, hhidden, written, List.forall_mem_append, forall_options_key_ne]
  simp [options]

/-- **Processor models that read back.** The text is not too long, there are at most 256 switches with names free of
separators, and the name is plain before them. -/
theorem roundTrips_iff {c : CpuModel} :
    Wire.RoundTrips .propertyString c ↔
      (∃ w, Wire.encode .propertyString c = .ok (some w) ∧ w.utf8ByteSize ≤ 65536) ∧
        FlagsFit c.flags ∧ PlainPart c.name c.written := by
  constructor
  · intro h
    obtain ⟨w, -, hc⟩ := id h
    obtain ⟨l, hparse, hl⟩ := Packed.decode_text_eq_ok.1 hc
    have hfit := flagsFit_of_flagsOf (parse_eq_ok_iff.1 hparse).2.entries (ofEntries_eq_ok.1 hl).2.1
    obtain ⟨hw, hplain⟩ := (roundTrips_iff_of_flagsFit hfit).1 h
    exact ⟨hw, hfit, hplain⟩
  · intro ⟨hw, hfit, hplain⟩
    exact (roundTrips_iff_of_flagsFit hfit).2 ⟨hw, hplain⟩

theorem exists_encode (c : CpuModel) : ∃ w, Wire.encode .propertyString c = .ok (some w) :=
  ⟨_, Packed.encode_eq_ok.2 ⟨_, c.toEntries_eq, rfl⟩⟩

theorem flagsFit_of_decode {c : CpuModel} {raw : String} (h : Wire.decode .propertyString (.text raw) = .ok c) :
    FlagsFit c.flags := by
  obtain ⟨l, hparse, hl⟩ := Packed.decode_text_eq_ok.1 h
  exact flagsFit_of_flagsOf (parse_eq_ok_iff.1 hparse).2.entries (ofEntries_eq_ok.1 hl).2.1

end Hypervisor.Guest.CpuModel
