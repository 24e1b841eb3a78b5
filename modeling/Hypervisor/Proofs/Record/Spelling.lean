/-
What is read does not depend on how the node spells it.

Two reports spell some properties alike when each of these is missing in both, left out or named without a value, or is
present in both with one value a respelling of the other; of all other keys nothing is said (`Report.Respelled`). A
property is read by its own name only, so it is read alike from both (`Property.Steady`), and so is a record, property
by property: `decode_respelled`. One property of one record has numbers with a sign of zero, the limit of a processor,
so processors and the guests that have them come out equal, and all others the same.
-/
import Hypervisor.Proofs.Record.Fields
import Hypervisor.Proofs.Wire.Spelling

namespace Hypervisor

open Fallible

/-! ## Reports -/

/-- a value was looked up and there was none, or nothing but the name -/
def Value.Unfound (found : Option Value) : Prop := found = none ∨ found = some .absent

/-- what was looked up in two reports is missing in both or spelled in two ways -/
inductive Value.FoundAlike : Option Value → Option Value → Prop
  | missing {found found' : Option Value} : Unfound found → Unfound found' → FoundAlike found found'
  | present {v v' : Value} : v.Respelled v' → FoundAlike (some v) (some v')

/-- the second report is the first with the properties of these names respelled, and with anything else at all -/
def Report.Respelled (names : List String) (m m' : Report) : Prop :=
  ∀ name ∈ names, Value.FoundAlike (m.get? name) (m'.get? name)

theorem Report.Respelled.mono {names names' : List String} {m m' : Report} (h : Respelled names' m m')
    (hsub : names ⊆ names') : Respelled names m m' := fun name hname => h name (hsub hname)

/-! ## Properties -/

namespace Property

variable {α : Type} [Wire α] {p : Property α} {same : α → α → Prop}

/-- another spelling gives a value that is the same in this sense, and that is checked and transformed alike -/
structure Steady (p : Property α) (same : α → α → Prop) : Prop where
  refl : ∀ a, same a a
  decode : ∀ (v v' : Value) (a : α), v.Respelled v' → Wire.decode p.effectiveDialect v = .ok a →
    ∃ a', Wire.decode p.effectiveDialect v' = .ok a' ∧ same a a'
  accepts : ∀ a a', same a a' → p.Accepts a → p.Accepts a'
  transform : ∀ a a', same a a' → same (p.transform.getD id a) (p.transform.getD id a')

theorem steady_of_wire [SteadyWire α] (p : Property α) : p.Steady Eq where
  refl _ := rfl
  decode _ _ a hv ha := ⟨a, SteadyWire.decode_respelled _ a hv ha, rfl⟩
  accepts a a' h hacc := by
    rw [← h]
    exact hacc
  transform a a' h := by rw [h]

theorem resolve_unfound {found : Option Value} (h : Value.Unfound found) : p.resolve found = p.resolve none := by
  rcases h with rfl | rfl
  · rfl
  · rfl

theorem Steady.resolve (hp : p.Steady same) {found found' : Option Value} (h : Value.FoundAlike found found') {b : α}
    (hread : p.resolve found = .ok b) : ∃ b', p.resolve found' = .ok b' ∧ same b b' := by
  cases h with
  | missing hfound hfound' =>
    rw [resolve_unfound hfound] at hread
    rw [resolve_unfound hfound']
    exact ⟨b, hread, hp.refl b⟩
  | @present v v' hv =>
    by_cases habsent : v = .absent
    · rw [resolve_unfound (.inr (congrArg some habsent))] at hread
      rw [resolve_unfound (.inr (congrArg some (hv.absent_iff.1 habsent)))]
      exact ⟨b, hread, hp.refl b⟩
    · obtain ⟨a, ha, hacc, rfl⟩ := (resolve_some_eq_ok habsent).1 hread
      obtain ⟨a', ha', hsame⟩ := hp.decode v v' a hv ha
      have hpresent : v' ≠ .absent := fun h' => habsent (hv.absent_iff.2 h')
      exact ⟨_, (resolve_some_eq_ok hpresent).2 ⟨a', ha', hp.accepts a a' hsame hacc, rfl⟩, hp.transform a a' hsame⟩

end Property

namespace Report.Respelled

variable {α : Type} [Wire α] {names : List String} {m m' : Report} (hs : Respelled names m m')

include hs

theorem extract_same {p : Property α} {same : α → α → Prop} (hp : p.Steady same) (hname : p.name ∈ names) {a : α}
    (h : p.extract m = .ok a) : ∃ a', p.extract m' = .ok a' ∧ same a a' := hp.resolve (hs p.name hname) h

theorem extract [SteadyWire α] {p : Property α} (hname : p.name ∈ names) {a : α} (h : p.extract m = .ok a) :
    p.extract m' = .ok a := by
  obtain ⟨_, ha, rfl⟩ := hs.extract_same p.steady_of_wire hname h
  exact ha

/-- members are read one by one -/
theorem membersOf {κ : Type} [Ord κ] [BEq κ] [SteadyWire α] {family : κ → Property (Option α)} {keys : List κ}
    {members : Table κ α} (hnames : ∀ k ∈ keys, (family k).name ∈ names) (h : MembersOf family keys m members) :
    MembersOf family keys m' members := ⟨fun k hk => hs.extract (hnames k hk) (h.1 k hk), h.2⟩

end Report.Respelled

/-! ## Guests -/

namespace Guest

variable {m m' : Report}

theorem Memory.decode_respelled {memory : Memory} (hs : Report.Respelled (fields.map Field.name) m m')
    (h : decode m = .ok memory) : decode m' = .ok memory := by
  obtain ⟨h₁, h₂, h₃⟩ := decode_eq_ok.1 h
  refine decode_eq_ok.2 ⟨hs.extract ?_ h₁, hs.extract ?_ h₂, hs.extract ?_ h₃⟩ <;> decide

namespace Processor

/-- zero is within bounds whatever its sign -/
theorem limit_steady : limitProperty.Steady Double.SameValue where
  refl _ := .inl rfl
  decode _ _ _ hv hx := Double.decode_respelled _ hv hx
  accepts x y h hacc := by
    rw [Property.accepts_iff rfl] at hacc ⊢
    rw [h.between_eq]
    exact hacc
  transform _ _ h := h

theorem decode_respelled {p : Processor} (hs : Report.Respelled (fields.map Field.name) m m') (h : decode m = .ok p) :
    ∃ limit, decode m' = .ok { p with limit := limit } ∧ p.limit.SameValue limit := by
  obtain ⟨h₁, h₂, h₃, h₄, h₅, h₆, h₇⟩ := decode_eq_ok.1 h
  obtain ⟨limit, hlimit, hsame⟩ := hs.extract_same limit_steady (by decide) h₅
  refine ⟨limit, decode_eq_ok.2 ⟨hs.extract ?_ h₁, hs.extract ?_ h₂, hs.extract ?_ h₃, hs.extract ?_ h₄, hlimit,
    hs.extract ?_ h₆, hs.extract ?_ h₇⟩, hsame⟩ <;> decide

/-- a processor that was read equals every one with a limit of the same value -/
theorem beq_of_sameValue {p : Processor} (h : decode m = .ok p) {limit : Double} (hsame : p.limit.SameValue limit) :
    ({ p with limit := limit } == p) = true := by
  have hfinite := isFinite_of_between (inRange_of_decode h).limit
  exact beq_iff.2 ⟨rfl, rfl, rfl, rfl, hsame.beq hfinite, rfl, rfl⟩

end Processor

namespace Config

theorem decode_respelled {c : Config} (hs : Report.Respelled (fields.map Field.name) m m') (h : decode m = .ok c) :
    ∃ limit, decode m' = .ok { c with processor := { c.processor with limit := limit } } ∧
      c.processor.limit.SameValue limit := by
  obtain ⟨h₁, h₂, h₃, h₄, h₅, h₆, h₇⟩ := decode_eq_ok.1 h
  obtain ⟨limit, hprocessor, hsame⟩ := Processor.decode_respelled (hs.mono (by decide)) h₃
  have hmemory := Memory.decode_respelled (hs.mono (by decide)) h₄
  have hnics := hs.membersOf (by decide) ((devicesOf_eq_ok nicSlots_nodup).1 h₅)
  have hdisks := hs.membersOf (by decide) ((devicesOf_eq_ok diskSlots_nodup).1 h₆)
  refine ⟨limit, decode_eq_ok.2 ⟨hs.extract ?_ h₁, hs.extract ?_ h₂, hprocessor, hmemory,
    (devicesOf_eq_ok nicSlots_nodup).2 hnics, (devicesOf_eq_ok diskSlots_nodup).2 hdisks, hs.extract ?_ h₇⟩, hsame⟩ <;>
    decide

/-- a guest that was read equals every one whose processor has a limit of the same value -/
theorem beq_of_sameValue {c : Config} (h : decode m = .ok c) {limit : Double}
    (hsame : c.processor.limit.SameValue limit) :
    ({ c with processor := { c.processor with limit := limit } } == c) = true := by
  obtain ⟨-, -, hprocessor, -, hnics, -, -⟩ := decode_eq_ok.1 h
  refine beq_iff.2 ⟨rfl, rfl, Processor.beq_of_sameValue hprocessor hsame, rfl, ?_, ?_, rfl⟩
  · refine Table.beq_self fun slot nic hnic => ?_
    obtain ⟨raw, hraw⟩ := ((devicesOf_eq_ok nicSlots_nodup).1 hnics).exists_text slot_isMember hnic
    exact Nic.beq_self (Nic.portable_of_decode hraw).rate
  · exact Table.beq_self fun slot disk _ => beq_self_eq_true disk

end Config

end Guest

/-! ## Other records -/

section

variable {m m' : Report}

theorem Firewall.Rule.decode_respelled {r : Rule} (hs : Report.Respelled (fields.map Field.name) m m')
    (h : decode m = .ok r) : decode m' = .ok r := by
  obtain ⟨h₁, h₂, h₃, h₄, h₅, h₆, h₇, h₈, h₉, h₁₀, h₁₁, h₁₂, h₁₃, h₁₄, h₁₅⟩ := decode_eq_ok.1 h
  refine decode_eq_ok.2 ⟨hs.extract ?_ h₁, hs.extract ?_ h₂, hs.extract ?_ h₃, hs.extract ?_ h₄, hs.extract ?_ h₅,
    hs.extract ?_ h₆, hs.extract ?_ h₇, hs.extract ?_ h₈, hs.extract ?_ h₉, hs.extract ?_ h₁₀, hs.extract ?_ h₁₁,
    hs.extract ?_ h₁₂, hs.extract ?_ h₁₃, hs.extract ?_ h₁₄, hs.extract ?_ h₁₅⟩ <;> decide

theorem Availability.Group.decode_respelled {g : Group} (hs : Report.Respelled (fields.map Field.name) m m')
    (h : decode m = .ok g) : decode m' = .ok g := by
  obtain ⟨h₁, h₂, h₃, h₄, h₅, h₆⟩ := decode_eq_ok.1 h
  refine decode_eq_ok.2 ⟨hs.extract ?_ h₁, hs.extract ?_ h₂, hs.extract ?_ h₃, hs.extract ?_ h₄, hs.extract ?_ h₅,
    hs.extract ?_ h₆⟩ <;> decide

theorem Cluster.Node.decode_respelled {n : Node} (hs : Report.Respelled (fields.map Field.name) m m')
    (h : decode m = .ok n) : decode m' = .ok n := by
  obtain ⟨h₁, h₂, h₃, h₄⟩ := decode_eq_ok.1 h
  refine decode_eq_ok.2 ⟨hs.extract ?_ h₁, hs.extract ?_ h₂, hs.extract ?_ h₃, hs.membersOf ?_ h₄⟩ <;> decide

/-- the kind is read alike, so the defaults are those of the same backend -/
theorem Storage.Definition.decode_respelled {s : Definition}
    (hs : Report.Respelled ((fields s.kind).map Field.name) m m') (h : decode m = .ok s) : decode m' = .ok s := by
  rw [fields_names] at hs
  obtain ⟨h₁, h₂, h₃, h₄, h₅, h₆, h₇, h₈, h₉, h₁₀, h₁₁, h₁₂, h₁₃, h₁₄, h₁₅⟩ := decode_eq_ok.1 h
  have hcontent : (contentProperty s.kind).name = "content" := defaults.apply_name s.kind _
  have hshared : (sharedProperty s.kind).name = "shared" := defaults.apply_name s.kind _
  have hsparse : (sparseProperty s.kind).name = "sparse" := defaults.apply_name s.kind _
  refine decode_eq_ok.2 ⟨hs.extract ?_ h₁, hs.extract ?_ h₂, hs.extract ?_ h₃, hs.extract ?_ h₄, hs.extract ?_ h₅,
    hs.extract ?_ h₆, hs.extract ?_ h₇, hs.extract ?_ h₈, hs.extract ?_ h₉, hs.extract ?_ h₁₀, hs.extract ?_ h₁₁,
    hs.extract ?_ h₁₂, hs.extract ?_ h₁₃, hs.extract ?_ h₁₄, hs.extract ?_ h₁₅⟩ <;>
    first | decide | simp [hcontent, hshared, hsparse]

/-- the exit status is read of the same tasks -/
theorem Task.Status.decode_respelled {s : Status} (hs : Report.Respelled (fields.map Field.name) m m')
    (h : decode m = .ok s) : decode m' = .ok s := by
  obtain ⟨state, hstate, hrest⟩ := bind_eq_ok.1 h
  refine bind_eq_ok.2 ⟨state, hs.extract (by decide) hstate, ?_⟩
  rcases state with (_ | _) | _
  · exact hrest
  · obtain ⟨exitStatus, hexit, hpure⟩ := bind_eq_ok.1 hrest
    exact bind_eq_ok.2 ⟨exitStatus, hs.extract (by decide) hexit, hpure⟩
  · exact hrest

end

/-! ## All records -/

/-- a record that is read from a report is read, equal, from each respelling of its properties -/
def Record.SpellingFree (α : Type) [Record α] [Record.Declared α] [BEq α] : Prop :=
  ∀ (m m' : Report) (r : α), Record.decode m = .ok r →
    Report.Respelled ((Record.Declared.fields r).map Field.name) m m' →
    ∃ r', Record.decode m' = .ok r' ∧ (r' == r) = true

/-- **What is read does not depend on its spelling.** Whole numbers may be spelled by their decimals, on their own or in
sequences, missing properties named or not, and keys that the record does not declare may hold anything: a report that
is read is still read, and gives an equal record. -/
theorem decode_spelling_free :
    Record.SpellingFree Guest.Config ∧ Record.SpellingFree Guest.Processor ∧ Record.SpellingFree Guest.Memory ∧
      Record.SpellingFree Firewall.Rule ∧ Record.SpellingFree Availability.Group ∧ Record.SpellingFree Cluster.Node ∧
      Record.SpellingFree Storage.Definition ∧
      ∀ (m m' : Report) (s : Task.Status), Task.Status.decode m = .ok s →
        Report.Respelled (Task.Status.fields.map Field.name) m m' → Task.Status.decode m' = .ok s := by
  refine ⟨fun m m' c h hs => ?_, fun m m' p h hs => ?_, fun m m' memory h hs => ?_, fun m m' r h hs => ?_,
    fun m m' g h hs => ?_, fun m m' n h hs => ?_, fun m m' s h hs => ?_, fun m m' s h hs => ?_⟩
  · obtain ⟨limit, hc, hsame⟩ := Guest.Config.decode_respelled hs h
    exact ⟨_, hc, Guest.Config.beq_of_sameValue h hsame⟩
  · obtain ⟨limit, hp, hsame⟩ := Guest.Processor.decode_respelled hs h
    exact ⟨_, hp, Guest.Processor.beq_of_sameValue h hsame⟩
  · exact ⟨memory, Guest.Memory.decode_respelled hs h, beq_self_eq_true memory⟩
  · exact ⟨r, Firewall.Rule.decode_respelled hs h, beq_self_eq_true r⟩
  · exact ⟨g, Availability.Group.decode_respelled hs h, beq_self_eq_true g⟩
  · exact ⟨n, Cluster.Node.decode_respelled hs h, n.beq_self⟩
  · exact ⟨s, Storage.Definition.decode_respelled hs h, beq_self_eq_true s⟩
  · exact Task.Status.decode_respelled hs h

/-- two cores, a limit of minus zero and a switch that is on, all of them numbers -/
def numericReport : Report :=
  Table.ofList [("cores", .number (.ofBits 0x4000000000000000)), ("cpulimit", .number (.ofBits 0x8000000000000000)),
    ("numa", .number (.ofBits 0x3FF0000000000000))]

/-- the same in digits, with a key that is named without a value and one that no processor declares -/
def textualReport : Report :=
  Table.ofList [("cores", .text "2"), ("cpulimit", .text "0"), ("numa", .text "1"), ("vcpus", .absent),
    ("memory", .text "none")]

/-- the limit loses the sign of its zero, and the processors are equal -/
theorem decode_spelling_free_minusZero :
    ∃ p p' : Guest.Processor,
      Guest.Processor.decode numericReport = .ok p ∧ Guest.Processor.decode textualReport = .ok p' ∧
        (p' == p) = true ∧ p.limit.bits? = some 0x8000000000000000 ∧ p'.limit.bits? = some 0 := by
  obtain ⟨-, hprocessor, -⟩ := decode_spelling_free
  have hunfound : Value.FoundAlike none none := .missing (.inl rfl) (.inl rfl)
  have hs : Report.Respelled (Guest.Processor.fields.map Field.name) numericReport textualReport := by
    simp only [Guest.Processor.fields, List.map_cons, List.map_nil, Report.Respelled, List.forall_mem_cons]
    exact ⟨.present (.digits (n := 2) rfl), hunfound, .missing (.inl rfl) (.inr rfl), hunfound,
      .present (.digits (n := 0) rfl), hunfound, .present (.digits (n := 1) rfl), List.forall_mem_nil _⟩
  have hread : (Guest.Processor.decode numericReport).toOption.bind (·.limit.bits?) = some 0x8000000000000000 := by
    decide +kernel
  have hread' : (Guest.Processor.decode textualReport).toOption.bind (·.limit.bits?) = some 0 := by decide +kernel
  cases hp : Guest.Processor.decode numericReport with
  | error e => rw [hp] at hread; cases hread
  | ok p =>
    obtain ⟨p', hp', heq⟩ := hprocessor numericReport textualReport p hp hs
    change Guest.Processor.decode textualReport = .ok p' at hp'
    rw [hp] at hread
    rw [hp'] at hread'
    exact ⟨p, p', rfl, hp', heq, hread, hread'⟩

end Hypervisor
