/-
The format of task identifiers, and which texts are taken for one.

The format is `UPID:node:pid:pstart:starttime:type:id:user:` with three hexadecimal numbers (`Parts.Names`), in digits
of either case and with any number of leading zeros in front (`Text.IsHexadecimal`). What is taken is the format and
more: each number may have a plus sign in front of it (`SignedNumeral`). The sign is all that is taken beyond the
format, and `plus_sign_taken` is a text with one. Everything that has neither form is refused as it stands.
-/
import Hypervisor.Proofs.Entry.RoundTrip
import Hypervisor.Proofs.Text.Hex
import Hypervisor.Task.Id

namespace Hypervisor

/-! ## Identifiers -/

namespace Task.Id

open Text (IsHexadecimal)

/-- a numeral as it is taken: at most one plus sign stands in front -/
inductive SignedNumeral : List Char → ℕ → Prop
  | plain {s : List Char} {n : ℕ} : IsHexadecimal s n → SignedNumeral s n
  | plus {s : List Char} {n : ℕ} : IsHexadecimal s n → SignedNumeral ('+' :: s) n

/-- the parts of an identifier between its colons -/
structure Parts where
  node : List Char
  pid : List Char
  processStart : List Char
  start : List Char
  type : List Char
  subject : List Char
  user : List Char

namespace Parts

/-- all nine parts: the first is fixed and the last is empty -/
def pieces (p : Parts) : List (List Char) :=
  ["UPID".toList, p.node, p.pid, p.processStart, p.start, p.type, p.subject, p.user, []]

def text (p : Parts) : List Char := [':'].intercalate p.pieces

/-- the parts are those of this identifier, where `numeral` is the form of its numbers -/
structure Names (numeral : List Char → ℕ → Prop) (p : Parts) (id : Id) : Prop where
  node_ne_nil : p.node ≠ []
  node_chars : ∀ c ∈ p.node, c.isAlphanum = true ∨ c = '-'
  pid : numeral p.pid id.pid
  pid_lt : id.pid < 2 ^ 32
  processStart : ∃ n, numeral p.processStart n ∧ n < 2 ^ 64
  startTime : numeral p.start id.startTime
  startTime_lt : id.startTime < 2 ^ 64
  colon_not_mem : ':' ∉ p.type ∧ ':' ∉ p.subject ∧ ':' ∉ p.user
  text_eq : id.text = String.ofList p.text
  node_eq : id.node = String.ofList p.node
  type_eq : id.type = String.ofList p.type
  subject_eq : id.subject = String.ofList p.subject
  user_eq : id.user = String.ofList p.user

end Parts

/-! ## Numbers and nodes -/

theorem SignedNumeral.colon_not_mem {s : List Char} {n : ℕ} (h : SignedNumeral s n) : ':' ∉ s := by
  have hdigits : ∀ {s n}, IsHexadecimal s n → ':' ∉ s := by
    intro s n hs hmem
    obtain ⟨d, hd⟩ := hs.exists_digit _ hmem
    exact hd.ne.1 rfl
  rcases h with hs | hs
  · exact hdigits hs
  · simpa using hdigits hs

/-- a numeral has no sign exactly if it does not open with one -/
theorem isHexadecimal_iff {s : List Char} {n : ℕ} : IsHexadecimal s n ↔ SignedNumeral s n ∧ s.head? ≠ some '+' := by
  constructor
  · intro h
    refine ⟨.plain h, fun hplus => ?_⟩
    obtain ⟨d, hd⟩ := h.exists_digit _ (List.mem_of_mem_head? hplus)
    exact hd.ne.2 rfl
  · intro ⟨h, hplus⟩
    rcases h with hs | hs
    · exact hs
    · exact absurd rfl hplus

theorem number?_eq_some_iff {limit n : ℕ} {s : List Char} :
    number? limit s = some n ↔ SignedNumeral s n ∧ n < limit := by
  unfold number?
  rw [Option.filter_eq_some_iff, Text.hex?_eq_some_iff, decide_eq_true_eq]
  refine and_congr_left fun _ => ?_
  split
  · rename_i rest
    constructor
    · exact .plus
    · intro h
      rcases h with hs | hs
      · exact absurd rfl (isHexadecimal_iff.1 hs).2
      · exact hs
  · rename_i hplus
    constructor
    · exact .plain
    · intro h
      rcases h with hs | hs
      · exact hs
      · exact absurd rfl (hplus _)

theorem validNode_iff {s : List Char} :
    validNode s = true ↔ s ≠ [] ∧ ∀ c ∈ s, c.isAlphanum = true ∨ c = '-' := by
  simp [validNode]

/-! ## Texts -/

namespace Parts

variable {p : Parts} {id : Id}

theorem Names.colon_not_mem_pieces (h : p.Names SignedNumeral id) : ∀ piece ∈ p.pieces, ':' ∉ piece := by
  obtain ⟨n, hstart, -⟩ := h.processStart
  have hnode : ':' ∉ p.node := fun hmem => by simpa using h.node_chars _ hmem
  simpa [pieces] using ⟨hnode, h.pid.colon_not_mem, hstart.colon_not_mem, h.startTime.colon_not_mem, h.colon_not_mem⟩

/-- the parts are found again in the text -/
theorem Names.splitOn_text (h : p.Names SignedNumeral id) : p.text.splitOn ':' = p.pieces :=
  List.splitOn_intercalate ':' h.colon_not_mem_pieces (List.cons_ne_nil _ _)

end Parts

/-- an identifier is read from the texts whose parts are those of the identifier -/
theorem read?_eq_some_iff {raw : String} {id : Id} :
    read? raw = some id ↔ ∃ p : Parts, p.text = raw.toList ∧ p.Names SignedNumeral id := by
  constructor
  · intro h
    unfold read? at h
    split at h
    · rename_i head node pid processStart start type subject user hsplit
      split_ifs at h with hvalid
      obtain ⟨hhead, hnode⟩ := (Bool.and_eq_true_iff.1 hvalid).imp of_decide_eq_true validNode_iff.1
      simp only [Option.bind_eq_bind, Option.bind_eq_some_iff, Option.pure_def, Option.some.injEq,
        number?_eq_some_iff] at h
      obtain ⟨k, hpid, m, hprocess, t, hstart, rfl⟩ := h
      have htext : Parts.text ⟨node, pid, processStart, start, type, subject, user⟩ = raw.toList := by
        rw [Parts.text, Parts.pieces, ← hhead, ← hsplit, List.intercalate_splitOn]
      have hpieces : ∀ piece ∈ [type, subject, user], ':' ∉ piece := by
        intro piece hpiece
        have hmem : piece ∈ raw.toList.splitOn ':' := by
          rw [hsplit]
          simp only [List.mem_cons, List.not_mem_nil, or_false] at hpiece ⊢
          tauto
        exact not_mem_of_mem_splitOn hmem
      refine ⟨⟨node, pid, processStart, start, type, subject, user⟩, htext, hnode.1, hnode.2, hpid.1, hpid.2,
        ⟨m, hprocess⟩, hstart.1, hstart.2, by simpa using hpieces, ?_, rfl, rfl, rfl, rfl⟩
      rw [htext, String.ofList_toList]
    · cases h
  · intro ⟨p, htext, h⟩
    obtain ⟨n, hprocess, hlt⟩ := h.processStart
    obtain rfl : raw = id.text := by rw [h.text_eq, htext, String.ofList_toList]
    have hsplit := h.splitOn_text
    rw [htext] at hsplit
    have hnode : validNode p.node = true := validNode_iff.2 ⟨h.node_ne_nil, h.node_chars⟩
    have hpid : number? 0x100000000 p.pid = some id.pid := number?_eq_some_iff.2 ⟨h.pid, h.pid_lt⟩
    have hstart : number? 0x10000000000000000 p.start = some id.startTime :=
      number?_eq_some_iff.2 ⟨h.startTime, h.startTime_lt⟩
    have hprocess : number? 0x10000000000000000 p.processStart = some n := number?_eq_some_iff.2 ⟨hprocess, hlt⟩
    simp only [read?, hsplit, Parts.pieces, hnode, hpid, hprocess, hstart, ← h.node_eq, ← h.type_eq, ← h.subject_eq,
      ← h.user_eq, Option.bind_eq_bind, Option.bind_some, Option.pure_def, decide_true, Bool.and_self, if_true]

theorem parse_eq_ok_iff {raw : String} {id : Id} :
    parse raw = .ok id ↔ ∃ p : Parts, p.text = raw.toList ∧ p.Names SignedNumeral id := by
  rw [← read?_eq_some_iff, parse]
  cases read? raw <;> simp

theorem parse_eq_error_iff {raw : String} {fault : TokenFault} :
    parse raw = .error fault ↔ fault = .unrecognized none "task id" raw ∧ ∀ id, parse raw ≠ .ok id := by
  unfold parse
  cases read? raw <;> simp [eq_comm]

/-- none of the three numbers in the text opens with a plus sign -/
def Unsigned (raw : String) : Prop := ∀ piece ∈ ((raw.toList.splitOn ':').drop 2).take 3, piece.head? ≠ some '+'

/-- the format is what is taken, less the plus signs -/
theorem Parts.names_iff_unsigned {raw : String} {p : Parts} {id : Id} (htext : p.text = raw.toList) :
    p.Names IsHexadecimal id ↔ p.Names SignedNumeral id ∧ Unsigned raw := by
  have hnumbers : p.Names SignedNumeral id →
      (Unsigned raw ↔ p.pid.head? ≠ some '+' ∧ p.processStart.head? ≠ some '+' ∧ p.start.head? ≠ some '+') := by
    intro h
    rw [Unsigned, ← htext, h.splitOn_text]
    simp [pieces]
  constructor
  · intro h
    obtain ⟨n, hprocess, hlt⟩ := h.processStart
    obtain ⟨hpid, hpid'⟩ := isHexadecimal_iff.1 h.pid
    obtain ⟨hprocess, hprocess'⟩ := isHexadecimal_iff.1 hprocess
    obtain ⟨hstart, hstart'⟩ := isHexadecimal_iff.1 h.startTime
    have hsigned : p.Names SignedNumeral id :=
      { h with pid := hpid, processStart := ⟨n, hprocess, hlt⟩, startTime := hstart }
    exact ⟨hsigned, (hnumbers hsigned).2 ⟨hpid', hprocess', hstart'⟩⟩
  · intro ⟨h, hunsigned⟩
    obtain ⟨hpid, hprocess, hstart⟩ := (hnumbers h).1 hunsigned
    obtain ⟨n, hn, hlt⟩ := h.processStart
    exact { h with
      pid := isHexadecimal_iff.2 ⟨h.pid, hpid⟩
      processStart := ⟨n, isHexadecimal_iff.2 ⟨hn, hprocess⟩, hlt⟩
      startTime := isHexadecimal_iff.2 ⟨h.startTime, hstart⟩ }

/-- **Identifiers are taken in their format, and with plus signs.** A text is taken for an identifier exactly if it has
the nine parts of the format, the numbers with at most a plus sign in front of them, and then it is kept as it stands
beside its parts, and the node does not hold the character of code 0. Every other text is refused, and the fault carries
it. The format itself knows no sign, so what is taken is the format exactly for the texts that are refused or have no
plus sign in front of a number. -/
theorem taken_in_format_iff_unsigned (raw : String) :
    (∀ id, parse raw = .ok id ↔ ∃ p : Parts, p.text = raw.toList ∧ p.Names SignedNumeral id) ∧
    (∀ fault, parse raw = .error fault ↔ fault = .unrecognized none "task id" raw ∧
      ¬∃ (p : Parts) (id : Id), p.text = raw.toList ∧ p.Names SignedNumeral id) ∧
    (∀ id, parse raw = .ok id → id.text = raw ∧ '\x00' ∉ id.node.toList) ∧
    ((∀ id, parse raw = .ok id ↔ ∃ p : Parts, p.text = raw.toList ∧ p.Names IsHexadecimal id) ↔
      ((∃ id, parse raw = .ok id) → Unsigned raw)) := by
  refine ⟨fun id => parse_eq_ok_iff, fun fault => ?_, fun id h => ?_, fun hformat => ?_, fun hunsigned id => ?_⟩
  · rw [parse_eq_error_iff]
    refine and_congr_right fun _ => ?_
    simp only [ne_eq, parse_eq_ok_iff, not_exists]
    exact forall_comm
  · obtain ⟨p, htext, hnames⟩ := parse_eq_ok_iff.1 h
    refine ⟨by rw [hnames.text_eq, htext, String.ofList_toList], fun hnul => ?_⟩
    rw [hnames.node_eq, String.toList_ofList] at hnul
    simpa using hnames.node_chars _ hnul
  · intro ⟨id, h⟩
    obtain ⟨p, htext, hnames⟩ := (hformat id).1 h
    exact ((Parts.names_iff_unsigned htext).1 hnames).2
  · constructor
    · intro h
      obtain ⟨p, htext, hnames⟩ := parse_eq_ok_iff.1 h
      exact ⟨p, htext, (Parts.names_iff_unsigned htext).2 ⟨hnames, hunsigned ⟨id, h⟩⟩⟩
    · intro ⟨p, htext, hnames⟩
      exact parse_eq_ok_iff.2 ⟨p, htext, ((Parts.names_iff_unsigned htext).1 hnames).1⟩

/-- a plus sign in front of a number is taken, and the text does not have the format -/
theorem plus_sign_taken :
    (∃ id, parse "UPID:pve1:+1f:001A2B3C:65A1B2C3:qmstart:100:root@pam:" = .ok id ∧ id.pid = 31) ∧
      ¬∀ id, parse "UPID:pve1:+1f:001A2B3C:65A1B2C3:qmstart:100:root@pam:" = .ok id ↔
        ∃ p : Parts, p.text = "UPID:pve1:+1f:001A2B3C:65A1B2C3:qmstart:100:root@pam:".toList ∧
          p.Names IsHexadecimal id := by
  refine ⟨⟨_, rfl, rfl⟩, fun hformat => ?_⟩
  obtain ⟨-, -, -, hiff⟩ := taken_in_format_iff_unsigned "UPID:pve1:+1f:001A2B3C:65A1B2C3:qmstart:100:root@pam:"
  have hunsigned := hiff.1 hformat ⟨_, rfl⟩
  exact hunsigned "+1f".toList List.mem_cons_self rfl

end Task.Id

end Hypervisor
