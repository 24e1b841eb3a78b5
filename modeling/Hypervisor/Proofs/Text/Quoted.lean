/-
Quoted text can be read back.

The escapes of characters are a prefix code (`escape_append_inj`): a code point ends at its brace, any other escape
behind a backslash is one letter that names the character, and what stands for itself is no backslash. No escape opens
with a quotation mark, so the first mark in front of which all escapes are complete ends the text
(`quoted_append_inj`).
-/
import Hypervisor.Proofs.Text.Hex
import Hypervisor.Text.Cut
import Hypervisor.Text.Quoted

namespace Hypervisor.Text

/-- the character that a letter behind a backslash names -/
def named? : Char → Option Char
  | '0' => some '\x00'
  | 't' => some '\t'
  | 'r' => some '\r'
  | 'n' => some '\n'
  | '\\' => some '\\'
  | '"' => some '"'
  | _ => none

/-- the first character of a quoted text, and what stands behind its escape -/
def unescape? : List Char → Option (Char × List Char)
  | '\\' :: 'u' :: '{' :: rest =>
    (cut? '}' rest).bind fun parts => (hex? parts.1).map fun n => (Char.ofNat n, parts.2)
  | '\\' :: letter :: rest => (named? letter).map fun c => (c, rest)
  | c :: rest => some (c, rest)
  | [] => none

theorem unescape?_codePointEscape (c : Char) (rest : List Char) :
    unescape? (codePointEscape c ++ rest) = some (c, rest) := by
  have hnumeral := isHexadecimal_toDigits c.toNat
  have hbrace : '}' ∉ Nat.toDigits 16 c.toNat := by
    intro hmem
    obtain ⟨d, hd⟩ := hnumeral.exists_digit _ hmem
    cases hexDigit?_eq_some_iff.2 hd
  have hcut : cut? '}' (Nat.toDigits 16 c.toNat ++ '}' :: rest) = some (Nat.toDigits 16 c.toNat, rest) :=
    cut?_eq_some_iff.2 ⟨rfl, hbrace⟩
  have htext : codePointEscape c ++ rest = '\\' :: 'u' :: '{' :: (Nat.toDigits 16 c.toNat ++ '}' :: rest) := by
    simp [codePointEscape]
  rw [htext, unescape?, hcut, Option.bind_some, hex?_eq_some_iff.2 hnumeral, Option.map_some, Char.ofNat_toNat]

theorem unescape?_cons {c : Char} (hc : c ≠ '\\') (rest : List Char) : unescape? (c :: rest) = some (c, rest) := by
  simp [unescape?, hc]

theorem unescape?_escape (c : Char) (rest : List Char) : unescape? (escape '"' c ++ rest) = some (c, rest) := by
  unfold escape
  split_ifs with h₁ h₂ h₃ h₄ hbackslash hmark _
  · rw [h₁]; rfl
  · rw [h₂]; rfl
  · rw [h₃]; rfl
  · rw [h₄]; rfl
  · rw [hbackslash]; rfl
  · rw [hmark]; rfl
  · exact unescape?_codePointEscape c rest
  · exact unescape?_cons hbackslash rest

/-- an escape is no beginning of another one -/
theorem escape_append_inj {c d : Char} {rest rest' : List Char}
    (h : escape '"' c ++ rest = escape '"' d ++ rest') : c = d ∧ rest = rest' := by
  have hread := (unescape?_escape c rest).symm.trans ((congrArg unescape? h).trans (unescape?_escape d rest'))
  exact Prod.mk.inj (Option.some.inj hread)

theorem escape_cases (c : Char) :
    (∃ tail, escape '"' c = '\\' :: tail) ∨ escape '"' c = [c] ∧ c ≠ '"' := by
  unfold escape
  split_ifs with _ _ _ _ _ hmark _
  any_goals exact .inl ⟨_, rfl⟩
  exact .inr ⟨rfl, hmark⟩

/-- no escape opens with the mark that ends the text -/
theorem escape_append_ne (c : Char) (rest tail : List Char) : escape '"' c ++ rest ≠ '"' :: tail := by
  intro h
  rcases escape_cases c with ⟨_, hc⟩ | ⟨hc, hmark⟩
  · rw [hc] at h
    exact absurd (List.cons.inj h).1 (by decide)
  · rw [hc] at h
    exact hmark (List.cons.inj h).1

theorem escapes_append_inj {s s' rest rest' : List Char}
    (h : s.flatMap (escape '"') ++ '"' :: rest = s'.flatMap (escape '"') ++ '"' :: rest') : s = s' ∧ rest = rest' := by
  induction s generalizing s' with
  | nil =>
    cases s' with
    | nil => exact ⟨rfl, (List.cons.inj h).2⟩
    | cons d s' =>
      rw [List.flatMap_cons, List.append_assoc] at h
      exact absurd h.symm (escape_append_ne d _ _)
  | cons c s ih =>
    rw [List.flatMap_cons, List.append_assoc] at h
    cases s' with
    | nil => exact absurd h (escape_append_ne c _ _)
    | cons d s' =>
      rw [List.flatMap_cons, List.append_assoc] at h
      obtain ⟨hhead, htail⟩ := escape_append_inj h
      obtain ⟨hs, hrest⟩ := ih htail
      rw [hhead, hs]
      exact ⟨rfl, hrest⟩

/-- a quoted text is no beginning of another one -/
theorem quoted_append_inj {s s' : String} {rest rest' : List Char}
    (h : (quoted s).toList ++ rest = (quoted s').toList ++ rest') : s = s' ∧ rest = rest' := by
  simp only [quoted, String.toList_ofList, List.cons_append, List.append_assoc, List.nil_append] at h
  obtain ⟨hs, hrest⟩ := escapes_append_inj (List.cons.inj h).2
  exact ⟨String.toList_inj.1 hs, hrest⟩

end Hypervisor.Text
