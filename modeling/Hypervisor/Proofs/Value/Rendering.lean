/-
Renderings of values are told apart.

The character that a rendering opens with tells the shape of the value (`Value.render_opens`). A quoted text ends by
itself (`Proofs.Text.Quoted`), a number where the first character stands that is not tame, a sequence at the bracket
that closes it. So where a text goes on with such a character, as it does behind each item of a sequence, there is only
one value that it can begin with: `Value.isToldApart`, by induction on the value and from item to item.
-/
import Hypervisor.Proofs.Text.Quoted
import Hypervisor.Proofs.Wire.RoundTrip

namespace Hypervisor

/-! ## Numbers -/

namespace Double

theorem toText_injective : Function.Injective toText := by
  intro x y h
  have hread := ofText?_toText x
  rw [h, ofText?_toText y] at hread
  exact (Option.some.inj hread).symm

theorem toText_ne_nil (x : Double) : x.toText.toList ≠ [] := by
  intro h
  have hread := ofText?_toText x
  rw [h] at hread
  cases hread

/-- the pattern of a number is a pattern of that number only -/
theorem ofBits_of_bits? {x : Double} {bits : ℕ} (h : x.bits? = some bits) : ofBits bits = x := by
  cases x with
  | nan => cases h
  | infinite negative =>
    obtain rfl := Option.some.inj h
    cases negative <;> rfl
  | finite negative m =>
    obtain rfl := Option.some.inj h
    have hm : m.val < signBit := m.isLt.trans (by decide)
    cases negative with
    | false =>
      have hbits : (if false = true then signBit else 0) + m.val = m.val := Nat.zero_add _
      rw [hbits, ofBits, Nat.div_eq_of_lt hm, Nat.mod_eq_of_lt hm, dif_pos m.isLt]
      rfl
    | true =>
      have hbits : (if true = true then signBit else 0) + m.val = signBit + m.val := rfl
      rw [hbits, ofBits, Nat.add_div_left _ (by decide), Nat.add_mod_left, Nat.div_eq_of_lt hm, Nat.mod_eq_of_lt hm,
        dif_pos m.isLt]
      rfl

theorem bits?_eq_none_iff {x : Double} : x.bits? = none ↔ x = nan := by
  cases x <;> simp [bits?]

theorem bits?_injective : Function.Injective bits? := by
  intro x y h
  cases hx : x.bits? with
  | none =>
    have hy : y.bits? = none := h.symm.trans hx
    rw [bits?_eq_none_iff.1 hx, bits?_eq_none_iff.1 hy]
  | some bits =>
    have hy : y.bits? = some bits := h.symm.trans hx
    rw [← ofBits_of_bits? hx, ofBits_of_bits? hy]

end Double

namespace Value

/-! ## Texts behind a value -/

/-- the text does not go on with a character that a number may hold -/
def Untamed (rest : List Char) : Prop := ∀ c ∈ rest.head?, isTame c = false

/-- a tame text ends where an untamed one begins -/
theorem takeWhile_isTame {s : String} {rest : List Char} (hs : Tame s) (hrest : Untamed rest) :
    (s.toList ++ rest).takeWhile isTame = s.toList := by
  rw [List.takeWhile_append_of_pos hs]
  cases rest with
  | nil => simp
  | cons c rest => simp [hrest c rfl]

theorem tame_append_inj {s s' : String} {rest rest' : List Char} (hs : Tame s) (hs' : Tame s') (hrest : Untamed rest)
    (hrest' : Untamed rest') (h : s.toList ++ rest = s'.toList ++ rest') : s = s' ∧ rest = rest' := by
  have htext : s.toList = s'.toList := by
    rw [← takeWhile_isTame hs hrest, h, takeWhile_isTame hs' hrest']
  rw [htext] at h
  exact ⟨String.toList_inj.1 htext, List.append_cancel_left h⟩

/-! ## Shapes -/

theorem toList_render_sequence (items : List Value) :
    (sequence items).render.toList = '[' :: ((renderItems items).toList ++ [']']) := by
  rw [render, String.toList_append, String.toList_append]
  rfl

/-- the shape of the values whose renderings open with the character -/
def shapeOpenedBy (c : Char) : String :=
  if c = '"' then "string" else if c = '[' then "sequence" else if c = '<' then "nothing" else "number"

/-- a rendering opens with a character that tells the shape and closes no sequence -/
theorem render_opens (v : Value) :
    ∃ c rest, v.render.toList = c :: rest ∧ shapeOpenedBy c = v.shape ∧ c ≠ ']' := by
  cases v with
  | text s => exact ⟨'"', _, by rw [render, Text.quoted, String.toList_ofList]; rfl, rfl, by decide⟩
  | number x =>
    obtain ⟨c, rest, htext⟩ := List.exists_cons_of_ne_nil x.toText_ne_nil
    have hc : isTame c = true := x.tame_toText c (by rw [htext]; exact List.mem_cons_self)
    have hne (d : Char) (hd : isTame d = false) : c ≠ d := by
      rintro rfl
      rw [hc] at hd
      cases hd
    refine ⟨c, rest, htext, ?_, hne _ rfl⟩
    rw [shapeOpenedBy, if_neg (hne _ rfl), if_neg (hne _ rfl), if_neg (hne _ rfl)]
    rfl
  | sequence items => exact ⟨'[', _, toList_render_sequence items, rfl, by decide⟩
  | absent => exact ⟨'<', _, rfl, rfl, by decide⟩

/-- no rendering opens with the bracket that closes a sequence -/
theorem render_append_ne (v : Value) (rest tail : List Char) : v.render.toList ++ rest ≠ ']' :: tail := by
  intro h
  obtain ⟨c, _, hv, -, hc⟩ := v.render_opens
  rw [hv] at h
  exact hc (List.cons.inj h).1

theorem shape_eq_of_append {a b : Value} {rest rest' : List Char}
    (h : a.render.toList ++ rest = b.render.toList ++ rest') : a.shape = b.shape := by
  obtain ⟨c, _, ha, hshape, -⟩ := a.render_opens
  obtain ⟨d, _, hb, hshape', -⟩ := b.render_opens
  rw [ha, hb] at h
  rw [← hshape, ← hshape', (List.cons.inj h).1]

/-! ## Sequences -/

/-- the rest of a sequence behind one of its items, with the bracket that closes it -/
def behindItem : List Value → List Char
  | [] => [']']
  | v :: items => ',' :: ' ' :: (v.render.toList ++ behindItem items)

theorem untamed_behindItem (items : List Value) (rest : List Char) : Untamed (behindItem items ++ rest) := by
  intro c hc
  cases items with
  | nil =>
    obtain rfl := Option.some.inj hc
    rfl
  | cons v items =>
    obtain rfl := Option.some.inj hc
    rfl

theorem toList_renderItems (v : Value) (items : List Value) :
    (renderItems (v :: items)).toList ++ [']'] = v.render.toList ++ behindItem items := by
  induction items generalizing v with
  | nil => rfl
  | cons w items ih =>
    rw [renderItems, behindItem, ← ih w]
    simp

/-- no other value can stand in front of a text that goes on untamed -/
def IsToldApart (a : Value) : Prop :=
  ∀ (b : Value) (rest rest' : List Char), Untamed rest → Untamed rest' →
    a.render.toList ++ rest = b.render.toList ++ rest' → a = b ∧ rest = rest'

theorem behindItem_append_inj {items items' : List Value} {rest rest' : List Char}
    (hitems : ∀ v ∈ items, v.IsToldApart) (h : behindItem items ++ rest = behindItem items' ++ rest') :
    items = items' ∧ rest = rest' := by
  induction items generalizing items' with
  | nil =>
    cases items' with
    | nil => exact ⟨rfl, (List.cons.inj h).2⟩
    | cons w items' => exact absurd (List.cons.inj h).1 (by decide)
  | cons v items ih =>
    cases items' with
    | nil => exact absurd (List.cons.inj h).1 (by decide)
    | cons w items' =>
      obtain ⟨hv, hitems⟩ := List.forall_mem_cons.1 hitems
      have hbehind : v.render.toList ++ behindItem items ++ rest = w.render.toList ++ behindItem items' ++ rest' :=
        (List.cons.inj (List.cons.inj h).2).2
      rw [List.append_assoc, List.append_assoc] at hbehind
      obtain ⟨rfl, hrest⟩ := hv w _ _ (untamed_behindItem items rest) (untamed_behindItem items' rest') hbehind
      obtain ⟨rfl, hend⟩ := ih hitems hrest
      exact ⟨rfl, hend⟩

theorem isToldApart_sequence {items : List Value} (hitems : ∀ v ∈ items, v.IsToldApart) :
    (sequence items).IsToldApart := by
  intro b rest rest' _ _ h
  have hshape := shape_eq_of_append h
  cases b with
  | sequence items' =>
    rw [toList_render_sequence, toList_render_sequence] at h
    have hbody : (renderItems items).toList ++ [']'] ++ rest = (renderItems items').toList ++ [']'] ++ rest' :=
      (List.cons.inj h).2
    cases items with
    | nil =>
      cases items' with
      | nil => exact ⟨rfl, (List.cons.inj hbody).2⟩
      | cons w items' =>
        rw [toList_renderItems, List.append_assoc w.render.toList] at hbody
        exact absurd hbody.symm (w.render_append_ne _ _)
    | cons v items =>
      rw [toList_renderItems, List.append_assoc] at hbody
      cases items' with
      | nil => exact absurd hbody (v.render_append_ne _ _)
      | cons w items' =>
        rw [toList_renderItems, List.append_assoc] at hbody
        obtain ⟨hv, hitems⟩ := List.forall_mem_cons.1 hitems
        obtain ⟨rfl, hbehind⟩ := hv w _ _ (untamed_behindItem items rest) (untamed_behindItem items' rest') hbody
        obtain ⟨rfl, hend⟩ := behindItem_append_inj hitems hbehind
        exact ⟨rfl, hend⟩
  | _ => simp [shape] at hshape

/-! ## All values -/

/-- a value is a text, a number, nothing, or a sequence of values -/
@[elab_as_elim]
theorem induction_on_items {P : Value → Prop} (text : ∀ s, P (.text s)) (number : ∀ x, P (.number x))
    (sequence : ∀ items, (∀ v ∈ items, P v) → P (.sequence items)) (absent : P .absent) : ∀ v, P v
  | .text s => text s
  | .number x => number x
  | .sequence items => sequence items fun v _ => induction_on_items text number sequence absent v
  | .absent => absent

theorem isToldApart (a : Value) : a.IsToldApart := by
  induction a using induction_on_items with
  | text s =>
    intro b rest rest' _ _ h
    have hshape := shape_eq_of_append h
    cases b with
    | text s' =>
      obtain ⟨rfl, hrest⟩ := Text.quoted_append_inj h
      exact ⟨rfl, hrest⟩
    | _ => simp [shape] at hshape
  | number x =>
    intro b rest rest' hrest hrest' h
    have hshape := shape_eq_of_append h
    cases b with
    | number y =>
      obtain ⟨htext, heq⟩ := tame_append_inj x.tame_toText y.tame_toText hrest hrest' h
      exact ⟨congrArg number (Double.toText_injective htext), heq⟩
    | _ => simp [shape] at hshape
  | sequence items ih => exact isToldApart_sequence ih
  | absent =>
    intro b rest rest' _ _ h
    have hshape := shape_eq_of_append h
    cases b with
    | absent => exact ⟨rfl, List.append_cancel_left h⟩
    | _ => simp [shape] at hshape

/-- **Renderings are unambiguous.** Two values, however deeply they nest, are rendered alike only if they are the same
value. Its numbers are then the same to the bit: a pattern of 64 bits belongs to one number, all that is not a number
counting as one. -/
theorem rendering_unambiguous :
    (∀ a b : Value, a.render = b.render ↔ a = b) ∧ ∀ x y : Double, x.bits? = y.bits? ↔ x = y := by
  refine ⟨fun a b => ⟨fun h => ?_, congrArg render⟩, fun x y => Double.bits?_injective.eq_iff⟩
  have hnone : Untamed [] := fun _ hc => nomatch hc
  have happend : a.render.toList ++ [] = b.render.toList ++ [] := by rw [h]
  exact (isToldApart a b [] [] hnone hnone happend).1

-- the two zeros agree as numbers, and a rendering still tells them apart
example : (number .zero).agrees (number Double.zero.negate) = true ∧
    (number .zero).render ≠ (number Double.zero.negate).render := by decide

end Value

end Hypervisor
