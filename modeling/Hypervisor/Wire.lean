/-
Types that property values have: how a value of the type is read from a report and written as text, under a dialect.

Reading takes the loosely typed forms a node may use: a whole number as number or digits, a flag as 0, 1 or their
digits, a list as a sequence or as joined text. Writing may have nothing to say (`none`), which is how an unset option
is left out. Every list and option of such types is one again.
-/
import Hypervisor.ByteSize
import Hypervisor.Entry
import Hypervisor.Number.Bounds
import Hypervisor.Vocabulary

namespace Hypervisor

/-- a type of property values -/
class Wire (α : Type) where
  /-- the dialect of the type's own texts -/
  dialect : Dialect
  /-- read a present value -/
  decode : Dialect → Value → Except Rejection α
  /-- the text of a value, if there is anything to send -/
  encode : Dialect → α → Except TokenFault (Option String)
  /-- the value that carries nothing: zero, off, empty, unset -/
  isZero : α → Bool
  /-- what a missing value stands for, if the type has such a value -/
  absent : Option α

namespace Wire

/-- the rejection of a value of the wrong shape -/
def mismatch {α : Type} (expected : String) (found : Value) : Except Rejection α :=
  .error (.shape expected found.shape)

/-- read a scalar carried as text -/
def decodeScalar {α : Type} [Scalar α] : Value → Except Rejection α
  | .text raw => (Scalar.parse raw).mapError .token
  | v => mismatch (Scalar.expected α) v

/-- write a scalar -/
def encodeScalar {α : Type} [Scalar α] (a : α) : Except TokenFault (Option String) :=
  (Scalar.write a).map some

end Wire

open Wire

/-! ## Scalars -/

instance : Wire Bool where
  dialect := .propertyString
  decode _ v :=
    match v with
    | .number x =>
      if x.integer? = some 0 then .ok false
      else if x.integer? = some 1 then .ok true
      else .error .notBoolean
    | v => decodeScalar v
  encode _ b := encodeScalar b
  isZero b := !b
  absent := none

instance : Wire String where
  dialect := .propertyString
  decode _ v := decodeScalar v
  encode _ s := encodeScalar s
  isZero s := s.isEmpty
  absent := none

/-- a number as a whole number of the range of `t`: exact or refused. The bounds are binary64 numbers themselves, and a
number within them is brought into the range. -/
def Ranged.ofDouble (t : IntegerType) (x : Double) : Except Rejection (Ranged t) :=
  match x.integer? with
  | none => .error .notIntegral
  | some n =>
    if x.isLess t.least || x.isAtLeast t.limit then .error (.outOfRange t.label)
    else .ok (Ranged.clamp t n)

instance (t : IntegerType) : Wire (Ranged t) where
  dialect := .propertyString
  decode _ v :=
    match v with
    | .number x => Ranged.ofDouble t x
    | v => decodeScalar v
  encode _ n := encodeScalar n
  isZero n := n.val == 0
  absent := none

instance : Wire ByteSize where
  dialect := .propertyString
  decode _ v :=
    match v with
    | .number x => (Ranged.ofDouble .u64 x).map ByteSize.mk
    | v => decodeScalar v
  encode _ s := encodeScalar s
  isZero s := s.bytes.val == 0
  absent := none

instance : Wire Double where
  dialect := .propertyString
  decode _ v :=
    match v with
    | .number x => .ok x
    | .text raw =>
      match (Double.ofText? raw.toList).filter Double.isFinite with
      | some x => .ok x
      | none => .error (.token (.unrecognized none "number" raw))
    | v => mismatch "number" v
  encode _ x := if x.isFinite then .ok (some x.toText) else .error (.noText "number")
  isZero x := x.isZero
  absent := none

instance {α : Type} [Vocabulary α] : Wire (Choice α) where
  dialect := .propertyString
  decode _ v := decodeScalar v
  encode _ c := encodeScalar c
  isZero c := c.isUnknown
  absent := none

/-! ## Packed text -/

instance : Wire EntryList where
  dialect := .propertyString
  decode d v :=
    match v with
    | .text raw => (EntryList.parse d raw).mapError .token
    | v => mismatch "token list" v
  encode d l := .ok (some (l.write d))
  isZero l := l.entries.isEmpty
  absent := none

/-! ## Options and lists -/

instance {α : Type} [Wire α] : Wire (Option α) where
  dialect := Wire.dialect α
  decode d v :=
    match v with
    | .absent => .ok none
    | v => (Wire.decode d v).map some
  encode d a :=
    match a with
    | some a => Wire.encode d a
    | none => .ok none
  isZero a := a.isNone
  absent := some none

/-- a sequence goes item by item, text is cut at the list separator; the empty text is the empty list -/
instance {α : Type} [Wire α] : Wire (List α) where
  dialect := Wire.dialect α
  decode d v :=
    match v with
    | .sequence items => items.mapM (Wire.decode d)
    | .text raw =>
      if raw.toList = [] then .ok []
      else (raw.toList.splitOn d.listSeparator).mapM fun piece => Wire.decode d (.text (String.ofList piece))
    | v => mismatch "sequence" v
  encode d items := do
    let texts ← items.mapM (Wire.encode d)
    pure (some (String.ofList ([d.listSeparator].intercalate (texts.map fun s => (s.getD "").toList))))
  isZero items := items.isEmpty
  absent := none

end Hypervisor
