/-
Entries of a packed property: `key` or `key=value` units packed into one text.

Order is kept and keys may repeat; a look-up by key answers from the first entry with that key. `EntryList.parse`
reads a text under a dialect and `EntryList.write` packs entries again. The text is cut at every list separator, and
each piece at its first entry separator only, so a value may hold the entry separator.
-/
import Hypervisor.Dialect
import Hypervisor.Fault
import Hypervisor.Text.Cut

namespace Hypervisor

/-- one unit of a packed property; without a value the key is bare -/
structure Entry where
  key : String
  value : Option String
deriving DecidableEq, Repr

/-- the entries of a packed property in written order -/
structure EntryList where
  entries : List Entry
deriving DecidableEq, Repr

namespace Entry

/-- the text of an entry -/
def write (d : Dialect) (e : Entry) : List Char :=
  match e.value with
  | some value => e.key.toList ++ d.entrySeparator :: value.toList
  | none => e.key.toList

/-- read one piece between list separators; `position` is its index -/
def parse (d : Dialect) (position : Nat) (piece : List Char) : Except TokenFault Entry :=
  let malformed (defect : EntryDefect) : Except TokenFault Entry :=
    .error (.malformed (String.ofList piece) position defect)
  match Text.cut? d.entrySeparator piece with
  | some ([], _) => malformed .emptyKey
  | some (key, value) => .ok ⟨String.ofList key, some (String.ofList value)⟩
  | none =>
    if piece = [] then malformed .emptyEntry
    else if d.allowBare then .ok ⟨String.ofList piece, none⟩
    else malformed .missingValue

/-- read pieces in order, the first of them at index `position`; the first malformed one is the fault -/
def parseAll (d : Dialect) : Nat → List (List Char) → Except TokenFault (List Entry)
  | _, [] => .ok []
  | position, piece :: rest => do
    let e ← parse d position piece
    let es ← parseAll d (position + 1) rest
    pure (e :: es)

end Entry

namespace EntryList

def empty : EntryList := ⟨[]⟩

/-! ## Text -/

/-- read a packed text; pieces past the greatest number of entries are only counted -/
def parse (d : Dialect) (raw : String) : Except TokenFault EntryList :=
  if Bounded.textBytes.maximum < raw.utf8ByteSize then .error (.tooLong .textBytes raw.utf8ByteSize)
  else if raw.toList = [] then .ok empty
  else do
    let pieces := raw.toList.splitOn d.listSeparator
    let entries ← Entry.parseAll d 0 (pieces.take Bounded.entryCount.maximum)
    if Bounded.entryCount.maximum < pieces.length then .error (.tooLong .entryCount pieces.length)
    else .ok ⟨entries⟩

/-- pack the entries into one text -/
def write (d : Dialect) (l : EntryList) : String :=
  String.ofList ([d.listSeparator].intercalate (l.entries.map (Entry.write d)))

/-! ## Look-up -/

/-- the value of the first entry with this key; a bare key has none -/
def get? (l : EntryList) (key : String) : Option String :=
  (l.entries.find? fun e => e.key == key).bind (·.value)

/-- some entry has this key -/
def contains (l : EntryList) (key : String) : Bool := l.entries.any fun e => e.key == key

/-- the key of the first entry, if that entry is bare -/
def firstBare? (l : EntryList) : Option String :=
  l.entries.head?.bind fun e => if e.value.isNone then some e.key else none

/-! ## Editing -/

/-- add an entry at the end -/
def push (l : EntryList) (e : Entry) : EntryList := ⟨l.entries ++ [e]⟩

/-- give the first entry with this key a value, or add one at the end -/
def setEntry (key value : String) : List Entry → List Entry
  | [] => [⟨key, some value⟩]
  | e :: rest => if e.key = key then ⟨e.key, some value⟩ :: rest else e :: setEntry key value rest

def set (l : EntryList) (key value : String) : EntryList := ⟨setEntry key value l.entries⟩

/-- drop every entry with this key; also how many there were -/
def remove (l : EntryList) (key : String) : EntryList × Nat :=
  let kept := l.entries.filter fun e => !(e.key == key)
  (⟨kept⟩, l.entries.length - kept.length)

end EntryList

end Hypervisor
