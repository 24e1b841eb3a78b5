/-
Identifiers of remote tasks, `UPID:node:pid:pstart:starttime:type:id:user:`, with the numbers in hexadecimal. The text
is kept as it was received; the parts serve routing and display.
-/
import Hypervisor.Fault
import Hypervisor.Text.Hex

namespace Hypervisor.Task

/-- a task identifier and its parts -/
structure Id where
  /-- the identifier as received -/
  text : String
  node : String
  pid : Nat
  /-- seconds since the epoch -/
  startTime : Nat
  type : String
  /-- what the task works on, such as the number of a guest; may be empty -/
  subject : String
  user : String
deriving DecidableEq, Repr

namespace Id

/-- hexadecimal digits after an optional plus sign, below a limit -/
def number? (limit : Nat) (s : List Char) : Option Nat :=
  let digits := match s with
    | '+' :: rest => rest
    | rest => rest
  (Text.hex? digits).filter (· < limit)

/-- a node name: ASCII letters, digits and `-`, at least one -/
def validNode (s : List Char) : Bool := !s.isEmpty && s.all fun c => c.isAlphanum || c == '-'

/-- the identifier of a text with exactly nine parts, the last of them empty -/
def read? (raw : String) : Option Id :=
  match raw.toList.splitOn ':' with
  | [head, node, pid, processStart, start, type, subject, user, []] =>
    if head = "UPID".toList && validNode node then do
      let pid ← number? 0x100000000 pid
      let _ ← number? 0x10000000000000000 processStart
      let startTime ← number? 0x10000000000000000 start
      pure
        { text := raw, node := String.ofList node, pid, startTime, type := String.ofList type,
          subject := String.ofList subject, user := String.ofList user }
    else none
  | _ => none

/-- read an identifier -/
def parse (raw : String) : Except TokenFault Id :=
  match read? raw with
  | some id => .ok id
  | none => .error (.unrecognized none "task id" raw)

end Id

end Hypervisor.Task
