/-
A wait under a fixed schedule: the status checks come from a script, and the poller moves as far as it can before the
handle does anything. Pauses run out only while the handle blocks. With a gate, a check waits until it is permitted.
-/
import Hypervisor.Task.Poller

namespace Hypervisor.Task

/-- the machine with the results that its checks will have -/
structure Session where
  machine : Machine
  script : List CheckResult
  /-- permits for checks that wait at the gate; without a gate there is no count -/
  permits : Option Nat
deriving DecidableEq, Repr

namespace Session

/-- a check past the end of the script -/
def exhausted : CheckResult := .transport ⟨"script exhausted", none⟩

def submit (id : Id) (script : List CheckResult) (gated : Bool) : Session :=
  ⟨Machine.submit id, script, if gated then some 0 else none⟩

/-- the next action of the poller, if it can move -/
def next? (s : Session) (pausesEnd : Bool) : Option Action :=
  match s.machine.phase with
  | .ready => some .start
  | .checking => if s.permits = some 0 then none else some (.complete (s.script.head?.getD exhausted))
  | .pausing =>
    if s.machine.stopAsked then some .heed
    else if pausesEnd then some .timeout
    else none
  | .reporting _ => some .report
  | .sent => some .exit
  | .ended => none

/-- take an action; a completed check uses up a result and a permit -/
def act (s : Session) (a : Action) : Session :=
  let machine := s.machine.step a
  match a with
  | .complete _ => ⟨machine, s.script.tail, s.permits.map (· - 1)⟩
  | _ => { s with machine }

/-- let the poller move, at most so many times -/
def advance (pausesEnd : Bool) : Nat → Session → Session
  | 0, s => s
  | n + 1, s =>
    match s.next? pausesEnd with
    | some a => advance pausesEnd n (s.act a)
    | none => s

/-- moves that suffice for the whole script: at most three a check, and the report -/
def moves (s : Session) : Nat := 3 * (s.script.length + 1) + 6

/-- let the poller move up to its pause -/
def idle (s : Session) : Session := s.advance false s.moves

/-- let the poller move to its end -/
def finish (s : Session) : Session := s.advance true s.moves

/-- what the last wait has answered -/
def lastAnswer (s : Session) : Option Outcome := (s.machine.answers.getLast?).join

/-- block until there is an outcome -/
def wait (s : Session) : Session × Option Outcome :=
  let s := (s.finish.act .wait).act .join
  (s, s.lastAnswer)

/-- look for an outcome -/
def tryWait (s : Session) : Session × Option Outcome :=
  let s := (s.idle.act .tryWait).act .join
  (s, s.lastAnswer)

/-- look for an outcome until there is one -/
def tryUntil (s : Session) : Session × Option Outcome := tryWait s.finish

/-- ask the poller to stop -/
def cancel (s : Session) : Session := s.idle.act .cancel

/-- drop the handle and let the poller end -/
def drop (s : Session) : Session := (s.idle.act .drop).finish

/-- let one more check through the gate -/
def allow (s : Session) : Session := { s with permits := s.permits.map (· + 1) }.idle

/-- how many checks have run -/
def polls (s : Session) : Session × Nat :=
  let s := s.idle
  (s, s.machine.results.length)

end Session

end Hypervisor.Task
