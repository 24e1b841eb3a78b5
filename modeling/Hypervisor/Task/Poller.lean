/-
Waiting for a remote task: a poller that asks for the status and a handle that waits, as one transition system.

The two sides run concurrently and share two channels. Through the cancel channel the handle asks the poller to stop;
the sending end closes when it is used once, or when the handle is dropped. Through the result channel, which holds one
message, the poller reports its outcome. The poller checks the status, pauses while the task runs, and reports the first
outcome; a pause ends early when a cancel message waits or the cancel channel is closed, so a pause can time out only
while that channel is open and empty. A check that dies takes the poller with it and nothing is reported. The handle
takes the outcome from the channel, waits for the poller to end, and from then on answers with the same outcome.

`step` is total: an action that is not enabled leaves the machine as it is, so every list of actions is an interleaving.
-/
import Hypervisor.Task.Status

namespace Hypervisor.Task

/-- what a status check comes back with -/
inductive CheckResult where
  | status (s : Status)
  | transport (fault : TransportFault)
  /-- the check died -/
  | died
deriving DecidableEq, Repr

/-- where the poller is -/
inductive Phase where
  /-- about to start a check -/
  | ready
  /-- a check is in flight -/
  | checking
  /-- the last check said that the task runs -/
  | pausing
  /-- an outcome is known and not yet sent -/
  | reporting (outcome : Outcome)
  /-- the outcome is sent; what is left is to end -/
  | sent
  | ended
deriving DecidableEq, Repr

/-- where the handle is -/
inductive HandlePhase where
  | idle
  /-- an outcome is taken, the poller has yet to end -/
  | joining (outcome : Outcome)
  | dropped
deriving DecidableEq, Repr

/-- poller, handle and the channels between them -/
structure Machine where
  id : Id
  phase : Phase
  /-- checks started -/
  started : Nat
  /-- what completed checks said, in order -/
  results : List CheckResult
  /-- a cancel message waits for the poller -/
  cancelWaiting : Bool
  /-- the handle can still send a cancel message -/
  cancelOpen : Bool
  /-- the outcome that waits in the result channel -/
  reported : Option Outcome
  handle : HandlePhase
  /-- the outcome that every further wait answers -/
  settled : Option Outcome
  /-- what waits have answered, in order; a wait that need not block can answer with nothing -/
  answers : List (Option Outcome)
deriving DecidableEq, Repr

/-- the steps of either side -/
inductive Action where
  /-- the poller starts a check -/
  | start
  /-- the check in flight returns -/
  | complete (result : CheckResult)
  /-- a pause runs its full length -/
  | timeout
  /-- the poller notices that it shall stop -/
  | heed
  /-- the poller sends its outcome -/
  | report
  /-- the poller ends -/
  | exit
  | cancel
  | drop
  /-- the handle waits, once there is something to take -/
  | wait
  /-- the handle looks whether there is something to take -/
  | tryWait
  /-- the handle sees the poller end -/
  | join
deriving DecidableEq, Repr

namespace Machine

/-- a submitted task: the first check starts at once, nothing has happened yet -/
def submit (id : Id) : Machine :=
  { id, phase := .ready, started := 0, results := [], cancelWaiting := false, cancelOpen := true, reported := none,
    handle := .idle, settled := none, answers := [] }

/-- where a check result takes the poller -/
def Phase.afterCheck (id : Id) : CheckResult → Phase
  | .status .running => .pausing
  | .status (.stopped exitStatus) => .reporting (Outcome.ofExit id exitStatus)
  | .transport fault => .reporting (.failed (.transport fault))
  | .died => .ended

/-- the poller has been asked to stop: by a message, or by the loss of its handle -/
def stopAsked (m : Machine) : Bool := m.cancelWaiting || !m.cancelOpen

/-- what the handle can take: the message in the channel, or the news that none will come -/
def available? (m : Machine) : Option Outcome :=
  match m.reported with
  | some outcome => some outcome
  | none => if m.phase = .ended then some (.failed (.pollerLost m.id.text)) else none

/-- take what is available -/
def take (m : Machine) (outcome : Outcome) : Machine := { m with reported := none, handle := .joining outcome }

/-- answer a wait -/
def answer (m : Machine) (a : Option Outcome) : Machine := { m with answers := m.answers ++ [a] }

def step (m : Machine) : Action → Machine
  | .start => if m.phase = .ready then { m with phase := .checking, started := m.started + 1 } else m
  | .complete result =>
    if m.phase = .checking then { m with phase := Phase.afterCheck m.id result, results := m.results ++ [result] }
    else m
  | .timeout => if m.phase = .pausing ∧ !m.stopAsked then { m with phase := .ready } else m
  | .heed =>
    if m.phase = .pausing ∧ m.stopAsked then
      { m with phase := .reporting (.failed (.cancelled m.id.text)), cancelWaiting := false }
    else m
  | .report =>
    match m.phase with
    | .reporting outcome =>
      if m.handle = .dropped then { m with phase := .sent } else { m with phase := .sent, reported := some outcome }
    | _ => m
  | .exit => if m.phase = .sent then { m with phase := .ended } else m
  | .cancel =>
    if m.handle = .idle ∧ m.cancelOpen then { m with cancelWaiting := m.phase ≠ .ended, cancelOpen := false } else m
  | .drop => if m.handle = .idle then { m with cancelOpen := false, handle := .dropped, reported := none } else m
  | .wait =>
    if m.handle = .idle then
      match m.settled, m.available? with
      | some outcome, _ => m.answer (some outcome)
      | none, some outcome => m.take outcome
      | none, none => m
    else m
  | .tryWait =>
    if m.handle = .idle then
      match m.settled, m.available? with
      | some outcome, _ => m.answer (some outcome)
      | none, some outcome => m.take outcome
      | none, none => m.answer none
    else m
  | .join =>
    match m.handle with
    | .joining outcome =>
      if m.phase = .ended then { m with handle := .idle, settled := some outcome }.answer (some outcome) else m
    | _ => m

/-- take actions in order -/
def run (m : Machine) (actions : List Action) : Machine := actions.foldl step m

theorem run_cons (m : Machine) (a : Action) (actions : List Action) : m.run (a :: actions) = (m.step a).run actions :=
  rfl

theorem run_append (m : Machine) (a b : List Action) : m.run (a ++ b) = (m.run a).run b := by
  simp [run, List.foldl_append]

end Machine

end Hypervisor.Task
