/-
The status of a remote task as a node reports it, and how waiting for a task can end.
-/
import Hypervisor.Task.Id
import Hypervisor.Wire
import Hypervisor.Property

namespace Hypervisor.Task

/-! ## Status -/

/-- the state in a status report -/
inductive State where
  | running
  | stopped
deriving DecidableEq, Repr

instance : Vocabulary State where
  label := "task state"
  members := [.running, .stopped]
  token
    | .running => "running"
    | .stopped => "stopped"
  complete a := by cases a <;> decide
  apart := by decide

/-- the status of a task; once stopped it changes no more -/
inductive Status where
  | running
  | stopped (exitStatus : String)
deriving DecidableEq, Repr

namespace Status

def stateProperty : Property (Choice State) := { name := "status", presence := .required }

def exitStatusProperty : Property (Option String) := { name := "exitstatus", presence := .optional }

/-- the exit status is read of stopped tasks only, and is empty where the node gives none -/
def decode (report : Report) : Except PropertyFault Status := do
  match ← stateProperty.extract report with
  | .known .stopped =>
    let exitStatus ← exitStatusProperty.extract report
    pure (.stopped (exitStatus.getD ""))
  | _ => pure .running

def isTerminal : Status → Bool
  | running => false
  | stopped _ => true

end Status

/-! ## Outcomes -/

/-- a status check that did not reach the node -/
structure TransportFault where
  message : String
  /-- the text of what lies beneath -/
  cause : Option String
deriving DecidableEq, Repr

/-- why a task that was waited for is not known to have succeeded -/
inductive Fault where
  /-- the task ended with another exit status than success -/
  | remote (id exitStatus : String)
  | transport (fault : TransportFault)
  /-- the poller stopped and reported nothing -/
  | pollerLost (id : String)
  /-- waiting was cancelled before the task ended -/
  | cancelled (id : String)
deriving DecidableEq, Repr

namespace Fault

def kind : Fault → FaultKind
  | remote .. => .remoteTask
  | transport _ => .transport
  | pollerLost _ => .pollerLost
  | cancelled _ => .cancelled

def message : Fault → String
  | remote id exitStatus => "[W006] task " ++ id ++ " failed: " ++ exitStatus
  | transport fault => "[W007] status check failed: " ++ fault.message
  | pollerLost id => "[W008] poller for task " ++ id ++ " stopped without reporting"
  | cancelled id => "[W009] polling task " ++ id ++ " was cancelled"

end Fault

/-- how a wait ends -/
inductive Outcome where
  | succeeded
  | failed (fault : Fault)
deriving DecidableEq, Repr

/-- the exit status of success -/
def exitOk : String := "OK"

/-- the outcome of a task that stopped with this exit status -/
def Outcome.ofExit (id : Id) (exitStatus : String) : Outcome :=
  if exitStatus = exitOk then .succeeded else .failed (.remote id.text exitStatus)

/-! ## Polling -/

/-- how often the status is asked for -/
structure PollOptions where
  /-- the pause between checks in nanoseconds -/
  interval : Nat
deriving DecidableEq, Repr

namespace PollOptions

/-- one second -/
def default : PollOptions := ⟨1000000000⟩

/-- the shortest pause: one millisecond -/
def minimum : Nat := 1000000

/-- another pause, at least the shortest -/
def withInterval (_ : PollOptions) (nanoseconds : Nat) : PollOptions := ⟨max nanoseconds minimum⟩

end PollOptions

end Hypervisor.Task
