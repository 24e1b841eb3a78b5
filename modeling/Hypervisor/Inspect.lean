/-
The inspector: an account of a guest configuration, from the JSON of the report to the form that would create the guest.

The text holds the properties themselves, or an object that carries them under `data`. A run ends with the account, with
the fault of a property that cannot be read, or without any account where there are no properties to read.
-/
import Hypervisor.Guest.Config

namespace Hypervisor.Inspect

open Guest

/-- why there are no properties to read -/
inductive Failure where
  | unreadable
  | notJson
  | notObject
deriving DecidableEq, Repr

def Failure.message : Failure → String
  | unreadable => "Failed to read file"
  | notJson => "Failed to parse JSON"
  | notObject => "Expected a JSON object"

/-- lines for the two outputs and the exit code; a failure is reported beside them -/
structure Account where
  out : List String
  err : List String
  exit : Nat
  failure : Option Failure
deriving DecidableEq, Repr

/-- the exit code of a run without properties to read -/
def failureExit : Nat := 101

/-! ## Lines -/

def diskLine (slot : String) (d : Disk) : String :=
  slot ++ ": " ++ d.volume ++ (d.size.elim "" fun size => " (" ++ size.text ++ ")") ++
    (if d.isCdrom then " [cdrom]" else "") ++ ((d.cache.bind (·.token?)).elim "" fun cache => " cache=" ++ cache)

def nicLine (slot : String) (n : Nic) : String :=
  slot ++ ": " ++ n.model.token?.getD "?" ++ " " ++ n.address.getD "(no mac)" ++ " on " ++
    n.bridge.getD "(no bridge)" ++ (n.tag.elim "" fun tag => " vlan " ++ integerText tag.val) ++
    (if n.firewall then " firewall" else "")

def guestLines (c : Config) : List String :=
  ["", "=== Guest ===", "Name: " ++ c.name.getD "(unnamed)",
    "Start on boot: " ++ if c.onboot then "true" else "false"]

def processorLines (p : Processor) : List String :=
  ["", "=== CPU ===",
    integerText p.sockets.val ++ " socket(s) x " ++ integerText p.cores.val ++ " core(s) = " ++
      integerText p.maxVcpus ++ " vCPU"] ++
    p.model.elim [] fun model => ("Type: " ++ model.name) :: model.flags.map fun f => "  " ++ f.text

def memoryLines (m : Memory) : List String :=
  ["", "=== Memory ===", integerText m.size.val ++ " MiB"] ++
    m.balloon.elim [] fun target =>
      if target.val = 0 then ["Balloon: disabled"]
      else ["Balloon: " ++ integerText target.val ++ " MiB minimum"]

def nicLines (nics : Table String Nic) : List String :=
  ["", "=== Network (" ++ toString nics.size ++ ") ==="] ++ nics.entries.map fun e => nicLine e.1 e.2

def diskLines (disks : Table String Disk) : List String :=
  ["", "=== Disks (" ++ toString disks.size ++ ") ==="] ++ disks.entries.map fun e => diskLine e.1 e.2

/-- a fault behind its code -/
def faultLine (kind : FaultKind) (message : String) : String := kind.tag ++ message

/-! ## The account -/

/-- the properties of a document -/
def reportOf? (document : Json) : Option Report := Report.ofJson? ((document.get? "data").getD document)

/-- the account of a guest: its sections, then its create form -/
def ofConfig (c : Config) : List String × List String :=
  let sections := guestLines c ++ processorLines c.processor ++ memoryLines c.memory ++ nicLines c.nics ++
    diskLines c.disks ++ ["", "=== Create form ==="]
  match Record.form .create c with
  | .ok form => (sections ++ form.flatten.map fun p => p.1 ++ "=" ++ p.2, [])
  | .error fault => (sections, [faultLine fault.kind fault.message])

/-- the account of a report -/
def ofReport (report : Report) : Account :=
  let head := "Properties: " ++ toString report.size
  match Record.decode (α := Config) report with
  | .ok c =>
    let (out, err) := ofConfig c
    ⟨head :: out, err, 0, none⟩
  | .error fault => ⟨[head], [faultLine fault.kind fault.message], 1, none⟩

/-- the account of a text, if one could be read -/
def ofText (text : Option String) : Account :=
  match text with
  | none => ⟨[], [], failureExit, some .unreadable⟩
  | some text =>
    match Json.parse? Json.maxDepth text with
    | none => ⟨[], [], failureExit, some .notJson⟩
    | some document =>
      match reportOf? document with
      | none => ⟨[], [], failureExit, some .notObject⟩
      | some report => ofReport report

/-- a run on the file at this path -/
def run (path : String) (text : Option String) : Account :=
  let account := ofText text
  { account with out := ("Reading: " ++ path) :: account.out }

/-- the file that is read if none is named -/
def defaultPath : String := "config.json"

/-- lines as one text -/
def lines (l : List String) : String := String.join (l.map (· ++ "\n"))

end Hypervisor.Inspect
