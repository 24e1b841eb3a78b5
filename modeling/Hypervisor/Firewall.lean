/-
Firewall rules of a cluster, a node or a guest.
-/
import Hypervisor.Record
import Hypervisor.Text.Blank

namespace Hypervisor.Firewall

/-- the direction of traffic, or a jump to a security group -/
inductive RuleType where
  | incoming
  | outgoing
  | group
deriving DecidableEq, Repr

instance : Vocabulary RuleType where
  label := "rule type"
  members := [.incoming, .outgoing, .group]
  token
    | .incoming => "in"
    | .outgoing => "out"
    | .group => "group"
  complete a := by cases a <;> decide
  apart := by decide

/-- the level at which matches are logged -/
inductive LogLevel where
  | emergency
  | alert
  | critical
  | error
  | warning
  | notice
  | info
  | debug
  | nolog
deriving DecidableEq, Repr

instance : Vocabulary LogLevel where
  label := "log level"
  members := [.emergency, .alert, .critical, .error, .warning, .notice, .info, .debug, .nolog]
  token
    | .emergency => "emerg"
    | .alert => "alert"
    | .critical => "crit"
    | .error => "err"
    | .warning => "warning"
    | .notice => "notice"
    | .info => "info"
    | .debug => "debug"
    | .nolog => "nolog"
  complete a := by cases a <;> decide
  apart := by decide

/-- one rule; the action is a verdict, or the name of a group that the rule jumps to -/
structure Rule where
  /-- the place in the list of rules, set by the node -/
  position : Option U32
  kind : Choice RuleType
  action : String
  enable : Bool
  /-- a named set of ports and protocols -/
  macroName : Option String
  source : Option String
  dest : Option String
  proto : Option String
  dport : Option String
  sport : Option String
  iface : Option String
  log : Option (Choice LogLevel)
  comment : Option String
  ipversion : Option U8
  digest : Option String
deriving DecidableEq, Repr

namespace Rule

/-- a disabled rule with a direction and an action -/
def disabled (kind : Choice RuleType) (action : String) : Rule :=
  { position := none, kind, action, enable := false, macroName := none, source := none, dest := none, proto := none,
    dport := none, sport := none, iface := none, log := none, comment := none, ipversion := none, digest := none }

def isGroup (r : Rule) : Bool := r.kind == .known .group

/-- an optional text that is sent unless it is unset -/
def textProperty (name : String) : Property (Option String) :=
  { name, presence := .optional, emission := .omitDefault }

def positionProperty : Property (Option U32) := { name := "pos", presence := .optional, emission := .never }

def kindProperty : Property (Choice RuleType) := { name := "type", presence := .required }

def actionProperty : Property String :=
  { name := "action", presence := .required, check := some fun s => !s.isEmpty }

def enableProperty : Property Bool := { name := "enable", presence := .default "0", emission := .omitDefault }

def macroProperty : Property (Option String) := textProperty "macro"

def sourceProperty : Property (Option String) := textProperty "source"

def destProperty : Property (Option String) := textProperty "dest"

def protoProperty : Property (Option String) := textProperty "proto"

def dportProperty : Property (Option String) := textProperty "dport"

def sportProperty : Property (Option String) := textProperty "sport"

def ifaceProperty : Property (Option String) := textProperty "iface"

def logProperty : Property (Option (Choice LogLevel)) :=
  { name := "log", presence := .optional, emission := .omitDefault }

/-- a comment is read without the blanks around it -/
def commentProperty : Property (Option String) :=
  { textProperty "comment" with transform := some fun comment => comment.map Text.trim }

def ipversionProperty : Property (Option U8) := { name := "ipversion", presence := .optional, emission := .never }

/-- the fingerprint of the rule file, set by the node -/
def digestProperty : Property (Option String) := { name := "digest", presence := .optional, emission := .never }

def decode (report : Report) : Except PropertyFault Rule := do
  let position ← positionProperty.extract report
  let kind ← kindProperty.extract report
  let action ← actionProperty.extract report
  let enable ← enableProperty.extract report
  let macroName ← macroProperty.extract report
  let source ← sourceProperty.extract report
  let dest ← destProperty.extract report
  let proto ← protoProperty.extract report
  let dport ← dportProperty.extract report
  let sport ← sportProperty.extract report
  let iface ← ifaceProperty.extract report
  let log ← logProperty.extract report
  let comment ← commentProperty.extract report
  let ipversion ← ipversionProperty.extract report
  let digest ← digestProperty.extract report
  pure
    { position, kind, action, enable, macroName, source, dest, proto, dport, sport, iface, log, comment,
      ipversion, digest }

def attributes (r : Rule) : List Attribute :=
  [positionProperty.attribute r.position, kindProperty.attribute r.kind, actionProperty.attribute r.action,
    enableProperty.attribute r.enable, macroProperty.attribute r.macroName, sourceProperty.attribute r.source,
    destProperty.attribute r.dest, protoProperty.attribute r.proto, dportProperty.attribute r.dport,
    sportProperty.attribute r.sport, ifaceProperty.attribute r.iface, logProperty.attribute r.log,
    commentProperty.attribute r.comment, ipversionProperty.attribute r.ipversion, digestProperty.attribute r.digest]

instance : Record Rule where
  decode := decode
  attributes _ r := r.attributes

end Rule

end Hypervisor.Firewall
