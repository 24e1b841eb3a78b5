/-
The processor of a guest: the emulated model with its switches, topology and scheduling.

The model is a packed property, `host,flags=+aes;-pcid`; its name is the bare first entry or the value of `cputype`.
-/
import Hypervisor.Flag
import Hypervisor.Packed
import Hypervisor.Record

namespace Hypervisor.Guest

/-! ## Model -/

/-- an emulated processor model with feature switches -/
structure CpuModel where
  name : String
  flags : List Flag
  hidden : Bool
deriving DecidableEq, Repr

namespace CpuModel

/-- a model without switches -/
def named (name : String) : CpuModel := ⟨name, [], false⟩

def nameProperty : Property String := { name := "cputype", presence := .required }

def hiddenProperty : Property Bool := { name := "hidden", presence := .default "0", emission := .omitDefault }

/-- the switches under the key `flags`; without the key there are none -/
def flagsOf (list : EntryList) : Except PropertyFault (List Flag) :=
  match list.get? "flags" with
  | some raw => (Flag.parseList raw).mapError fun fault => .reject "flags" (.text raw) (.token fault)
  | none => .ok []

def ofEntries (list : EntryList) : Except PropertyFault CpuModel := do
  let name ←
    match list.firstBare? with
    | some name => pure name
    | none => nameProperty.extractEntry list
  let flags ← flagsOf list
  let hidden ← hiddenProperty.extractEntry list
  pure ⟨name, flags, hidden⟩

def toEntries (c : CpuModel) : Except TokenFault EntryList :=
  let flags : List Entry := if c.flags.isEmpty then [] else [⟨"flags", some (Flag.writeList c.flags)⟩]
  EntryList.layOut (⟨c.name, none⟩ :: flags) [hiddenProperty.attribute c.hidden]

instance : Packed CpuModel where
  dialect := .propertyString
  ofEntries := ofEntries
  toEntries := toEntries

end CpuModel

/-! ## Topology and scheduling -/

/-- cores, sockets and the share of processor time -/
structure Processor where
  cores : U32
  sockets : U32
  vcpus : Option U32
  model : Option CpuModel
  limit : Double
  units : Option U32
  numa : Bool
deriving BEq

namespace Processor

def atLeastOne (n : U32) : Bool := decide (1 ≤ n.val)

def coresProperty : Property U32 :=
  { name := "cores", presence := .default "1", check := some atLeastOne, emission := .omitDefault }

def socketsProperty : Property U32 :=
  { name := "sockets", presence := .default "1", check := some atLeastOne, emission := .omitDefault }

def vcpusProperty : Property (Option U32) := { name := "vcpus", presence := .optional, emission := .omitDefault }

def modelProperty : Property (Option CpuModel) := { name := "cpu", presence := .optional, emission := .omitDefault }

/-- at most 128 processors' worth of time; zero is no limit -/
def limitProperty : Property Double :=
  { name := "cpulimit", presence := .default "0", check := some (Double.between 0 128), emission := .omitDefault }

/-- a scheduling weight up to 2^18 -/
def unitsProperty : Property (Option U32) :=
  { name := "cpuunits", presence := .optional, emission := .omitDefault
    check := some fun units => units.all fun n => decide (1 ≤ n.val ∧ n.val ≤ 262144) }

def numaProperty : Property Bool := { name := "numa", presence := .default "0", emission := .omitDefault }

/-- the processors a guest sees unless `vcpus` plugs in fewer -/
def maxVcpus (p : Processor) : Int := p.cores.val * p.sockets.val

def decode (report : Report) : Except PropertyFault Processor := do
  let cores ← coresProperty.extract report
  let sockets ← socketsProperty.extract report
  let vcpus ← vcpusProperty.extract report
  let model ← modelProperty.extract report
  let limit ← limitProperty.extract report
  let units ← unitsProperty.extract report
  let numa ← numaProperty.extract report
  pure { cores, sockets, vcpus, model, limit, units, numa }

def attributes (p : Processor) : List Attribute :=
  [coresProperty.attribute p.cores, socketsProperty.attribute p.sockets, vcpusProperty.attribute p.vcpus,
    modelProperty.attribute p.model, limitProperty.attribute p.limit, unitsProperty.attribute p.units,
    numaProperty.attribute p.numa]

instance : Record Processor where
  decode := decode
  attributes _ p := p.attributes

end Processor

end Hypervisor.Guest
