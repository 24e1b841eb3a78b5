/-
Storage definitions. All backends share one set of properties; what differs is the defaults, which `defaults` holds by
kind of backend, so that reading and writing are the same for every kind.
-/
import Hypervisor.Defaults
import Hypervisor.Record

namespace Hypervisor.Storage

/-- storage backends -/
inductive Kind where
  | dir
  | lvm
  | lvmThin
  | nfs
  | cifs
  | zfsPool
  | rbd
  | cephFs
  | pbs
deriving DecidableEq, Repr

instance : Vocabulary Kind where
  label := "storage type"
  members := [.dir, .lvm, .lvmThin, .nfs, .cifs, .zfsPool, .rbd, .cephFs, .pbs]
  token
    | .dir => "dir"
    | .lvm => "lvm"
    | .lvmThin => "lvmthin"
    | .nfs => "nfs"
    | .cifs => "cifs"
    | .zfsPool => "zfspool"
    | .rbd => "rbd"
    | .cephFs => "cephfs"
    | .pbs => "pbs"
  complete a := by cases a <;> decide
  apart := by decide

/-- kinds of volumes that a storage may hold -/
inductive Content where
  | images
  | rootdir
  | vztmpl
  | iso
  | backup
  | snippets
  | imported
deriving DecidableEq, Repr

instance : Vocabulary Content where
  label := "content type"
  members := [.images, .rootdir, .vztmpl, .iso, .backup, .snippets, .imported]
  token
    | .images => "images"
    | .rootdir => "rootdir"
    | .vztmpl => "vztmpl"
    | .iso => "iso"
    | .backup => "backup"
    | .snippets => "snippets"
    | .imported => "import"
  complete a := by cases a <;> decide
  apart := by decide

/-- the defaults of each backend -/
def defaults : DefaultTable (Choice Kind) :=
  ⟨[((.known .dir, "content"), "images,rootdir"),
    ((.known .lvm, "content"), "images,rootdir"),
    ((.known .lvmThin, "content"), "images,rootdir"),
    ((.known .nfs, "content"), "images"),
    ((.known .cifs, "content"), "images"),
    ((.known .zfsPool, "content"), "images,rootdir"),
    ((.known .rbd, "content"), "images"),
    ((.known .cephFs, "content"), "vztmpl,iso,backup"),
    ((.known .pbs, "content"), "backup"),
    ((.known .nfs, "shared"), "1"),
    ((.known .cifs, "shared"), "1"),
    ((.known .rbd, "shared"), "1"),
    ((.known .cephFs, "shared"), "1"),
    ((.known .pbs, "shared"), "1"),
    ((.known .zfsPool, "sparse"), "0")]⟩

/-- one storage of the configuration -/
structure Definition where
  id : String
  kind : Choice Kind
  content : List (Choice Content)
  shared : Bool
  disable : Bool
  /-- the nodes that have the storage; none named means all -/
  nodes : List String
  path : Option String
  server : Option String
  exportPath : Option String
  options : Option String
  vgname : Option String
  thinpool : Option String
  pool : Option String
  sparse : Bool
  digest : Option String
deriving DecidableEq, Repr

namespace Definition

/-- a letter, then letters, digits, `-`, `_` and `.`, all of them ASCII -/
def validId (id : String) : Bool :=
  match id.toList with
  | [] => false
  | c :: rest => c.isAlpha && rest.all fun c => c.isAlphanum || c == '-' || c == '_' || c == '.'

def idProperty : Property String := { name := "storage", presence := .required, check := some validId }

def kindProperty : Property (Choice Kind) := { name := "type", presence := .required }

/-- the kinds of volumes; the default is that of the backend -/
def contentProperty (kind : Choice Kind) : Property (List (Choice Content)) :=
  defaults.apply kind { name := "content", presence := .default "", emission := .omitDefault }

def sharedProperty (kind : Choice Kind) : Property Bool :=
  defaults.apply kind { name := "shared", presence := .default "0", emission := .omitDefault }

def disableProperty : Property Bool := { name := "disable", presence := .default "0", emission := .omitDefault }

def nodesProperty : Property (List String) := { name := "nodes", presence := .default "", emission := .omitDefault }

/-- an optional text that is sent unless it is unset -/
def textProperty (name : String) : Property (Option String) :=
  { name, presence := .optional, emission := .omitDefault }

def pathProperty : Property (Option String) := textProperty "path"

def serverProperty : Property (Option String) := textProperty "server"

def exportProperty : Property (Option String) := textProperty "export"

def optionsProperty : Property (Option String) := textProperty "options"

def vgnameProperty : Property (Option String) := textProperty "vgname"

def thinpoolProperty : Property (Option String) := textProperty "thinpool"

def poolProperty : Property (Option String) := textProperty "pool"

def sparseProperty (kind : Choice Kind) : Property Bool :=
  defaults.apply kind { name := "sparse", presence := .default "0", emission := .omitDefault }

/-- the fingerprint of the storage file, set by the node -/
def digestProperty : Property (Option String) := { name := "digest", presence := .optional, emission := .never }

def decode (report : Report) : Except PropertyFault Definition := do
  let id ← idProperty.extract report
  let kind ← kindProperty.extract report
  let content ← (contentProperty kind).extract report
  let shared ← (sharedProperty kind).extract report
  let disable ← disableProperty.extract report
  let nodes ← nodesProperty.extract report
  let path ← pathProperty.extract report
  let server ← serverProperty.extract report
  let exportPath ← exportProperty.extract report
  let options ← optionsProperty.extract report
  let vgname ← vgnameProperty.extract report
  let thinpool ← thinpoolProperty.extract report
  let pool ← poolProperty.extract report
  let sparse ← (sparseProperty kind).extract report
  let digest ← digestProperty.extract report
  pure
    { id, kind, content, shared, disable, nodes, path, server, exportPath, options, vgname, thinpool, pool,
      sparse, digest }

/-- id and kind are fixed once the storage is there, so an update leaves them out -/
def attributes (mode : Mode) (s : Definition) : List Attribute :=
  (if mode = .create then [idProperty.attribute s.id, kindProperty.attribute s.kind] else []) ++
    [(contentProperty s.kind).attribute s.content, (sharedProperty s.kind).attribute s.shared,
      disableProperty.attribute s.disable, nodesProperty.attribute s.nodes, pathProperty.attribute s.path,
      serverProperty.attribute s.server, exportProperty.attribute s.exportPath, optionsProperty.attribute s.options,
      vgnameProperty.attribute s.vgname, thinpoolProperty.attribute s.thinpool, poolProperty.attribute s.pool,
      (sparseProperty s.kind).attribute s.sparse, digestProperty.attribute s.digest]

instance : Record Definition where
  decode := decode
  attributes := attributes

/-- a storage of this kind with the defaults of its backend -/
def ofKind (id : String) (kind : Choice Kind) : Except PropertyFault Definition :=
  decode (Report.ofPairs [("storage", id), ("type", kind.token?.getD "")])

/-- the storage may hold this kind of volume -/
def holds (s : Definition) (content : Content) : Bool := s.content.contains (.known content)

/-- the storage is enabled on this node -/
def availableOn (s : Definition) (node : String) : Bool :=
  !s.disable && (s.nodes.isEmpty || s.nodes.contains node)

end Definition

end Hypervisor.Storage
