/-
Disks of a guest. A disk is a packed property whose bare first entry is the volume, `storage:volume-name`, or `none` for
an empty drive; the volume may also stand under the key `file`.
-/
import Hypervisor.Packed

namespace Hypervisor.Guest

/-- how the host caches a disk -/
inductive CacheMode where
  | none
  | writeBack
  | writeThrough
  | directSync
  | unsafely
deriving DecidableEq, Repr

instance : Vocabulary CacheMode where
  label := "cache mode"
  members := [.none, .writeBack, .writeThrough, .directSync, .unsafely]
  token
    | .none => "none"
    | .writeBack => "writeback"
    | .writeThrough => "writethrough"
    | .directSync => "directsync"
    | .unsafely => "unsafe"
  complete a := by cases a <;> decide
  apart := by decide

/-- whether discard requests reach the storage -/
inductive Discard where
  | on
  | ignore
deriving DecidableEq, Repr

instance : Vocabulary Discard where
  label := "discard mode"
  members := [.on, .ignore]
  token
    | .on => "on"
    | .ignore => "ignore"
  complete a := by cases a <;> decide
  apart := by decide

/-- what kind of drive a disk is -/
inductive Media where
  | disk
  | cdrom
deriving DecidableEq, Repr

instance : Vocabulary Media where
  label := "media"
  members := [.disk, .cdrom]
  token
    | .disk => "disk"
    | .cdrom => "cdrom"
  complete a := by cases a <;> decide
  apart := by decide

/-- image formats -/
inductive DiskFormat where
  | raw
  | qcow2
  | vmdk
deriving DecidableEq, Repr

instance : Vocabulary DiskFormat where
  label := "disk format"
  members := [.raw, .qcow2, .vmdk]
  token
    | .raw => "raw"
    | .qcow2 => "qcow2"
    | .vmdk => "vmdk"
  complete a := by cases a <;> decide
  apart := by decide

/-- a volume and the options of its drive -/
structure Disk where
  volume : String
  size : Option ByteSize
  cache : Option (Choice CacheMode)
  discard : Option (Choice Discard)
  ssd : Bool
  iothread : Bool
  backup : Bool
  media : Option (Choice Media)
  format : Option (Choice DiskFormat)
deriving DecidableEq, Repr

namespace Disk

/-- a disk on a volume, all else default -/
def onVolume (volume : String) : Disk :=
  { volume, size := none, cache := none, discard := none, ssd := false, iothread := false, backup := true,
    media := none, format := none }

def fileProperty : Property String := { name := "file", presence := .required }

def sizeProperty : Property (Option ByteSize) := { name := "size", presence := .optional, emission := .omitDefault }

def cacheProperty : Property (Option (Choice CacheMode)) :=
  { name := "cache", presence := .optional, emission := .omitDefault }

def discardProperty : Property (Option (Choice Discard)) :=
  { name := "discard", presence := .optional, emission := .omitDefault }

def ssdProperty : Property Bool := { name := "ssd", presence := .default "0", emission := .omitDefault }

def iothreadProperty : Property Bool := { name := "iothread", presence := .default "0", emission := .omitDefault }

def backupProperty : Property Bool := { name := "backup", presence := .default "1", emission := .omitDefault }

def mediaProperty : Property (Option (Choice Media)) :=
  { name := "media", presence := .optional, emission := .omitDefault }

def formatProperty : Property (Option (Choice DiskFormat)) :=
  { name := "format", presence := .optional, emission := .omitDefault }

/-- the part of the volume before its first colon -/
def storage? (d : Disk) : Option String := (Text.cut? ':' d.volume.toList).map fun p => String.ofList p.1

/-- the part of the volume after its first colon, or all of it -/
def volumeName (d : Disk) : String :=
  match Text.cut? ':' d.volume.toList with
  | some (_, name) => String.ofList name
  | none => d.volume

def isCdrom (d : Disk) : Bool := d.media == some (.known .cdrom)

def ofEntries (list : EntryList) : Except PropertyFault Disk := do
  let volume ←
    match list.firstBare? with
    | some volume => pure volume
    | none => fileProperty.extractEntry list
  let size ← sizeProperty.extractEntry list
  let cache ← cacheProperty.extractEntry list
  let discard ← discardProperty.extractEntry list
  let ssd ← ssdProperty.extractEntry list
  let iothread ← iothreadProperty.extractEntry list
  let backup ← backupProperty.extractEntry list
  let media ← mediaProperty.extractEntry list
  let format ← formatProperty.extractEntry list
  pure { volume, size, cache, discard, ssd, iothread, backup, media, format }

/-- the options after the volume -/
def options (d : Disk) : List Attribute :=
  [sizeProperty.attribute d.size, cacheProperty.attribute d.cache, discardProperty.attribute d.discard,
    ssdProperty.attribute d.ssd, iothreadProperty.attribute d.iothread, backupProperty.attribute d.backup,
    mediaProperty.attribute d.media, formatProperty.attribute d.format]

def toEntries (d : Disk) : Except TokenFault EntryList := EntryList.layOut [⟨d.volume, none⟩] d.options

instance : Packed Disk where
  dialect := .propertyString
  ofEntries := ofEntries
  toEntries := toEntries

end Disk

end Hypervisor.Guest
