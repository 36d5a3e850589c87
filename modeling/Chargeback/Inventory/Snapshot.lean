import Chargeback.Causes
import Chargeback.Inventory.Manifest
import Chargeback.Json.Document
import Chargeback.Metric.Metrics
import Chargeback.Text.Utf8
import Chargeback.Yaml.Value

/-!
# Snapshots of the inventory

The objects of one kind are read from a file and kept until the file is read again. Reading
replaces all of them at once or, when it fails, none; and there are no objects to list before a
file was read for the first time.

A file holds a list of objects, or a table with such a list under `items`, in JSON or in YAML.
-/

namespace Chargeback

/-! ## Files -/

/-- Why a snapshot could not be loaded. -/
inductive SnapshotFault where
  /-- There is no such file, or it does not hold a text. -/
  | reading (path : String)
  /-- The text is not a list of objects. -/
  | parsing (path : String)
  deriving DecidableEq, Repr

/-- What is said about the fault. -/
def SnapshotFault.message : SnapshotFault → String
  | .reading path => "reading snapshot file " ++ path
  | .parsing path => "parsing snapshot file " ++ path

namespace Snapshot

/-- The name of a file without the directories that it is in. -/
def fileName (path : String) : List Char :=
  ((path.toList.reverse.dropWhile (· == '/')).takeWhile (· != '/')).reverse

/-- What follows the last dot in the name of a file; a dot at its beginning does not count. -/
def extension? (path : String) : Option String :=
  let reversed := (fileName path).reverse
  match reversed.dropWhile (· != '.') with
  | _ :: stem =>
    if stem.isEmpty || stem == ['.'] && reversed == ['.', '.'] then none
    else some (String.ofList (reversed.takeWhile (· != '.')).reverse)
  | [] => none

/-- The file is named as one with JSON, in any case. -/
def isJson (path : String) : Bool :=
  (extension? path).any fun e => e.toList.map Text.lowerAscii == "json".toList

/-- How many tables and lists may be nested in one another, in a file with JSON or in one with
YAML. -/
def depthLimit (json : Bool) : Nat := if json then 127 else 128

/-- The objects in a list, or in the list under `items` of a table. -/
def items? {α : Type} (decode : Datum → Option α) (d : Datum) : Option (List α) :=
  match d with
  | .table _ => do
    let fields ← d.fields? ["items"]
    (fields.head?.join).bind (Datum.listOf? decode)
  | _ => Datum.listOf? decode d

/-- What a text stands for, as a file of the name given. -/
def datum? [Yaml.Reader] (path text : String) : Option Datum :=
  let d := if isJson path then Json.read? (Text.encode text)
    else (Yaml.Reader.read? text).map (·.toDatum)
  d.filter (·.readable (depthLimit (isJson path)))

/-- The objects in a file with the content given; `none` stands for a file that is missing. -/
def load [Yaml.Reader] {α : Type} (decode : Datum → Option α) (path : String)
    (content : Option (List UInt8)) : Except SnapshotFault (List α) :=
  match content.bind Text.decode? with
  | none => .error (.reading path)
  | some text => match (datum? path text).bind (items? decode) with
    | none => .error (.parsing path)
    | some objects => .ok objects

end Snapshot

/-- A kind of objects that snapshots hold. -/
structure SnapshotKind (α : Type) where
  /-- The word for the objects. -/
  source : String
  decode : Datum → Option α
  key : α → String

namespace SnapshotKind

/-- Snapshots of the workloads. -/
def pods : SnapshotKind Workload := ⟨"pods", Workload.ofDatum?, Workload.key⟩

/-- Snapshots of the nodes. -/
def nodes : SnapshotKind Node := ⟨"nodes", Node.ofDatum?, Node.key⟩

end SnapshotKind

/-! ## The cache -/

/-- The objects of one kind, by key, as of the last time that the file could be read. -/
structure SnapshotCache (α : Type) where
  source : String
  objects : Assoc α
  isSynced : Bool
  deriving DecidableEq, Repr

namespace SnapshotCache

variable {α : Type}

/-- A cache for which no file was read yet. -/
def fresh (source : String) : SnapshotCache α := { source, objects := .empty, isSynced := false }

/-- What led to a cache not being brought up to date. -/
def causes (source : String) (fault : SnapshotFault) : Causes :=
  ["loading " ++ source ++ " snapshot", fault.message]

/-- What led to a cache not being filled for the first time. -/
def firstCauses (source : String) (fault : SnapshotFault) : Causes :=
  (source ++ " cache sync failed") :: causes source fault

/-- Brings the cache up to date with a file: of several objects with one key the last counts.
Gives the number of objects. -/
def sync [Yaml.Reader] (kind : SnapshotKind α) (path : String) (content : Option (List UInt8))
    (c : SnapshotCache α) (m : Metrics) : Except SnapshotFault Nat × SnapshotCache α × Metrics :=
  match Snapshot.load kind.decode path content with
  | .error fault => (.error fault, c, m)
  | .ok items =>
    let objects := Assoc.ofList (items.map fun a => (kind.key a, a))
    let n := objects.entries.length
    (.ok n, { c with objects, isSynced := true }, m.snapshotLoaded c.source n)

/-- Brings the cache up to date once more; that this failed is counted. -/
def resync [Yaml.Reader] (kind : SnapshotKind α) (path : String) (content : Option (List UInt8))
    (c : SnapshotCache α) (m : Metrics) : Except SnapshotFault Nat × SnapshotCache α × Metrics :=
  match c.sync kind path content m with
  | (.error fault, c, m) => (.error fault, c, m.snapshotFailed c.source)
  | done => done

/-- What is said when objects are asked for too early. -/
def notSynced (source : String) : String := source ++ " cache has not synced yet"

/-- The objects, or what is said instead. -/
def list (c : SnapshotCache α) : Except String (List α) :=
  if c.isSynced then .ok (c.objects.entries.map Prod.snd) else .error (notSynced c.source)

end SnapshotCache

end Chargeback
