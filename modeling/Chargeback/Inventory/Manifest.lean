import Chargeback.Datum.Decode
import Chargeback.Inventory.Basic

/-!
# Manifests

The written form of workloads and nodes. All fields may be left out, fields that are not known
are ignored, and a quantity may be written as a text or as a number, of which the plain decimal
notation is kept.
-/

namespace Chargeback

open Datum

/-! ## Reading -/

/-- A quantity. An integer beyond the signed 64-bit range is read as the double nearest to it. -/
def Quantity.ofDatum? : Datum → Option Quantity
  | .text s => some ⟨s⟩
  | .integer i =>
    if Amount.InRange i then some ⟨toString i⟩ else some ⟨Decimal.plain (Binary64.ofInt i)⟩
  | .real x => some ⟨Decimal.plain x⟩
  | _ => none

/-- The metadata of an object. -/
def Metadata.ofDatum? (d : Datum) : Option Metadata := do
  match ← fields? ["name", "namespace", "labels", "annotations"] d with
  | [name, namespaceName, labels, annotations] =>
    return {
      name := ← optional? "" text? name
      namespaceName := ← optional? "" text? namespaceName
      labels := ← optional? .empty (assocOf? text?) labels
      annotations := ← optional? .empty (assocOf? text?) annotations }
  | _ => none

/-- The requests of a container. -/
def requestsOfDatum? (d : Datum) : Option (Assoc Quantity) := do
  match ← fields? ["requests"] d with
  | [requests] => optional? .empty (assocOf? Quantity.ofDatum?) requests
  | _ => none

/-- A container. -/
def Container.ofDatum? (d : Datum) : Option Container := do
  match ← fields? ["name", "resources"] d with
  | [name, resources] =>
    return {
      name := ← optional? "" text? name
      requests := ← optional? .empty requestsOfDatum? resources }
  | _ => none

/-- The node name and the containers of a workload. -/
def specOfDatum? (d : Datum) : Option (String × List Container) := do
  match ← fields? ["nodeName", "containers"] d with
  | [nodeName, containers] =>
    return (← optional? "" text? nodeName,
      ← optional? [] (listOf? Container.ofDatum?) containers)
  | _ => none

/-- The phase of a workload. -/
def phaseOfDatum? (d : Datum) : Option String := do
  match ← fields? ["phase"] d with
  | [phase] => optional? "" text? phase
  | _ => none

/-- The capacities of a node. -/
def capacitiesOfDatum? (d : Datum) : Option (Assoc Quantity) := do
  match ← fields? ["capacity"] d with
  | [capacity] => optional? .empty (assocOf? Quantity.ofDatum?) capacity
  | _ => none

/-- A workload. -/
def Workload.ofDatum? (d : Datum) : Option Workload := do
  match ← fields? ["metadata", "spec", "status"] d with
  | [metadata, spec, status] =>
    let metadata ← optional? {} Metadata.ofDatum? metadata
    let (nodeName, containers) ← optional? ("", []) specOfDatum? spec
    let phase ← optional? "" phaseOfDatum? status
    return { metadata, nodeName, containers, phase }
  | _ => none

/-- A node. -/
def Node.ofDatum? (d : Datum) : Option Node := do
  match ← fields? ["metadata", "status"] d with
  | [metadata, status] =>
    let metadata ← optional? {} Metadata.ofDatum? metadata
    let capacities ← optional? .empty capacitiesOfDatum? status
    return { metadata, capacities }
  | _ => none

/-! ## Writing -/

/-- Labels as a table. -/
def Labels.toDatum (m : Labels) : Datum :=
  .ofFields (m.entries.map fun (k, v) => (k, .text v))

/-- Quantities as a table of their texts. -/
def quantitiesToDatum (m : Assoc Quantity) : Datum :=
  .ofFields (m.entries.map fun (k, q) => (k, .text q.text))

/-- The metadata of an object. -/
def Metadata.toDatum (m : Metadata) : Datum :=
  .ofFields [("name", .text m.name), ("namespace", .text m.namespaceName),
    ("labels", Labels.toDatum m.labels), ("annotations", Labels.toDatum m.annotations)]

/-- A container. -/
def Container.toDatum (c : Container) : Datum :=
  .ofFields [("name", .text c.name),
    ("resources", .ofFields [("requests", quantitiesToDatum c.requests)])]

/-- A workload. -/
def Workload.toDatum (w : Workload) : Datum :=
  .ofFields [("metadata", w.metadata.toDatum),
    ("spec", .ofFields [("nodeName", .text w.nodeName),
      ("containers", .list (w.containers.map Container.toDatum))]),
    ("status", .ofFields [("phase", .text w.phase)])]

/-- A node. -/
def Node.toDatum (n : Node) : Datum :=
  .ofFields [("metadata", n.metadata.toDatum),
    ("status", .ofFields [("capacity", quantitiesToDatum n.capacities)])]

end Chargeback
