import Chargeback.Inventory.Basic

/-!
# Allocations

What the workloads on a node ask for in total, beside what the node advertises. A resource that
nobody asks for counts as fully used, so that a share of it is never a quotient by zero; where
the total is zero all the same, the node has none of the resource.
-/

namespace Chargeback

namespace Workload

/-- The request of a workload for a resource in its unit: the thousandths of all containers are
added, within the range of amounts, and then cut toward zero to whole units. A container without
a readable request adds nothing. -/
def request (w : Workload) (r : Resource) : Int :=
  let total := w.containers.foldl (fun total c =>
    match (c.requests.get? r.name).map Quantity.milli with
    | some (.ok m) => Amount.add total m
    | _ => total) 0
  match r with
  | .cpu => total
  | .memory => total.tdiv 1000
  | .gpu => total.tdiv 1000

end Workload

/-- An amount of every resource. -/
structure Resources where
  cpu : Int := 0
  memory : Int := 0
  gpu : Int := 0
  deriving DecidableEq, Repr, Inhabited

namespace Resources

/-- The amount of one resource. -/
def get (a : Resources) : Resource → Int
  | .cpu => a.cpu
  | .memory => a.memory
  | .gpu => a.gpu

/-- The amounts that a function gives. -/
def of (f : Resource → Int) : Resources := ⟨f .cpu, f .memory, f .gpu⟩

/-- Sums within the range of amounts. -/
def add (a b : Resources) : Resources := of fun r => Amount.add (a.get r) (b.get r)

end Resources

/-- A node with what is asked of it and what it has. -/
structure Allocation where
  node : Node
  used : Resources
  available : Resources
  deriving DecidableEq, Repr, Inhabited

namespace Allocation

/-- The allocation of a node without workloads. An unreadable capacity counts as zero. -/
def idle (n : Node) : Allocation where
  node := n
  used := {}
  available := .of fun r => match n.capacity r with
    | .ok v => v
    | .error _ => 0

/-- The allocation with one workload more. -/
def charge (a : Allocation) (w : Workload) : Allocation :=
  { a with used := a.used.add (.of w.request) }

/-- Counts what nobody asks for as fully used. -/
def settle (a : Allocation) : Allocation :=
  { a with used := .of fun r => if a.used.get r = 0 then a.available.get r else a.used.get r }

/-- How much of a resource there is for each unit asked for; zero where nothing is used. -/
def scaleFactor (a : Allocation) (r : Resource) : Binary64 :=
  if a.used.get r = 0 then .zero
  else Binary64.ofInt (a.available.get r) / Binary64.ofInt (a.used.get r)

/-- Charges a workload to the node it is scheduled on, if that is known. -/
def chargeTo (m : Assoc Allocation) (w : Workload) : Assoc Allocation :=
  match m.get? w.nodeName with
  | some a => m.put w.nodeName (a.charge w)
  | none => m

/-- The allocation of every node under its name. Of several nodes with one name the last
counts. -/
def all (ws : List Workload) (ns : List Node) : Assoc Allocation :=
  let idle := ns.foldl (fun m n => m.put n.metadata.name (idle n)) .empty
  (ws.foldl chargeTo idle).map settle

end Allocation

/-- The nodes under their names. Of several nodes with one name the last counts. -/
def Node.byName (ns : List Node) : Assoc Node :=
  ns.foldl (fun m n => m.put n.metadata.name n) .empty

end Chargeback
