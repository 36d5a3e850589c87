import Chargeback.Inventory.Basic

/-!
# Filters of workloads

A cycle prices the workloads that pass all of its filters.
-/

namespace Chargeback

/-- A condition that a workload must meet. -/
inductive WorkloadFilter where
  /-- The workload is in its running phase. -/
  | running
  deriving DecidableEq, Repr

namespace WorkloadFilter

/-- The filter that a word names. -/
def ofName? : String → Option WorkloadFilter
  | "running" => some .running
  | _ => none

/-- The workload meets the condition. -/
def accepts : WorkloadFilter → Workload → Bool
  | .running, w => w.isRunning

/-- The workload meets every condition. -/
def acceptAll (fs : List WorkloadFilter) (w : Workload) : Bool := fs.all (·.accepts w)

/-- The workloads that meet every condition, in their order. -/
def keep (fs : List WorkloadFilter) (ws : List Workload) : List Workload :=
  ws.filter (acceptAll fs)

end WorkloadFilter

end Chargeback
