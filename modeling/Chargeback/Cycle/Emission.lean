import Chargeback.Cycle.Coster
import Chargeback.Export.Exporter

/-!
# Emission

The records of a cycle go round one by one: every exporter receives a record before any of them
receives the next. A cycle that fails has no records.
-/

namespace Chargeback

/-- Hands one record to every exporter. -/
def Exporter.handRound (r : CostRecord) : List Exporter → Surroundings →
    List Exporter × Surroundings
  | [], s => ([], s)
  | e :: es, s =>
    let (e, s) := e.accept r s
    let (es, s) := handRound r es s
    (e :: es, s)

/-- Hands records to every exporter, one record after the other. -/
def Exporter.acceptByEach (rs : List CostRecord) (es : List Exporter) (s : Surroundings) :
    List Exporter × Surroundings :=
  rs.foldl (fun (es, s) r => handRound r es s) (es, s)

/-- One cycle with its exporters: the number of records, or why it failed. -/
def Coster.emit (c : Coster) (input : CycleInput) (es : List Exporter) (s : Surroundings) :
    Except CycleFault Nat × Coster × List Exporter × Surroundings :=
  let (result, c, metrics) := c.cycle input s.metrics
  let s := { s with metrics }
  match result with
  | .error fault => (.error fault, c, es, s)
  | .ok records =>
    let (es, s) := Exporter.acceptByEach records es s
    (.ok records.length, c, es, s)

end Chargeback
