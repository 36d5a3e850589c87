import Chargeback.CommandLine.Program
import Std.Time.DateTime.Timestamp

/-!
# The command line

Connects the program to a machine: files are read from the disk, time is that of the clock, and
entries that pass the filter are printed. The surroundings are without a network, so no collector
and no database answers, and metrics are kept without being served.
-/

namespace Chargeback.Main

/-- The content of a file, if it can be read. -/
def readFile? (path : String) : IO (Option (List UInt8)) := do
  try return some (← IO.FS.readBinFile path).toList
  catch _ => return none

/-- The present content of files. -/
def readFiles (paths : List String) : IO (String → Option (List UInt8)) := do
  let contents ← paths.mapM fun path => return (path, ← readFile? path)
  return fun path => (contents.lookup path).join

/-- The present time. -/
def present : IO Instant := do
  let nanos := (← Std.Time.Timestamp.now).toNanosecondsSinceUnixEpoch.val
  return ⟨nanos / Span.perSecond, (nanos % Span.perSecond).toNat⟩

/-- The files of the inventory. -/
def inventoryFiles (s : Settings) : IO (String → Option (List UInt8)) :=
  readFiles [s.inventory.podsPath, s.inventory.nodesPath]

/-- A machine without a network. -/
def machine (s : Settings) : IO Machine := do
  return {
    files := ← inventoryFiles s
    began := ← present
    around := {
      metrics := .fresh
      database := .silent "" 0 []
      collector := { host := "", port := 0, isListening := false, status := 503, received := [] }
      now := 0 }
    log := [] }

/-- Carries out some work and prints what it writes. -/
def carryOut {α : Type} (log : LogFilter) (work : Work α) (m : Machine) :
    IO (Except AgentFault α × Machine) := do
  let (result, m) := work.run.run { m with log := [] }
  for e in m.log.filter log.accepts do
    IO.println (e.level.name.toUpper ++ " " ++ e.part ++ ": " ++ e.text)
  (← IO.getStdout).flush
  return (result, m)

/-- Prints how the program ends. -/
def finish (exit : Exit) : IO UInt32 := do
  match exit with
  | .success output => IO.print output
  | .failure causes => IO.eprint (Program.failureText causes)
  | .misuse => IO.eprint Program.usage
  return UInt32.ofNat exit.code

/-- The end of the program with some work. -/
def finishWith {α : Type} (result : Except AgentFault α) : IO UInt32 :=
  finish (match result with
    | .ok _ => .success ""
    | .error fault => .failure fault.causes)

/-- Waits for one interval after the other, and prices the inventory of the day. -/
partial def collectOn (s : Settings) (log : LogFilter) (start : Nat) (c : Collecting)
    (m : Machine) : IO UInt32 := do
  IO.sleep (UInt32.ofNat (min (s.interval.millis + 1) (2 ^ 32 - 1)))
  let now := (← IO.monoNanosNow) - start - s.interval.nanos
  let m := { m with files := ← inventoryFiles s, around := { m.around with now } }
  let (result, m) ← carryOut log (do (← c.reload s).cycle) m
  match result with
  | .ok c => collectOn s log start c m
  | .error fault => finishWith (α := Unit) (.error fault)

/-- Collects until the program is killed, unless it cannot start. -/
def collect (s : Settings) (log : LogFilter) : IO UInt32 := do
  let start ← IO.monoNanosNow
  let (result, m) ← carryOut log (Program.announce *> Collecting.begin s) (← machine s)
  match result with
  | .error fault => finishWith (α := Unit) (.error fault)
  | .ok c =>
    if c.isSteady then collectOn s log start c m
    else finishWith (← carryOut log c.shutDown m).1

/-- Aggregates: without a database it cannot start. -/
def aggregate (s : Settings) (log : LogFilter) : IO UInt32 := do
  let work := Program.announce *> Aggregating.run .request s
  finishWith (← carryOut log work (← machine s)).1

/-- Runs the program for the words on the command line. -/
def run (words : List String) : IO UInt32 := do
  let path? := match Invocation.ofWords words with
    | .run _ options => options.config
    | _ => none
  let files ← readFiles path?.toList
  match Program.plan "linux/x86_64" (fun path => (files path).bind Text.decode?) words with
  | .done exit => finish exit
  | .collect s log => collect s log
  | .aggregate s log => aggregate s log

end Chargeback.Main

/-- Runs the program. -/
def main (words : List String) : IO UInt32 := Chargeback.Main.run words
