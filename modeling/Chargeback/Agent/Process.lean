import Chargeback.Agent.TaskGroup
import Chargeback.Config.Validation
import Chargeback.Cycle.Emission
import Chargeback.Log.Entry
import Chargeback.Net.Bind

/-!
# Processes

A process works on a machine: it reads files, writes a log and has the surroundings of its
exporters. Here stands what processes of every mode have in common: why they fail, how they
start and stop exporters, and the task that listens for requests.
-/

namespace Chargeback

/-- Why a process failed. -/
inductive AgentFault where
  /-- The settings do not allow the mode. -/
  | settings (fault : SettingsFault)
  | registering (fault : Metrics.RegistrationError)
  /-- An exporter could not be started. -/
  | starting (exporter : String) (fault : ExporterFault)
  /-- A task failed. -/
  | task (fault : TaskFault)
  deriving DecidableEq, Repr

/-- What led to the fault. -/
def AgentFault.causes : AgentFault → Causes
  | .settings fault => fault.causes
  | .registering fault => ["building exporters", fault.message]
  | .starting exporter fault => ("starting " ++ exporter ++ " exporter") :: fault.causes
  | .task fault => fault.causes

/-- What tells a process to shut down. -/
inductive Shutdown where
  /-- The one who runs it. -/
  | request
  /-- The signal that stands for a key pressed. -/
  | interrupt
  /-- The signal to terminate. -/
  | terminate
  deriving DecidableEq, Repr

/-- What a process has to do with. -/
structure Machine where
  /-- The content of a file, if there is one of the name. Files do not change. -/
  files : String → Option (List UInt8)
  /-- When the process began. -/
  began : Instant
  around : Surroundings
  /-- What the process has written, the earliest first. -/
  log : List LogEntry

/-- A part of the work of a process. What was done before a failure stays done. -/
abbrev Work (α : Type) := ExceptT AgentFault (StateM Machine) α

namespace Work

/-- Writes an entry. -/
def say (path : List String) (text : String) : Work Unit :=
  modify fun m => { m with log := m.log ++ [.info path text] }

/-- Does something in the surroundings. -/
def inAround {α : Type} (act : Surroundings → α × Surroundings) : Work α :=
  modifyGet fun m => let (a, around) := act m.around; (a, { m with around })

/-- Does something with an exporter. -/
def withExporter {α : Type} (act : Exporter → Surroundings → α × Exporter × Surroundings)
    (e : Exporter) : Work (α × Exporter) :=
  inAround fun s => let (a, e, s) := act e s; ((a, e), s)

/-- Does something with an exporter that has no outcome. -/
def onExporter (act : Exporter → Surroundings → Exporter × Surroundings) (e : Exporter) :
    Work Exporter := inAround (act e)

/-- A result that is a fault ends the work. -/
def expect {ε α : Type} (fault : ε → AgentFault) (result : Except ε α) : Work α :=
  match result with
  | .ok a => pure a
  | .error e => throw (fault e)

/-- Is told to shut down. -/
def hear : Shutdown → Work Unit
  | .request => pure ()
  | .interrupt => say [] "received SIGINT, shutting down"
  | .terminate => say [] "received SIGTERM, shutting down"

/-! ## Exporters -/

/-- What an exporter writes when it starts. -/
def sayStarted : Exporter → Work Unit
  | .stats => pure ()
  | .http _ => say ["export", "http"] "HTTP exporter started"
  | .clickhouse e => do
    if e.settings.createTable then say ["export", "clickhouse"] "ClickHouse table ensured"
    say ["export", "clickhouse"] "ClickHouse exporter started"
  | .buffering _ _ next => do
    sayStarted next
    say ["coster", "exporter", "buffering"] "Buffering exporter started"

/-- Stops exporters one after the other. Whether that succeeds is of no consequence. -/
def stopAll [Codec.Codecs] (es : List Exporter) : Work Unit :=
  es.forM fun e => do let _ ← withExporter Exporter.stop e

/-- Starts an exporter under a name; if that fails, others are stopped. -/
def startOr [Codec.Codecs] (others : List Exporter) (name : String) (e : Exporter) :
    Work Exporter := do
  let (outcome, e) ← withExporter Exporter.start e
  match outcome with
  | .ok () =>
    sayStarted e
    return e
  | .error fault =>
    stopAll others
    throw (.starting name fault)

/-- Starts exporters one after the other; if one cannot be started, those before are stopped. -/
def startAll [Codec.Codecs] (started : List Exporter) : List Exporter → Work (List Exporter)
  | [] => return started
  | e :: es => do
    let e ← startOr started e.name e
    say ["agent"] "exporter started"
    startAll (started ++ [e]) es

/-- Cancels the token that exporters were started with, and then stops them. -/
def shutDown [Codec.Codecs] (es : List Exporter) : Work Unit := do
  let es ← es.mapM fun e => do onExporter Exporter.settle (← onExporter Exporter.cancel e)
  stopAll es

/-- Lets time go by for exporters, which all see the same clock. -/
def sleep [Codec.Codecs] (span : Span) (es : List Exporter) : Work (List Exporter) := do
  let start := (← get).around.now
  es.mapM fun e => do
    modify fun m => { m with around := { m.around with now := start } }
    onExporter (Exporter.sleep span) e

/-! ## Listening -/

/-- The task that answers requests, of a name given. -/
def listen (task address : String) : Work Task := do
  let address := Net.bindAddress address
  if Net.canListen address then
    say ["export", "health"] "http server started"
    return { name := task, waits := true, ends := .ok }
  else return { name := task, waits := false, ends := .failed ["listening on " ++ address] }

/-- The outcome of a group of tasks that was told to end. -/
def conclude (tasks : List Task) : Work Unit :=
  match (TaskGroup.spawn true tasks).settle.outcome? with
  | some (.error fault) => throw (.task fault)
  | _ => pure ()

end Work

end Chargeback
