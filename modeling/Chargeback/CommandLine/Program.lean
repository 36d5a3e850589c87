import Chargeback.Agent.Aggregating
import Chargeback.Agent.Collecting
import Chargeback.Codec.Standard
import Chargeback.CommandLine.Invocation
import Chargeback.Config.Document
import Chargeback.Log.Filter
import Chargeback.Yaml.Reading

/-!
# The program

From the words on the command line and the configuration file follows what the program does: it
answers at once, or it becomes a process of one mode. A failure is reported with what led to it.
-/

namespace Chargeback

/-- How the program ends. -/
inductive Exit where
  /-- With some text as its output. -/
  | success (output : String)
  | failure (causes : Causes)
  /-- The command line cannot be understood. -/
  | misuse
  deriving DecidableEq, Repr

/-- The exit status. -/
def Exit.code : Exit → Nat
  | .success _ => 0
  | .failure _ => 1
  | .misuse => 2

namespace Program

/-- The release, its commit and the platform. -/
def version (platform : String) : String :=
  LogEntry.program ++ " 0.1.0 (commit: unknown, " ++ platform ++ ")\n"

/-- How to call the program. -/
def usage : String :=
  "Usage: " ++ LogEntry.program ++ " [--config FILE] [--log-level LEVEL] [COMMAND]\n\nCommands: " ++
    ", ".intercalate (Command.all.map (·.name)) ++ "\n"

/-- What is said about settings that can be used. -/
def summary (s : Settings) : String :=
  let flag (b : Bool) : String := if b then "true" else "false"
  "configuration OK\n" ++
  "  interval:        " ++ s.interval.display ++ "\n" ++
  "  pricing entries: " ++ toString s.pricing.entries.length ++ "\n" ++
  "  strategies:      " ++ ", ".intercalate (s.strategies.map (·.name)) ++ "\n" ++
  "  dimensions:      " ++ ", ".intercalate s.mapping.destinations ++ "\n" ++
  "  exporters:       stats=" ++ flag s.exporters.stats ++
    " http=" ++ flag s.exporters.http.enabled ++
    " clickhouse=" ++ flag s.exporters.clickhouse.enabled ++ "\n"

/-- What is said about a failure. -/
def failureText : Causes → String
  | [] => "Error\n"
  | [cause] => "Error: " ++ cause ++ "\n"
  | [outer, inner] => "Error: " ++ outer ++ "\n\nCaused by:\n    " ++ inner ++ "\n"
  | outer :: inner => "Error: " ++ outer ++ "\n\nCaused by:\n" ++
    String.join (inner.zipIdx.map fun (cause, i) => "    " ++ toString i ++ ": " ++ cause ++ "\n")

/-- What the program does once it has read its configuration. -/
inductive Plan where
  /-- It ends at once. -/
  | done (exit : Exit)
  /-- It becomes a process that collects. -/
  | collect (s : Settings) (log : LogFilter)
  /-- It becomes a process that aggregates. -/
  | aggregate (s : Settings) (log : LogFilter)

/-- The plan for a command with settings. -/
def planWith (command : Command) (logLevel : Option String) (s : Settings) : Plan :=
  if command = .checkConfig then .done (.success (summary s))
  else
    let level := logLevel.getD s.logLevel
    match LogFilter.read? level with
    | none => .done (.failure ["invalid log level: " ++ level])
    | some log => if command = .aggregate then .aggregate s log else .collect s log

/-- The plan for the words on the command line, given the content of every file that is a text. -/
def plan (platform : String) (file : String → Option String) (words : List String) : Plan :=
  match Invocation.ofWords words with
  | .misuse => .done .misuse
  | .help => .done (.success usage)
  | .run .version _ => .done (.success (version platform))
  | .run command options => match options.config with
    | none => .done (.failure ["--config is required (use --help for usage)"])
    | some path => match Settings.load path (file path) with
      | .error e => .done (.failure (("loading config from " ++ path) :: e.causes))
      | .ok s => planWith command options.logLevel s

/-- The first entry of every process. -/
def announce : Work Unit := Work.say [] ("starting " ++ LogEntry.program)

/-- The work of a process, how the program ends with it, and the entries that pass the filter. -/
def perform (log : LogFilter) (work : Work Unit) (m : Machine) : Exit × List LogEntry :=
  let (result, m) := (announce *> work).run.run m
  (match result with
    | .ok () => .success ""
    | .error fault => .failure fault.causes,
    m.log.filter log.accepts)

/-- Runs the program until a shutdown, which comes before the first cycle. -/
def run (platform : String) (words : List String) (shutdown : Shutdown) (m : Machine) :
    Exit × List LogEntry :=
  let text (path : String) : Option String := (m.files path).bind Text.decode?
  match plan platform text words with
  | .done exit => (exit, [])
  | .collect s log => perform log (Collecting.run 0 shutdown s) m
  | .aggregate s log => perform log (Aggregating.run shutdown s) m

end Program

end Chargeback
