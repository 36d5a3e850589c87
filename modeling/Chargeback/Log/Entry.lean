/-!
# Log entries

A running process writes about what it does. Every entry has a level and names the part of the
program that wrote it, as a path of names with two colons between them.
-/

namespace Chargeback

/-- How important an entry is, the most important first. -/
inductive LogLevel where
  | error
  | warn
  | info
  | debug
  | trace
  deriving DecidableEq, Repr

namespace LogLevel

/-- All levels, the most important first. -/
def all : List LogLevel := [.error, .warn, .info, .debug, .trace]

/-- The word for the level. -/
def name : LogLevel → String
  | .error => "error"
  | .warn => "warn"
  | .info => "info"
  | .debug => "debug"
  | .trace => "trace"

/-- The place of the level among all, counted from one. -/
def rank (l : LogLevel) : Nat := all.findIdx (· == l) + 1

end LogLevel

/-- Something that a process wrote about itself. -/
structure LogEntry where
  level : LogLevel
  /-- The part of the program that wrote it. -/
  part : String
  text : String
  deriving DecidableEq, Repr

namespace LogEntry

/-- The name that the path of every part begins with. -/
def program : String := "costmeter"

/-- An entry about the ordinary course of things, by a part named by its path within the
program. -/
def info (path : List String) (text : String) : LogEntry :=
  ⟨.info, "::".intercalate (program :: path), text⟩

end LogEntry

end Chargeback
