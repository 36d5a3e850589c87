/-!
# Invocations

What the program is asked to do by the words after its name: a command, and two options that may
stand before the command or after it. An option may be given once on each side of the command;
given on both sides, the one after the command counts.
-/

namespace Chargeback

/-- What the program can be asked to do. -/
inductive Command where
  | collect
  | aggregate
  | checkConfig
  | version
  deriving DecidableEq, Repr

namespace Command

/-- All commands. -/
def all : List Command := [.collect, .aggregate, .checkConfig, .version]

/-- The word for the command. -/
def name : Command → String
  | .collect => "collect"
  | .aggregate => "aggregate"
  | .checkConfig => "check-config"
  | .version => "version"

/-- The command that a word stands for. -/
def ofName? (word : String) : Option Command := all.find? (·.name == word)

end Command

/-- An option that takes a value. -/
inductive CommandOption where
  | config
  | logLevel
  deriving DecidableEq, Repr

namespace CommandOption

/-- The long name. -/
def name : CommandOption → String
  | .config => "config"
  | .logLevel => "log-level"

/-- The option of a long name. -/
def ofName? (word : String) : Option CommandOption :=
  [CommandOption.config, .logLevel].find? (·.name == word)

/-- The value can be used: the name of a file is not empty. -/
def takes (value : String) : CommandOption → Bool
  | .config => !value.isEmpty
  | .logLevel => true

end CommandOption

/-- The values of the options. -/
structure OptionValues where
  config : Option String := none
  logLevel : Option String := none
  deriving DecidableEq, Repr, Inhabited

namespace OptionValues

/-- Gives a value to an option that has none and can take it. -/
def set? (o : CommandOption) (value : String) (v : OptionValues) : Option OptionValues :=
  if !o.takes value then none
  else match o with
    | .config => if v.config.isSome then none else some { v with config := some value }
    | .logLevel => if v.logLevel.isSome then none else some { v with logLevel := some value }

/-- The values after the command, and where there are none those before it. -/
def orElse (after before : OptionValues) : OptionValues :=
  { config := after.config <|> before.config, logLevel := after.logLevel <|> before.logLevel }

end OptionValues

/-- What the program is asked to do. -/
inductive Invocation where
  | run (command : Command) (options : OptionValues)
  | help
  /-- The words cannot be understood. -/
  | misuse
  deriving DecidableEq, Repr

namespace Invocation

/-- A word as far as its form tells what it is. -/
inductive Word where
  /-- An option with its value. -/
  | valued (o : CommandOption) (value : String)
  /-- An option whose value is the next word. -/
  | awaiting (o : CommandOption)
  | help
  /-- The end of all options. -/
  | separator
  /-- A word that is no option. -/
  | plain (word : String)
  /-- An option that does not exist. -/
  | unknown
  deriving DecidableEq, Repr

/-- A word that begins with two hyphens. -/
def longWord (s : List Char) : Word :=
  let name := String.ofList (s.takeWhile (· != '='))
  match CommandOption.ofName? name, s.dropWhile (· != '=') with
  | some o, [] => .awaiting o
  | some o, _ :: value => .valued o (String.ofList value)
  | none, [] => if s.isEmpty then .separator else if name == "help" then .help else .unknown
  | none, _ => .unknown

/-- A word that begins with one hyphen. -/
def shortWord : List Char → Word
  | [] => .plain "-"
  | 'h' :: _ => .help
  | ['c'] => .awaiting .config
  | 'c' :: '=' :: value => .valued .config (String.ofList value)
  | 'c' :: value => .valued .config (String.ofList value)
  | _ => .unknown

/-- The form of a word. -/
def word (s : String) : Word :=
  match s.toList with
  | '-' :: '-' :: r => longWord r
  | '-' :: r => shortWord r
  | _ => .plain s

/-- The word may be the value of the option before it. -/
def isValue (s : String) : Bool :=
  match word s with
  | .plain _ => true
  | _ => false

/-- Asking for help on a command. -/
def ofHelpWords (words : List String) : Invocation :=
  match words with
  | [] => .help
  | [w] => if w == "help" || (Command.ofName? w).isSome then .help else .misuse
  | _ => .misuse

/-- Reads words, after a command if there was one, with the options before the command and those
read since. -/
def read (command : Option Command) (before since : OptionValues) : List String → Invocation
  | [] => .run (command.getD .collect) (since.orElse before)
  | w :: rest => match word w with
    | .valued o value => match since.set? o value with
      | some since => read command before since rest
      | none => .misuse
    | .awaiting o => match rest with
      | value :: rest =>
        if !isValue value then .misuse
        else match since.set? o value with
          | some since => read command before since rest
          | none => .misuse
      | [] => .misuse
    | .help => .help
    | .separator => if rest.isEmpty then .run (command.getD .collect) (since.orElse before)
      else .misuse
    | .plain w =>
      if command.isSome then .misuse
      else if w == "help" then ofHelpWords rest
      else match Command.ofName? w with
        | some c => read (some c) since {} rest
        | none => .misuse
    | .unknown => .misuse

/-- What the words ask for. -/
def ofWords (words : List String) : Invocation := read none {} {} words

end Invocation

end Chargeback
