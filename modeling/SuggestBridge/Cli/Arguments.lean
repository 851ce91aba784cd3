import SuggestBridge.Answer.Command
import SuggestBridge.Path.Basic

/-!
# Arguments of the command line

A command is a word followed by options and positional arguments in any order. An option has a long
name, perhaps a short one, and perhaps a value, which follows it as the next argument, behind an
equals sign, or right behind the short name. Short options without a value can be written together.
Two dashes end the options. A request for help wins over all other faults, except over options that
cannot be read.
-/

namespace SuggestBridge.Cli

/-- What is asked for on the command line. -/
inductive Invocation where
  | help
  | query (command : Command) (file : Path) (line column : Int) (dirty : Option Path)
      (asJson : Bool) (config : Option Path) (verbose : Bool)
  | known (file : Path) (config : Option Path) (verbose : Bool)
  | config (action : Option Text) (path : Option Path)
  | info (config : Option Path)

/-- Why a command line cannot be read. -/
inductive UsageError where
  | nothingGiven
  | unknownCommand (name : Text)
  | unknownOption (name : Text)
  | missingValue (option : Text)
  | unexpectedValue (option : Text)
  | missingArgument
  | extraArgument (value : Text)
  | unusableArgument (value : Text)
  deriving DecidableEq

/-- The options of all commands. -/
inductive Switch where
  | help
  | config
  | verbose
  | dirty
  | json
  | path
  deriving DecidableEq

namespace Switch

/-- The long name of an option, without its dashes. -/
def long : Switch → Text
  | help => "help"
  | config => "config"
  | verbose => "verbose"
  | dirty => "dirty"
  | json => "json"
  | path => "path"

/-- The letter of an option. -/
def short? : Switch → Option CodePoint
  | config => some 'c'
  | verbose => some 'v'
  | dirty => some 'd'
  | path => some 'p'
  | _ => none

/-- Whether an option has a value. -/
def takesValue : Switch → Bool
  | config => true
  | dirty => true
  | path => true
  | _ => false

end Switch

/-- What stands behind a command: options with their values, and the other arguments. -/
structure Given where
  switches : List (Switch × Text) := []
  positional : List Text := []

namespace Given

/-- Adds an option in front. -/
def withSwitch (g : Given) (s : Switch) (value : Text) : Given :=
  { g with switches := (s, value) :: g.switches }

/-- Whether an option is given. -/
def has (g : Given) (s : Switch) : Bool := g.switches.any fun x => x.1 = s

/-- The value of an option; of several ones the last. -/
def value? (g : Given) (s : Switch) : Option Text :=
  (g.switches.reverse.find? fun x => x.1 = s).map Prod.snd

/-- The value of an option as a path. -/
def path? (g : Given) (s : Switch) : Option Path := (g.value? s).map Path.ofText

end Given

/-- An argument that was read as options: those that are complete, and perhaps one whose value is
the next argument. -/
structure OptionRead where
  complete : List (Switch × Text)
  open? : Option Switch := none

/-- Whether an argument is read as an option. -/
def isOption (argument : Text) : Bool := argument.head? = some '-' && 1 < argument.length

/-- Reads a long option. -/
def longOption (allowed : List Switch) (argument : Text) : Option (Except UsageError OptionRead) :=
  let body := argument.drop 2
  let name := body.takeWhile (· ≠ CodePoint.ofChar '=')
  let value := body.drop name.length
  if !Text.startsWith argument "--" then none
  else
    (allowed.find? fun s => s.long = name).map fun s =>
      match s.takesValue, value with
      | true, [] => .ok ⟨[], some s⟩
      | true, _ :: value => .ok ⟨[(s, value)], none⟩
      | false, [] => .ok ⟨[(s, [])], none⟩
      | false, _ :: _ => .error (.unexpectedValue name)

/-- Reads short options that are written together. What follows an option with a value is its
value. -/
def shortOptions (allowed : List Switch) : Text → Except UsageError OptionRead
  | [] => .ok ⟨[], none⟩
  | c :: r =>
    match allowed.find? fun s => s.short? = some c with
    | none => .error (.unknownOption [c])
    | some s =>
      if s.takesValue then .ok (if r.isEmpty then ⟨[], some s⟩ else ⟨[(s, r)], none⟩)
      else (shortOptions allowed r).map fun o => { o with complete := (s, []) :: o.complete }

/-- Reads an argument that looks like an option. -/
def option (allowed : List Switch) (argument : Text) : Except UsageError OptionRead :=
  match longOption allowed argument with
  | some result => result
  | none =>
    if Text.startsWith argument "--" then .error (.unknownOption argument)
    else shortOptions allowed (argument.drop 1)

/-- Reads what stands behind a command. -/
def given (allowed : List Switch) : List Text → Except UsageError Given
  | [] => .ok {}
  | argument :: rest =>
    if argument = Text.ofString "--" then .ok { positional := rest }
    else if !isOption argument then
      (given allowed rest).map fun g => { g with positional := argument :: g.positional }
    else
      match option allowed argument with
      | .error e => .error e
      | .ok ⟨complete, none⟩ =>
        (given allowed rest).map fun g => { g with switches := complete ++ g.switches }
      | .ok ⟨complete, some s⟩ =>
        match rest with
        | [] => .error (.missingValue s.long)
        | value :: rest =>
          (given allowed rest).map fun g =>
            { g with switches := complete ++ (s, value) :: g.switches }

/-- Reads an integer; one that is left out has a default. -/
def integer (value : Option Text) (default : Int) : Except UsageError Int :=
  match value with
  | none => .ok default
  | some t =>
    match Integer.read? t with
    | some n => .ok n
    | none => .error (.unusableArgument t)

/-- Refuses arguments beyond a number of positional ones. -/
def atMost (n : Nat) (g : Given) : Except UsageError Unit :=
  match g.positional.drop n with
  | [] => .ok ()
  | extra :: _ => .error (.extraArgument extra)

/-- Reads the arguments of a query. -/
def query (g : Given) : Except UsageError Invocation := do
  match g.positional with
  | word :: file :: _ =>
    let command ← match Command.ofWord? word with
      | some c => pure c
      | none => .error (.unusableArgument word)
    let line ← integer g.positional[2]? 1
    let column ← integer g.positional[3]? 0
    atMost 4 g
    pure (.query command (Path.ofText file) line column (g.path? .dirty) (g.has .json)
      (g.path? .config) (g.has .verbose))
  | _ => .error .missingArgument

/-- Reads the arguments of a question whether a file is known. -/
def known (g : Given) : Except UsageError Invocation := do
  match g.positional with
  | file :: _ =>
    atMost 1 g
    pure (.known (Path.ofText file) (g.path? .config) (g.has .verbose))
  | [] => .error .missingArgument

/-- Reads the arguments of a command on the configuration. -/
def config (g : Given) : Except UsageError Invocation := do
  atMost 1 g
  pure (.config g.positional.head? (g.path? .path))

/-- Reads the arguments of a report on the environment. -/
def info (g : Given) : Except UsageError Invocation := do
  atMost 0 g
  pure (.info (g.path? .config))

/-- The commands: their words, their options besides the one for help, and how they are read. -/
def commands : List (Text × List Switch × (Given → Except UsageError Invocation)) :=
  [("query", [.dirty, .json, .config, .verbose], query), ("known", [.config, .verbose], known),
    ("info", [.config], info), ("config", [.path], config)]

/-- Reads a command and what stands behind it. -/
def command (name : Text) (arguments : List Text) : Except UsageError Invocation :=
  match commands.find? fun c => c.1 = name with
  | none => .error (.unknownCommand name)
  | some (_, switches, read) =>
    match given (.help :: switches) arguments with
    | .error e => .error e
    | .ok g => if g.has .help then .ok .help else read g

/-- Reads what stands before and behind the command. Before it only a request for help can stand. -/
def beforeCommand (helpAsked : Bool) : List Text → Except UsageError Invocation
  | [] => if helpAsked then .ok .help else .error .missingArgument
  | argument :: rest =>
    if isOption argument && argument ≠ Text.ofString "--" then
      match option [.help] argument with
      | .error e => .error e
      | .ok _ => beforeCommand true rest
    else if helpAsked then .ok .help
    else if argument = Text.ofString "--" then
      match rest with
      | [] => .error .missingArgument
      | name :: rest => command name rest
    else command argument rest

/-- Reads a command line. -/
def read (arguments : List Text) : Except UsageError Invocation :=
  if arguments.isEmpty then .error .nothingGiven else beforeCommand false arguments

end SuggestBridge.Cli
