import SuggestBridge.Answer.Document
import SuggestBridge.Cli.Arguments
import SuggestBridge.Cli.Console
import SuggestBridge.Config.Daemons
import SuggestBridge.Config.Load
import SuggestBridge.Log.Setup
import SuggestBridge.Supervisor.Run
import SuggestBridge.Tool.Executable

/-!
# The commands of the command line

A command runs in a world: an environment, a file tree, the daemons that can be started, and what a
tool says when it is asked for its version. It leaves a transcript and ends with an exit code, or
with a fault that nothing catches.
-/

namespace SuggestBridge.Cli

/-- The world of a command. -/
structure World where
  env : Environment
  tree : FileTree
  scripts : List Daemon.Script := []
  probe : Tool.ProbeResult := .finished [] []

/-- A fault that ends a command. -/
inductive Crash where
  | load (e : Config.LoadError)
  | logging (e : Log.SetupError)
  | home (e : Environment.HomeError)
  | digits (e : DigitLimit)
  | failure (e : Failure)
  | cancelled

/-- The wording of a fault. -/
def Crash.message : Crash → Text
  | .load e => e.message
  | .logging e => e.message
  | .home e => e.message
  | .digits e => e.message
  | .failure e => e.message
  | .cancelled => []

/-- How a command ends. -/
inductive Ending where
  | exit (code : Nat)
  | crash (c : Crash)

/-- The exit code of a command. -/
def Ending.code : Ending → Nat
  | .exit code => code
  | .crash _ => 1

/-- What a command did. -/
structure Transcript where
  printed : List Item := []
  /-- Plain lines. -/
  lines : List Text := []
  /-- The command lines that asked for a version. -/
  probes : List (List Text) := []
  /-- What happened to processes and connections. -/
  events : List Text := []
  ending : Ending := .exit 0

namespace Transcript

/-- A command that shows something and ends. -/
def showing (items : List Item) (code : Nat) : Transcript :=
  { printed := items, ending := .exit code }

/-- A command that a fault ends. -/
def crashed (c : Crash) : Transcript := { ending := .crash c }

end Transcript

/-- A part of a command, which may end it. -/
abbrev Part (α : Type) := Except Transcript α

/-- Takes what a fault may prevent. -/
def orCrash {ε α : Type} (crash : ε → Crash) : Except ε α → Except Transcript α
  | .ok a => .ok a
  | .error e => .error (.crashed (crash e))

/-! ## Configuration -/

/-- The line for an issue of a configuration. -/
def issueLine (i : Config.Issue) : Item :=
  .line ("  " ++ styled "yellow" i.location ++ ": " ++ i.problem.message)

/-- What is shown for a configuration that cannot be loaded. Faults that no user can mend by a look
at the file are not shown but end the command. -/
def loadFailure (e : Config.LoadError) : Transcript :=
  match e with
  | .missing _ => .showing [.error e.message] 1
  | .malformed _ => .showing [.error e.message] 1
  | .invalid issues => .showing (.error e.message :: issues.map issueLine) 1
  | e => .crashed (.load e)

/-- Loads the configuration. -/
def loadConfig (w : World) (path : Option Path) : Except Transcript Config :=
  match Config.load w.env w.tree path with
  | .ok c => .ok c
  | .error e => .error (loadFailure e)

/-- A number of seconds in a table. -/
def secondsText (x : Float) : Text := Decimal.compactText x ++ "s"

/-- A row of a table: a setting and its value. -/
def row (setting value : Text) : List Text := [setting, value]

/-- The rows of a table for the projects. -/
def projectRows (c : Config) : List (List Text) :=
  if c.projects.isEmpty then [row "Projects" (styled "dim" "one daemon per file")]
  else c.projects.map fun p => row "Project" p.toText

/-- A valid configuration as a table. -/
def configTable (c : Config) : Table :=
  let executable : Text := match c.suggest.executable with
    | none => styled "dim" "discover from PATH"
    | some [] => styled "dim" "discover from PATH"
    | some words => Text.join " " words
  let idle : Text :=
    if c.suggest.idleTimeout == 0.0 then "disabled" else secondsText c.suggest.idleTimeout
  let call : Text := match c.suggest.callTimeout with
    | none => "none"
    | some x => secondsText x
  { title := "Configuration Summary"
    columns := ["Setting", "Value"]
    rows := row "nimsuggest" executable :: projectRows c ++
      [row "Idle timeout" idle, row "Call timeout" call,
        row "Log level" c.logging.level.name] }

/-- Joins the two code points of a line end, and takes a lone carriage return for one. -/
def normalLineEnds (t : Text) : Text :=
  Text.replace (Text.replace t "\r\n" "\n") "\r" "\n"

/-- Shows a configuration file as it stands. -/
def showConfig (w : World) (p : Path) : Transcript :=
  let crash (e : Config.LoadError) : Transcript := .crashed (.load e)
  match w.tree.find? w.env.cwd p.toText with
  | some (.file content _) =>
    match Utf8.decodeStrictly content with
    | .ok t =>
      .showing [.line (styled "bold" ("Config file: " ++ p.toText) ++ "\n"),
        .source (normalLineEnds t)] 0
    | .error e => crash (.undecodable e)
  | some _ => crash (.directory p)
  | none => crash (.missing p)

/-- Checks a configuration file. -/
def validateConfig (w : World) (p : Path) : Transcript :=
  match loadConfig w (some p) with
  | .error t => t
  | .ok c =>
    .showing [.success "Configuration is valid!", .line "", .table (configTable c)] 0

/-- Carries out a command on the configuration file. -/
def runConfig (w : World) (action : Text) (path : Option Path) : Transcript :=
  let file := match path with
    | some p => w.env.expand p
    | none => (Locations.find w.env w.tree).map Locations.config
  match file with
  | .error e => .crashed (.home e)
  | .ok p =>
    let missing := Transcript.showing [.error (Config.LoadError.missing p).message] 1
    let found := w.tree.pathExists w.env.cwd p.toText
    if action = Text.ofString "show" then (if found then showConfig w p else missing)
    else if action = Text.ofString "validate" then (if found then validateConfig w p else missing)
    else
      .showing [.error ("Unknown action: " ++ action), .line "Valid actions: show, validate"] 1

/-! ## Report -/

/-- The name of a place with a capital letter. -/
def capitalized (t : Text) : Text :=
  match t with
  | [] => []
  | c :: r => c.toAsciiUpper :: r

/-- The rows of the report for the executable. -/
def executableRows (w : World) (command : Option (List Text)) : List (List Text) :=
  match command with
  | none => [row "nimsuggest" (styled "red" "not found")]
  | some c =>
    let version := match (Tool.detectVersion c w.probe).1 with
      | some v => if v.isEmpty then styled "yellow" "unknown" else v
      | none => styled "yellow" "unknown"
    [row "nimsuggest" (Text.join " " c), row "Version" version]

/-- Reports on the executable, the projects and the places of all state. -/
def runInfo (w : World) (config : Option Path) : Transcript :=
  match loadConfig w config with
  | .error t => t
  | .ok c =>
    let command := (Tool.find w.env w.tree (c.suggest.executable.getD [])).1
    let probes := (command.map Tool.probeCommand).toList
    let projects := c.projectFiles w.env.cwd
    let mode : List (List Text) :=
      if projects.isEmpty then [row "Mode" "one daemon per file"]
      else projects.map fun p => row "Project" p.path.toText
    match Locations.find w.env w.tree with
    | .error e => { probes, ending := .crash (.home e) }
    | .ok l =>
      let places := l.all.map fun x => row (capitalized x.1) x.2.toText
      let table : Table :=
        { title := "nimlink"
          columns := ["Setting", "Value"]
          rows := executableRows w command ++ mode ++ places }
      let warnings : List Item :=
        if command.isNone then
          [.warning "Language features need nimsuggest on PATH or in the config"]
        else []
      { printed := .table table :: warnings, probes }

/-! ## Questions -/

/-- A client that is ready to ask, with the settings of its supervisor. -/
structure Ready where
  client : Client
  settings : Supervisor.Settings

/-- What is shown where no daemon can be found. -/
def notFound : Transcript :=
  .showing [.error "nimsuggest not found",
    .dim ("Install Nim, put nimsuggest on PATH, or set NIMLINK_NIMSUGGEST " ++
      "or suggest.executable in the config file")] 1

/-- Loads the configuration, sets up the log and finds the daemon. -/
def prepare (w : World) (config : Option Path) (verbose : Bool) : Except Transcript Ready := do
  let c ← loadConfig w config
  let options : Log.Options :=
    { level := some (if verbose then Level.debug.name else c.logging.level.name)
      decorated := true
      toFiles := c.logging.file }
  let _ ← orCrash .logging (Log.configure w.env w.tree options)
  match (Tool.find w.env w.tree (c.suggest.executable.getD [])).1 with
  | none => .error notFound
  | some command => .ok ⟨c.client w.env.cwd true, c.suggest.settings command⟩

/-- The place of a file, its home directory expanded. -/
def absoluteFile (w : World) (p : Path) : Except Transcript Text :=
  orCrash .home ((Config.Check.absolutePath w.env p).map Path.toText)

/-- Asks a question and ends the supervisor. Gives what happened meanwhile, and the rows. -/
def ask (w : World) (r : Ready) (q : Query) : List Text × Except Crash (List Row) :=
  let s : Supervisor := { settings := r.settings, cwd := w.env.cwd, scripts := w.scripts }
  let (s, task) := s.perform (.errand r.client q)
  let result : Except Crash (List Row) :=
    match s.kernel.outcome? task with
    | some (.value (.rows rows)) => .ok rows
    | some (.value _) => .ok []
    | some (.failure e) => .error (.failure e)
    | some .cancelled => .error .cancelled
    | none => .error .cancelled
  (s.events, result)

/-- Rows as a table. -/
def rowsTable (command : Command) (rows : List Row) : Except DigitLimit Table := do
  let cells ← rows.mapM fun r =>
    r.location.map fun location => [r.symbolKind, r.fullName, r.signature, location]
  pure
    { title := "nimsuggest " ++ command.word
      columns := ["Kind", "Name", "Type", "Location"]
      rows := cells }

/-- Shows rows as a table. -/
def showRows (command : Command) (rows : List Row) : Transcript :=
  if rows.isEmpty then .showing [.dim "No results"] 0
  else
    match rowsTable command rows with
    | .ok t => .showing [.table t] 0
    | .error e => .crashed (.digits e)

/-- Writes rows as lines, up to the first one that cannot be written. -/
def writeRows : List Row → Transcript
  | [] => {}
  | r :: rs =>
    match r.line? with
    | .error e => .crashed (.digits e)
    | .ok line =>
      let t := writeRows rs
      { t with lines := line :: t.lines }

/-- Asks a question about a place in a file. -/
def runQuery (w : World) (command : Command) (file : Path) (line column : Int)
    (dirty : Option Path) (asJson : Bool) (config : Option Path) (verbose : Bool) : Transcript :=
  let result : Except Transcript Transcript := do
    let r ← prepare w config verbose
    let file ← absoluteFile w file
    let dirtyFile ← dirty.mapM (absoluteFile w)
    let query : Query := { command := command, file, line, column, dirtyFile }
    match ask w r query with
    | (events, .error c) => pure { events, ending := .crash c }
    | (events, .ok rows) =>
      pure { (if asJson then writeRows rows else showRows command rows) with events }
  match result with
  | .ok t => t
  | .error t => t

/-- Asks whether a file belongs to its project. -/
def runKnown (w : World) (file : Path) (config : Option Path) (verbose : Bool) : Transcript :=
  let result : Except Transcript Transcript := do
    let r ← prepare w config verbose
    let place ← absoluteFile w file
    match ask w r { command := .known, file := place } with
    | (events, .error c) => pure { events, ending := .crash c }
    | (events, .ok rows) =>
      if Client.saysKnown rows then
        pure
          { Transcript.showing [.line (styled "green" file.toText ++ " is known")] 0 with events }
      else
        pure { Transcript.showing [.line (styled "yellow" file.toText ++ " is not known")] 1 with
          events }
  match result with
  | .ok t => t
  | .error t => t

/-! ## All commands -/

/-- The exit code for a command line that cannot be read. -/
def usageCode : Nat := 2

/-- Runs a command line. -/
def run (w : World) (arguments : List Text) : Transcript :=
  match read arguments with
  | .error _ => { ending := .exit usageCode }
  | .ok .help => {}
  | .ok (.query command file line column dirty asJson config verbose) =>
    runQuery w command file line column dirty asJson config verbose
  | .ok (.known file config verbose) => runKnown w file config verbose
  | .ok (.config none _) => {}
  | .ok (.config (some action) path) => runConfig w action path
  | .ok (.info config) => runInfo w config

end SuggestBridge.Cli
