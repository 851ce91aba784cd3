import SuggestBridge.Answer.Command
import SuggestBridge.Answer.Rows
import SuggestBridge.Decimal.Seconds
import SuggestBridge.Failure
import SuggestBridge.Path.Project

/-!
# Clients

A client turns a question about a place in a file into a call of a daemon and the answer into rows.
It is a value: a request says step by step what it needs next (a session, a call, the end of a
session), and whoever carries it out hands back what came of it.

No failure of a daemon leaves a request. The daemon's session is closed, so that the next request
starts a fresh one, and the request ends with no rows. Two cases close nothing: arguments that
cannot be sent, and an answer that took too long.
-/

namespace SuggestBridge

/-- A client. -/
structure Client where
  /-- Whether there is a daemon to ask. -/
  available : Bool := true
  /-- The configured projects. -/
  projects : List Project := []
  /-- The files that the editor has open; nothing if they are not watched. -/
  openDocuments : Option (List Text) := none
  /-- The time that a request waits for an answer, unless it says otherwise. -/
  callTimeout : Option Seconds := none
  /-- Whether calls and answers are logged. -/
  trace : Bool := false
  cwd : Text

/-- A question about a place in a file. -/
structure Query where
  command : Command
  file : Text
  line : Int := 0
  column : Int := 0
  /-- The file that holds the unsaved contents. -/
  dirtyFile : Option Text := none
  timeout : Option Seconds := none

/-- A session as a client sees it. -/
structure SessionRef where
  /-- The number under which it is kept. -/
  handle : Nat
  pid : Nat
  key : Text

/-- The text that a daemon answers when it has lost its own connection. -/
def lostConnection : Text := "EPC Connection closed"

namespace Query

/-- Suffixes of files that daemons cannot analyse. -/
def ignoredSuffixes : List Text := [".nims", ".cfg"]

/-- Whether no daemon is asked about the file. -/
def isIgnored (q : Query) : Bool :=
  ignoredSuffixes.contains (Path.ofText q.file).suffix.toAsciiLower

/-- Replaces every run of backslashes by one slash. The flag tells whether a backslash stands right
before. -/
def slashed (afterBackslash : Bool) : Text → Text
  | [] => []
  | c :: r =>
    if c = '\\' then
      if afterBackslash then slashed true r else CodePoint.ofChar '/' :: slashed true r
    else c :: slashed false r

/-- The file as it is sent. -/
def sentFile (q : Query) : Text := slashed false q.file

/-- The arguments of the call. -/
def arguments (q : Query) : List Sexp :=
  [.string q.sentFile, .int q.line, .int q.column, .string (q.dirtyFile.getD [])]

/-- The place that the question is about, as it is logged. -/
def place (q : Query) : Except DigitLimit Text := do
  let line ← Integer.write q.line
  let column ← Integer.write q.column
  pure (q.sentFile ++ ":" ++ line ++ ":" ++ column)

end Query

namespace Client

/-- The project that a file belongs to. -/
def resolve (c : Client) (file : Text) : Project := Project.resolve c.cwd c.projects file

/-- Where a request waits. -/
inductive Stage where
  | opening
  | calling (session : SessionRef)
  /-- A session ends; then the request ends with these rows. -/
  | closing (rows : List Row)

/-- A request under way. -/
structure Request where
  client : Client
  query : Query
  project : Project
  stage : Stage

/-- What a request needs. -/
inductive Need where
  | session (project : Project)
  | call (session : SessionRef) (method : Text) (args : List Sexp) (timeout : Option Seconds)
  | close (key : Text)

/-- What came of a call. -/
inductive Reply where
  | value (v : Sexp)
  | failure (e : Failure)
  | expired

/-- What a request does next. -/
inductive Next where
  | needs (r : Request) (n : Need)
  | ends (result : Except Failure (List Row))

namespace Request

/-- The time that the request waits for an answer. -/
def timeout (r : Request) : Option Seconds := r.query.timeout.or r.client.callTimeout

/-- The name of the project's daemon. -/
def key (r : Request) : Text := r.project.key r.client.cwd

/-- The command and the file, as they are logged. -/
def subject (r : Request) : Text := r.query.command.word ++ " " ++ r.query.sentFile

/-- Closes the project's session and ends with some rows. -/
def close (r : Request) (rows : List Row) : Next :=
  .needs { r with stage := .closing rows } (.close r.key)

/-- Ends a request whose session or call failed. -/
def fail (r : Request) (e : Failure) : Next × List LogLine :=
  let command := r.query.command.word
  match e with
  | .unencodable m =>
    (.ends (.ok []),
      [Log.warning ("nimsuggest " ++ command ++ " not sent for " ++
        Text.quoted r.query.sentFile ++ ": " ++ m)])
  | e =>
    (r.close [],
      [Log.warning ("nimsuggest " ++ command ++ " failed for " ++ r.query.sentFile ++ ": " ++
        e.message)])

/-- A line of the trace, if the client keeps one. -/
def traced (r : Request) (session : SessionRef) (message : Text) : List LogLine :=
  if r.client.trace then
    [Log.debug ("[" ++ Text.ofNat session.pid ++ ":" ++ session.key ++ "] " ++ message)]
  else []

/-- Begins a request. -/
def begin (c : Client) (q : Query) : Next :=
  if !c.available || q.isIgnored then .ends (.ok [])
  else
    let project := c.resolve q.file
    .needs ⟨c, q, project, .opening⟩ (.session project)

/-- Goes on with a session, or without one. -/
def onSession (r : Request) (session : Except Failure SessionRef) : Next × List LogLine :=
  match session with
  | .error e => r.fail e
  | .ok s =>
    match r.query.place with
    | .error e => r.fail (.digits e)
    | .ok place =>
      (.needs { r with stage := .calling s }
          (.call s r.query.command.word r.query.arguments r.timeout),
        r.traced s (r.query.command.word ++ " " ++ place))

/-- Ends a request with the rows of its answer. The session is closed as well if files are watched,
no projects are configured, and the file is not open. -/
def release (r : Request) (rows : List Row) : Next × List LogLine :=
  match r.client.projects, r.client.openDocuments with
  | [], some documents =>
    let target := Path.normalize r.client.cwd r.query.file
    if documents.any fun d => Path.normalize r.client.cwd d == target then (.ends (.ok rows), [])
    else
      (r.close rows,
        [Log.debug ("Closing nimsuggest for " ++ r.key ++ ": file no longer open")])
  | _, _ => (.ends (.ok rows), [])

/-- Takes an answer for rows. -/
def decoded (r : Request) (v : Sexp) : Next × List LogLine :=
  match Row.ofAnswer v with
  | (.error e, log) => (.ends (.error (.digits e)), log)
  | (.ok rows, log) =>
    let (next, more) := r.release rows
    (next, log ++ more)

/-- Goes on with an answer. -/
def onAnswer (r : Request) (session : SessionRef) (v : Sexp) : Next × List LogLine :=
  match v.shown with
  | .error e => r.fail (.digits e)
  | .ok shown =>
    let trace := r.traced session (r.subject ++ " = " ++ shown)
    let (next, log) :=
      match v with
      | .string t =>
        if t = lostConnection then
          (r.close [],
            [Log.error ("nimsuggest for " ++ r.key ++ " lost its EPC connection")])
        else r.decoded v
      | v => r.decoded v
    (next, trace ++ log)

/-- Ends a request whose answer took too long. -/
def onExpiry (r : Request) (timeout : Seconds) : Next × List LogLine :=
  (.ends (.ok []),
    [Log.debug ("nimsuggest " ++ r.query.command.word ++ " for " ++ r.query.sentFile ++
      " timed out after " ++ timeout.text ++ "s; answer abandoned")])

/-- Whether a failure says that time was over. -/
def isTimeout : Failure → Bool
  | .fault f => f.kind = .timeout
  | _ => false

/-- Goes on with what came of a call. -/
def onReply (r : Request) (session : SessionRef) (reply : Reply) : Next × List LogLine :=
  match reply, r.timeout with
  | .value v, _ => r.onAnswer session v
  | .expired, some t => r.onExpiry t
  | .expired, none => r.fail (.fault ⟨.timeout, []⟩)
  | .failure e, some t => if isTimeout e then r.onExpiry t else r.fail e
  | .failure e, none => r.fail e

/-- Goes on when a session has ended. -/
def onClosed (rows : List Row) (closed : Except Failure Unit) : Next :=
  .ends (closed.map fun _ => rows)

end Request

/-- Whether the rows of the command that asks for it say that the file is known. -/
def saysKnown (rows : List Row) : Bool :=
  match rows with
  | r :: _ => r.symbolKind == Text.ofString "true"
  | [] => false

end Client

end SuggestBridge
