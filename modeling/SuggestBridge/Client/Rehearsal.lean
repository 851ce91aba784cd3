import SuggestBridge.Client.Basic

/-!
# Rehearsals

A client before a single session whose behaviour is laid down beforehand, one cue per request:
whether the session can be had, how long the call takes, and what comes of it. A rehearsal keeps
account of what the client asked for and of the time that passed.
-/

namespace SuggestBridge.Client

/-- How the session behaves during one request. -/
structure Cue where
  /-- There is no session, for this reason. -/
  sessionError : Option Failure := none
  /-- The seconds until the call ends. -/
  delay : Float := 0
  /-- The call fails. -/
  callError : Option Failure := none
  answer : Sexp := .nil

/-- What a request did. -/
structure Account where
  /-- The keys of the projects for which a session was asked. -/
  requested : List Text := []
  /-- The keys of the projects whose session was closed. -/
  closed : List Text := []
  /-- The calls that reached the session. -/
  calls : List (Text × List Sexp) := []
  /-- The seconds that passed. -/
  waited : Float := 0
  log : List LogLine := []

/-- The session of a rehearsal. -/
def rehearsedSession : SessionRef := ⟨0, 4242, "stub"⟩

/-- What came of a rehearsed call. -/
structure CallOutcome where
  reply : Reply
  /-- Whether the session saw the call. -/
  reached : Bool
  /-- How long the call took. -/
  seconds : Float

/-- What comes of a call under a cue, whether the call reached the session, and how long it took. A
call that ends at the very moment at which time is over comes too late. -/
def Cue.call (cue : Cue) (timeout : Option Seconds) : CallOutcome :=
  let finished : Reply := match cue.callError with
    | some e => .failure e
    | none => .value cue.answer
  match timeout.map Seconds.toFloat with
  | none => ⟨finished, true, cue.delay⟩
  | some t =>
    if t ≤ 0 then ⟨.expired, false, 0⟩
    else if 0 < cue.delay && t ≤ cue.delay then ⟨.expired, true, t⟩
    else ⟨finished, true, cue.delay⟩

/-- Gives a request what it needs, until it ends. The number bounds the needs. -/
def Cue.serve (cue : Cue) : Nat → Next → Account → Except Failure (List Row) × Account
  | 0, _, a => (.ok [], a)
  | _, .ends result, a => (result, a)
  | fuel + 1, .needs r need, a =>
    match need with
    | .session project =>
      let a := { a with requested := a.requested ++ [project.key r.client.cwd] }
      let session := match cue.sessionError with
        | some e => .error e
        | none => .ok rehearsedSession
      let (next, log) := r.onSession session
      serve cue fuel next { a with log := a.log ++ log }
    | .call session method args timeout =>
      let o := cue.call timeout
      let a :=
        { a with
          calls := if o.reached then a.calls ++ [(method, args)] else a.calls
          waited := a.waited + o.seconds }
      let (next, log) := r.onReply session o.reply
      serve cue fuel next { a with log := a.log ++ log }
    | .close key =>
      let rows := match r.stage with
        | .closing rows => rows
        | _ => []
      serve cue fuel (Request.onClosed rows (.ok ())) { a with closed := a.closed ++ [key] }

/-- Carries out a request under a cue. A request has at most three needs. -/
def rehearse (c : Client) (q : Query) (cue : Cue) : Except Failure (List Row) × Account :=
  cue.serve 4 (Request.begin c q) {}

end SuggestBridge.Client
