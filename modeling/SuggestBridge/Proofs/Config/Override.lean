import SuggestBridge.Config.Load
import SuggestBridge.Proofs.Config.Stability
import Mathlib.Tactic

/-!
# The command that replaces the configured one

The command that starts a daemon can come from a variable or from the configuration itself, and both
are cut into words.  They agree wherever words come out (`SpelledAlike.words`).  They part at the two
ends: of blanks alone the variable makes a command without words and the configuration makes no
command, and what cannot be cut ends the loading as a fault of the variable but is an issue of the
configuration.

What the configuration says about the command plays no role once the variable is set, so the two are
compared on documents that agree in every other entry (`SetsCommand`).
-/

namespace SuggestBridge

/-! ## Entries of tables -/

namespace Raw.Table

lemma get?_cons (e : Text × Raw) (t : Table) (name : Text) :
    get? (e :: t) name = if e.1 = name then some e.2 else get? t name := by
  by_cases h : e.1 = name <;> simp [get?, h]

lemma get?_append (t u : Table) (name : Text) : get? (t ++ u) name = (get? t name).or (get? u name) := by
  induction t with
  | nil => rfl
  | cons e t ih =>
    rw [List.cons_append, get?_cons, get?_cons, ih]
    split <;> rfl

lemma get?_eq_none_iff {t : Table} {name : Text} :
    t.get? name = none ↔ (t.any fun e => e.1 == name) = false := by
  simp [get?]

lemma get?_replace (t : Table) (name other : Text) (v : Raw) :
    get? (t.map fun e => if e.1 == name then (name, v) else e) other =
      if name = other then (t.get? name).map fun _ => v else t.get? other := by
  induction t with
  | nil => split <;> rfl
  | cons e t ih =>
    rw [List.map_cons, get?_cons, get?_cons, get?_cons, ih]
    by_cases hname : e.1 = name <;> by_cases hother : name = other <;> grind

/-- A table finds what was set, and all else as before. -/
lemma get?_put (t : Table) (name other : Text) (v : Raw) :
    (t.put name v).get? other = if name = other then some v else t.get? other := by
  unfold put
  split
  · next hany =>
    obtain ⟨w, hw⟩ : ∃ w, t.get? name = some w := by
      rw [← Option.ne_none_iff_exists', Ne, get?_eq_none_iff, hany]
      exact Bool.noConfusion
    rw [get?_replace, hw]
    rfl
  · next hany =>
    have hnone : t.get? name = none := get?_eq_none_iff.2 (Bool.eq_false_iff.2 hany)
    rw [get?_append, get?_cons]
    by_cases h : name = other
    · subst h
      simp [hnone]
    · simp [h, get?]

end Raw.Table

/-- A way to run daemons with its command changed. -/
def DaemonConfig.changeCommand (f : Option (List Text) → Option (List Text)) (d : DaemonConfig) :
    DaemonConfig :=
  { d with executable := f d.executable }

/-- A configuration with its command changed. -/
def Config.changeCommand (f : Option (List Text) → Option (List Text)) (c : Config) : Config :=
  { c with suggest := c.suggest.changeCommand f }

/-- Two environments that differ in one variable at most. -/
structure Environment.AgreeBut (name : Text) (env env' : Environment) : Prop where
  cwd : env.cwd = env'.cwd
  settings : ∀ other ≠ name, env.get? other = env'.get? other

namespace Config

open Check

variable {env env' : Environment} {tree tree' : FileTree} {path path' : Option Path}
  {t u : Raw.Table} {line : Text}

/-! ## Documents -/

/-- The raw configuration that is loaded, the command not yet replaced. -/
def document (env : Environment) (tree : FileTree) (path : Option Path) :
    Except LoadError Raw.Table :=
  match locate env tree path with
  | .error e => .error e
  | .ok none => .ok []
  | .ok (some p) => readFile env tree p

lemma load_eq (env : Environment) (tree : FileTree) (path : Option Path) :
    load env tree path = (document env tree path).bind (finish env) := by
  unfold load document
  cases locate env tree path with
  | error e => rfl
  | ok found =>
    cases found with
    | none => rfl
    | some p => cases h : readFile env tree p <;> simp [Except.bind, h]

lemma load_of_document (h : document env tree path = .ok t) : load env tree path = finish env t := by
  rw [load_eq, h]
  rfl

/-- The section on daemons of a document; none if something else stands in its place. -/
def daemonSection? (t : Raw.Table) : Option Raw.Table :=
  match (t.get? "suggest").getD (.table []) with
  | .table inner => some inner
  | _ => none

/-- Two documents whose entries agree, the command apart. -/
structure AgreeButCommand (t u : Raw.Table) : Prop where
  others : ∀ name ≠ Text.ofString "suggest", t.get? name = u.get? name
  daemons : ∃ inner inner', daemonSection? t = some inner ∧ daemonSection? u = some inner' ∧
    ∀ name ≠ Text.ofString "executable", inner.get? name = inner'.get? name

/-- The second document is the first with its command set to a line. -/
structure SetsCommand (line : Text) (t u : Raw.Table) : Prop extends AgreeButCommand t u where
  command : ∃ inner : Raw.Table, u.get? "suggest" = some (.table inner) ∧
    inner.get? "executable" = some (.text line)

/-! ## What a check makes of its parts -/

/-- What a check reports. -/
def Checked.issues {α : Type} : Checked α → List Issue
  | .valid _ => []
  | .invalid issues => issues

section Parts

variable {α β γ : Type}

lemma Checked.issues_apply (f : Checked (α → β)) (x : Checked α) :
    (f.apply x).issues = f.issues ++ x.issues := by
  cases f <;> cases x <;> simp [apply, issues]

lemma Checked.issues_map (f : α → β) (x : Checked α) : (x.map f).issues = x.issues := by
  cases x <;> rfl

lemma Checked.map_apply (g : β → γ) (f : Checked (α → β)) (x : Checked α) :
    (f.apply x).map g = (f.map (g ∘ ·)).apply x := by
  cases f <;> cases x <;> rfl

lemma Checked.map_map (g : β → γ) (f : α → β) (x : Checked α) : (x.map f).map g = x.map (g ∘ f) := by
  cases x <;> rfl

lemma Checked.map_below (f : α → β) (name : Text) (x : Checked α) :
    (x.map f).below name = (x.below name).map f := by
  cases x <;> rfl

lemma Checked.eq_invalid_of_mem_issues {x : Checked α} {i : Issue} (h : i ∈ x.issues) :
    x = .invalid x.issues := by
  cases x with
  | valid a => exact absurd h List.not_mem_nil
  | invalid issues => rfl

end Parts

/-! ## The section on daemons -/

/-- The section on daemons with its command already checked. -/
def Check.daemonsWith (command : Checked (Option (List Text))) (t : Raw.Table) : Checked DaemonConfig :=
  let d : DaemonConfig := {}
  (((((((Checked.map DaemonConfig.mk command).apply
    (setting t "log" d.log truth)).apply
    (setting t "refresh_on_check" d.refreshOnCheck truth)).apply
    (setting t "trace" d.trace truth)).apply
    (setting t "idle_timeout" d.idleTimeout nonNegative)).apply
    (setting t "sweep_interval" d.sweepInterval positive)).apply
    (setting t "handshake_timeout" d.handshakeTimeout positive)).apply
    (setting t "call_timeout" d.callTimeout optionalPositive)

lemma daemons_eq (t : Raw.Table) :
    daemons (.table t) = daemonsWith (entry t "executable" none executable) t := rfl

lemma daemonsWith_congr (h : ∀ name ≠ Text.ofString "executable", t.get? name = u.get? name)
    (command : Checked (Option (List Text))) : daemonsWith command t = daemonsWith command u := by
  have hlog := h "log" (by decide)
  have hrefresh := h "refresh_on_check" (by decide)
  have htrace := h "trace" (by decide)
  have hidle := h "idle_timeout" (by decide)
  have hsweep := h "sweep_interval" (by decide)
  have hhandshake := h "handshake_timeout" (by decide)
  have hcall := h "call_timeout" (by decide)
  simp only [daemonsWith, setting, entry, hlog, hrefresh, htrace, hidle, hsweep, hhandshake, hcall]

lemma daemonsWith_map (f : Option (List Text) → Option (List Text))
    (command : Checked (Option (List Text))) :
    daemonsWith (command.map f) t = (daemonsWith command t).map (DaemonConfig.changeCommand f) := by
  simp only [daemonsWith, Checked.map_apply, Checked.map_map]
  rfl

lemma mem_issues_daemonsWith {command : Checked (Option (List Text))} {i : Issue}
    (h : i ∈ command.issues) : i ∈ (daemonsWith command t).issues := by
  simp only [daemonsWith, Checked.issues_apply, Checked.issues_map, List.mem_append]
  simp only [h, true_or]

/-! ## A whole document -/

/-- A configuration with its parts already checked. -/
def assembled (paths : Except Environment.HomeError (Checked (List Path)))
    (suggest : Checked DaemonConfig) (logging : Checked LoggingConfig) :
    Except Environment.HomeError (Checked Config) :=
  paths.map fun paths =>
    ((Checked.map Config.mk paths).apply (suggest.below "suggest")).apply logging

lemma assembled_map (f : Option (List Text) → Option (List Text))
    (paths : Except Environment.HomeError (Checked (List Path)))
    (suggest : Checked DaemonConfig) (logging : Checked LoggingConfig) :
    assembled paths (suggest.map (DaemonConfig.changeCommand f)) logging =
      (assembled paths suggest logging).map (Checked.map (Config.changeCommand f)) := by
  rcases paths with e | (paths | issues)
  · rfl
  all_goals cases suggest <;> cases logging <;> rfl

/-- A missing section counts as an empty one. -/
lemma getD_of_daemonSection? {inner : Raw.Table} (h : daemonSection? t = some inner) :
    (t.get? "suggest").getD (.table []) = .table inner := by
  revert h
  unfold daemonSection?
  cases (t.get? "suggest").getD (.table []) with
  | table inner' => exact fun h => congrArg Raw.table (Option.some.inj h)
  | _ => exact nofun

lemma entry_daemons {inner : Raw.Table} (h : daemonSection? t = some inner) :
    entry t "suggest" {} daemons = (daemons (.table inner)).below "suggest" := by
  have hsection := getD_of_daemonSection? h
  unfold entry
  cases hget : t.get? "suggest" with
  | none =>
    rw [hget] at hsection
    rw [← hsection]
    rfl
  | some v =>
    rw [hget, Option.getD_some] at hsection
    rw [hsection]

lemma ofRaw_eq (env : Environment) {inner : Raw.Table} (h : daemonSection? t = some inner) :
    ofRaw env (.table t) =
      assembled (Check.projects env t) (daemons (.table inner)) (entry t "logging" {} Check.logging) := by
  rw [ofRaw, entry_daemons h]
  rfl

lemma projects_congr (henv : env.AgreeBut commandVariable env')
    (h : t.get? "projects" = u.get? "projects") : Check.projects env t = Check.projects env' u := by
  have hhome : env.home? = env'.home? := by
    rw [Environment.home?, Environment.home?, henv.settings "HOME" (by decide)]
  have hexpand : ∀ p, env.expand p = env'.expand p := fun p => by
    simp only [Environment.expand, hhome]
  have hpath : absolutePath env = absolutePath env' := funext fun p => by
    rw [absolutePath, absolutePath, hexpand, henv.cwd]
  rw [Check.projects, Check.projects, entry, entry, h, hpath]

/-! ## Loading -/

/-- What loading makes of a checked configuration. -/
def conclude : Except Environment.HomeError (Checked Config) → Except LoadError Config
  | .error e => .error (.home e)
  | .ok (.valid c) => .ok c
  | .ok (.invalid issues) => .error (.invalid issues)

lemma finish_eq (env : Environment) (t : Raw.Table) :
    finish env t = (overrideCommand env t).bind fun t => conclude (ofRaw env (.table t)) := by
  unfold finish conclude
  cases overrideCommand env t with
  | error e => rfl
  | ok t => rfl

lemma conclude_map (f : Option (List Text) → Option (List Text))
    (r : Except Environment.HomeError (Checked Config)) :
    conclude (r.map (Checked.map (Config.changeCommand f))) =
      (conclude r).map (Config.changeCommand f) := by
  rcases r with e | (c | issues) <;> rfl

lemma overrideCommand_eq (hline : env.nonEmpty? commandVariable = some line) {words : List Text}
    (hwords : Words.split line = .ok words) {inner : Raw.Table} (h : daemonSection? t = some inner) :
    overrideCommand env t = .ok (t.put "suggest"
      (.table (Raw.Table.put inner "executable" (.list (words.map .text))))) := by
  simp only [overrideCommand, hline, hwords, getD_of_daemonSection? h]

lemma overrideCommand_eq_error (hline : env.nonEmpty? commandVariable = some line)
    {e : Words.SplitError} (h : Words.split line = .error e) (t : Raw.Table) :
    overrideCommand env t = .error (.commandLine e) := by
  simp only [overrideCommand, hline, h]

/-- What is loaded where the variable is set: its words, whatever the document says. -/
lemma finish_of_variable (hline : env.nonEmpty? commandVariable = some line) {words : List Text}
    (hwords : Words.split line = .ok words) {inner : Raw.Table} (h : daemonSection? t = some inner) :
    finish env t = conclude (assembled (Check.projects env t)
      (daemonsWith (.valid (some words)) inner) (entry t "logging" {} Check.logging)) := by
  let replaced := Raw.Table.put inner "executable" (.list (words.map .text))
  let t' := t.put "suggest" (.table replaced)
  have hother : ∀ name ≠ Text.ofString "suggest", t'.get? name = t.get? name := fun name hname => by
    rw [Raw.Table.get?_put, if_neg hname.symm]
  have hsection : daemonSection? t' = some replaced := by
    rw [daemonSection?, Raw.Table.get?_put, if_pos rfl]
    rfl
  have hcommand : entry replaced "executable" none executable = .valid (some words) := by
    refine entry_eq_valid_iff.2 (.inr ⟨_, ?_, executable_toRaw (some words)⟩)
    rw [Raw.Table.get?_put, if_pos rfl]
    rfl
  have hdaemons : daemons (.table replaced) = daemonsWith (.valid (some words)) inner := by
    rw [daemons_eq, hcommand]
    exact daemonsWith_congr (fun name hname => by rw [Raw.Table.get?_put, if_neg hname.symm]) _
  have hprojects : Check.projects env t' = Check.projects env t :=
    projects_congr ⟨rfl, fun _ _ => rfl⟩ (hother "projects" (by decide))
  have hlogging : entry t' "logging" {} Check.logging = entry t "logging" {} Check.logging := by
    rw [entry, entry, hother "logging" (by decide)]
  rw [finish_eq, overrideCommand_eq hline hwords h, ← hprojects, ← hdaemons, ← hlogging]
  exact congrArg conclude (ofRaw_eq env hsection)

/-- What is loaded where the variable is not set and the document has a command. -/
lemma finish_of_entry (hnone : env.nonEmpty? commandVariable = none) {inner : Raw.Table}
    (h : u.get? "suggest" = some (.table inner))
    (hcommand : inner.get? "executable" = some (.text line)) :
    finish env u = conclude (assembled (Check.projects env u)
      (daemonsWith ((executable (.text line)).below "executable") inner)
      (entry u "logging" {} Check.logging)) := by
  have hsection : daemonSection? u = some inner := by
    rw [daemonSection?, h]
    rfl
  have hover : overrideCommand env u = .ok u := by rw [overrideCommand, hnone]
  have hentry : entry inner "executable" none executable =
      (executable (.text line)).below "executable" := by rw [entry, hcommand]
  rw [finish_eq, hover, ← hentry]
  exact congrArg conclude (ofRaw_eq env hsection)

/-- What two ways to spell a command come to: given by the variable, and set in the document. -/
structure SpelledAlike (line : Text) (given set : Except LoadError Config) : Prop where
  words : ∀ word more, Words.split line = .ok (word :: more) → given = set
  /-- Blanks make a command without words there, and no command here. -/
  blank : Words.split line = .ok [] →
    given = set.map (Config.changeCommand fun _ => some []) ∧
      ∀ c, set = .ok c → c.suggest.executable = none
  /-- What cannot be cut is a fault of its own there, and an issue of its entry here, unless a home
  directory is missing. -/
  uncut : ∀ e, Words.split line = .error e → given = .error (.commandLine e) ∧
    (set = .error (.home .unknown) ∨ ∃ issues, set = .error (.invalid issues) ∧
      ⟨["suggest", "executable"], .noCommandLine e⟩ ∈ issues)

/-- Where the variable is set, only the other entries of a document count. -/
lemma finish_congr (hline : env.nonEmpty? commandVariable = some line) (h : AgreeButCommand t u) :
    finish env t = finish env u := by
  obtain ⟨inner, inner', ht, hu, hinner⟩ := h.daemons
  cases hwords : Words.split line with
  | error e =>
    rw [finish_eq, finish_eq, overrideCommand_eq_error hline hwords,
      overrideCommand_eq_error hline hwords]
  | ok words =>
    have hprojects : Check.projects env t = Check.projects env u :=
      projects_congr ⟨rfl, fun _ _ => rfl⟩ (h.others "projects" (by decide))
    rw [finish_of_variable hline hwords ht, finish_of_variable hline hwords hu,
      daemonsWith_congr hinner, hprojects, entry, entry, h.others "logging" (by decide)]

section Outcomes

variable {paths : Except Environment.HomeError (Checked (List Path))}
  {command : Checked (Option (List Text))} {logging : Checked LoggingConfig}

/-- What is concluded from the parts of a configuration changes with its command alone. -/
lemma conclude_changeCommand (command : Checked (Option (List Text)))
    (f : Option (List Text) → Option (List Text)) :
    conclude (assembled paths (daemonsWith (command.map f) t) logging) =
      (conclude (assembled paths (daemonsWith command t) logging)).map (Config.changeCommand f) := by
  rw [daemonsWith_map, assembled_map, conclude_map]

/-- An issue of the command is reported, unless a home directory is missing. -/
lemma conclude_of_issue {p : Problem} (h : ⟨["executable"], p⟩ ∈ command.issues) :
    conclude (assembled paths (daemonsWith command t) logging) = .error (.home .unknown) ∨
      ∃ issues, conclude (assembled paths (daemonsWith command t) logging) = .error (.invalid issues) ∧
        ⟨["suggest", "executable"], p⟩ ∈ issues := by
  cases paths with
  | error e => exact .inl rfl
  | ok paths =>
    have hdaemons := mem_issues_daemonsWith (t := t) h
    have hbelow : ⟨["suggest", "executable"], p⟩ ∈ ((daemonsWith command t).below "suggest").issues := by
      rw [Checked.eq_invalid_of_mem_issues hdaemons]
      exact List.mem_map_of_mem hdaemons
    obtain ⟨whole, hwhole⟩ : ∃ x, x = ((Checked.map Config.mk paths).apply
      ((daemonsWith command t).below "suggest")).apply logging := ⟨_, rfl⟩
    have hmem : ⟨["suggest", "executable"], p⟩ ∈ whole.issues := by
      rw [hwhole, Checked.issues_apply, Checked.issues_apply]
      exact List.mem_append_left _ (List.mem_append_right _ hbelow)
    refine .inr ⟨whole.issues, ?_, hmem⟩
    rw [assembled, Except.map, ← hwhole, Checked.eq_invalid_of_mem_issues hmem]
    rfl

end Outcomes

/-- The variable in the one environment and the entry in the other, after the same words. -/
lemma spelledAlike_finish (henv : env.AgreeBut commandVariable env')
    (hline : env.nonEmpty? commandVariable = some line) (hnone : env'.nonEmpty? commandVariable = none)
    (h : SetsCommand line t u) : SpelledAlike line (finish env t) (finish env' u) := by
  obtain ⟨inner, inner', ht, hu, hinner⟩ := h.daemons
  obtain ⟨section', hget, hcommand⟩ := h.command
  obtain rfl : section' = inner' := by
    rw [daemonSection?, hget] at hu
    exact Option.some.inj hu
  have hprojects : Check.projects env t = Check.projects env' u :=
    projects_congr henv (h.others "projects" (by decide))
  have hlogging : entry t "logging" {} Check.logging = entry u "logging" {} Check.logging := by
    rw [entry, entry, h.others "logging" (by decide)]
  have hset := finish_of_entry hnone hget hcommand
  rw [← hprojects, ← hlogging, ← daemonsWith_congr hinner] at hset
  constructor
  · intro word more hwords
    have hchecked : executable (.text line) = .valid (some (word :: more)) := by
      simp only [executable, hwords]
    rw [hset, hchecked, finish_of_variable hline hwords ht]
    rfl
  · intro hwords
    have hchecked : executable (.text line) = .valid none := by simp only [executable, hwords]
    rw [hset, hchecked, finish_of_variable hline hwords ht]
    refine ⟨conclude_changeCommand (.valid none) fun _ => some [], fun c hc => ?_⟩
    -- having no command does not change when the command is taken away
    obtain ⟨c', -, rfl⟩ := Result.map_eq_ok_iff.1
      ((conclude_changeCommand (.valid none) fun _ => none).symm.trans hc)
    rfl
  · intro e hwords
    have hchecked : executable (.text line) = Checked.fail (.noCommandLine e) := by
      simp only [executable, hwords]
    refine ⟨?_, ?_⟩
    · rw [finish_eq, overrideCommand_eq_error hline hwords]
      rfl
    · rw [hset, hchecked]
      exact conclude_of_issue (List.mem_singleton.2 rfl)

/-- **The variable and the entry spell the command alike, as long as words come out.**  Whatever else
the document holds, and whatever it says about the command itself. -/
theorem spelledAlike_of_document (henv : env.AgreeBut commandVariable env')
    (hline : env.nonEmpty? commandVariable = some line) (hnone : env'.nonEmpty? commandVariable = none)
    (ht : document env tree path = .ok t) (hu : document env' tree' path' = .ok u)
    (h : SetsCommand line t u) :
    SpelledAlike line (load env tree path) (load env' tree' path') ∧
      ∀ other otherPath v, document env other otherPath = .ok v → AgreeButCommand v t →
        load env other otherPath = load env tree path := by
  rw [load_of_document ht, load_of_document hu]
  refine ⟨spelledAlike_finish henv hline hnone h, fun other otherPath v hv hagree => ?_⟩
  rw [load_of_document hv]
  exact finish_congr hline hagree

/-- A tree with one file, which holds a document. -/
def treeWith (document : String) : FileTree :=
  ⟨[(["c.toml"], .file ((Text.ofString document).flatMap Utf8.encodeCodePoint) false)]⟩

/-- A variable of two words over an empty document, and an entry of the same two words. -/
theorem spelledAlike_twoWords :
    load ⟨[(commandVariable, "nim --v3")], "/"⟩ (treeWith "") (some ⟨0, ["c.toml"]⟩) =
        load ⟨[], "/"⟩ (treeWith "suggest.executable='nim --v3'") (some ⟨0, ["c.toml"]⟩) ∧
      ∃ c, load ⟨[(commandVariable, "nim --v3")], "/"⟩ (treeWith "") (some ⟨0, ["c.toml"]⟩) = .ok c ∧
        c.suggest.executable = some [Text.ofString "nim", Text.ofString "--v3"] := by
  let env : Environment := ⟨[(commandVariable, "nim --v3")], "/"⟩
  have henv : env.AgreeBut commandVariable ⟨[], "/"⟩ :=
    ⟨rfl, fun other hother => by simp [Environment.get?, env, hother.symm]⟩
  have ht : document env (treeWith "") (some ⟨0, ["c.toml"]⟩) = .ok [] := rfl
  have hu : document ⟨[], "/"⟩ (treeWith "suggest.executable='nim --v3'") (some ⟨0, ["c.toml"]⟩) =
      .ok [("suggest", .table [("executable", .text "nim --v3")])] := by cbv
  have hsets : SetsCommand "nim --v3" [] [("suggest", .table [("executable", .text "nim --v3")])] := by
    refine ⟨⟨fun name hname => ?_, [], _, rfl, rfl, fun name hname => ?_⟩, _, rfl, rfl⟩
    · rw [Raw.Table.get?_cons, if_neg hname.symm]
    · rw [Raw.Table.get?_cons, if_neg hname.symm]
  have hwords : Words.split "nim --v3" = .ok ["nim", "--v3"] := rfl
  have hline : env.nonEmpty? commandVariable = some "nim --v3" := rfl
  have halike := (spelledAlike_of_document henv hline rfl ht hu hsets).1.words _ _ hwords
  refine ⟨halike, _, (load_of_document ht).trans rfl, rfl⟩

/-- Blanks: a command without words from the variable, no command from the entry. -/
theorem blank_command_differs :
    (∃ c, load ⟨[(commandVariable, " ")], "/"⟩ (treeWith "") (some ⟨0, ["c.toml"]⟩) = .ok c ∧
      c.suggest.executable = some []) ∧
    ∃ c, load ⟨[], "/"⟩ (treeWith "suggest.executable=' '") (some ⟨0, ["c.toml"]⟩) = .ok c ∧
      c.suggest.executable = none := by
  have hu : document ⟨[], "/"⟩ (treeWith "suggest.executable=' '") (some ⟨0, ["c.toml"]⟩) =
      .ok [("suggest", .table [("executable", .text " ")])] := by cbv
  exact ⟨⟨_, rfl, rfl⟩, _, (load_of_document hu).trans rfl, rfl⟩

end Config

end SuggestBridge
