import SuggestBridge.Proofs.Config.Override
import SuggestBridge.Proofs.Text.Utf8
import SuggestBridge.Proofs.Toml.Reading

/-!
# How loading a configuration fails

Three failures are announced: the named file does not exist, the document breaks a rule of its format,
or its values have problems.  `Escapes` lists the others with their causes, and there are no further
ones: loading fails unannounced exactly so (`load_escapes_iff`), and what it gives otherwise is within
the bounds of its settings.

A home directory that is not known (`Homeless`) can be asked for in three places: by the named path,
by the directory of all state, and by the path of a project.
-/

namespace SuggestBridge

/-! ## Home directories -/

/-- A path that asks for a home directory that is not known: one of another account, or one of an
environment that names none. -/
def Environment.Homeless (env : Environment) (p : Path) : Prop :=
  p.isRooted = false ∧ ∃ first rest, p.parts = first :: rest ∧
    first.head? = some (CodePoint.ofChar '~') ∧
    (first = Text.ofString "~" → ∀ h, env.home? = some h → h.head? = some (CodePoint.ofChar '~'))

lemma Environment.expand_eq_error_iff {env : Environment} {p : Path} {e : HomeError} :
    env.expand p = .error e ↔ env.Homeless p := by
  cases e
  unfold expand Homeless
  cases hrooted : p.isRooted with
  | true => simp
  | false =>
    cases hparts : p.parts with
    | nil => simp
    | cons first rest =>
      by_cases hhead : first.head? = some (CodePoint.ofChar '~')
      · by_cases hfirst : first = Text.ofString "~"
        · have htilde : (Text.ofString "~").head? = some (CodePoint.ofChar '~') := rfl
          cases hhome : env.home? with
          | none => simp [hfirst, htilde]
          | some h =>
            by_cases hh : h.head? = some (CodePoint.ofChar '~') <;> simp [hfirst, htilde, hh]
        · simp [hhead, hfirst]
      · simp [hhead]

namespace Config

open Check

variable {env : Environment} {tree : FileTree} {path : Option Path} {t : Raw.Table}

/-- The path that the directory of all state has before its home directory is put in. -/
def statePath (env : Environment) : Path :=
  match env.nonEmpty? "NIMLINK_HOME" with
  | some home => Path.ofText home
  | none => Path.ofText "~"

/-- The file that is loaded holds these bytes. -/
def Opens (env : Environment) (tree : FileTree) (path : Option Path) (content : Bytes) : Prop :=
  ∃ p executable, locate env tree path = .ok (some p) ∧
    tree.find? env.cwd p.toText = some (.file content executable)

/-- The command of a document can be replaced: the variable is not set, or it can be cut into words and
the section on daemons can take them. -/
def Replaceable (env : Environment) (t : Raw.Table) : Prop :=
  ∀ line, env.nonEmpty? commandVariable = some line →
    (∃ words, Words.split line = .ok words) ∧ ∃ inner, daemonSection? t = some inner

/-- The failures that are announced. -/
def LoadError.IsAnnounced : LoadError → Prop
  | .missing _ | .malformed _ | .invalid _ => True
  | _ => False

/-- The failures that are not announced, with their causes. -/
inductive Escapes (env : Environment) (tree : FileTree) (path : Option Path) : LoadError → Prop
  /-- The named path asks for a home directory that is not known. -/
  | named {p : Path} (hpath : path = some p) (h : env.Homeless p) :
    Escapes env tree path (.home .unknown)
  /-- The directory of all state does. -/
  | state (hpath : path = none) (h : env.Homeless (statePath env)) :
    Escapes env tree path (.home .unknown)
  /-- The path leads to a directory. -/
  | directory {p : Path} (hfound : locate env tree path = .ok (some p))
    (h : ∃ x, tree.find? env.cwd p.toText = some x ∧ ∀ content executable, x ≠ .file content executable) :
    Escapes env tree path (.directory p)
  /-- The file is no UTF-8. -/
  | undecodable {content : Bytes} {e : Utf8.Undecodable} (hfile : Opens env tree path content)
    (h : ¬Utf8.WellFormed content) (he : Utf8.decodeStrictly content = .error e) :
    Escapes env tree path (.undecodable e)
  /-- The text of the file holds an integer beyond the limit on digits, and reading comes to it. -/
  | digits {content : Bytes} {text : Text} {e : DigitLimit} (hfile : Opens env tree path content)
    (htext : Utf8.encode text = .ok content) (hlong : Toml.HoldsOverlong text e)
    (h : Toml.read text = .error (.digits e)) : Escapes env tree path (.digits e)
  /-- The variable for the command cannot be cut into words. -/
  | commandLine {t : Raw.Table} {line : Text} {e : Words.SplitError}
    (hdocument : document env tree path = .ok t) (hline : env.nonEmpty? commandVariable = some line)
    (h : Words.split line = .error e) : Escapes env tree path (.commandLine e)
  /-- The variable for the command is set, and no table stands in the place of the section on daemons. -/
  | unassignable {t : Raw.Table} {line : Text} {words : List Text} {v : Raw}
    (hdocument : document env tree path = .ok t) (hline : env.nonEmpty? commandVariable = some line)
    (hwords : Words.split line = .ok words) (hv : t.get? "suggest" = some v)
    (h : ∀ inner, v ≠ .table inner) : Escapes env tree path (.unassignable v)
  /-- The path of a project asks for a home directory that is not known. -/
  | project {t : Raw.Table} {paths : List Path} (hdocument : document env tree path = .ok t)
    (hcommand : Replaceable env t) (hpaths : entry t "projects" [] (list Check.path) = .valid paths)
    (h : ∃ p ∈ paths, env.Homeless p) : Escapes env tree path (.home .unknown)

/-! ## Causes -/

lemma find_eq_error_iff {e : Environment.HomeError} :
    Locations.find env tree = .error e ↔ env.Homeless (statePath env) := by
  unfold Locations.find statePath
  cases env.nonEmpty? "NIMLINK_HOME" <;> simp only [Result.map_eq_error_iff, Environment.expand_eq_error_iff]

lemma escapes_of_locate {e : LoadError} (h : locate env tree path = .error e)
    (he : ¬e.IsAnnounced) : Escapes env tree path e := by
  unfold locate at h
  split at h
  · next p =>
    split at h
    · next e hexpand =>
      cases h
      cases e
      exact .named rfl (Environment.expand_eq_error_iff.1 hexpand)
    · split at h
      · cases h
      · cases h
        exact absurd trivial he
  · split at h
    · next e hfind =>
      cases h
      cases e
      exact .state rfl (find_eq_error_iff.1 hfind)
    · cases h

lemma escapes_of_readFile {p : Path} {e : LoadError} (hfound : locate env tree path = .ok (some p))
    (h : readFile env tree p = .error e) (he : ¬e.IsAnnounced) : Escapes env tree path e := by
  unfold readFile at h
  split at h
  · next content executable hfile =>
    have hopens : Opens env tree path content := ⟨p, executable, hfound, hfile⟩
    split at h
    · next e hdecode =>
      cases h
      exact .undecodable hopens (Utf8.exists_decodeStrictly_eq_error_iff.1 ⟨e, hdecode⟩) hdecode
    · next text hdecode =>
      have htext := Utf8.decodeStrictly_eq_ok_iff.1 hdecode
      split at h
      · cases h
      · cases h
        exact absurd trivial he
      · next e hread =>
        cases h
        exact .digits hopens htext (Toml.exists_overlong_of_read hread) hread
  · next x hx hfile =>
    cases h
    exact .directory hfound ⟨x, hfile, fun content executable hx' => hx content executable hx'⟩
  · cases h
    exact absurd trivial he

lemma escapes_of_document {e : LoadError} (h : document env tree path = .error e)
    (he : ¬e.IsAnnounced) : Escapes env tree path e := by
  unfold document at h
  split at h
  · next hlocate =>
    cases h
    exact escapes_of_locate hlocate he
  · cases h
  · next hlocate => exact escapes_of_readFile hlocate h he

lemma absolutePath_eq_error_iff {p : Path} {e : Environment.HomeError} :
    absolutePath env p = .error e ↔ env.Homeless p := by
  rw [absolutePath, Result.map_eq_error_iff, Environment.expand_eq_error_iff]

/-- The first path without a home directory ends the check. -/
lemma mapM_absolutePath_eq_error_iff {paths : List Path} {e : Environment.HomeError} :
    paths.mapM (absolutePath env) = .error e ↔ ∃ p ∈ paths, env.Homeless p := by
  induction paths with
  | nil => simp [pure, Except.pure]
  | cons p paths ih =>
    rw [List.mapM_cons, List.exists_mem_cons_iff, ← ih, ← absolutePath_eq_error_iff (e := e)]
    cases absolutePath env p with
    | error e' => simp [bind, Except.bind]
    | ok q => cases paths.mapM (absolutePath env) <;> simp [bind, Except.bind, pure, Except.pure]

lemma projects_eq_error_iff {e : Environment.HomeError} :
    Check.projects env t = .error e ↔
      ∃ paths, entry t "projects" [] (list Check.path) = .valid paths ∧ ∃ p ∈ paths, env.Homeless p := by
  unfold Check.projects
  cases entry t "projects" [] (list Check.path) with
  | valid paths => simp [Result.map_eq_error_iff, mapM_absolutePath_eq_error_iff]
  | invalid issues => simp

lemma ofRaw_eq_error_iff {e : Environment.HomeError} :
    ofRaw env (.table t) = .error e ↔ Check.projects env t = .error e :=
  Result.map_eq_error_iff

lemma eq_home_of_conclude {r : Except Environment.HomeError (Checked Config)} {e : LoadError}
    (h : conclude r = .error e) (he : ¬e.IsAnnounced) : ∃ e', e = .home e' ∧ r = .error e' := by
  rcases r with e' | (c | issues)
  · cases h
    exact ⟨e', rfl, rfl⟩
  · cases h
  · cases h
    exact absurd trivial he

lemma Replaceable.projects_eq (h : Replaceable env t) : ∃ u, overrideCommand env t = .ok u ∧
    Check.projects env u = Check.projects env t := by
  cases hline : env.nonEmpty? commandVariable with
  | none => exact ⟨t, by rw [overrideCommand, hline], rfl⟩
  | some line =>
    obtain ⟨⟨words, hwords⟩, inner, hinner⟩ := h line hline
    refine ⟨_, overrideCommand_eq hline hwords hinner, ?_⟩
    refine projects_congr ⟨rfl, fun _ _ => rfl⟩ ?_
    rw [Raw.Table.get?_put, if_neg (by decide)]

lemma overrideCommand_eq_unassignable {line : Text} {words : List Text} {v : Raw}
    (hline : env.nonEmpty? commandVariable = some line) (hwords : Words.split line = .ok words)
    (hv : t.get? "suggest" = some v) (h : ∀ inner, v ≠ .table inner) :
    overrideCommand env t = .error (.unassignable v) := by
  simp only [overrideCommand, hline, hwords, hv]
  cases v with
  | table inner => exact absurd rfl (h inner)
  | _ => rfl

/-- A document whose command cannot be replaced ends the loading. -/
lemma escapes_of_not_replaceable (hdocument : document env tree path = .ok t)
    (h : ¬Replaceable env t) :
    ∃ e, overrideCommand env t = .error e ∧ Escapes env tree path e := by
  simp only [Replaceable, not_forall] at h
  obtain ⟨line, hline, h⟩ := h
  cases hwords : Words.split line with
  | error e =>
    exact ⟨_, overrideCommand_eq_error hline hwords t, .commandLine hdocument hline hwords⟩
  | ok words =>
    rw [hwords] at h
    unfold daemonSection? at h
    cases hv : t.get? "suggest" with
    | none => simp [hv] at h
    | some v =>
      cases v with
      | table inner => simp [hv] at h
      | _ =>
        exact ⟨_, overrideCommand_eq_unassignable hline hwords hv nofun,
          .unassignable hdocument hline hwords hv nofun⟩

lemma escapes_of_finish (hdocument : document env tree path = .ok t) {e : LoadError}
    (h : finish env t = .error e) (he : ¬e.IsAnnounced) : Escapes env tree path e := by
  rw [finish_eq] at h
  by_cases hcommand : Replaceable env t
  · obtain ⟨u, hu, hprojects⟩ := hcommand.projects_eq
    rw [hu] at h
    obtain ⟨e, rfl, hraw⟩ := eq_home_of_conclude h he
    rw [ofRaw_eq_error_iff, hprojects, projects_eq_error_iff] at hraw
    obtain ⟨paths, hpaths, hhome⟩ := hraw
    cases e
    exact .project hdocument hcommand hpaths hhome
  · obtain ⟨e', hover, hescapes⟩ := escapes_of_not_replaceable hdocument hcommand
    rw [hover] at h
    cases h
    exact hescapes

/-! ## Effects -/

/-- Each of the causes has its effect. -/
lemma load_of_escapes {e : LoadError} (h : Escapes env tree path e) : load env tree path = .error e := by
  cases h with
  | @named p hpath h =>
    subst hpath
    have hlocate : locate env tree (some p) = .error (.home .unknown) := by
      rw [locate, Environment.expand_eq_error_iff.2 h]
    rw [load, hlocate]
  | state hpath h =>
    subst hpath
    have hlocate : locate env tree none = .error (.home .unknown) := by
      rw [locate, find_eq_error_iff.2 h]
    rw [load, hlocate]
  | directory hfound h =>
    obtain ⟨x, hx, hno⟩ := h
    rw [load, hfound]
    cases x with
    | file content executable => exact absurd rfl (hno content executable)
    | _ => simp only [readFile, hx]
  | undecodable hfile h he =>
    obtain ⟨p, executable, hlocate, hfind⟩ := hfile
    simp only [load, hlocate, readFile, hfind, he]
  | digits hfile htext _ h =>
    obtain ⟨p, executable, hlocate, hfind⟩ := hfile
    simp only [load, hlocate, readFile, hfind, Utf8.decodeStrictly_eq_ok_iff.2 htext, h]
  | commandLine hdocument hline h =>
    rw [load_of_document hdocument, finish_eq, overrideCommand_eq_error hline h]
    rfl
  | unassignable hdocument hline hwords hv h =>
    rw [load_of_document hdocument, finish_eq, overrideCommand_eq_unassignable hline hwords hv h]
    rfl
  | project hdocument hcommand hpaths h =>
    obtain ⟨u, hu, hprojects⟩ := hcommand.projects_eq
    have hraw : ofRaw env (.table u) = .error .unknown :=
      ofRaw_eq_error_iff.2 (hprojects.trans (projects_eq_error_iff.2 ⟨_, hpaths, h⟩))
    rw [load_of_document hdocument, finish_eq, hu]
    exact congrArg conclude hraw

lemma Escapes.not_isAnnounced {e : LoadError} (h : Escapes env tree path e) : ¬e.IsAnnounced := by
  cases h <;> exact id

/-- What is loaded comes from a document that was checked. -/
lemma valid_of_load {c : Config} (h : load env tree path = .ok c) : c.Valid := by
  rw [load_eq] at h
  obtain ⟨t, -, h⟩ := Result.bind_eq_ok_iff.1 h
  rw [finish_eq] at h
  obtain ⟨u, -, h⟩ := Result.bind_eq_ok_iff.1 h
  cases hraw : ofRaw env (.table u) with
  | error e =>
    rw [hraw] at h
    cases h
  | ok checked =>
    rw [hraw] at h
    cases checked with
    | valid c =>
      cases h
      exact valid_of_accepted hraw
    | invalid issues => cases h

/-- **Loading fails as announced, or for one of the listed causes.**  What it gives is within the bounds
of its settings. -/
theorem load_escapes_iff (env : Environment) (tree : FileTree) (path : Option Path) :
    (∀ c, load env tree path = .ok c → c.Valid) ∧
      ∀ e, load env tree path = .error e ∧ ¬e.IsAnnounced ↔ Escapes env tree path e := by
  refine ⟨fun c => valid_of_load, fun e => ⟨?_, fun h => ⟨load_of_escapes h, h.not_isAnnounced⟩⟩⟩
  rintro ⟨h, he⟩
  rw [load_eq, Result.bind_eq_error_iff] at h
  rcases h with h | ⟨t, hdocument, h⟩
  · exact escapes_of_document h he
  · exact escapes_of_finish hdocument h he

/-- A quote that is left open in the variable is no issue of a value. -/
theorem openQuote_escapes :
    ∃ e, load ⟨[(commandVariable, "'")], "/"⟩ (treeWith "") (some ⟨0, ["c.toml"]⟩) = .error e ∧
      ¬e.IsAnnounced ∧ e.message = Text.ofString "No closing quotation" :=
  ⟨.commandLine .openQuote, rfl, id, rfl⟩

end Config

end SuggestBridge
