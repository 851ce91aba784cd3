import SuggestBridge.Proofs.Config.Checked
import SuggestBridge.Proofs.Path.Normal

/-!
# Configurations that are checked again

A configuration can be written back as a raw one, each setting in the form in which it is kept
(`Config.toRaw`).  What a check accepted is within the bounds of its setting (`valid_of_accepted`), and
within the bounds a setting is accepted as it is.  So a configuration that was checked is found again
when it is checked again, wherever that happens: its paths start at the root, so that neither the
working directory nor a home directory matters any more (`accepted_again`).
-/

namespace SuggestBridge

/-! ## Writing a configuration -/

/-- The raw value of something that may be missing. -/
def Raw.ofOption {α : Type} (write : α → Raw) : Option α → Raw
  | some a => write a
  | none => .null

/-- How daemons are run, as a table. -/
def DaemonConfig.toRaw (d : DaemonConfig) : Raw :=
  .table
    [("executable", Raw.ofOption (fun words => .list (words.map .text)) d.executable),
      ("log", .bool d.log), ("refresh_on_check", .bool d.refreshOnCheck), ("trace", .bool d.trace),
      ("idle_timeout", .real d.idleTimeout), ("sweep_interval", .real d.sweepInterval),
      ("handshake_timeout", .real d.handshakeTimeout),
      ("call_timeout", Raw.ofOption .real d.callTimeout)]

/-- What is logged, as a table. -/
def LoggingConfig.toRaw (l : LoggingConfig) : Raw :=
  .table
    [("level", .text l.level.name), ("file", .bool l.file), ("retention_days", .int l.retentionDays)]

/-- A configuration, as a table. -/
def Config.toRaw (c : Config) : Raw :=
  .table
    [("projects", .list (c.projects.map .path)), ("suggest", c.suggest.toRaw),
      ("logging", c.logging.toRaw)]

/-! ## The bounds of the settings -/

/-- Times that daemons can be run with. -/
structure DaemonConfig.Valid (d : DaemonConfig) : Prop where
  idleTimeout : 0.0 ≤ d.idleTimeout
  sweepInterval : 0.0 < d.sweepInterval
  handshakeTimeout : 0.0 < d.handshakeTimeout
  callTimeout : ∀ x ∈ d.callTimeout, 0.0 < x

/-- What a log can be told to do. -/
structure LoggingConfig.Valid (l : LoggingConfig) : Prop where
  /-- The level above errors cannot be chosen. -/
  level : l.level ≠ .critical
  retentionDays : 1 ≤ l.retentionDays

/-- A configuration within the bounds of its settings. -/
structure Config.Valid (c : Config) : Prop where
  suggest : c.suggest.Valid
  logging : c.logging.Valid

namespace Config.Check

variable {v : Raw}

lemma nonNegative_eq_ok {x : Float} (h : nonNegative v = .ok x) : 0.0 ≤ x :=
  of_decide_eq_true (bounded_eq_ok_iff.1 h).2

lemma positive_eq_ok {x : Float} (h : positive v = .ok x) : 0.0 < x :=
  of_decide_eq_true (bounded_eq_ok_iff.1 h).2

lemma optionalPositive_eq_ok {o : Option Float} (h : optionalPositive v = .ok o) :
    ∀ x ∈ o, 0.0 < x := by
  rintro x rfl
  unfold optionalPositive at h
  split at h
  · cases h
  · obtain ⟨_, hx, ⟨⟩⟩ := Result.map_eq_ok_iff.1 h
    exact positive_eq_ok hx

lemma atLeastOne_eq_ok {n : Int} (h : atLeastOne v = .ok n) : 1 ≤ n :=
  of_decide_eq_true (bounded_eq_ok_iff.1 h).2

lemma level_eq_ok {l : Level} (h : level v = .ok l) : l ≠ .critical := by
  unfold level at h
  split at h
  · split at h
    · next hfound =>
      cases h
      rintro rfl
      exact absurd (List.mem_of_find?_eq_some hfound) (by decide)
    · cases h
  · cases h

/-- A setting is within its bounds if its default is and if every value that the check accepts is. -/
lemma setting_valid {α : Type} {t : Raw.Table} {name : Text} {default a : α}
    {check : Raw → Except Problem α} {P : α → Prop} (hdefault : P default)
    (hcheck : ∀ {v a}, check v = .ok a → P a) (h : setting t name default check = .valid a) : P a := by
  rcases setting_eq_valid_iff.1 h with ⟨-, rfl⟩ | ⟨v, -, hv⟩
  · exact hdefault
  · exact hcheck hv

lemma DaemonEntries.valid {t : Raw.Table} {d : DaemonConfig} (h : DaemonEntries t d) : d.Valid where
  idleTimeout := setting_valid (by decide) nonNegative_eq_ok h.idleTimeout
  sweepInterval := setting_valid (by decide) positive_eq_ok h.sweepInterval
  handshakeTimeout := setting_valid (by decide) positive_eq_ok h.handshakeTimeout
  callTimeout := setting_valid nofun optionalPositive_eq_ok h.callTimeout

lemma LoggingEntries.valid {t : Raw.Table} {l : LoggingConfig} (h : LoggingEntries t l) : l.Valid where
  level := setting_valid (P := (· ≠ .critical)) (by decide) level_eq_ok h.level
  retentionDays := setting_valid (by decide) atLeastOne_eq_ok h.retentionDays

lemma valid_defaultDaemons : DaemonConfig.Valid {} :=
  ⟨by decide, by decide, by decide, nofun⟩

lemma valid_defaultLogging : LoggingConfig.Valid {} := ⟨nofun, by decide⟩

end Config.Check

namespace Config

open Check

variable {env : Environment} {v : Raw} {c : Config}

/-- What is accepted is within the bounds of its settings. -/
theorem valid_of_accepted (h : ofRaw env v = .ok (.valid c)) : c.Valid := by
  obtain ⟨t, -, h⟩ := ofRaw_eq_valid_iff.1 h
  constructor
  · rcases entry_eq_valid_iff.1 h.suggest with ⟨-, hdefault⟩ | ⟨v, -, hv⟩
    · exact hdefault ▸ valid_defaultDaemons
    · obtain ⟨_, -, hentries⟩ := daemons_eq_valid_iff.1 hv
      exact hentries.valid
  · rcases entry_eq_valid_iff.1 h.logging with ⟨-, hdefault⟩ | ⟨v, -, hv⟩
    · exact hdefault ▸ valid_defaultLogging
    · obtain ⟨_, -, hentries⟩ := logging_eq_valid_iff.1 hv
      exact hentries.valid

/-! ## Paths of projects -/

/-- Below a working directory that starts at the root every path does. -/
lemma isRooted_absolute {cwd : Text} (hcwd : Path.isAbsolute cwd = true) (p : Path) :
    (Path.absolute cwd p).isRooted = true := by
  unfold Path.absolute
  split
  · next hp => exact hp
  · have hslashes : Path.leadingSlashes cwd ≠ 0 := by
      rw [Ne, Path.leadingSlashes_eq_zero_iff, hcwd]
      exact Bool.noConfusion
    exact decide_eq_true hslashes

/-- A path that starts at the root is neither expanded nor put below the working directory. -/
lemma absolutePath_of_isRooted {p : Path} (h : p.isRooted = true) : absolutePath env p = .ok p := by
  rw [absolutePath, Environment.expand, if_pos h]
  exact congrArg Except.ok (if_pos h)

lemma isRooted_of_accepted (hcwd : Path.isAbsolute env.cwd = true)
    (h : ofRaw env v = .ok (.valid c)) : ∀ p ∈ c.projects, p.isRooted = true := by
  obtain ⟨t, -, h⟩ := ofRaw_eq_valid_iff.1 h
  obtain ⟨given, -, hpaths⟩ := projects_eq_valid_iff.1 h.projects
  generalize c.projects = paths at hpaths
  induction hpaths with
  | nil => exact nofun
  | cons hq _ ih =>
    obtain ⟨p, -, rfl⟩ := Result.map_eq_ok_iff.1 hq
    exact List.forall_mem_cons.2 ⟨isRooted_absolute hcwd p, ih⟩

/-! ## Checking again -/

lemma list_map {α : Type} {check : Raw → Except Problem α} (write : α → Raw)
    (h : ∀ a, check (write a) = .ok a) (as : List α) : list check (.list (as.map write)) = .valid as := by
  refine list_eq_valid_iff.2 ⟨_, rfl, List.forall₂_map_left_iff.2 (List.forall₂_same.2 ?_)⟩
  exact fun a _ => h a

lemma executable_toRaw (o : Option (List Text)) :
    executable (Raw.ofOption (fun words => .list (words.map .text)) o) = .valid o := by
  cases o with
  | none => rfl
  | some words => exact Checked.map_eq_valid_iff.2 ⟨words, list_map .text (fun _ => rfl) words, rfl⟩

lemma optionalPositive_toRaw {o : Option Float} (h : ∀ x ∈ o, 0.0 < x) :
    optionalPositive (Raw.ofOption .real o) = .ok o := by
  cases o with
  | none => rfl
  | some x =>
    have hx : positive (.real x) = .ok x := bounded_eq_ok_iff.2 ⟨rfl, decide_eq_true (h x rfl)⟩
    exact Result.map_eq_ok_iff.2 ⟨x, hx, rfl⟩

lemma daemons_toRaw {d : DaemonConfig} (h : d.Valid) : daemons d.toRaw = .valid d := by
  refine daemons_eq_valid_iff.2 ⟨_, rfl, ?_⟩
  constructor
  case executable => exact entry_eq_valid_iff.2 (.inr ⟨_, rfl, executable_toRaw d.executable⟩)
  case callTimeout =>
    exact setting_eq_valid_iff.2 (.inr ⟨_, rfl, optionalPositive_toRaw h.callTimeout⟩)
  case idleTimeout =>
    exact setting_eq_valid_iff.2 (.inr ⟨_, rfl, bounded_eq_ok_iff.2 ⟨rfl, decide_eq_true h.idleTimeout⟩⟩)
  case sweepInterval =>
    exact setting_eq_valid_iff.2
      (.inr ⟨_, rfl, bounded_eq_ok_iff.2 ⟨rfl, decide_eq_true h.sweepInterval⟩⟩)
  case handshakeTimeout =>
    exact setting_eq_valid_iff.2
      (.inr ⟨_, rfl, bounded_eq_ok_iff.2 ⟨rfl, decide_eq_true h.handshakeTimeout⟩⟩)
  -- truth values have no bounds
  all_goals exact setting_eq_valid_iff.2 (.inr ⟨_, rfl, rfl⟩)

lemma level_name {l : Level} (h : l ≠ .critical) : level (.text l.name) = .ok l := by
  cases l with
  | critical => exact absurd rfl h
  | _ => rfl

lemma logging_toRaw {l : LoggingConfig} (h : l.Valid) : Check.logging l.toRaw = .valid l := by
  refine logging_eq_valid_iff.2 ⟨_, rfl, ?_, ?_, ?_⟩
  · exact setting_eq_valid_iff.2 (.inr ⟨_, rfl, level_name h.level⟩)
  · exact setting_eq_valid_iff.2 (.inr ⟨_, rfl, rfl⟩)
  · exact setting_eq_valid_iff.2
      (.inr ⟨_, rfl, bounded_eq_ok_iff.2 ⟨rfl, decide_eq_true h.retentionDays⟩⟩)

/-- Within the bounds of its settings, and with paths that start at the root, a configuration is
accepted as it is. -/
lemma ofRaw_toRaw (hvalid : c.Valid) (hrooted : ∀ p ∈ c.projects, p.isRooted = true)
    (env : Environment) : ofRaw env c.toRaw = .ok (.valid c) := by
  refine ofRaw_eq_valid_iff.2 ⟨_, rfl, ?_, ?_, ?_⟩
  · have hgiven : list path _ = .valid c.projects := list_map .path (fun _ => rfl) c.projects
    refine projects_eq_valid_iff.2 ⟨c.projects, entry_eq_valid_iff.2 (.inr ⟨_, rfl, hgiven⟩), ?_⟩
    exact List.forall₂_same.2 fun p hp => absolutePath_of_isRooted (hrooted p hp)
  · exact entry_eq_valid_iff.2 (.inr ⟨_, rfl, daemons_toRaw hvalid.suggest⟩)
  · exact entry_eq_valid_iff.2 (.inr ⟨_, rfl, logging_toRaw hvalid.logging⟩)

/-- The configurations that checking can give are those within the bounds, with absolute paths. -/
theorem exists_ofRaw_iff (hcwd : Path.isAbsolute env.cwd = true) :
    (∃ v, ofRaw env v = .ok (.valid c)) ↔ c.Valid ∧ ∀ p ∈ c.projects, p.isRooted = true :=
  ⟨fun ⟨_, h⟩ => ⟨valid_of_accepted h, isRooted_of_accepted hcwd h⟩,
    fun ⟨hvalid, hrooted⟩ => ⟨c.toRaw, ofRaw_toRaw hvalid hrooted env⟩⟩

/-- **A checked configuration is settled.**  Below a working directory that starts at the root: its
projects are absolute paths, and checking it again, wherever that happens, gives it once more. -/
theorem accepted_again (hcwd : Path.isAbsolute env.cwd = true) (h : ofRaw env v = .ok (.valid c)) :
    (∀ p ∈ c.projects, p.isRooted = true) ∧ ∀ env', ofRaw env' c.toRaw = .ok (.valid c) :=
  have hrooted := isRooted_of_accepted hcwd h
  ⟨hrooted, ofRaw_toRaw (valid_of_accepted h) hrooted⟩

/-- A relative path, a path in the home directory, a command line, a truth value for a number and a number
with places for an integer. -/
theorem accepted_again_spellings :
    ∃ (env : Environment) (v : Raw) (c : Config), Path.isAbsolute env.cwd = true ∧
      ofRaw env v = .ok (.valid c) ∧
      c.projects = [⟨1, ["home", "nim", "a.nim"]⟩, ⟨1, ["work", "b.nim"]⟩] ∧
      ofRaw ⟨[], "/elsewhere"⟩ c.toRaw = .ok (.valid c) := by
  let env : Environment := ⟨[("HOME", "/home/nim")], "/work"⟩
  let v : Raw := .table
    [("projects", .list [.text "~/a.nim", .path ⟨0, ["b.nim"]⟩]),
      ("suggest", .table [("executable", .text "nimsuggest '--v 3'"), ("log", .text "Yes"),
        ("idle_timeout", .bool true), ("call_timeout", .text "inf")]),
      ("logging", .table [("retention_days", .text "+7.0")])]
  let c : Config :=
    { projects := [⟨1, ["home", "nim", "a.nim"]⟩, ⟨1, ["work", "b.nim"]⟩]
      suggest :=
        { executable := some ["nimsuggest", "--v 3"]
          log := true
          idleTimeout := 1.0
          callTimeout := some (Decimal.infinity false) }
      logging := {} }
  have hv : ofRaw env v = .ok (.valid c) := rfl
  have hcwd : Path.isAbsolute env.cwd = true := rfl
  exact ⟨env, v, c, hcwd, hv, rfl, (accepted_again hcwd hv).2 _⟩

end Config

end SuggestBridge
