import SuggestBridge.Config.Validation
import SuggestBridge.Proofs.Result
import Mathlib.Data.List.Forall2
import Mathlib.Tactic.Common

/-!
# Checks that succeed

A check that is put together from others gives a value exactly if all of its parts do, whatever
issues they would have to report.  One lemma for each way of putting checks together says which parts
those are; the last of them take apart the checks of the sections of a configuration, and of a whole
one (`ofRaw_eq_valid_iff`).
-/

namespace SuggestBridge

/-- A list is mapped by a computation that can fail if each item is. -/
lemma Result.mapM_eq_ok_iff {ε α β : Type} {f : α → Except ε β} {as : List α} {bs : List β} :
    as.mapM f = .ok bs ↔ List.Forall₂ (fun a b => f a = .ok b) as bs := by
  induction as generalizing bs with
  | nil => cases bs <;> simp [pure, Except.pure]
  | cons a as ih =>
    rw [List.mapM_cons, List.forall₂_cons_left_iff]
    constructor
    · intro h
      obtain ⟨b, hb, h⟩ := bind_eq_ok_iff.1 h
      obtain ⟨bs, hbs, ⟨⟩⟩ := bind_eq_ok_iff.1 h
      exact ⟨b, bs, hb, ih.1 hbs, rfl⟩
    · rintro ⟨b, bs, hb, hbs, rfl⟩
      exact bind_eq_ok_iff.2 ⟨b, hb, bind_eq_ok_iff.2 ⟨bs, ih.2 hbs, rfl⟩⟩

namespace Config

variable {α β : Type}

namespace Checked

lemma ofExcept_eq_valid_iff {x : Except Problem α} {a : α} : ofExcept x = .valid a ↔ x = .ok a := by
  cases x <;> simp [ofExcept, fail]

lemma map_eq_valid_iff {f : α → β} {x : Checked α} {b : β} :
    x.map f = .valid b ↔ ∃ a, x = .valid a ∧ f a = b := by
  cases x <;> simp [map]

lemma apply_eq_valid_iff {f : Checked (α → β)} {x : Checked α} {b : β} :
    f.apply x = .valid b ↔ ∃ g a, f = .valid g ∧ x = .valid a ∧ g a = b := by
  cases f <;> cases x <;> simp [apply]

lemma below_eq_valid_iff {name : Text} {x : Checked α} {a : α} :
    x.below name = .valid a ↔ x = .valid a := by
  cases x <;> simp [below]

/-- A list is valid item by item. -/
lemma items_eq_valid_iff {check : α → Checked β} {start : Nat} {as : List α} {bs : List β} :
    items check start as = .valid bs ↔ List.Forall₂ (fun a b => check a = .valid b) as bs := by
  induction as generalizing start bs with
  | nil => cases bs <;> simp [items]
  | cons a as ih =>
    rw [items, apply_eq_valid_iff]
    constructor
    · rintro ⟨_, rest, hfirst, hrest, rfl⟩
      obtain ⟨b, hb, rfl⟩ := map_eq_valid_iff.1 hfirst
      exact .cons (below_eq_valid_iff.1 hb) (ih.1 hrest)
    · rintro ⟨⟩
      next b bs hb hrest =>
        exact ⟨List.cons b, bs, map_eq_valid_iff.2 ⟨b, below_eq_valid_iff.2 hb, rfl⟩, ih.2 hrest, rfl⟩

end Checked

namespace Check

variable {t : Raw.Table} {name : Text} {default a : α}

open Checked

lemma bounded_eq_ok_iff {check : Raw → Except Problem α} {isWithin : α → Bool} {p : Problem} {v : Raw} :
    bounded check isWithin p v = .ok a ↔ check v = .ok a ∧ isWithin a = true := by
  unfold bounded
  cases check v with
  | ok b =>
    by_cases hb : isWithin b = true
    · simp only [hb, if_true, Except.ok.injEq]
      exact ⟨fun h => ⟨h, h ▸ hb⟩, And.left⟩
    · simp only [hb, if_false, reduceCtorEq, false_iff, Except.ok.injEq]
      rintro ⟨rfl, ha⟩
      exact hb ha
  | error e => simp

/-- An entry is valid if it is missing or its value is. -/
lemma entry_eq_valid_iff {check : Raw → Checked α} :
    entry t name default check = .valid a ↔
      t.get? name = none ∧ default = a ∨ ∃ v, t.get? name = some v ∧ check v = .valid a := by
  unfold entry
  cases t.get? name <;> simp [below_eq_valid_iff]

lemma setting_eq_valid_iff {check : Raw → Except Problem α} :
    setting t name default check = .valid a ↔
      t.get? name = none ∧ default = a ∨ ∃ v, t.get? name = some v ∧ check v = .ok a := by
  simp only [setting, entry_eq_valid_iff, ofExcept_eq_valid_iff]

lemma list_eq_valid_iff {check : Raw → Except Problem α} {v : Raw} {as : List α} :
    list check v = .valid as ↔
      ∃ items, v = .list items ∧ List.Forall₂ (fun v a => check v = .ok a) items as := by
  cases v <;> simp [list, fail, items_eq_valid_iff, ofExcept_eq_valid_iff]

/-- The entries of the section on daemons are valid one by one. -/
structure DaemonEntries (t : Raw.Table) (d : DaemonConfig) : Prop where
  executable : entry t "executable" none executable = .valid d.executable
  log : setting t "log" false truth = .valid d.log
  refreshOnCheck : setting t "refresh_on_check" false truth = .valid d.refreshOnCheck
  trace : setting t "trace" false truth = .valid d.trace
  idleTimeout : setting t "idle_timeout" 300.0 nonNegative = .valid d.idleTimeout
  sweepInterval : setting t "sweep_interval" 5.0 positive = .valid d.sweepInterval
  handshakeTimeout : setting t "handshake_timeout" 10.0 positive = .valid d.handshakeTimeout
  callTimeout : setting t "call_timeout" none optionalPositive = .valid d.callTimeout

lemma daemons_eq_valid_iff {v : Raw} {d : DaemonConfig} :
    daemons v = .valid d ↔ ∃ t, v = .table t ∧ DaemonEntries t d := by
  cases v with
  | table t =>
    simp only [daemons, apply_eq_valid_iff, map_eq_valid_iff]
    constructor
    · rintro ⟨_, _, ⟨_, _, ⟨_, _, ⟨_, _, ⟨_, _, ⟨_, _, ⟨_, _, ⟨_, h₁, rfl⟩, h₂, rfl⟩, h₃, rfl⟩, h₄,
        rfl⟩, h₅, rfl⟩, h₆, rfl⟩, h₇, rfl⟩, h₈, rfl⟩
      exact ⟨t, rfl, h₁, h₂, h₃, h₄, h₅, h₆, h₇, h₈⟩
    · rintro ⟨_, ⟨⟩, h⟩
      exact ⟨_, _, ⟨_, _, ⟨_, _, ⟨_, _, ⟨_, _, ⟨_, _, ⟨_, _, ⟨_, h.executable, rfl⟩, h.log, rfl⟩,
        h.refreshOnCheck, rfl⟩, h.trace, rfl⟩, h.idleTimeout, rfl⟩, h.sweepInterval, rfl⟩,
        h.handshakeTimeout, rfl⟩, h.callTimeout, rfl⟩
  | _ => simp [daemons, fail]

/-- The entries of the section on the log are valid one by one. -/
structure LoggingEntries (t : Raw.Table) (l : LoggingConfig) : Prop where
  level : setting t "level" .warning level = .valid l.level
  file : setting t "file" false truth = .valid l.file
  retentionDays : setting t "retention_days" 7 atLeastOne = .valid l.retentionDays

lemma logging_eq_valid_iff {v : Raw} {l : LoggingConfig} :
    logging v = .valid l ↔ ∃ t, v = .table t ∧ LoggingEntries t l := by
  cases v with
  | table t =>
    simp only [logging, apply_eq_valid_iff, map_eq_valid_iff]
    constructor
    · rintro ⟨_, _, ⟨_, _, ⟨_, h₁, rfl⟩, h₂, rfl⟩, h₃, rfl⟩
      exact ⟨t, rfl, h₁, h₂, h₃⟩
    · rintro ⟨_, ⟨⟩, h⟩
      exact ⟨_, _, ⟨_, _, ⟨_, h.level, rfl⟩, h.file, rfl⟩, h.retentionDays, rfl⟩
  | _ => simp [logging, fail]

/-- The paths of the projects are valid, and no home directory is missing for them. -/
lemma projects_eq_valid_iff {env : Environment} {paths : List Path} :
    projects env t = .ok (.valid paths) ↔
      ∃ given, entry t "projects" [] (list path) = .valid given ∧
        List.Forall₂ (fun p q => absolutePath env p = .ok q) given paths := by
  simp only [← Result.mapM_eq_ok_iff]
  unfold projects
  cases entry t "projects" [] (list path) with
  | valid given => cases h : given.mapM (absolutePath env) <;> simp [Except.map, h]
  | invalid issues => simp

end Check

/-- The sections of a configuration are valid one by one. -/
structure Entries (env : Environment) (t : Raw.Table) (c : Config) : Prop where
  projects : Check.projects env t = .ok (.valid c.projects)
  suggest : Check.entry t "suggest" {} Check.daemons = .valid c.suggest
  logging : Check.entry t "logging" {} Check.logging = .valid c.logging

lemma ofRaw_eq_valid_iff {env : Environment} {v : Raw} {c : Config} :
    ofRaw env v = .ok (.valid c) ↔ ∃ t, v = .table t ∧ Entries env t c := by
  cases v with
  | table t =>
    simp only [ofRaw, Result.map_eq_ok_iff, Checked.apply_eq_valid_iff, Checked.map_eq_valid_iff]
    constructor
    · rintro ⟨_, h₁, _, _, ⟨_, _, ⟨_, rfl, rfl⟩, h₂, rfl⟩, h₃, rfl⟩
      exact ⟨t, rfl, h₁, h₂, h₃⟩
    · rintro ⟨_, ⟨⟩, h⟩
      exact ⟨_, h.projects, _, _, ⟨_, _, ⟨_, rfl, rfl⟩, h.suggest, rfl⟩, h.logging, rfl⟩
  | _ => simp [ofRaw, Checked.fail]

end Config

end SuggestBridge
