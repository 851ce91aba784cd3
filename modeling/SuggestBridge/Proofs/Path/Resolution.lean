import SuggestBridge.Path.Project
import SuggestBridge.Proofs.Path.Normal

/-!
# The project of a file

A file belongs to the first configured project whose directory encloses it, and to the first project
of all if there is none (`resolve_by_components`).  Directories are compared as texts, yet what decides
is their components: a directory never encloses what stands beside it under a longer name.
-/

namespace SuggestBridge

open Path

variable {cwd : Text} {r x : Path}

/-! ## Directories as texts and as components -/

namespace Path

/-- A directory encloses a file if it is a root, or if both have the same leading slashes and the
components of the file begin with those of the directory. -/
def Encloses (root target : Text) : Prop :=
  root = [separator] ∨ root = [separator, separator] ∨
    leadingSlashes root = leadingSlashes target ∧ components root <+: components target

namespace Canonical

lemma bare_iff (hr : r.Canonical) :
    r.toText = [separator] ∨ r.toText = [separator, separator] ↔ r.parts = [] := by
  constructor
  · rintro (h | h) <;> exact hr.parts_eq_nil_of_getLast? (by rw [h]; rfl)
  · intro h
    rw [hr.toText_eq, h]
    rcases hr.slashes with hs | hs <;> simp [hs, Text.join, List.replicate_succ]

lemma encloses_iff (hr : r.Canonical) (hx : x.Canonical) :
    Encloses r.toText x.toText ↔ r.parts = [] ∨ r.slashes = x.slashes ∧ r.parts <+: x.parts := by
  rw [Encloses, ← or_assoc, hr.bare_iff, hr.leadingSlashes_toText, hx.leadingSlashes_toText,
    hr.components_toText, hx.components_toText]

/-- Only the slashes of a bare root stand at the end of a directory. -/
lemma dropEndWhile_toText (hr : r.Canonical) :
    Text.dropEndWhile (· == separator) r.toText = if r.parts = [] then [] else r.toText := by
  split
  · next hnil =>
    rw [hr.toText_eq, hnil, Text.join, List.append_nil, Text.dropEndWhile, List.reverse_replicate,
      List.dropWhile_replicate]
    simp
  · next hne =>
    have hlast : r.toText.reverse.head? ≠ some separator := by
      rw [List.head?_reverse]
      exact fun h => hne (hr.parts_eq_nil_of_getLast? h)
    have hkept : r.toText.reverse.dropWhile (· == separator) = r.toText.reverse := by
      cases hrev : r.toText.reverse with
      | nil => rfl
      | cons c t =>
        rw [hrev, List.head?_cons, ne_eq, Option.some_inj] at hlast
        simp [hlast]
    rw [Text.dropEndWhile, hkept, List.reverse_reverse]

/-- What begins with a directory and a slash has its leading slashes, and components that begin with
its components. -/
lemma prefix_of_toText_prefix (hr : r.Canonical) (hx : x.Canonical) (hne : r.parts ≠ [])
    (h : r.toText ++ [separator] <+: x.toText) : r.slashes = x.slashes ∧ r.parts <+: x.parts := by
  obtain ⟨rest, hrest⟩ := h
  have hjoin : Text.join [separator] r.parts ≠ [] :=
    (Text.join_eq_nil_iff fun c hc => (hr.parts c hc).ne_nil).not.2 hne
  have htext : x.toText = List.replicate r.slashes separator ++
      (Text.join [separator] r.parts ++ separator :: rest) := by
    rw [← hrest, hr.toText_eq]
    simp
  have hhead : (Text.join [separator] r.parts ++ separator :: rest).head? ≠ some separator := by
    rw [List.head?_append_of_ne_nil _ hjoin]
    exact hr.head?_parts
  have hslashes : r.slashes = x.slashes := by
    rw [← hx.leadingSlashes_toText, htext, leadingSlashes_replicate hr.slashes hhead]
  refine ⟨hslashes, Text.splitAt separator rest, ?_⟩
  have hbehind : Text.join [separator] x.parts =
      Text.join [separator] r.parts ++ separator :: rest := by
    rw [hx.toText_eq, ← hslashes] at htext
    exact List.append_cancel_left htext
  have hxne : x.parts ≠ [] := by
    intro hnil
    rw [hnil, Text.join] at hbehind
    simp at hbehind
  rw [← Text.splitAt_join hxne fun c hc => (hx.parts c hc).separator_not_mem, hbehind,
    Text.splitAt_append_sep,
    Text.splitAt_join hne fun c hc => (hr.parts c hc).separator_not_mem]

/-- The texts of a directory and of what lies below it. -/
lemma toText_prefix (hr : r.Canonical) (hx : x.Canonical) (hne : r.parts ≠ [])
    (hslashes : r.slashes = x.slashes) (h : r.parts <+: x.parts) :
    x.toText = r.toText ∨ r.toText ++ [separator] <+: x.toText := by
  obtain ⟨more, hmore⟩ := h
  rw [hr.toText_eq, hx.toText_eq, ← hslashes, ← hmore]
  by_cases hnil : more = []
  · subst hnil
    exact .inl (by rw [List.append_nil])
  · refine .inr ⟨Text.join [separator] more, ?_⟩
    rw [Text.join_append hne hnil]
    simp

end Canonical

end Path

/-! ## The comparison -/

namespace Project

/-- The comparison of normal paths as texts is that of their components. -/
lemma contains_iff (hr : r.Canonical) (hx : x.Canonical) :
    contains r.toText x.toText = true ↔ Encloses r.toText x.toText := by
  rw [hr.encloses_iff hx, contains, Bool.or_eq_true, beq_iff_eq, Text.startsWith,
    List.isPrefixOf_iff_prefix, hr.dropEndWhile_toText]
  by_cases hnil : r.parts = []
  · obtain ⟨c, t, htext⟩ : ∃ c t, x.toText = c :: t := by
      refine List.exists_cons_of_ne_nil fun h => ?_
      have := hx.isAbsolute_toText
      rw [h] at this
      cases this
    have hc : c = separator := by
      have := hx.isAbsolute_toText
      rw [htext] at this
      simpa [isAbsolute] using this
    simp [hnil, htext, hc]
  · rw [if_neg hnil]
    constructor
    · rintro (heq | hprefix)
      · have hsame : x = r := by rw [← hx.ofText_toText, heq, hr.ofText_toText]
        subst hsame
        exact .inr ⟨rfl, List.prefix_rfl⟩
      · exact .inr (hr.prefix_of_toText_prefix hx hnil hprefix)
    · rintro (h | ⟨hslashes, hparts⟩)
      · exact absurd h hnil
      · exact hr.toText_prefix hx hnil hslashes hparts

/-- The directory of a project, as it is compared. -/
def rootText (cwd : Text) (p : Project) : Text := normalize cwd p.root.toText

lemma contains_rootText_iff (hcwd : isAbsolute cwd = true) (path file : Text) :
    contains ((ofPath cwd path).rootText cwd) (normalize cwd file) = true ↔
      Encloses ((ofPath cwd path).rootText cwd) (normalize cwd file) := by
  obtain ⟨y, hy, hpath⟩ := exists_normalize_eq hcwd path
  obtain ⟨x, hx, hfile⟩ := exists_normalize_eq hcwd file
  have hroot : (ofPath cwd path).rootText cwd = y.parent.toText := by
    rw [rootText, ofPath, hpath, hy.ofText_toText, hy.parent.normalize_toText hcwd]
  rw [hroot, hfile, contains_iff hy.parent hx]

/-- The first of the projects for which something holds. -/
def IsFirst (P : Project → Prop) (projects : List Project) (p : Project) : Prop :=
  ∃ before after, projects = before ++ p :: after ∧ P p ∧ ∀ q ∈ before, ¬P q

/-- How a file finds its project among the configured ones. -/
structure Resolved (cwd : Text) (projects : List Project) (file : Text) : Prop where
  /-- The first project whose directory encloses the file, if there is one. -/
  enclosing : ∀ p, IsFirst (fun q => Encloses (q.rootText cwd) (normalize cwd file)) projects p →
    resolve cwd projects file = p
  /-- Else the first project of all. -/
  fallback : (∀ q ∈ projects, ¬Encloses (q.rootText cwd) (normalize cwd file)) →
    projects.head? = some (resolve cwd projects file)
  /-- A directory does not enclose what stands beside it under a longer name. -/
  sibling : ∀ p ∈ projects, ∀ dirs name more below, more ≠ [] →
    components (p.rootText cwd) = dirs ++ [name] →
    components (normalize cwd file) = dirs ++ (name ++ more) :: below →
    contains (p.rootText cwd) (normalize cwd file) = false

lemma contains_of_mem (hcwd : isAbsolute cwd = true) {paths : List Text} {p : Project}
    (hp : p ∈ paths.map (ofPath cwd)) (file : Text) :
    contains (p.rootText cwd) (normalize cwd file) = true ↔
      Encloses (p.rootText cwd) (normalize cwd file) := by
  obtain ⟨path, -, rfl⟩ := List.mem_map.1 hp
  exact contains_rootText_iff hcwd path file

/-- A directory of the name `name` and what stands beside it have no components in common there. -/
lemma not_encloses_sibling {root target : Text} {dirs below : List Text} {name more : Text}
    (hmore : more ≠ []) (hroot : components root = dirs ++ [name])
    (htarget : components target = dirs ++ (name ++ more) :: below) : ¬Encloses root target := by
  rintro (h | h | ⟨-, h⟩)
  · rw [h] at hroot
    cases dirs <;> cases hroot
  · rw [h] at hroot
    cases dirs <;> cases hroot
  · rw [hroot, htarget, List.prefix_append_right_inj, List.cons_prefix_cons] at h
    exact hmore (List.append_right_eq_self.1 h.1.symm)

lemma resolve_cons (first : Project) (rest : List Project) (file : Text) :
    resolve cwd (first :: rest) file =
      ((first :: rest).find? fun p => contains (p.rootText cwd) (normalize cwd file)).getD first :=
  rfl

/-- **A file is resolved by the components of its path.**  Below a working directory that starts at
the root, among any configured projects. -/
theorem resolve_by_components (hcwd : isAbsolute cwd = true) {paths : List Text} (hne : paths ≠ [])
    (file : Text) : Resolved cwd (paths.map (ofPath cwd)) file := by
  have hmem : ∀ p ∈ paths.map (ofPath cwd), contains (p.rootText cwd) (normalize cwd file) = true ↔
      Encloses (p.rootText cwd) (normalize cwd file) := fun p hp => contains_of_mem hcwd hp file
  obtain ⟨path, rest, rfl⟩ := List.exists_cons_of_ne_nil hne
  rw [List.map_cons] at hmem ⊢
  refine ⟨fun p hfirst => ?_, fun hnone => ?_, ?_⟩
  · obtain ⟨before, after, hprojects, hp, hbefore⟩ := hfirst
    have hfind : (ofPath cwd path :: rest.map (ofPath cwd)).find?
        (fun q => contains (q.rootText cwd) (normalize cwd file)) = some p := by
      refine List.find?_eq_some_iff_append.2
        ⟨(hmem p (by simp [hprojects])).2 hp, before, after, hprojects, fun q hq => ?_⟩
      have hpassed := (hmem q (by simp [hprojects, hq])).not.2 (hbefore q hq)
      simpa using hpassed
    rw [resolve_cons, hfind, Option.getD_some]
  · rw [resolve_cons, List.find?_eq_none.2 fun q hq => (hmem q hq).not.2 (hnone q hq),
      Option.getD_none, List.head?_cons]
  · intro p hp dirs name more below hmore hroot htarget
    rw [← Bool.not_eq_true, hmem p hp]
    exact not_encloses_sibling hmore hroot htarget

/-- Two projects beside each other, the name of one being the beginning of the other's. -/
theorem resolve_beside :
    isAbsolute "/" = true ∧ [Text.ofString "/w/a/a.nim", "/w/ab/b.nim"] ≠ [] ∧
      Resolved "/" ([Text.ofString "/w/a/a.nim", "/w/ab/b.nim"].map (ofPath "/")) "/w/ab/x.nim" ∧
      resolve "/" ([Text.ofString "/w/a/a.nim", "/w/ab/b.nim"].map (ofPath "/")) "/w/ab/x.nim" =
        ofPath "/" "/w/ab/b.nim" := by
  have hne : [Text.ofString "/w/a/a.nim", "/w/ab/b.nim"] ≠ [] := by simp
  have hresolved := @resolve_by_components "/" (by decide) _ hne "/w/ab/x.nim"
  refine ⟨by decide, hne, hresolved,
    hresolved.enclosing _ ⟨[ofPath "/" "/w/a/a.nim"], [], rfl, ?_, ?_⟩⟩
  · exact .inr (.inr ⟨by decide, by decide⟩)
  · intro q hq
    rw [List.mem_singleton.1 hq]
    rintro (h | h | ⟨-, h⟩)
    · exact absurd h (by decide)
    · exact absurd h (by decide)
    · exact absurd h (by decide)

end Project

end SuggestBridge
