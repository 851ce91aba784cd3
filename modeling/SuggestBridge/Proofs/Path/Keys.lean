import SuggestBridge.Path.Project
import SuggestBridge.Proofs.Path.Normal
import SuggestBridge.Proofs.Supervisor.Soundness
import Mathlib.Logic.Relation

/-!
# Keys of projects

The key of a project is the normal form of the path that it was made of, although it is found by
taking that path apart and putting it together again (`Project.key_ofPath`).

Two spellings of a path have one normal form if one of them has slashes, `.` components or a component
followed by `..` where the other has none.  So they make one project, and whoever asks for the daemon
of the one finds the daemon of the other (`canonicalKeys_of_isAbsolute`).
-/

namespace SuggestBridge

open Path

variable {cwd p q : Text} {cs ds : List Text}

/-! ## Spellings of a path -/

namespace Path

/-- Components, and the same components with a further one that leads nowhere, or with two of which
the second leads back. -/
inductive Inserted : List Text → List Text → Prop
  | slash (before after : List Text) : Inserted (before ++ after) (before ++ [] :: after)
  | here (before after : List Text) : Inserted (before ++ after) (before ++ here :: after)
  | detour (before after : List Text) {c : Text} :
      Ordinary c → Inserted (before ++ after) (before ++ c :: above :: after)

/-- The second text spells the path of the first with an insertion behind the leading slashes. -/
def Respelled (p q : Text) : Prop :=
  leadingSlashes p = leadingSlashes q ∧ Inserted (components p) (components q)

/-- Two spellings that differ by any number of insertions, made and taken back. -/
def SamePath : Text → Text → Prop := Relation.EqvGen Respelled

lemma Inserted.foldl (h : Inserted cs ds) (stack : List Text) :
    ds.foldl (pushComponent true) stack = cs.foldl (pushComponent true) stack := by
  cases h with
  | slash before after => rw [List.foldl_append, List.foldl_append, List.foldl_cons, pushComponent_nil]
  | here before after => rw [List.foldl_append, List.foldl_append, List.foldl_cons, pushComponent_here]
  | detour before after hc =>
    rw [List.foldl_append, List.foldl_append, List.foldl_cons, List.foldl_cons,
      pushComponent_ordinary hc, pushComponent_above hc]

lemma isAbsolute_congr (h : leadingSlashes p = leadingSlashes q) : isAbsolute p = isAbsolute q := by
  have hiff : isAbsolute p = false ↔ isAbsolute q = false := by
    rw [← leadingSlashes_eq_zero_iff, ← leadingSlashes_eq_zero_iff, h]
  rcases hp : isAbsolute p with _ | _ <;> rcases hq : isAbsolute q with _ | _ <;> simp_all

/-- An insertion does not change the normal form. -/
lemma Respelled.normalize_eq (hcwd : isAbsolute cwd = true) (h : Respelled p q) :
    normalize cwd p = normalize cwd q := by
  obtain ⟨hslashes, hinserted⟩ := h
  have habs := isAbsolute_congr hslashes
  have hstart : startSlashes cwd p = startSlashes cwd q := by
    rw [startSlashes, startSlashes, habs, hslashes]
  have hstack : startStack cwd p = startStack cwd q := by rw [startStack, startStack, habs]
  rw [Path.normalize_eq hcwd, Path.normalize_eq hcwd, hinserted.foldl, hstart, hstack]

lemma SamePath.normalize_eq (hcwd : isAbsolute cwd = true) (h : SamePath p q) :
    normalize cwd p = normalize cwd q := by
  induction h with
  | rel _ _ h => exact h.normalize_eq hcwd
  | refl _ => rfl
  | symm _ _ _ ih => exact ih.symm
  | trans _ _ _ _ _ ih₁ ih₂ => exact ih₁.trans ih₂

/-! ## Taking a path apart -/

lemma ofText_ordinary {c : Text} (hc : Ordinary c) : ofText c = ⟨0, [c]⟩ := by
  have hrelative : leadingSlashes c = 0 := by
    rw [leadingSlashes_eq_zero_iff]
    cases c with
    | nil => rfl
    | cons d r =>
      have hd : d ≠ separator := fun h => hc.separator_not_mem (h ▸ List.mem_cons_self ..)
      simpa [isAbsolute] using hd
  rw [ofText, hrelative, Text.splitAt_of_not_mem hc.separator_not_mem]
  simp [hc.ne_nil, hc.ne_here]

/-- The name of a canonical path below its parent is the path again. -/
lemma Canonical.below_parent {x : Path} (hx : x.Canonical) : x.parent.below x.name = x := by
  obtain ⟨slashes, parts⟩ := x
  rcases List.eq_nil_or_concat parts with rfl | ⟨init, c, rfl⟩
  · rfl
  · have hc : Ordinary c := hx.parts c (by simp)
    have hname : name ⟨slashes, init.concat c⟩ = c := by simp [name]
    rw [hname, below, ofText_ordinary hc]
    simp [isRooted, Path.parent]

/-- What a normal path looks like. -/
structure IsNormal (t : Text) : Prop where
  absolute : isAbsolute t = true
  /-- No component is empty, the directory itself or the directory above. -/
  ordinary : ∀ c ∈ components t, c ≠ [] ∧ c ≠ here ∧ c ≠ above
  /-- Only a bare root ends in a slash. -/
  trailing : t.getLast? = some separator → t = [separator] ∨ t = [separator, separator]

lemma Canonical.isNormal {x : Path} (hx : x.Canonical) : IsNormal x.toText where
  absolute := hx.isAbsolute_toText
  ordinary c hc := by
    rw [hx.components_toText] at hc
    exact ⟨(hx.parts c hc).ne_nil, (hx.parts c hc).ne_here, (hx.parts c hc).ne_above⟩
  trailing h := by
    rw [hx.toText_eq, hx.parts_eq_nil_of_getLast? h]
    rcases hx.slashes with h | h <;> simp [h, Text.join, List.replicate_succ]

end Path

/-! ## The key of a path -/

namespace Project

/-- The path of a project is the normal form of the path that it was made of. -/
lemma path_ofPath (hcwd : isAbsolute cwd = true) (p : Text) :
    (ofPath cwd p).path.toText = normalize cwd p := by
  obtain ⟨x, hx, hp⟩ := exists_normalize_eq hcwd p
  rw [ofPath, hp, hx.ofText_toText, path, hx.below_parent]

lemma key_ofPath (hcwd : isAbsolute cwd = true) (p : Text) :
    (ofPath cwd p).key cwd = normalize cwd p := by
  obtain ⟨x, hx, hp⟩ := exists_normalize_eq hcwd p
  rw [key, path_ofPath hcwd, hp, hx.normalize_toText hcwd]

end Project

/-! ## One slot for one key -/

/-- Whoever asks with the same key finds the startup that was begun before, and begins none. -/
lemma Supervisor.startupFor_again (s : Supervisor) {project project' : Project}
    (h : project'.key s.cwd = project.key s.cwd) :
    (s.startupFor project).1.startupFor project' = s.startupFor project := by
  rw [startupFor_eq s project]
  split
  · next u hu => rw [startupFor_eq, h, hu]
  · -- the new startup has not ended, so the next one who asks can use it
    have hgoing : (s.fillSlot project).kernel.isDone s.kernel.futures.size = false := by
      rw [Task.Kernel.isDone_eq_false_iff, outcome?_fillSlot]
      exact (Task.Kernel.views_of_size_le (Nat.le_refl _)).1
    have huse : (s.fillSlot project).usable? (project'.key (s.fillSlot project).cwd) =
        some s.kernel.futures.size := by
      have hcwd : (s.fillSlot project).cwd = s.cwd := rfl
      rw [hcwd, h, usable?, get?_fillSlot_self, Option.filter_some, hgoing]
      rfl
    rw [startupFor_eq, huse]

/-- What the keys of projects promise below a working directory. -/
structure CanonicalKeys (cwd : Text) : Prop where
  normal : ∀ p, IsNormal (normalize cwd p)
  idempotent : ∀ p, normalize cwd (normalize cwd p) = normalize cwd p
  key : ∀ p, (Project.ofPath cwd p).key cwd = normalize cwd p
  spelled : ∀ {p q}, SamePath p q → (Project.ofPath cwd p).key cwd = (Project.ofPath cwd q).key cwd
  /-- Asking for the daemon of the one spelling finds the startup that is in the slot of the other. -/
  shared : ∀ {p q}, SamePath p q → ∀ s : Supervisor, s.cwd = cwd →
    (s.startupFor (Project.ofPath cwd p)).1.startupFor (Project.ofPath cwd q) =
      s.startupFor (Project.ofPath cwd p)

/-- **Keys are canonical.**  Below a working directory that starts at the root. -/
theorem canonicalKeys_of_isAbsolute (hcwd : isAbsolute cwd = true) : CanonicalKeys cwd := by
  have hspelled : ∀ {p q}, SamePath p q →
      (Project.ofPath cwd p).key cwd = (Project.ofPath cwd q).key cwd := fun h => by
    rw [Project.key_ofPath hcwd, Project.key_ofPath hcwd, h.normalize_eq hcwd]
  refine ⟨fun p => ?_, fun p => ?_, Project.key_ofPath hcwd, hspelled, fun h s hs => ?_⟩
  · obtain ⟨x, hx, hp⟩ := exists_normalize_eq hcwd p
    exact hp ▸ hx.isNormal
  · obtain ⟨x, hx, hp⟩ := exists_normalize_eq hcwd p
    rw [hp, hx.normalize_toText hcwd]
  · subst hs
    exact s.startupFor_again (hspelled h).symm

/-- A detour and a doubled slash, below a working directory. -/
theorem canonicalKeys_detour :
    isAbsolute "/work" = true ∧ CanonicalKeys "/work" ∧ SamePath "src/a.nim" "src//x/../a.nim" ∧
      (Project.ofPath "/work" "src//x/../a.nim").key "/work" = Text.ofString "/work/src/a.nim" := by
  have hkeys : CanonicalKeys "/work" := canonicalKeys_of_isAbsolute (by decide)
  let src := Text.ofString "src"
  let file := Text.ofString "a.nim"
  have hplain : components "src/a.nim" = [src] ++ [file] := by decide
  have hdoubled : components "src//a.nim" = [src] ++ [] :: [file] := by decide
  have hdetour : components "src//x/../a.nim" = [src, []] ++ Text.ofString "x" :: above :: [file] := by
    decide
  have hslash : Respelled "src/a.nim" "src//a.nim" := by
    refine ⟨by decide, ?_⟩
    rw [hplain, hdoubled]
    exact .slash [src] [file]
  have hback : Respelled "src//a.nim" "src//x/../a.nim" := by
    refine ⟨by decide, ?_⟩
    rw [hdoubled, hdetour]
    exact .detour [src, []] [file] ⟨by decide, by decide, by decide, by decide⟩
  have hsame : SamePath "src/a.nim" "src//x/../a.nim" :=
    .trans _ _ _ (.rel _ _ hslash) (.rel _ _ hback)
  refine ⟨by decide, hkeys, hsame, ?_⟩
  rw [← hkeys.spelled hsame, hkeys.key]
  decide

end SuggestBridge
