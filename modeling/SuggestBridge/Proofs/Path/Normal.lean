import SuggestBridge.Path.Basic
import SuggestBridge.Proofs.Text.Pieces
import Mathlib.Data.List.TakeWhile

/-!
# Normal paths

Against a working directory that starts at the root, the normal form of every path is the text of a
path of one or two leading slashes and ordinary components (`exists_normalize_eq`).  Such a text is read
back as that path, and is its own normal form.

The normal form of a text depends on its leading slashes and on the components behind them only
(`normalize_eq`): the components go one after the other onto a stack that holds those of the working
directory, unless the path starts at the root itself.
-/

namespace SuggestBridge.Path

variable {t p cwd : Text} {n : Nat} {stack cs : List Text} {q : Path}

/-! ## Leading slashes and components -/

/-- The components of a text, as they stand behind its leading slashes. -/
def components (t : Text) : List Text :=
  match t.drop (leadingSlashes t) with
  | [] => []
  | c :: r => Text.splitAt separator (c :: r)

/-- A component that names an entry of a directory. -/
structure Ordinary (c : Text) : Prop where
  ne_nil : c ≠ []
  ne_here : c ≠ here
  ne_above : c ≠ above
  separator_not_mem : separator ∉ c

lemma leadingSlashes_le (t : Text) :
    leadingSlashes t ≤ (t.takeWhile (· == separator)).length := by
  rw [leadingSlashes]
  generalize (t.takeWhile (· == separator)).length = k
  rcases k with _ | _ | _ | k <;> simp

lemma leadingSlashes_eq_zero_iff : leadingSlashes t = 0 ↔ isAbsolute t = false := by
  cases t with
  | nil => simp [leadingSlashes, isAbsolute]
  | cons c r =>
    by_cases hc : c = separator
    · subst hc
      simp only [leadingSlashes, isAbsolute, List.takeWhile_cons, List.head?_cons, beq_self_eq_true,
        if_true, List.length_cons, Bool.true_eq_false, iff_false]
      split <;> omega
    · simp [leadingSlashes, isAbsolute, hc]

/-- A text consists of its leading slashes and of what stands behind them. -/
lemma eq_replicate_append (t : Text) :
    t = List.replicate (leadingSlashes t) separator ++ t.drop (leadingSlashes t) := by
  have hprefix := List.takeWhile_prefix (l := t) (· == separator)
  have htake : t.take (leadingSlashes t) =
      (t.takeWhile (· == separator)).take (leadingSlashes t) := by
    rw [List.prefix_iff_eq_take.1 hprefix, List.take_take, Nat.min_eq_left (leadingSlashes_le t)]
  have hslashes : t.take (leadingSlashes t) = List.replicate (leadingSlashes t) separator := by
    refine List.eq_replicate_iff.2 ⟨?_, fun c hc => ?_⟩
    · rw [htake, List.length_take, Nat.min_eq_left (leadingSlashes_le t)]
    · rw [htake] at hc
      simpa using List.mem_takeWhile_imp (List.mem_of_mem_take hc)
  conv_lhs => rw [← List.take_append_drop (leadingSlashes t) t, hslashes]

lemma takeWhile_eq_nil (ht : t.head? ≠ some separator) : t.takeWhile (· == separator) = [] := by
  cases t with
  | nil => rfl
  | cons c r =>
    rw [List.head?_cons, ne_eq, Option.some_inj] at ht
    simp [ht]

lemma leadingSlashes_replicate (hn : n = 1 ∨ n = 2) (ht : t.head? ≠ some separator) :
    leadingSlashes (List.replicate n separator ++ t) = n := by
  rw [leadingSlashes, List.takeWhile_append, List.takeWhile_replicate, takeWhile_eq_nil ht]
  rcases hn with rfl | rfl <;> simp

/-! ## The stack of components -/

lemma pushComponent_nil (rooted : Bool) (stack : List Text) :
    pushComponent rooted stack [] = stack := rfl

lemma pushComponent_here (rooted : Bool) (stack : List Text) :
    pushComponent rooted stack here = stack := by
  simp [pushComponent]

lemma pushComponent_ordinary {c : Text} (hc : Ordinary c) (rooted : Bool) (stack : List Text) :
    pushComponent rooted stack c = c :: stack := by
  simp [pushComponent, hc.ne_nil, hc.ne_here, hc.ne_above]

/-- Going up takes back the last component. -/
lemma pushComponent_above {c : Text} (hc : Ordinary c) (stack : List Text) :
    pushComponent true (c :: stack) above = stack := by
  have hne : (c == above) = false := by simpa using hc.ne_above
  change (if (c == above) = true then above :: c :: stack else stack) = stack
  rw [hne, if_neg Bool.false_ne_true]

lemma ordinary_pushComponent (hstack : ∀ c ∈ stack, Ordinary c) {c : Text} (hc : separator ∉ c) :
    ∀ d ∈ pushComponent true stack c, Ordinary d := by
  by_cases hnil : c = []
  · subst hnil
    exact hstack
  by_cases hhere : c = here
  · subst hhere
    rwa [pushComponent_here]
  by_cases habove : c = above
  · subst habove
    cases stack with
    | nil => exact hstack
    | cons top rest =>
      rw [pushComponent_above (hstack top (by simp))]
      exact fun d hd => hstack d (.tail top hd)
  · have hordinary : Ordinary c := ⟨hnil, hhere, habove, hc⟩
    rw [pushComponent_ordinary hordinary]
    intro d hd
    rcases List.mem_cons.1 hd with rfl | hd
    · exact hordinary
    · exact hstack d hd

lemma ordinary_foldl (hstack : ∀ c ∈ stack, Ordinary c) (hcs : ∀ c ∈ cs, separator ∉ c) :
    ∀ d ∈ cs.foldl (pushComponent true) stack, Ordinary d := by
  induction cs generalizing stack with
  | nil => exact hstack
  | cons c cs ih =>
    exact ih (ordinary_pushComponent hstack (hcs c (by simp))) fun d hd => hcs d (.tail c hd)

lemma foldl_ordinary (hcs : ∀ c ∈ cs, Ordinary c) (stack : List Text) :
    cs.foldl (pushComponent true) stack = cs.reverse ++ stack := by
  induction cs generalizing stack with
  | nil => rfl
  | cons c cs ih =>
    rw [List.foldl_cons, pushComponent_ordinary (hcs c (by simp)),
      ih (fun d hd => hcs d (.tail c hd))]
    simp

lemma foldl_replicate_nil (n : Nat) (stack : List Text) :
    (List.replicate n []).foldl (pushComponent true) stack = stack := by
  induction n with
  | zero => rfl
  | succ n ih => rwa [List.replicate_succ, List.foldl_cons, pushComponent_nil]

/-- Leading slashes put nothing on the stack. -/
lemma foldl_splitAt (t : Text) (stack : List Text) :
    (Text.splitAt separator t).foldl (pushComponent true) stack =
      (components t).foldl (pushComponent true) stack := by
  conv_lhs => rw [eq_replicate_append t]
  rw [Text.splitAt_replicate_append, List.foldl_append, foldl_replicate_nil, components]
  cases t.drop (leadingSlashes t) with
  | nil => rfl
  | cons c r => rfl

lemma separator_not_mem_of_components {c : Text} (hc : c ∈ components t) : separator ∉ c := by
  rw [components] at hc
  split at hc
  · cases hc
  · exact Text.not_mem_of_mem_splitAt hc

/-! ## The normal form -/

/-- The leading slashes of the normal form. -/
def startSlashes (cwd p : Text) : Nat :=
  if isAbsolute p then leadingSlashes p else leadingSlashes cwd

/-- The stack on which the components of a path are put. -/
def startStack (cwd p : Text) : List Text :=
  if isAbsolute p then [] else (components cwd).foldl (pushComponent true) []

/-- What stands below a working directory has its leading slashes. -/
lemma leadingSlashes_join (hcwd : isAbsolute cwd = true) (hp : isAbsolute p = false) :
    leadingSlashes (join cwd p) = leadingSlashes cwd := by
  have hrelative := takeWhile_eq_nil (t := p) (by simpa [isAbsolute] using hp)
  have hne : cwd.isEmpty = false := by
    cases cwd with
    | nil => simp [isAbsolute] at hcwd
    | cons c r => rfl
  have hsame : (join cwd p).takeWhile (· == separator) = cwd.takeWhile (· == separator) := by
    rw [join, if_neg (by simp [hp]), hne, Bool.false_or]
    split
    · rw [List.takeWhile_append, hrelative, List.append_nil]
      split
      · next hall => exact (List.takeWhile_prefix _).eq_of_length hall |>.symm
      · rfl
    · next hlast =>
      rw [List.takeWhile_append, if_neg]
      intro hall
      -- a working directory of slashes only would end in one
      have hself := (List.takeWhile_prefix (l := cwd) (· == separator)).eq_of_length hall
      have hcwd' : cwd ≠ [] := by simpa using hne
      have hend := List.takeWhile_eq_self_iff.1 hself _ (List.getLast_mem hcwd')
      exact hlast (by rw [List.getLast?_eq_some_getLast hcwd', beq_iff_eq.1 hend, beq_self_eq_true])
  rw [leadingSlashes, leadingSlashes, hsame]

/-- The components of a path below a working directory go onto those of the working directory. -/
lemma foldl_join (hp : isAbsolute p = false) :
    (Text.splitAt separator (join cwd p)).foldl (pushComponent true) [] =
      (components p).foldl (pushComponent true)
        ((components cwd).foldl (pushComponent true) []) := by
  rw [← foldl_splitAt cwd, ← foldl_splitAt p, join, if_neg (by simp [hp])]
  split
  · next hend =>
    rcases Bool.or_eq_true_iff.1 hend with hnil | hlast
    · rw [List.isEmpty_iff.1 hnil]
      rfl
    · obtain ⟨dir, rfl⟩ := List.getLast?_eq_some_iff.1 (beq_iff_eq.1 hlast)
      rw [List.append_assoc, List.singleton_append, Text.splitAt_append_sep,
        Text.splitAt_append_sep, List.foldl_append, List.foldl_append]
      rfl
  · rw [Text.splitAt_append_sep, List.foldl_append]

lemma startSlashes_ne_zero (hcwd : isAbsolute cwd = true) (p : Text) : startSlashes cwd p ≠ 0 := by
  rw [startSlashes]
  split
  · next hp => simp [leadingSlashes_eq_zero_iff, hp]
  · simp [leadingSlashes_eq_zero_iff, hcwd]

/-- The normal form by the leading slashes and the components of a path. -/
lemma normalize_eq (hcwd : isAbsolute cwd = true) (p : Text) :
    normalize cwd p = assemble (startSlashes cwd p)
      ((components p).foldl (pushComponent true) (startStack cwd p)).reverse := by
  have hrooted := startSlashes_ne_zero hcwd p
  cases hp : isAbsolute p with
  | true =>
    rw [startSlashes, if_pos hp] at hrooted
    rw [normalize, join, if_pos hp, startSlashes, if_pos hp, startStack, if_pos hp, normalForm,
      normalComponents, decide_eq_true hrooted, foldl_splitAt]
  | false =>
    have hnot : ¬isAbsolute p = true := by simp [hp]
    rw [startSlashes, if_neg hnot] at hrooted
    rw [normalize, startSlashes, if_neg hnot, startStack, if_neg hnot, normalForm, normalComponents,
      leadingSlashes_join hcwd hp, decide_eq_true hrooted, foldl_join hp]

/-! ## Canonical paths -/

/-- A path of one or two leading slashes and ordinary components. -/
structure Canonical (q : Path) : Prop where
  slashes : q.slashes = 1 ∨ q.slashes = 2
  parts : ∀ c ∈ q.parts, Ordinary c

lemma leadingSlashes_le_two (t : Text) : leadingSlashes t ≤ 2 := by
  rw [leadingSlashes]
  split <;> omega

/-- Every normal form is the text of a canonical path. -/
lemma exists_normalize_eq (hcwd : isAbsolute cwd = true) (p : Text) :
    ∃ q : Path, q.Canonical ∧ normalize cwd p = q.toText := by
  have hstart : ∀ c ∈ startStack cwd p, Ordinary c := by
    rw [startStack]
    split
    · simp
    · exact ordinary_foldl (by simp) fun c hc => separator_not_mem_of_components hc
  have hslashes : startSlashes cwd p ≤ 2 := by
    rw [startSlashes]
    split <;> exact leadingSlashes_le_two _
  have hrooted := startSlashes_ne_zero hcwd p
  have hcount : startSlashes cwd p = 1 ∨ startSlashes cwd p = 2 := by omega
  refine ⟨⟨startSlashes cwd p, _⟩, ⟨hcount, fun c hc => ?_⟩, normalize_eq hcwd p⟩
  exact ordinary_foldl hstart (fun c hc => separator_not_mem_of_components hc) c
    (List.mem_reverse.1 hc)

namespace Canonical

lemma toText_eq (hq : q.Canonical) :
    q.toText = List.replicate q.slashes separator ++ Text.join [separator] q.parts := by
  rw [toText, assemble]
  rcases hq.slashes with h | h <;> simp [h, List.replicate_succ]

lemma head?_parts (hq : q.Canonical) : (Text.join [separator] q.parts).head? ≠ some separator :=
  Text.head?_join_ne (fun c hc => (hq.parts c hc).ne_nil) fun c hc =>
    (hq.parts c hc).separator_not_mem

lemma leadingSlashes_toText (hq : q.Canonical) : leadingSlashes q.toText = q.slashes := by
  rw [hq.toText_eq]
  exact leadingSlashes_replicate hq.slashes hq.head?_parts

lemma isAbsolute_toText (hq : q.Canonical) : isAbsolute q.toText = true := by
  have hne : leadingSlashes q.toText ≠ 0 := by
    rw [hq.leadingSlashes_toText]
    rcases hq.slashes with h | h <;> omega
  rwa [ne_eq, leadingSlashes_eq_zero_iff, Bool.not_eq_false] at hne

lemma components_toText (hq : q.Canonical) : components q.toText = q.parts := by
  have hdrop : q.toText.drop (leadingSlashes q.toText) = Text.join [separator] q.parts := by
    rw [hq.leadingSlashes_toText, hq.toText_eq, List.drop_left' List.length_replicate]
  have hjoin : Text.join [separator] q.parts = [] ↔ q.parts = [] :=
    Text.join_eq_nil_iff fun c hc => (hq.parts c hc).ne_nil
  rw [components, hdrop]
  split
  · next hnil => exact (hjoin.1 hnil).symm
  · next c r hcons =>
    rw [← hcons]
    refine Text.splitAt_join (fun hnil => ?_) fun c hc => (hq.parts c hc).separator_not_mem
    rw [hjoin.2 hnil] at hcons
    cases hcons

/-- The text of a canonical path is its own normal form. -/
lemma normalize_toText (hq : q.Canonical) (hcwd : isAbsolute cwd = true) :
    normalize cwd q.toText = q.toText := by
  rw [normalize_eq hcwd, startSlashes, if_pos hq.isAbsolute_toText, startStack,
    if_pos hq.isAbsolute_toText, hq.leadingSlashes_toText, hq.components_toText,
    foldl_ordinary hq.parts, List.append_nil, List.reverse_reverse, toText]

/-- The text of a canonical path is read back as that path. -/
lemma ofText_toText (hq : q.Canonical) : ofText q.toText = q := by
  have hkept : ∀ c ∈ q.parts, (!c.isEmpty && c != here) = true := fun c hc => by
    simp [(hq.parts c hc).ne_nil, (hq.parts c hc).ne_here]
  have hempty : ∀ n, (List.replicate n ([] : Text)).filter (fun c => !c.isEmpty && c != here) = [] := by
    simp
  have hparts : (Text.splitAt separator q.toText).filter (fun c => !c.isEmpty && c != here) =
      q.parts := by
    rw [hq.toText_eq, Text.splitAt_replicate_append, List.filter_append, hempty, List.nil_append]
    by_cases hnil : q.parts = []
    · rw [hnil]
      rfl
    · rw [Text.splitAt_join hnil fun c hc => (hq.parts c hc).separator_not_mem,
        List.filter_eq_self.2 hkept]
  rw [ofText, hq.leadingSlashes_toText, hparts]

/-- Only a bare root ends in a slash. -/
lemma parts_eq_nil_of_getLast? (hq : q.Canonical) (h : q.toText.getLast? = some separator) :
    q.parts = [] := by
  by_contra hne
  have hjoin : Text.join [separator] q.parts ≠ [] :=
    (Text.join_eq_nil_iff fun c hc => (hq.parts c hc).ne_nil).not.2 hne
  rw [hq.toText_eq, List.getLast?_append_of_ne_nil _ hjoin] at h
  exact Text.getLast?_join_ne (fun c hc => (hq.parts c hc).ne_nil)
    (fun c hc => (hq.parts c hc).separator_not_mem) h

lemma parent (hq : q.Canonical) : q.parent.Canonical :=
  ⟨hq.slashes, fun c hc => hq.parts c (List.dropLast_subset _ hc)⟩

end Canonical

end SuggestBridge.Path
