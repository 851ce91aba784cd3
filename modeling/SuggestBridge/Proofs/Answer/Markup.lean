import SuggestBridge.Answer.Markup
import Mathlib.Data.List.Infix
import Mathlib.Data.List.TakeWhile

/-!
# Documents of inline markup

A document of plain text, literals and links is converted segment by segment exactly if no backtick
around a literal reads as the beginning of a link (`toMarkdown_segment_by_segment`).

The conversion halves the double backticks of all literals first, and then looks for links in the
result.  There the backtick at either end of a literal looks like that of a link, and what follows it
may read as one: a literal that holds `<`, or `<` in the text behind a literal, takes everything as a
target up to the next `>` that a backtick and an underscore follow.  `literal_taken_for_link` is such a
document; without `<` outside of links there is none (`undisturbed_of_bracketless`).
-/

namespace SuggestBridge.Markup

open CodePoint (ofChar)

/-! ## Segments -/

/-- What stands before the target of a link. -/
structure IsLabel (t : Text) : Prop where
  ne_nil : t ≠ []
  no_backtick : ofChar '`' ∉ t
  no_bracket : ofChar '<' ∉ t

/-- The target of a link. -/
structure IsTarget (t : Text) : Prop where
  ne_nil : t ≠ []
  no_bracket : ofChar '>' ∉ t

/-- A part of a document. -/
inductive Segment where
  | plain (t : Text) (h : ofChar '`' ∉ t)
  | literal (t : Text) (hne : t ≠ []) (h : ofChar '`' ∉ t)
  | link (label target : Text) (hlabel : IsLabel label) (htarget : IsTarget target)
      (h : ofChar '`' ∉ target)

namespace Segment

/-- How a segment is written. -/
def source : Segment → Text
  | plain t _ => t
  | literal t _ _ => "``" ++ t ++ "``"
  | link label target _ _ _ => "`" ++ label ++ "<" ++ target ++ ">`_"

/-- A segment once the double backticks are halved. -/
def halved : Segment → Text
  | plain t _ => t
  | literal t _ _ => "`" ++ t ++ "`"
  | link label target _ _ _ => "`" ++ label ++ "<" ++ target ++ ">`_"

/-- The Markdown of a segment. -/
def markdown : Segment → Text
  | plain t _ => t
  | literal t _ _ => "`" ++ t ++ "`"
  | link label target _ _ _ => "[" ++ label ++ "](" ++ target ++ ")"

end Segment

/-! ## Beginnings of links -/

/-- Behind a backtick, the text reads as the rest of a link. -/
def Opens (t : Text) : Prop :=
  ∃ label target rest, IsLabel label ∧ IsTarget target ∧
    t = label ++ ofChar '<' :: (target ++ (">`_" ++ rest))

lemma takeWhile_stop {p : CodePoint → Bool} {t : Text} {c : CodePoint} (ht : ∀ d ∈ t, p d = true)
    (hc : p c = false) (r : Text) : (t ++ c :: r).takeWhile p = t := by
  rw [List.takeWhile_append_of_pos ht, List.takeWhile_cons_of_neg (by simp [hc]), List.append_nil]

lemma link_of_ne {c : CodePoint} (hc : c ≠ ofChar '`') (r : Text) : link (c :: r) = none := by
  rw [link, if_pos hc]

lemma link_eq_some {label target : Text} (hlabel : IsLabel label) (htarget : IsTarget target)
    (rest : Text) :
    link (ofChar '`' :: (label ++ ofChar '<' :: (target ++ (">`_" ++ rest)))) =
      some ("[" ++ label ++ "](" ++ target ++ ")", label.length + target.length + 5) := by
  have hlabelEnd := takeWhile_stop
    (p := fun c => c ≠ ofChar '<' && c ≠ ofChar '`') (t := label) (c := ofChar '<')
    (fun d hd => by
      have h₁ : d ≠ ofChar '<' := fun h => hlabel.no_bracket (h ▸ hd)
      have h₂ : d ≠ ofChar '`' := fun h => hlabel.no_backtick (h ▸ hd)
      simp [h₁, h₂]) (by simp) (target ++ (">`_" ++ rest))
  have htargetEnd := takeWhile_stop
    (p := fun c => c ≠ ofChar '>') (t := target) (c := ofChar '>')
    (fun d hd => by simpa using fun h : d = ofChar '>' => htarget.no_bracket (h ▸ hd)) (by simp)
    (ofChar '`' :: ofChar '_' :: rest)
  have hend : Text.ofString ">`_" ++ rest = ofChar '>' :: ofChar '`' :: ofChar '_' :: rest := rfl
  rw [link, if_neg (not_not.2 rfl), hlabelEnd, hend]
  simp only [List.drop_left, List.head?_cons, List.drop_one, List.tail_cons, htargetEnd]
  rw [if_neg (by simp [hlabel.ne_nil]), if_neg]
  simp [htarget.ne_nil, Text.startsWith, Text.ofString]

lemma takeWhile_append_drop (p : CodePoint → Bool) (t : Text) :
    t.takeWhile p ++ t.drop (t.takeWhile p).length = t :=
  List.prefix_iff_eq_append.1 (List.takeWhile_prefix p)

lemma opens_of_link {r : Text} {x : Text × Nat} (h : link (ofChar '`' :: r) = some x) : Opens r := by
  rw [link, if_neg (not_not.2 rfl)] at h
  dsimp only at h
  split at h
  · cases h
  next hlabel =>
  split at h
  · cases h
  next htarget =>
  rw [Bool.or_eq_true, decide_eq_true_iff, not_or, not_not] at hlabel
  rw [Bool.or_eq_true, not_or, Bool.not_eq_true, Bool.not_eq_true', Bool.not_eq_false,
    Text.startsWith, List.isPrefixOf_iff_prefix] at htarget
  obtain ⟨hne, hhead⟩ := hlabel
  obtain ⟨hne', rest, hrest⟩ := htarget
  obtain ⟨y, hy⟩ := List.head?_eq_some_iff.1 hhead
  rw [hy, List.drop_one, List.tail_cons] at hne' hrest
  refine ⟨r.takeWhile fun c => c ≠ ofChar '<' && c ≠ ofChar '`', y.takeWhile (· ≠ ofChar '>'), rest,
    ⟨by simpa using hne, ?_, ?_⟩, ⟨by simpa using hne', ?_⟩, ?_⟩
  · exact fun hmem => by simpa using List.mem_takeWhile_imp hmem
  · exact fun hmem => by simpa using List.mem_takeWhile_imp hmem
  · exact fun hmem => by simpa using List.mem_takeWhile_imp hmem
  · rw [hrest, takeWhile_append_drop, ← hy, takeWhile_append_drop]

lemma opens_iff (r : Text) : Opens r ↔ (link (ofChar '`' :: r)).isSome = true := by
  constructor
  · rintro ⟨label, target, rest, hlabel, htarget, rfl⟩
    rw [link_eq_some hlabel htarget]
    rfl
  · intro h
    obtain ⟨x, hx⟩ := Option.isSome_iff_exists.1 h
    exact opens_of_link hx

instance (t : Text) : Decidable (Opens t) := decidable_of_iff _ (opens_iff t).symm

/-! ## Replacing matches -/

lemma replaceMatches_drop (pattern : Text → Option (Text × Nat)) (n : Nat) (t : Text) :
    replaceMatches pattern n t = replaceMatches pattern 0 (t.drop n) := by
  induction t generalizing n with
  | nil => cases n <;> rfl
  | cons c r ih =>
    cases n with
    | zero => rfl
    | succ n => exact ih n

lemma replaceMatches_of_none {pattern : Text → Option (Text × Nat)} {t : Text}
    (h : ∀ u, u <:+ t → pattern u = none) : replaceMatches pattern 0 t = t := by
  induction t with
  | nil => rfl
  | cons c r ih =>
    rw [replaceMatches, h _ (List.suffix_refl _)]
    exact congrArg _ (ih fun u hu => h u (hu.trans (List.suffix_cons c r)))

lemma replaceMatches_link_plain {t : Text} (ht : ofChar '`' ∉ t) (r : Text) :
    replaceMatches link 0 (t ++ r) = t ++ replaceMatches link 0 r := by
  induction t with
  | nil => rfl
  | cons c t ih =>
    rw [List.mem_cons, not_or] at ht
    rw [List.cons_append, replaceMatches, link_of_ne (Ne.symm ht.1), ih ht.2]
    rfl

/-- A link is replaced, whatever follows it. -/
lemma replaceMatches_link {label target : Text} (hlabel : IsLabel label) (htarget : IsTarget target)
    (r : Text) :
    replaceMatches link 0 (ofChar '`' :: (label ++ ofChar '<' :: (target ++ (">`_" ++ r)))) =
      "[" ++ label ++ "](" ++ target ++ ")" ++ replaceMatches link 0 r := by
  have hdrop : (label ++ ofChar '<' :: (target ++ (">`_" ++ r))).drop
      (label.length + target.length + 4) = r := by
    have hend : Text.ofString ">`_" ++ r = [ofChar '>', ofChar '`', ofChar '_'] ++ r := rfl
    rw [hend, Nat.add_assoc, ← List.drop_drop, List.drop_left, Nat.add_comm target.length 4,
      show 4 + target.length = 1 + (target.length + 3) by omega, ← List.drop_drop, List.drop_one,
      List.tail_cons, ← List.drop_drop, List.drop_left]
    rfl
  rw [replaceMatches, link_eq_some hlabel htarget]
  change _ ++ replaceMatches link (label.length + target.length + 4) _ = _
  rw [replaceMatches_drop, hdrop]

/-- A backtick that opens no link stays. -/
lemma replaceMatches_backtick {r : Text} (h : ¬Opens r) :
    replaceMatches link 0 (ofChar '`' :: r) = ofChar '`' :: replaceMatches link 0 r := by
  rw [opens_iff, Option.not_isSome_iff_eq_none] at h
  rw [replaceMatches, h]

/-- A backtick that opens a link is lost. -/
lemma replaceMatches_opens {r : Text} (h : Opens r) :
    (replaceMatches link 0 (ofChar '`' :: r)).head? = some (ofChar '[') := by
  obtain ⟨label, target, rest, hlabel, htarget, rfl⟩ := h
  rw [replaceMatches_link hlabel htarget]
  rfl

/-! ## Halving double backticks -/

/-- The text with its double backticks halved, from the left. -/
def halve (t : Text) : Text := Text.replaceFrom "``" "`" 0 t

lemma halve_pair (r : Text) : halve (ofChar '`' :: ofChar '`' :: r) = ofChar '`' :: halve r := rfl

lemma halve_single {c : CodePoint} (hc : c ≠ ofChar '`') (r : Text) :
    halve (ofChar '`' :: c :: r) = ofChar '`' :: halve (c :: r) := by
  have hnot : (Text.ofString "``").isPrefixOf (ofChar '`' :: c :: r) = false := by
    simpa [Text.ofString, List.isPrefixOf] using Ne.symm hc
  rw [halve, Text.replaceFrom, hnot]
  rfl

lemma halve_plain {t : Text} (ht : ofChar '`' ∉ t) (r : Text) : halve (t ++ r) = t ++ halve r := by
  induction t with
  | nil => rfl
  | cons c t ih =>
    rw [List.mem_cons, not_or] at ht
    have hnot : (Text.ofString "``").isPrefixOf (c :: (t ++ r)) = false := by
      simp [Text.ofString, List.isPrefixOf, ht.1]
    rw [List.cons_append, halve, Text.replaceFrom, hnot, if_neg Bool.false_ne_true]
    exact congrArg (c :: ·) (ih ht.2)

lemma halve_source (s : Segment) (r : Text) : halve (s.source ++ r) = s.halved ++ halve r := by
  cases s with
  | plain t h => exact halve_plain h r
  | literal t hne h =>
    have hsource : (Segment.literal t hne h).source ++ r =
        ofChar '`' :: ofChar '`' :: (t ++ ofChar '`' :: ofChar '`' :: r) := by
      simp [Segment.source, Text.ofString]
    rw [hsource, halve_pair, halve_plain h, halve_pair]
    simp [Segment.halved, Text.ofString]
  | link label target hlabel htarget h =>
    obtain ⟨c, rest, rfl⟩ := List.exists_cons_of_ne_nil hlabel.ne_nil
    have hc : c ≠ ofChar '`' := fun heq => hlabel.no_backtick (heq ▸ List.mem_cons_self ..)
    have hsource : (Segment.link (c :: rest) target hlabel htarget h).source ++ r = ofChar '`' ::
        ((c :: rest) ++
          ([ofChar '<'] ++ (target ++ ([ofChar '>'] ++ ofChar '`' :: ofChar '_' :: r)))) := by
      simp [Segment.source, Text.ofString]
    have hunder : halve (ofChar '_' :: r) = ofChar '_' :: halve r :=
      halve_plain (t := [ofChar '_']) (by decide) r
    rw [hsource, List.cons_append, halve_single hc, ← List.cons_append,
      halve_plain hlabel.no_backtick, halve_plain (t := [ofChar '<']) (by decide), halve_plain h,
      halve_plain (t := [ofChar '>']) (by decide), halve_single (by decide), hunder]
    simp [Segment.halved, Text.ofString]

lemma halve_document (doc : List Segment) :
    halve (doc.flatMap Segment.source) = doc.flatMap Segment.halved := by
  induction doc with
  | nil => rfl
  | cons s doc ih => rw [List.flatMap_cons, halve_source, ih, List.flatMap_cons]

/-! ## Documents without code blocks -/

/-- How the marker of a code block begins. -/
def blockStart : Text := ".. code-block::"

lemma infix_of_infix_append_cons {m a b : Text} {c : CodePoint} (hc : c ∉ m)
    (h : m <:+: a ++ c :: b) : m <:+: a ∨ m <:+: b := by
  obtain ⟨s, t, hst⟩ := h
  rw [List.append_assoc] at hst
  rcases List.append_eq_append_iff.1 hst with ⟨a', rfl, hrest⟩ | ⟨c', rfl, hrest⟩
  · -- the run begins in the first part
    rcases List.append_eq_append_iff.1 hrest with ⟨a'', rfl, -⟩ | ⟨c'', rfl, hcons⟩
    · exact .inl ⟨s, a'', by simp⟩
    · cases c'' with
      | nil => exact .inl ⟨s, [], by simp⟩
      | cons d c'' =>
        cases hcons
        exact absurd (by simp) hc
  · cases c' with
    | nil =>
      cases m with
      | nil => exact .inl (List.nil_infix)
      | cons d m =>
        cases hrest
        exact absurd (by simp) hc
    | cons d c' =>
      cases hrest
      exact .inr ⟨c', t, by simp⟩

/-- What holds no backtick stands in the halved document only where it stood before. -/
lemma infix_source_of_infix_halved {m : Text} (hm : ofChar '`' ∉ m) (doc : List Segment)
    {before : Text} (h : m <:+: before ++ doc.flatMap Segment.halved) :
    m <:+: before ++ doc.flatMap Segment.source := by
  induction doc generalizing before with
  | nil => exact h
  | cons s doc ih =>
    rw [List.flatMap_cons] at h ⊢
    cases s with
    | plain t ht =>
      have := @ih (before ++ t) (by simpa [Segment.halved] using h)
      simpa [Segment.source] using this
    | link label target hlabel htarget ht =>
      have := @ih (before ++ (Segment.link label target hlabel htarget ht).source)
        (by simpa [Segment.halved, Segment.source] using h)
      simpa using this
    | literal t hne ht =>
      have hhalved : before ++ ((Segment.literal t hne ht).halved ++ doc.flatMap Segment.halved) =
          before ++ ofChar '`' :: (t ++ ofChar '`' :: doc.flatMap Segment.halved) := by
        simp [Segment.halved, Text.ofString]
      have hsource : before ++ ((Segment.literal t hne ht).source ++ doc.flatMap Segment.source) =
          before ++
            (Text.ofString "``" ++ (t ++ (Text.ofString "``" ++ doc.flatMap Segment.source))) := by
        simp [Segment.source]
      rw [hhalved] at h
      rw [hsource]
      rcases infix_of_infix_append_cons hm h with h | h
      · exact h.trans (List.prefix_append ..).isInfix
      rcases infix_of_infix_append_cons hm h with h | h
      · exact h.trans ⟨before ++ Text.ofString "``", Text.ofString "``" ++ doc.flatMap Segment.source,
          by simp⟩
      · have := @ih [] h
        exact this.trans ⟨before ++ Text.ofString "``" ++ t ++ Text.ofString "``", [], by simp⟩

lemma codeBlock_of_not_prefix {t : Text} (h : ¬blockMarker <+: t) : codeBlock t = none := by
  rw [codeBlock, if_pos]
  rw [Bool.not_eq_true', Text.startsWith, ← Bool.not_eq_true, List.isPrefixOf_iff_prefix]
  exact h

lemma replaceMatches_codeBlock {doc : List Segment} (h : ¬blockStart <:+: doc.flatMap Segment.source) :
    replaceMatches codeBlock 0 (doc.flatMap Segment.halved) = doc.flatMap Segment.halved := by
  refine replaceMatches_of_none fun u hu => codeBlock_of_not_prefix fun hprefix => h ?_
  have hmarker : blockStart <+: blockMarker := by decide
  have hinfix : blockStart <:+: [] ++ doc.flatMap Segment.halved :=
    (hmarker.trans hprefix).isInfix.trans hu.isInfix
  simpa using infix_source_of_infix_halved (by decide) doc hinfix

/-! ## Whole documents -/

/-- No backtick around a literal reads, with what follows it, as the beginning of a link. -/
def Undisturbed : List Segment → Prop
  | [] => True
  | .literal t _ _ :: rest =>
    ¬Opens (t ++ ofChar '`' :: rest.flatMap Segment.halved) ∧ ¬Opens (rest.flatMap Segment.halved) ∧
      Undisturbed rest
  | _ :: rest => Undisturbed rest

/-- Without `<` outside of links. -/
def Segment.Bracketless : Segment → Prop
  | .plain t _ | .literal t _ _ => ofChar '<' ∉ t
  | .link .. => True

/-- A label would have to hold the backtick, or to end before it. -/
lemma not_opens_of_backtick {t : Text} (ht : ofChar '<' ∉ t) (r : Text) :
    ¬Opens (t ++ ofChar '`' :: r) := by
  rintro ⟨label, target, rest, hlabel, -, heq⟩
  rcases List.append_eq_append_iff.1 heq with ⟨u, rfl, hrest⟩ | ⟨u, rfl, hrest⟩
  · cases u with
    | nil => cases hrest
    | cons c u =>
      cases hrest
      exact hlabel.no_backtick (by simp)
  · cases u with
    | nil => cases hrest
    | cons c u =>
      have hc : ofChar '<' = c := (List.cons.inj hrest).1
      exact ht (by simp [hc])

lemma not_opens_of_bracketless {doc : List Segment} (hdoc : ∀ s ∈ doc, s.Bracketless) {t : Text}
    (ht : ofChar '<' ∉ t) : ¬Opens (t ++ doc.flatMap Segment.halved) := by
  induction doc generalizing t with
  | nil =>
    rintro ⟨label, target, rest, -, -, heq⟩
    rw [List.flatMap_nil, List.append_nil] at heq
    exact ht (heq ▸ by simp)
  | cons s doc ih =>
    rw [List.flatMap_cons]
    cases s with
    | plain u h =>
      have hu : ofChar '<' ∉ u := hdoc _ (List.mem_cons_self ..)
      rw [Segment.halved, ← List.append_assoc]
      exact ih (fun s hs => hdoc s (.tail _ hs)) (by simp [ht, hu])
    | literal u hne h =>
      have := not_opens_of_backtick ht (u ++ ofChar '`' :: doc.flatMap Segment.halved)
      simpa [Segment.halved, Text.ofString] using this
    | link label target hlabel htarget h =>
      have := not_opens_of_backtick ht
        (label ++ ofChar '<' :: (target ++ (">`_" ++ doc.flatMap Segment.halved)))
      simpa [Segment.halved, Text.ofString] using this

/-- Only a `<` outside of links can disturb a document. -/
lemma undisturbed_of_bracketless {doc : List Segment} (hdoc : ∀ s ∈ doc, s.Bracketless) :
    Undisturbed doc := by
  induction doc with
  | nil => trivial
  | cons s doc ih =>
    have hrest : ∀ s ∈ doc, s.Bracketless := fun s hs => hdoc s (.tail _ hs)
    cases s with
    | plain t h => exact ih hrest
    | link label target hlabel htarget h => exact ih hrest
    | literal t hne h =>
      have ht : ofChar '<' ∉ t := hdoc _ (List.mem_cons_self ..)
      exact ⟨not_opens_of_backtick ht _, not_opens_of_bracketless (t := []) hrest (by simp), ih hrest⟩

lemma replaceMatches_document (doc : List Segment) :
    replaceMatches link 0 (doc.flatMap Segment.halved) = doc.flatMap Segment.markdown ↔
      Undisturbed doc := by
  induction doc with
  | nil => exact ⟨fun _ => trivial, fun _ => rfl⟩
  | cons s doc ih =>
    rw [List.flatMap_cons, List.flatMap_cons]
    cases s with
    | plain t h =>
      rw [Segment.halved, Segment.markdown, replaceMatches_link_plain h, List.append_cancel_left_eq, ih,
        Undisturbed]
      nofun
    | link label target hlabel htarget h =>
      have hhalved : (Segment.link label target hlabel htarget h).halved ++
          doc.flatMap Segment.halved = ofChar '`' :: (label ++ ofChar '<' :: (target ++
            (">`_" ++ doc.flatMap Segment.halved))) := by
        simp [Segment.halved, Text.ofString]
      rw [hhalved, replaceMatches_link hlabel htarget, Segment.markdown, List.append_cancel_left_eq, ih,
        Undisturbed]
      nofun
    | literal t hne h =>
      have hhalved : (Segment.literal t hne h).halved ++ doc.flatMap Segment.halved =
          ofChar '`' :: (t ++ ofChar '`' :: doc.flatMap Segment.halved) := by
        simp [Segment.halved, Text.ofString]
      have hmarkdown : (Segment.literal t hne h).markdown ++ doc.flatMap Segment.markdown =
          ofChar '`' :: (t ++ ofChar '`' :: doc.flatMap Segment.markdown) := by
        simp [Segment.markdown, Text.ofString]
      rw [hhalved, hmarkdown, Undisturbed]
      -- a backtick that opens a link leaves a bracket where the conversion has a backtick
      by_cases hfirst : Opens (t ++ ofChar '`' :: doc.flatMap Segment.halved)
      · refine iff_of_false (fun heq => ?_) fun hrest => hrest.1 hfirst
        have hhead := replaceMatches_opens hfirst
        rw [heq, List.head?_cons] at hhead
        exact absurd hhead (by decide)
      rw [replaceMatches_backtick hfirst, replaceMatches_link_plain h, List.cons_inj_right,
        List.append_cancel_left_eq]
      by_cases hsecond : Opens (doc.flatMap Segment.halved)
      · refine iff_of_false (fun heq => ?_) fun hrest => hrest.2.1 hsecond
        have hhead := replaceMatches_opens hsecond
        rw [heq, List.head?_cons] at hhead
        exact absurd hhead (by decide)
      rw [replaceMatches_backtick hsecond, List.cons_inj_right, ih]
      exact ⟨fun hrest => ⟨hfirst, hsecond, hrest⟩, fun hrest => hrest.2.2⟩

/-- **Inline markup is converted segment by segment unless a literal is taken for a link.**  In every
document that nowhere holds the marker of a code block; and always if no `<` stands outside of links. -/
theorem toMarkdown_segment_by_segment (doc : List Segment)
    (h : ¬blockStart <:+: doc.flatMap Segment.source) :
    (toMarkdown (doc.flatMap Segment.source) = doc.flatMap Segment.markdown ↔ Undisturbed doc) ∧
      ((∀ s ∈ doc, s.Bracketless) →
        toMarkdown (doc.flatMap Segment.source) = doc.flatMap Segment.markdown) := by
  have hiff : toMarkdown (doc.flatMap Segment.source) = doc.flatMap Segment.markdown ↔
      Undisturbed doc := by
    rw [toMarkdown, Text.replace, ← halve, halve_document, replaceMatches_codeBlock h,
      replaceMatches_document]
  exact ⟨hiff, fun hdoc => hiff.2 (undisturbed_of_bracketless hdoc)⟩

/-- Two literals, a link and plain text, nothing between them. -/
def adjacent : List Segment :=
  [.literal "x" (by decide) (by decide), .literal "y" (by decide) (by decide),
    .link "the manual " "u" ⟨by decide, by decide, by decide⟩ ⟨by decide, by decide⟩ (by decide),
    .plain " if a<b" (by decide)]

theorem toMarkdown_adjacent :
    ¬blockStart <:+: adjacent.flatMap Segment.source ∧
      adjacent.flatMap Segment.source = Text.ofString "``x````y```the manual <u>`_ if a<b" ∧
      toMarkdown (adjacent.flatMap Segment.source) =
        Text.ofString "`x``y`[the manual ](u) if a<b" := by
  have hblock : ¬blockStart <:+: adjacent.flatMap Segment.source := by decide
  have hundisturbed : Undisturbed adjacent :=
    ⟨by decide, by decide, by decide, by decide, trivial⟩
  have hmarkdown := (toMarkdown_segment_by_segment adjacent hblock).1.2 hundisturbed
  exact ⟨hblock, by decide, hmarkdown.trans (by decide)⟩

/-- A literal that holds a bracket, and a link behind it. -/
def comparison : List Segment :=
  [.literal "a < b" (by decide) (by decide), .plain ", see " (by decide),
    .link "manual " "u" ⟨by decide, by decide, by decide⟩ ⟨by decide, by decide⟩ (by decide)]

/-- The literal is taken for the beginning of the link. -/
theorem literal_taken_for_link :
    ¬blockStart <:+: comparison.flatMap Segment.source ∧
      comparison.flatMap Segment.source = Text.ofString "``a < b``, see `manual <u>`_" ∧
      toMarkdown (comparison.flatMap Segment.source) = Text.ofString "[a ]( b`, see `manual <u)" ∧
      comparison.flatMap Segment.markdown = Text.ofString "`a < b`, see [manual ](u)" := by
  decide

end SuggestBridge.Markup
