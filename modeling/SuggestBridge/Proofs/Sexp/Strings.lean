import SuggestBridge.Proofs.Sexp.Held

/-!
# Where a string ends

The reader and `Json.scan` both look for the end of a string, in steps of different lengths: the
reader passes over a backslash together with the one code point behind it, while an escape by number
is six code points to `Json.scan`, and a pair of surrogates twelve.  They agree all the same
(`literal_ends_at_quote`): at the quote where the reader ends a string with a backslash in it,
`Json.scan` has either succeeded and comes to its end as well, or failed for what stands inside.
-/

namespace SuggestBridge.Json

/-- A fault is one of the text: a literal is never refused for want of a closing quote, nor for what
stands behind it. -/
lemma Faulty.cause {raw : Text} {e : LiteralError} (h : Faulty raw e) :
    e = .unknownEscape ∨ e = .malformedNumber ∨ e = .controlCharacter := by
  obtain ⟨_, _, _, -, -, hfault⟩ := h
  cases hfault with
  | control _ => exact .inr (.inr rfl)
  | escape _ _ => exact .inl rfl
  | number _ => exact .inr (.inl rfl)

end SuggestBridge.Json

namespace SuggestBridge.Sexp

open CodePoint (ofChar)
open Json (Inside)
open Reader

/-- What the reader holds of the string that a quote opened is its inside. -/
lemma inside_of_run {before raw kept : Text} {escapes : Bool} {st : State}
    (hrun : State.initial.run (before ++ ofChar '"' :: raw) = .ok st)
    (hlexeme : st.lexeme = .quoted before.length kept escapes false) :
    Inside raw ∧ kept = raw.reverse := by
  have h := holds_of_run hrun
  rw [hlexeme] at h
  generalize ht : before ++ ofChar '"' :: raw = t at h
  generalize hlength : before.length = start at h
  cases h with
  | quoted before' hraw =>
    obtain ⟨rfl, hquoted⟩ := List.append_inj ht hlength
    obtain ⟨-, rfl⟩ := List.cons.inj hquoted
    exact ⟨hraw, rfl⟩

/-- A string with a backslash in it, at the quote where the reader ends it: `before` was read before
its opening quote, and `raw` since.  Reading that as a literal gives the text that it spells, and
comes to its end at the same quote, whatever stands behind it.  Otherwise it fails, for an escape or
a control character inside.  The reader makes the string of the one, and refuses the text for the
other. -/
theorem literal_ends_at_quote {before raw kept : Text} {st : State}
    (hrun : State.initial.run (before ++ ofChar '"' :: raw) = .ok st)
    (hlexeme : st.lexeme = .quoted before.length kept true false) :
    (∃ t, Json.Spells raw t ∧ (∀ rest, Json.scan (raw ++ ofChar '"' :: rest) = .ok (t, rest)) ∧
        st.accept (ofChar '"') = .ok (st.push (.string t))) ∨
      ∃ cause, (cause = .unknownEscape ∨ cause = .malformedNumber ∨ cause = .controlCharacter) ∧
        Json.Faulty raw cause ∧
        (∀ rest, Json.scan (raw ++ ofChar '"' :: rest) = .error cause) ∧
        st.accept (ofChar '"') = refuse (.invalidEscape cause) before.length := by
  obtain ⟨hraw, rfl⟩ := inside_of_run hrun hlexeme
  have haccept : st.accept (ofChar '"') = st.endQuoted before.length raw.reverse true := by
    rw [State.accept, hlexeme]
    exact if_pos rfl
  rw [haccept, State.endQuoted, if_pos rfl, List.reverse_reverse, Json.decode]
  rcases Json.scan_of_inside hraw with ⟨t, hspells, hscan⟩ | ⟨cause, hfaulty, hscan⟩
  · refine .inl ⟨t, hspells, hscan, ?_⟩
    rw [hscan []]
    rfl
  · refine .inr ⟨cause, hfaulty.cause, hfaulty, hscan, ?_⟩
    rw [hscan []]

/-- The inside of the string `"\"\ud83d\ude00\\"`. -/
def sampleInside : Text := Text.ofString "\\\"\\ud83d\\ude00\\\\"

/-- The string ends at the quote behind two backslashes, and not at the one behind the first: that
one is escaped, and of the two the second is. -/
theorem literal_ends_at_quote_pair :
    ∃ st, State.initial.run (Text.ofString "(" ++ ofChar '"' :: sampleInside) = .ok st ∧
      st.lexeme = .quoted 1 sampleInside.reverse true false ∧
      st.accept (ofChar '"') =
        .ok (st.push (.string [ofChar '"', CodePoint.ofNat 0x1F600, ofChar '\\'])) := by
  have hread : Json.scan (sampleInside ++ [ofChar '"']) =
      .ok ([ofChar '"', CodePoint.ofNat 0x1F600, ofChar '\\'], []) := by decide +kernel
  have hrun : State.initial.run (Text.ofString "(" ++ ofChar '"' :: sampleInside) =
      .ok ⟨18, ⟨[], false⟩, [⟨[], false⟩], .quoted 1 sampleInside.reverse true false⟩ := rfl
  refine ⟨_, hrun, rfl, ?_⟩
  rcases literal_ends_at_quote hrun rfl with ⟨t, -, hscan, haccept⟩ | ⟨cause, -, -, hscan, -⟩
  · have h := (hscan []).symm.trans hread
    rw [haccept, (Prod.mk.inj (Except.ok.inj h)).1]
  · cases (hscan []).symm.trans hread

end SuggestBridge.Sexp
