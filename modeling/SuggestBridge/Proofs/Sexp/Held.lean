import SuggestBridge.Proofs.Sexp.Lexeme

/-!
# What the reader holds

Between two code points the reader holds part of a lexeme: where it began, what was read of it, and
for a string whether a backslash is in it.  `Holds` says what that is in terms of the text read so
far, which every step of the reader keeps so (`Holds.step`), and hence every text (`Holds.run`).
-/

namespace SuggestBridge.Json

open CodePoint (ofChar)

lemma Inside.append {p q : Text} (hp : Inside p) (hq : Inside q) : Inside (p ++ q) := by
  induction hp with
  | nil => exact hq
  | plain hquote hslash _ ih => exact .plain hquote hslash ih
  | escaped c _ ih => exact .escaped c ih

end SuggestBridge.Json

namespace SuggestBridge.Sexp

open CodePoint (ofChar)
open Json (Inside)
open Reader

/-- The lexeme that the reader holds at the end of a text: of a bare one its name so far, and of a
string all that was read behind its quote, last code point first.  A backslash that stands last may
belong to what follows. -/
inductive Holds : Text → Lexeme → Prop
  | between {t : Text} : Holds t .between
  | bare (before : Text) {s name : Text} : Bare s name →
      Holds (before ++ s) (.bare before.length name.reverse false)
  | bareEscaping (before : Text) {s name : Text} : Bare s name →
      Holds (before ++ (s ++ [ofChar '\\'])) (.bare before.length name.reverse true)
  | quoted (before : Text) {raw : Text} : Inside raw →
      Holds (before ++ ofChar '"' :: raw)
        (.quoted before.length raw.reverse (raw.contains (ofChar '\\')) false)
  | quotedEscaping (before : Text) {raw : Text} : Inside raw →
      Holds (before ++ ofChar '"' :: (raw ++ [ofChar '\\']))
        (.quoted before.length (raw ++ [ofChar '\\']).reverse (raw.contains (ofChar '\\')) true)

section Step

variable {st st' : State} {t : Text} {c : CodePoint}

/-- Between two lexemes a code point begins one where the reader is, if it begins any. -/
lemma holds_of_begin (hposition : st.position = t.length) (h : st.begin c = .ok st') :
    Holds (t ++ [c]) st'.lexeme := by
  rw [State.begin] at h
  split at h
  · cases h
    exact .between
  next hblank =>
  split at h
  · rw [State.close] at h
    split at h
    · cases h
    · split at h <;> cases h
      exact .between
  next hclose =>
  split at h
  · cases h
    exact .between
  next hopen =>
  split at h
  · next hquote =>
    subst hquote
    cases h
    rw [hposition]
    exact .quoted t .nil
  next hquote =>
  split at h
  · next hslash =>
    subst hslash
    cases h
    rw [hposition]
    exact .bareEscaping t .nil
  · cases h
    have hc := not_isDelimiter_of_ne (Bool.not_eq_true _ ▸ hblank) hopen hclose hquote
    rw [hposition]
    exact .bare t (bare_singleton hc)

/-- A code point behind part of a bare lexeme goes on with it, or ends it. -/
lemma holds_of_continueBare (before : Text) {s name : Text} (hs : Bare s name)
    (hposition : st.position = (before ++ s).length)
    (h : st.continueBare before.length name.reverse c = .ok st') :
    Holds (before ++ s ++ [c]) st'.lexeme := by
  rw [State.continueBare] at h
  split at h
  · split at h
    · next mid hend =>
      obtain ⟨v, -, -, rfl⟩ := State.endBare_eq_ok_iff.1 hend
      exact @holds_of_begin (st.put v) _ _ _ hposition h
    · cases h
  · next hdelimiter =>
    split at h
    · next hslash =>
      subst hslash
      cases h
      rw [List.append_assoc]
      exact .bareEscaping before hs
    · cases h
      have hmore := Holds.bare before (hs.append (bare_singleton (Bool.not_eq_true _ ▸ hdelimiter)))
      simpa using hmore

/-- One more code point behind the quote of a string, other than the quote that ends it. -/
lemma holds_of_quoted (before : Text) {raw : Text} (hraw : Inside raw) (hc : c ≠ ofChar '"') :
    Holds (before ++ ofChar '"' :: (raw ++ [c]))
      (.quoted before.length (raw ++ [c]).reverse (raw.contains (ofChar '\\'))
        (c = ofChar '\\')) := by
  by_cases hslash : c = ofChar '\\'
  · subst hslash
    rw [decide_eq_true rfl]
    exact .quotedEscaping before hraw
  · have hcontains : raw.contains (ofChar '\\') = (raw ++ [c]).contains (ofChar '\\') := by
      simp [Ne.symm hslash]
    rw [decide_eq_false hslash, hcontains]
    exact .quoted before (hraw.append (.plain hc hslash .nil))

lemma lexeme_of_endQuoted {start : Nat} {raw : Text} {escapes : Bool}
    (h : st.endQuoted start raw escapes = .ok st') : st'.lexeme = .between := by
  rw [State.endQuoted] at h
  split at h
  · split at h <;> cases h
    rfl
  · cases h
    rfl

/-- A code point read. -/
lemma Holds.step (h : Holds t st.lexeme) (hposition : st.position = t.length)
    (hstep : st.accept c = .ok st') : Holds (t ++ [c]) st'.lexeme := by
  rw [State.accept] at hstep
  generalize st.lexeme = l at h hstep
  cases h with
  | between => exact holds_of_begin hposition hstep
  | bare before hs => exact holds_of_continueBare before hs hposition hstep
  | @bareEscaping before s name hs =>
    simp only at hstep
    split at hstep
    · next hspace =>
      subst hspace
      cases hstep
      have hmore := Holds.bare before (hs.append (.space .nil))
      simpa using hmore
    · have hslash := hs.append (bare_singleton not_isDelimiter_backslash)
      exact holds_of_continueBare before hslash hposition (by simpa using hstep)
  | quoted before hraw =>
    simp only at hstep
    split at hstep
    · rw [lexeme_of_endQuoted hstep]
      exact .between
    · next hc =>
      cases hstep
      simpa using holds_of_quoted before hraw hc
  | @quotedEscaping before raw hraw =>
    cases hstep
    have hcontains : (raw ++ [ofChar '\\', c]).contains (ofChar '\\') = true := by simp
    have hmore := Holds.quoted before (hraw.append (.escaped c .nil))
    rw [hcontains] at hmore
    simpa using hmore

end Step

/-- A text read, from the state to which another one led. -/
lemma Holds.run {st st' : State} {t u : Text} (h : Holds t st.lexeme)
    (hposition : st.position = t.length) (hrun : st.run u = .ok st') :
    Holds (t ++ u) st'.lexeme := by
  induction u generalizing st t with
  | nil =>
    cases hrun
    rwa [List.append_nil]
  | cons c u ih =>
    rw [State.run] at hrun
    split at hrun
    · next mid hstep =>
      obtain ⟨next, haccept, rfl⟩ := Result.map_eq_ok_iff.1 hstep
      have hnext : Holds (t ++ [c]) next.lexeme := h.step hposition haccept
      have hlength : st.position + 1 = (t ++ [c]).length := by simp [hposition]
      simpa using @ih { next with position := st.position + 1 } _ hnext hlength hrun
    · cases hrun

/-- What the reader holds at the end of a text. -/
lemma holds_of_run {t : Text} {st : State} (h : State.initial.run t = .ok st) :
    Holds t st.lexeme :=
  Holds.run (t := []) .between rfl h

end SuggestBridge.Sexp
