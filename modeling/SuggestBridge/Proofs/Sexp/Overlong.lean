import SuggestBridge.Proofs.Sexp.Held
import SuggestBridge.Proofs.Sexp.Readable
import SuggestBridge.Proofs.Sexp.RoundTrip

/-!
# What becomes of a text

Reading ends for every text in one of three ways (`read_cases`).  It gives a value, or it reports the
text as malformed, or it comes to a number with more digits than an integer may be read from.  The
last is no report on the text: the reader stops at the number, whatever follows, and does so exactly
if the text is `Overlong` (`read_eq_digits_iff`).
-/

namespace SuggestBridge.Sexp

open CodePoint (ofChar)
open Reader

/-- The reader comes to the end of a bare lexeme that is a number of `n` digits, more than an integer
may be read from. -/
def Overlong (t : Text) (n : Nat) : Prop :=
  ∃ before numeral rest digits st, t = before ++ (numeral ++ rest) ∧
    State.initial.run (before ++ numeral) = .ok st ∧
    st.lexeme = .bare before.length numeral.reverse false ∧ Follows rest ∧
    IsNumeral numeral digits ∧ digits.length = n ∧ Integer.digitLimit < n

/-! ## Where the limit is met -/

lemma Bare.eq_of_no_space {s name : Text} (h : Bare s name) (hno : ofChar ' ' ∉ name) :
    s = name := by
  induction h with
  | nil => rfl
  | space _ _ => exact absurd List.mem_cons_self hno
  | plain _ _ ih => rw [ih fun hmem => hno (List.mem_cons_of_mem _ hmem)]

lemma IsNumeral.not_mem_space {name ds : Text} (h : IsNumeral name ds) : ofChar ' ' ∉ name :=
  fun hmem => absurd (h.not_isDelimiter _ hmem).1 (by decide)

/-- The reader holds a bare lexeme without a value. -/
def Reader.State.Stuck (st : State) (e : DigitLimit) : Prop :=
  ∃ start name, st.lexeme = .bare start name false ∧ atom name.reverse = .error (.digits e)

section Step

variable {st : State} {c : CodePoint} {e : DigitLimit} {t : Text}

lemma begin_ne_digits : st.begin c ≠ .error (.digits e) := by
  intro h
  rw [State.begin] at h
  split at h
  · cases h
  split at h
  · rw [State.close] at h
    split at h
    · cases h
    · split at h <;> cases h
  split at h
  · cases h
  split at h
  · cases h
  split at h <;> cases h

lemma endQuoted_ne_digits {start : Nat} {raw : Text} {escapes : Bool} :
    st.endQuoted start raw escapes ≠ .error (.digits e) := by
  intro h
  rw [State.endQuoted] at h
  split at h
  · split at h <;> cases h
  · cases h

lemma endBare_eq_digits_iff {start : Nat} {name : Text} :
    st.endBare start name = .error (.digits e) ↔ atom name = .error (.digits e) := by
  constructor
  · intro h
    rcases State.endBare_eq_error h with ⟨-, hdot⟩ | hatom
    · cases hdot
    · exact hatom
  · intro h
    have hdot : name ≠ Text.ofString "." := by
      rintro rfl
      simp [State.atom_dot] at h
    rw [State.endBare, if_neg hdot, h]
    rfl

lemma atom_ne_digits_of_backslash {name : Text} (h : ofChar '\\' ∈ name) :
    atom name ≠ .error (.digits e) := by
  intro herror
  obtain ⟨ds, hds, -⟩ := atom_eq_error_iff.1 herror
  exact (hds.not_isDelimiter _ h).2 rfl

lemma stuck_of_continueBare {start : Nat} {name : Text}
    (h : st.continueBare start name c = .error (.digits e)) :
    isDelimiter c = true ∧ atom name.reverse = .error (.digits e) := by
  rw [State.continueBare] at h
  split at h
  · next hc =>
    refine ⟨hc, ?_⟩
    split at h
    · exact absurd h begin_ne_digits
    · next hend =>
      cases h
      exact endBare_eq_digits_iff.1 hend
  · split at h <;> cases h

/-- Only at the end of a bare lexeme can a code point meet the limit. -/
lemma stuck_of_accept (h : st.accept c = .error (.digits e)) : isDelimiter c = true ∧ st.Stuck e := by
  rw [State.accept] at h
  split at h
  · exact absurd h begin_ne_digits
  · next start name hlexeme =>
    obtain ⟨hc, hatom⟩ := stuck_of_continueBare h
    exact ⟨hc, start, name, hlexeme, hatom⟩
  · split at h
    · cases h
    · obtain ⟨-, hatom⟩ := stuck_of_continueBare h
      exact absurd hatom (atom_ne_digits_of_backslash (by simp))
  · cases h
  · split at h
    · exact absurd h endQuoted_ne_digits
    · cases h

lemma stuck_of_finish (h : st.finish = .error (.digits e)) : st.Stuck e := by
  rw [State.finish] at h
  split at h
  · next herror =>
    cases h
    rw [State.endLexeme] at herror
    split at herror
    · cases herror
    · next start name hlexeme => exact ⟨start, name, hlexeme, endBare_eq_digits_iff.1 herror⟩
    · exact absurd (endBare_eq_digits_iff.1 herror) (atom_ne_digits_of_backslash (by simp))
    · cases herror
    · cases herror
  · split at h
    · cases h
    · split at h <;> cases h

/-- Reading a text stops at the limit only where the reader has come to the end of a number. -/
lemma exists_stuck_of_answer (h : st.answer t = .error (.digits e)) :
    ∃ u rest st', t = u ++ rest ∧ st.run u = .ok st' ∧ Follows rest ∧ st'.Stuck e := by
  induction t generalizing st with
  | nil => exact ⟨[], [], st, rfl, rfl, by rintro c r ⟨⟩, stuck_of_finish h⟩
  | cons c r ih =>
    rw [State.answer_cons] at h
    rcases Result.bind_eq_error_iff.1 h with hstep | ⟨mid, hstep, hrest⟩
    · obtain ⟨hc, hstuck⟩ := stuck_of_accept (Result.map_eq_error_iff.1 hstep)
      exact ⟨[], c :: r, st, rfl, rfl, follows_cons hc r, hstuck⟩
    · obtain ⟨u, rest, st', rfl, hrun, hfollows, hstuck⟩ := ih hrest
      refine ⟨c :: u, rest, st', rfl, ?_, hfollows, hstuck⟩
      rw [State.run, hstep]
      exact hrun

lemma answer_append {st' : State} {u rest : Text} (h : st.run u = .ok st') :
    st.answer (u ++ rest) = st'.answer rest := by
  induction u generalizing st with
  | nil =>
    cases h
    rfl
  | cons c u ih =>
    rw [State.run] at h
    split at h
    · next mid hstep =>
      rw [List.cons_append, State.answer_cons, hstep]
      exact ih h
    · cases h

/-- A reader that has come to the end of such a number stops, whatever follows. -/
lemma Reader.State.Stuck.answer (h : st.Stuck e) {rest : Text} (hrest : Follows rest) :
    st.answer rest = .error (.digits e) := by
  obtain ⟨start, name, hlexeme, hatom⟩ := h
  have hinside : st = st.inside (.bare start name false) := by rw [State.inside, ← hlexeme]
  rw [hinside, State.answer_bare_end hrest, endBare_eq_digits_iff.2 hatom]
  rfl

end Step

/-! ## Whole texts -/

/-- Reading stops at the limit exactly on the texts that hold a number beyond it, behind what can be
read. -/
theorem read_eq_digits_iff {t : Text} {e : DigitLimit} :
    read t = .error (.digits e) ↔ ∃ n, Overlong t n ∧ e = .reading n := by
  constructor
  · intro h
    obtain ⟨u, rest, st, rfl, hrun, hfollows, start, name, hlexeme, hatom⟩ :=
      @exists_stuck_of_answer State.initial _ _ h
    obtain ⟨ds, hds, hlong, he⟩ := atom_eq_error_iff.1 hatom
    cases he
    -- what the reader holds is the number as it stands in the text
    have hholds := holds_of_run hrun
    rw [hlexeme] at hholds
    generalize hname : name = kept at hholds
    cases hholds with
    | @bare before s name' hs =>
      rw [hname, List.reverse_reverse] at hds
      obtain rfl := hs.eq_of_no_space hds.not_mem_space
      exact ⟨_, ⟨before, s, rest, ds, st, by simp, hrun, hname ▸ hlexeme, hfollows, hds, rfl, hlong⟩,
        rfl⟩
  · rintro ⟨n, ⟨before, numeral, rest, ds, st, rfl, hrun, hlexeme, hfollows, hds, rfl, hlong⟩, rfl⟩
    have hstuck : st.Stuck (.reading ds.length) := by
      refine ⟨_, _, hlexeme, ?_⟩
      rw [List.reverse_reverse]
      exact atom_eq_error_iff.2 ⟨ds, hds, hlong, rfl⟩
    rw [← List.append_assoc]
    exact (answer_append hrun).trans (hstuck.answer hfollows)

/-- What becomes of a text: it has a value, or it is malformed, or the reader stops at a number. -/
theorem read_cases (t : Text) :
    (∃ v, read t = .ok v ∧ Readable v) ∨ (∃ m, read t = .error (.malformed m)) ∨
      ∃ n, Overlong t n ∧ read t = .error (.digits (.reading n)) := by
  cases h : read t with
  | ok v => exact .inl ⟨v, rfl, readable_of_read h⟩
  | error e =>
    cases e with
    | malformed m => exact .inr (.inl ⟨m, rfl⟩)
    | digits e =>
      obtain ⟨n, hn, rfl⟩ := read_eq_digits_iff.1 h
      exact .inr (.inr ⟨n, hn, rfl⟩)

/-- A number with too many digits alone. -/
lemma overlong_digits {ds : Text} (h : IsDigits ds) (hlong : Integer.digitLimit < ds.length) :
    Overlong ds ds.length := by
  have hnumeral : IsNumeral ds ds := ⟨.inl rfl, h⟩
  have hbare : Bare ds ds := bare_self fun c hc => (hnumeral.not_isDelimiter c hc).1
  have hstop : Stops ds [] := by rintro c r ⟨⟩
  have hanswer := @State.answer_bare State.initial rfl ds ds [] hbare h.1 hstop
  rw [List.append_nil, endBare_eq_digits_iff.2 (atom_eq_error_iff.2 ⟨ds, hnumeral, hlong, rfl⟩)]
    at hanswer
  obtain ⟨n, hn, heq⟩ := read_eq_digits_iff.1 hanswer
  cases heq
  exact hn

end SuggestBridge.Sexp
