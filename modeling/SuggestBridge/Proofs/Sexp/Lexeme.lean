import SuggestBridge.Sexp.Reader
import SuggestBridge.Proofs.Json.Literal
import Mathlib.Tactic.Common

/-!
# Reading one lexeme

The reader consumes a text code point by code point, but what it does is best said by lexemes: a
blank, a bracket, a string or a bare lexeme.  This file cuts a text into lexemes without the
reader (`Bare`, `Stops`, `Json.Inside`), shows that every text can be cut so
(`lexeme_induction`), and gives one equation for each lexeme that says what the reader answers on
a text that begins with it (`answer_bare`, `answer_quoted`, `answer_close` and so on).

Everything about whole texts is proved from these equations by `lexeme_induction`; nothing else
opens the reader's step function.
-/

namespace SuggestBridge.Sexp

open CodePoint (ofChar)
open Json (Inside)
open Reader

/-! ## Bare lexemes -/

/-- The spelling of a bare lexeme and the name that it spells: a backslash and a space together
stand for the space, and any other code point that is no delimiter stands for itself. -/
inductive Bare : Text → Text → Prop
  | nil : Bare [] []
  | space {t name : Text} :
      Bare t name → Bare (ofChar '\\' :: ofChar ' ' :: t) (ofChar ' ' :: name)
  | plain {c : CodePoint} {t name : Text} :
      isDelimiter c = false → Bare t name → Bare (c :: t) (c :: name)

/-- No longer piece of the text is a bare lexeme: the rest adds nothing to the spelling. -/
def Maximal (spelling rest : Text) : Prop :=
  ∀ u w, rest = u ++ w → (∃ name, Bare (spelling ++ u) name) → u = []

/-- A bare lexeme ends here: the rest is empty or begins with a delimiter, and a space behind it
is not the one that its last backslash escapes. -/
def Stops (spelling rest : Text) : Prop :=
  ∀ c r, rest = c :: r →
    isDelimiter c = true ∧ (c = ofChar ' ' → spelling.getLast? ≠ some (ofChar '\\'))

lemma not_isDelimiter_backslash : isDelimiter (ofChar '\\') = false := by decide

lemma isDelimiter_space : isDelimiter (ofChar ' ') = true := by decide

lemma ne_space_of_not_isDelimiter {c : CodePoint} (h : isDelimiter c = false) :
    c ≠ ofChar ' ' := by
  rintro rfl
  simp [isDelimiter_space] at h

/-- A spelling begins with no delimiter. -/
lemma Bare.head {c : CodePoint} {t name : Text} (h : Bare (c :: t) name) :
    isDelimiter c = false := by
  cases h with
  | space _ => exact not_isDelimiter_backslash
  | plain hc _ => exact hc

lemma Bare.append {s t m n : Text} (hs : Bare s m) (ht : Bare t n) : Bare (s ++ t) (m ++ n) := by
  induction hs with
  | nil => exact ht
  | space _ ih => exact .space ih
  | plain hc _ ih => exact .plain hc ih

/-- The code points of a spelling that are delimiters are spaces behind a backslash. -/
lemma Bare.delimiter {p q name : Text} {c : CodePoint} (h : Bare (p ++ c :: q) name)
    (hc : isDelimiter c = true) : c = ofChar ' ' ∧ p.getLast? = some (ofChar '\\') := by
  generalize hs : p ++ c :: q = s at h
  induction h generalizing p with
  | nil => simp at hs
  | space _ ih =>
    rcases p with _ | ⟨d, _ | ⟨e, p⟩⟩
    · obtain ⟨rfl, -⟩ := List.cons.inj hs
      simp [not_isDelimiter_backslash] at hc
    · simp only [List.cons_append, List.nil_append, List.cons.injEq] at hs
      exact ⟨hs.2.1, by simp [hs.1]⟩
    · simp only [List.cons_append, List.cons.injEq] at hs
      obtain ⟨h₁, h₂⟩ := ih hs.2.2
      refine ⟨h₁, ?_⟩
      rw [List.getLast?_cons_cons, List.getLast?_cons, h₂]
      rfl
  | plain hd _ ih =>
    rcases p with _ | ⟨d, p⟩
    · obtain ⟨rfl, -⟩ := List.cons.inj hs
      simp [hd] at hc
    · simp only [List.cons_append, List.cons.injEq] at hs
      obtain ⟨h₁, h₂⟩ := ih hs.2
      refine ⟨h₁, ?_⟩
      rw [List.getLast?_cons, h₂]
      rfl

/-- Without its last backslash a spelling is still a spelling. -/
lemma Bare.of_append_backslash {p name : Text} (h : Bare (p ++ [ofChar '\\']) name) :
    ∃ n, Bare p n := by
  generalize hs : p ++ [ofChar '\\'] = s at h
  induction h generalizing p with
  | nil => simp at hs
  | space _ ih =>
    rcases p with _ | ⟨d, _ | ⟨e, p⟩⟩
    · simp at hs
    · simp only [List.cons_append, List.nil_append, List.cons.injEq] at hs
      exact absurd hs.2.1 (by decide)
    · simp only [List.cons_append, List.cons.injEq] at hs
      obtain ⟨rfl, rfl, hs⟩ := hs
      obtain ⟨n, hn⟩ := ih hs
      exact ⟨_, .space hn⟩
  | plain hd _ ih =>
    rcases p with _ | ⟨d, p⟩
    · exact ⟨[], .nil⟩
    · simp only [List.cons_append, List.cons.injEq] at hs
      obtain ⟨rfl, hs⟩ := hs
      obtain ⟨n, hn⟩ := ih hs
      exact ⟨_, .plain hd hn⟩

lemma Bare.length_le {s name : Text} (h : Bare s name) : name.length ≤ s.length := by
  induction h with
  | nil => exact Nat.le_refl _
  | space _ ih =>
    simp only [List.length_cons]
    omega
  | plain _ _ ih => exact Nat.succ_le_succ ih

lemma bare_singleton {c : CodePoint} (h : isDelimiter c = false) : Bare [c] [c] := .plain h .nil

/-- A spelling is maximal exactly where it stops. -/
lemma maximal_iff_stops {s name rest : Text} (hs : Bare s name) :
    Maximal s rest ↔ Stops s rest := by
  constructor
  · rintro hmax c r rfl
    by_cases hc : isDelimiter c = true
    · refine ⟨hc, ?_⟩
      rintro rfl hlast
      obtain ⟨p, rfl⟩ := List.getLast?_eq_some_iff.1 hlast
      obtain ⟨n, hn⟩ := hs.of_append_backslash
      have hlong : Bare (p ++ [ofChar '\\'] ++ [ofChar ' ']) (n ++ [ofChar ' ']) := by
        simpa using hn.append (.space .nil)
      exact absurd (hmax [ofChar ' '] r rfl ⟨_, hlong⟩) (by simp)
    · have hlong := hs.append (bare_singleton (Bool.not_eq_true _ ▸ hc))
      exact absurd (hmax [c] r rfl ⟨_, hlong⟩) (by simp)
  · rintro hstop u w rfl ⟨n, hn⟩
    cases u with
    | nil => rfl
    | cons c u =>
      obtain ⟨hc, hspace⟩ := hstop c (u ++ w) rfl
      obtain ⟨rfl, hlast⟩ := hn.delimiter hc
      exact absurd hlast (hspace rfl)

lemma Stops.of_append {p s rest : Text} (h : Stops (p ++ s) rest) : Stops s rest := by
  rintro c r hr
  obtain ⟨hc, hspace⟩ := h c r hr
  refine ⟨hc, fun hc' hlast => hspace hc' ?_⟩
  rw [List.getLast?_append, hlast]
  rfl

/-- Every text begins with a spelling that stops, if only with the empty one. -/
lemma exists_bare (t : Text) : ∃ s name rest, t = s ++ rest ∧ Bare s name ∧ Stops s rest := by
  induction h : t.length using Nat.strongRecOn generalizing t with
  | ind n ih =>
    subst h
    rcases t with _ | ⟨c, t⟩
    · exact ⟨[], [], [], rfl, .nil, by rintro c r ⟨⟩⟩
    · by_cases hc : isDelimiter c = true
      · refine ⟨[], [], c :: t, rfl, .nil, ?_⟩
        rintro d r heq
        obtain ⟨rfl, rfl⟩ := List.cons.inj heq
        exact ⟨hc, by simp⟩
      · by_cases hesc : ∃ r, c = ofChar '\\' ∧ t = ofChar ' ' :: r
        · obtain ⟨r, rfl, rfl⟩ := hesc
          obtain ⟨s, name, rest, rfl, hs, hstop⟩ :=
            ih r.length (by simp only [List.length_cons]; omega) r rfl
          refine ⟨_, _, rest, rfl, .space hs, ?_⟩
          rintro d r hr
          obtain ⟨hd, hspace⟩ := hstop d r hr
          refine ⟨hd, fun hd' => ?_⟩
          have := hspace hd'
          rw [List.getLast?_cons_cons, List.getLast?_cons]
          cases hlast : s.getLast? with
          | none => exact fun h => absurd h (by decide)
          | some e => simpa [hlast] using this
        · obtain ⟨s, name, rest, rfl, hs, hstop⟩ := ih t.length (by simp) t rfl
          refine ⟨_, _, rest, rfl, .plain (Bool.not_eq_true _ ▸ hc) hs, ?_⟩
          rintro d r rfl
          obtain ⟨hd, hspace⟩ := hstop d r rfl
          refine ⟨hd, ?_⟩
          rintro rfl
          rw [List.getLast?_cons]
          cases hlast : s.getLast? with
          | none =>
            obtain rfl := List.getLast?_eq_none_iff.1 hlast
            simp only [Option.getD_none, ne_eq, Option.some.injEq]
            rintro rfl
            exact hesc ⟨r, rfl, rfl⟩
          | some e => simpa [hlast] using hspace rfl

/-! ## Cutting a text into lexemes -/

/-- Behind an opening quote, a text holds the inside of a complete literal, or it ends inside one,
be it behind a backslash that escapes nothing. -/
lemma quoted_cases (t : Text) :
    (∃ raw rest, t = raw ++ ofChar '"' :: rest ∧ Inside raw) ∨ Inside t ∨
      ∃ raw, t = raw ++ [ofChar '\\'] ∧ Inside raw := by
  induction h : t.length using Nat.strongRecOn generalizing t with
  | ind n ih =>
    subst h
    match t with
    | [] => exact .inr (.inl .nil)
    | c :: t =>
      by_cases hquote : c = ofChar '"'
      · subst hquote
        exact .inl ⟨[], t, rfl, .nil⟩
      · by_cases hslash : c = ofChar '\\'
        · subst hslash
          match t with
          | [] => exact .inr (.inr ⟨[], rfl, .nil⟩)
          | d :: t =>
            rcases ih t.length (by simp only [List.length_cons]; omega) t rfl with
              ⟨raw, rest, rfl, hr⟩ | hr | ⟨raw, rfl, hr⟩
            · exact .inl ⟨_, rest, rfl, .escaped d hr⟩
            · exact .inr (.inl (.escaped d hr))
            · exact .inr (.inr ⟨_, rfl, .escaped d hr⟩)
        · rcases ih t.length (by simp) t rfl with ⟨raw, rest, rfl, hr⟩ | hr | ⟨raw, rfl, hr⟩
          · exact .inl ⟨_, rest, rfl, .plain hquote hslash hr⟩
          · exact .inr (.inl (.plain hquote hslash hr))
          · exact .inr (.inr ⟨_, rfl, .plain hquote hslash hr⟩)

/-- The literal with a given inside, before the rest of a text. -/
def quotedBefore (raw rest : Text) : Text := ofChar '"' :: (raw ++ ofChar '"' :: rest)

lemma not_isDelimiter_of_ne {c : CodePoint} (hblank : isBlank c = false) (hopen : c ≠ ofChar '(')
    (hclose : c ≠ ofChar ')') (hquote : c ≠ ofChar '"') : isDelimiter c = false := by
  simp [isDelimiter, hblank, hopen, hclose, hquote]

/-- Induction over the lexemes of a text. -/
@[elab_as_elim]
theorem lexeme_induction {P : Text → Prop}
    (nil : P [])
    (blank : ∀ c r, isBlank c = true → P r → P (c :: r))
    (opening : ∀ r, P r → P (ofChar '(' :: r))
    (closing : ∀ r, P r → P (ofChar ')' :: r))
    (quoted : ∀ raw rest, Inside raw → P rest → P (quotedBefore raw rest))
    (unterminated : ∀ raw, Inside raw → P (ofChar '"' :: raw))
    (cutOff : ∀ raw, Inside raw → P (ofChar '"' :: (raw ++ [ofChar '\\'])))
    (bare : ∀ s name rest, Bare s name → s ≠ [] → Stops s rest → P rest → P (s ++ rest))
    (t : Text) : P t := by
  induction h : t.length using Nat.strongRecOn generalizing t with
  | ind n ih =>
    subst h
    match t with
    | [] => exact nil
    | c :: t =>
      by_cases hblank : isBlank c = true
      · exact blank c t hblank (ih t.length (by simp) t rfl)
      by_cases hopen : c = ofChar '('
      · subst hopen
        exact opening t (ih t.length (by simp) t rfl)
      by_cases hclose : c = ofChar ')'
      · subst hclose
        exact closing t (ih t.length (by simp) t rfl)
      by_cases hquote : c = ofChar '"'
      · subst hquote
        rcases quoted_cases t with ⟨raw, rest, rfl, hr⟩ | hr | ⟨raw, rfl, hr⟩
        · refine quoted raw rest hr (ih rest.length ?_ rest rfl)
          simp only [List.length_cons, List.length_append]
          omega
        · exact unterminated t hr
        · exact cutOff raw hr
      -- what is left begins a bare lexeme
      have hc := not_isDelimiter_of_ne (Bool.not_eq_true _ ▸ hblank) hopen hclose hquote
      obtain ⟨s, name, rest, heq, hs, hstop⟩ := exists_bare (c :: t)
      have hne : s ≠ [] := by
        rintro rfl
        obtain ⟨hbad, -⟩ := hstop c t heq.symm
        simp [hc] at hbad
      have hlen : rest.length < (c :: t).length := by
        rw [heq, List.length_append]
        have := List.length_pos_iff.2 hne
        omega
      rw [heq]
      exact bare s name rest hs hne hstop (ih rest.length hlen rest rfl)

/-! ## What the reader answers

The dot of a pair is kept among the items of an open list as the symbol of that name, which no
other lexeme gives. -/

/-- The value that stands for the dot of a pair. -/
def dot : Sexp := .symbol (Text.ofString ".")

/-- Whether a value is the one that stands for the dot of a pair. -/
def isDot : Sexp → Bool
  | symbol name => name = Text.ofString "."
  | _ => false

lemma isDot_iff {v : Sexp} : v.isDot = true ↔ v = dot := by
  cases v <;> simp [isDot, dot]

namespace Reader

/-- An open list with one more item. -/
def Open.put (o : Open) (v : Sexp) : Open := ⟨v :: o.items, o.dotted || v.isDot⟩

/-- Whether an open list takes an item: a dot is taken only as the second item, and not by the
outermost list, which stands for the whole text. -/
def Open.Admits (o : Open) (outer : List Open) (v : Sexp) : Prop :=
  v.isDot = true → outer ≠ [] ∧ o.dotted = false ∧ o.items.length = 1

namespace State

/-- What a reader that has come to a state answers on the rest of a text. -/
def answer (st : State) (t : Text) : Except ReadError Sexp :=
  match st.run t with
  | .ok st => st.finish
  | .error e => .error e

/-- A reader that has passed over some code points. -/
def advance (st : State) (n : Nat) : State := { st with position := st.position + n }

/-- A reader that has read an item. -/
def put (st : State) (v : Sexp) : State :=
  { st with current := st.current.put v, lexeme := .between }

/-- A reader that has read an opening bracket. -/
def descend (st : State) : State :=
  { st with current := ⟨[], false⟩, outer := st.current :: st.outer }

/-- A reader that has read a closing bracket, and with it a value of the list around. -/
def ascend (st : State) (parent : Open) (outer : List Open) (v : Sexp) : State :=
  { st with current := parent.put v, outer, lexeme := .between }

variable {st : State}

@[simp] lemma advance_lexeme (n : Nat) : (st.advance n).lexeme = st.lexeme := rfl
@[simp] lemma advance_current (n : Nat) : (st.advance n).current = st.current := rfl
@[simp] lemma advance_outer (n : Nat) : (st.advance n).outer = st.outer := rfl
@[simp] lemma advance_position (n : Nat) : (st.advance n).position = st.position + n := rfl
@[simp] lemma put_lexeme (v : Sexp) : (st.put v).lexeme = .between := rfl
@[simp] lemma put_current (v : Sexp) : (st.put v).current = st.current.put v := rfl
@[simp] lemma put_outer (v : Sexp) : (st.put v).outer = st.outer := rfl
@[simp] lemma put_position (v : Sexp) : (st.put v).position = st.position := rfl
@[simp] lemma descend_lexeme : st.descend.lexeme = st.lexeme := rfl
@[simp] lemma descend_current : st.descend.current = ⟨[], false⟩ := rfl
@[simp] lemma descend_outer : st.descend.outer = st.current :: st.outer := rfl
@[simp] lemma descend_position : st.descend.position = st.position := rfl
@[simp] lemma ascend_lexeme (o : Open) (os : List Open) (v : Sexp) :
    (st.ascend o os v).lexeme = .between := rfl
@[simp] lemma ascend_current (o : Open) (os : List Open) (v : Sexp) :
    (st.ascend o os v).current = o.put v := rfl
@[simp] lemma ascend_outer (o : Open) (os : List Open) (v : Sexp) :
    (st.ascend o os v).outer = os := rfl
@[simp] lemma ascend_position (o : Open) (os : List Open) (v : Sexp) :
    (st.ascend o os v).position = st.position := rfl

lemma advance_advance (m n : Nat) : (st.advance m).advance n = st.advance (m + n) := by
  simp [advance, Nat.add_assoc]

lemma push_eq_put {v : Sexp} (hv : v.isDot = false) : st.push v = st.put v := by
  simp [push, put, Open.put, hv]

lemma answer_nil : st.answer [] = st.finish := rfl

lemma answer_cons (c : CodePoint) (r : Text) :
    st.answer (c :: r) = (st.step c).bind fun st' => st'.answer r := by
  simp only [answer, run, Except.bind]
  cases st.step c <;> rfl

/-- Reading the text between two lexemes goes on from what its first code point makes of the
state. -/
lemma answer_cons_begin (h : st.lexeme = .between) (c : CodePoint) (r : Text) :
    st.answer (c :: r) = (st.begin c).bind fun st' =>
      { st' with position := st.position + 1 : State }.answer r := by
  rw [answer_cons, step, accept, h]
  cases st.begin c <;> rfl

/-! ### Blanks and brackets -/

lemma answer_blank (h : st.lexeme = .between) {c : CodePoint} (hc : isBlank c = true) (r : Text) :
    st.answer (c :: r) = (st.advance 1).answer r := by
  rw [answer_cons_begin h, begin, if_pos hc, Except.bind]
  simp only [advance, h]

lemma answer_opening (h : st.lexeme = .between) (r : Text) :
    st.answer (ofChar '(' :: r) = (st.advance 1).descend.answer r := by
  rw [answer_cons_begin h, begin, if_neg (by decide), if_neg (by decide), if_pos rfl, Except.bind]
  simp only [advance, descend, h]

lemma not_isDot_of_close {o : Open} {v : Sexp} (h : o.close = some v) : v.isDot = false := by
  rw [Open.close] at h
  split at h
  · split at h
    · cases h
      rfl
    · cases h
  · cases h
    rfl

/-- At a closing bracket the innermost list ends, if it may. -/
lemma answer_closing (h : st.lexeme = .between) (r : Text) :
    st.answer (ofChar ')' :: r) =
      match st.outer with
      | [] => refuse .unbalancedClose st.position
      | parent :: outer =>
        match st.current.close with
        | none => refuse .invalidCons (st.position + 1)
        | some v => ((st.advance 1).ascend parent outer v).answer r := by
  rw [answer_cons_begin h, begin, if_neg (by decide), if_pos rfl, close]
  cases st.outer with
  | nil => rfl
  | cons parent outer =>
    cases hclose : st.current.close with
    | none => rfl
    | some v =>
      simp only [push_eq_put (not_isDot_of_close hclose)]
      rfl

/-! ### Strings -/

/-- A reader inside a lexeme. -/
def inside (st : State) (l : Lexeme) : State := { st with lexeme := l }

lemma answer_quoted_plain {c : CodePoint} (hc : c ≠ ofChar '"') (start : Nat) (before : Text)
    (escapes : Bool) (r : Text) :
    (st.inside (.quoted start before escapes false)).answer (c :: r) =
      ((st.advance 1).inside (.quoted start (c :: before) escapes (c = ofChar '\\'))).answer r := by
  rw [answer_cons, step, accept, inside]
  simp only [if_neg hc]
  rfl

lemma answer_quoted_escaped (c : CodePoint) (start : Nat) (before : Text) (escapes : Bool)
    (r : Text) :
    (st.inside (.quoted start before escapes true)).answer (c :: r) =
      ((st.advance 1).inside (.quoted start (c :: before) true false)).answer r := by
  rw [answer_cons, step, accept, inside]
  rfl

/-- The inside of a string is passed over; what is kept of it is itself, last code point first,
and whether a backslash was in it. -/
lemma answer_inside {raw : Text} (hraw : Inside raw) (start : Nat) (before : Text) (escapes : Bool)
    (rest : Text) :
    (st.inside (.quoted start before escapes false)).answer (raw ++ rest) =
      ((st.advance raw.length).inside (.quoted start (raw.reverse ++ before)
        (escapes || raw.contains (ofChar '\\')) false)).answer rest := by
  induction hraw generalizing st before escapes with
  | nil => simp [advance]
  | @plain c r hquote hslash _ ih =>
    have hcontains : (c :: r).contains (ofChar '\\') = r.contains (ofChar '\\') := by
      simp [Ne.symm hslash]
    rw [List.cons_append, answer_quoted_plain hquote, decide_eq_false hslash, ih,
      advance_advance, hcontains, Nat.add_comm 1]
    simp
  | @escaped r c _ ih =>
    have hcontains : (ofChar '\\' :: c :: r).contains (ofChar '\\') = true := by
      simp
    rw [List.cons_append, List.cons_append, answer_quoted_plain (by decide), decide_eq_true rfl,
      answer_quoted_escaped, ih, advance_advance, advance_advance, hcontains]
    simp [Nat.add_comm, Nat.add_left_comm]

lemma answer_openQuote (h : st.lexeme = .between) (r : Text) :
    st.answer (ofChar '"' :: r) =
      ((st.advance 1).inside (.quoted st.position [] false false)).answer r := by
  rw [answer_cons_begin h, begin, if_neg (by decide), if_neg (by decide), if_neg (by decide),
    if_pos rfl, Except.bind]
  rfl

/-- Ending a string forgets the lexeme, and the code point that ends it is counted. -/
lemma endQuoted_inside (l : Lexeme) (start : Nat) (raw : Text) (escapes : Bool) :
    ((st.inside l).endQuoted start raw escapes).map
        (fun st' => { st' with position := st.position + 1 }) =
      (st.advance 1).endQuoted start raw escapes := by
  cases escapes with
  | false => rfl
  | true =>
    rw [endQuoted, endQuoted]
    cases Json.decode (raw.reverse ++ [ofChar '"']) <;> rfl

/-- A complete string is an item, if it can be read. -/
lemma answer_quoted (h : st.lexeme = .between) {raw : Text} (hraw : Inside raw) (rest : Text) :
    st.answer (quotedBefore raw rest) =
      ((st.advance (raw.length + 2)).endQuoted st.position raw.reverse
        (raw.contains (ofChar '\\'))).bind fun st' => st'.answer rest := by
  have hlength : 1 + raw.length + 1 = raw.length + 2 := by omega
  rw [quotedBefore, answer_openQuote h, answer_inside hraw, answer_cons, step, List.append_nil,
    Bool.false_or, ← hlength, ← advance_advance, ← advance_advance]
  exact congrArg (fun x => Except.bind x fun st' => st'.answer rest) (endQuoted_inside _ _ _ _)

/-- A string that no quote ends. -/
lemma answer_unterminated (h : st.lexeme = .between) {raw : Text} (hraw : Inside raw) :
    st.answer (ofChar '"' :: raw) = refuse .unterminatedString st.position := by
  have hinside := @answer_inside (st.advance 1) raw hraw st.position [] false []
  rw [List.append_nil] at hinside
  rw [answer_openQuote h, hinside]
  rfl

/-- A string whose last backslash escapes nothing. -/
lemma answer_cutOff (h : st.lexeme = .between) {raw : Text} (hraw : Inside raw) :
    st.answer (ofChar '"' :: (raw ++ [ofChar '\\'])) =
      refuse .endAfterBackslash (st.position + 1 + raw.length) := by
  rw [answer_openQuote h, answer_inside hraw, answer_quoted_plain (by decide),
    decide_eq_true rfl]
  rfl

/-! ### Bare lexemes -/

/-- A backslash that no space follows stands for itself. -/
lemma answer_escaping {r : Text} (hr : r.head? ≠ some (ofChar ' ')) (start : Nat) (before : Text) :
    (st.inside (.bare start before true)).answer r =
      (st.inside (.bare start (ofChar '\\' :: before) false)).answer r := by
  cases r with
  | nil => rfl
  | cons c r =>
    have hc : c ≠ ofChar ' ' := by simpa using hr
    rw [answer_cons, answer_cons, step, step, accept, accept, inside, inside]
    simp only [if_neg hc]
    rfl

lemma answer_bare_plain {c : CodePoint} (hc : isDelimiter c = false) (hslash : c ≠ ofChar '\\')
    (start : Nat) (before r : Text) :
    (st.inside (.bare start before false)).answer (c :: r) =
      ((st.advance 1).inside (.bare start (c :: before) false)).answer r := by
  rw [answer_cons, step, accept, inside]
  simp only [continueBare, hc, Bool.false_eq_true, if_false, if_neg hslash]
  rfl

lemma answer_bare_backslash (start : Nat) (before r : Text) :
    (st.inside (.bare start before false)).answer (ofChar '\\' :: r) =
      ((st.advance 1).inside (.bare start before true)).answer r := by
  rw [answer_cons, step, accept, inside]
  simp only [continueBare, not_isDelimiter_backslash, Bool.false_eq_true, if_false, if_true]
  rfl

lemma answer_bare_escapedSpace (start : Nat) (before r : Text) :
    (st.inside (.bare start before true)).answer (ofChar ' ' :: r) =
      ((st.advance 1).inside (.bare start (ofChar ' ' :: before) false)).answer r := by
  rw [answer_cons, step, accept, inside]
  simp only [if_true]
  rfl

/-- A bare lexeme that has a value is the dot only if that is its name. -/
lemma isDot_of_atom {name : Text} {v : Sexp} (h : atom name = .ok v) :
    v.isDot = decide (name = Text.ofString ".") := by
  rw [atom] at h
  split at h
  · next negative digits hdigits =>
    split at h
    · cases h
      have hne : name ≠ Text.ofString "." := by
        rintro rfl
        have hnone : integerDigits? (Text.ofString ".") = none := by decide
        simp [hnone] at hdigits
      simp [isDot, hne]
    · cases h
  · split at h
    · next hnil =>
      cases h
      rw [hnil]
      rfl
    · cases h
      rfl

lemma atom_dot : atom (Text.ofString ".") = .ok (.symbol (Text.ofString ".")) := rfl

/-- A bare lexeme ends in a state where its value, if it has one, is put among the items, if the
open list takes it. -/
lemma endBare_eq_ok_iff {start : Nat} {name : Text} {st' : State} :
    st.endBare start name = .ok st' ↔
      ∃ v, atom name = .ok v ∧ st.current.Admits st.outer v ∧ st' = st.put v := by
  rw [endBare]
  by_cases hdot : name = Text.ofString "."
  · subst hdot
    have hadmits : st.current.Admits st.outer (.symbol (Text.ofString ".")) ↔
        ¬(st.outer.isEmpty || st.current.dotted || decide (st.current.items.length ≠ 1)) = true :=
      by simp [Open.Admits, isDot, and_assoc]
    rw [if_pos rfl, atom_dot]
    split
    · next hbad =>
      simp only [refuse, reduceCtorEq, false_iff]
      rintro ⟨v, hv, hadm, -⟩
      cases hv
      exact hadmits.1 hadm hbad
    · next hgood =>
      constructor
      · intro h
        cases h
        exact ⟨_, rfl, hadmits.2 hgood, by simp [put, push, Open.put, isDot]⟩
      · rintro ⟨v, hv, -, rfl⟩
        cases hv
        simp [put, push, Open.put, isDot]
  · rw [if_neg hdot, Result.map_eq_ok_iff]
    constructor
    · rintro ⟨v, hv, rfl⟩
      have hnot : v.isDot = false := by rw [isDot_of_atom hv, decide_eq_false hdot]
      exact ⟨v, hv, by simp [Open.Admits, hnot], push_eq_put hnot⟩
    · rintro ⟨v, hv, -, rfl⟩
      have hnot : v.isDot = false := by rw [isDot_of_atom hv, decide_eq_false hdot]
      exact ⟨v, hv, push_eq_put hnot⟩

/-- A bare lexeme is refused as a misplaced dot, or because it has no value. -/
lemma endBare_eq_error {start : Nat} {name : Text} {e : ReadError}
    (h : st.endBare start name = .error e) :
    (name = Text.ofString "." ∧ e = .malformed ⟨.invalidCons, start⟩) ∨ atom name = .error e := by
  rw [endBare] at h
  split at h
  · next hdot =>
    split at h
    · cases h
      exact .inl ⟨hdot, rfl⟩
    · cases h
  · exact .inr (Result.map_eq_error_iff.1 h)

lemma endBare_inside (l : Lexeme) (start : Nat) (name : Text) :
    (st.inside l).endBare start name = st.endBare start name := by
  rw [endBare, endBare]
  split <;> rfl

lemma finish_eq_of_between (h : st.lexeme = .between) :
    st.finish =
      if !st.outer.isEmpty then refuse .prematureEnd st.position
      else match st.current.items with
        | [] => refuse .emptyInput st.position
        | [v] => .ok v
        | _ => refuse .dataAfterValue st.position := by
  have hend : st.endLexeme = .ok st := by rw [endLexeme, h]
  unfold finish
  split
  · next heq =>
    rw [hend] at heq
    cases heq
  · next heq =>
    rw [hend] at heq
    cases heq
    rfl

/-- A bare lexeme is ended by what follows it: by a delimiter, or by the end of the text. -/
lemma answer_bare_end {rest : Text} (hrest : ∀ c r, rest = c :: r → isDelimiter c = true)
    (start : Nat) (before : Text) :
    (st.inside (.bare start before false)).answer rest =
      (st.endBare start before.reverse).bind fun st' => st'.answer rest := by
  cases rest with
  | nil =>
    have hlexeme : (st.inside (.bare start before false)).endLexeme =
        st.endBare start before.reverse := endBare_inside _ _ _
    rw [answer_nil, finish, hlexeme]
    cases hend : st.endBare start before.reverse with
    | error e => rfl
    | ok st' =>
      obtain ⟨v, -, -, rfl⟩ := endBare_eq_ok_iff.1 hend
      exact (finish_eq_of_between (put_lexeme v)).symm
  | cons c r =>
    have haccept : (st.inside (.bare start before false)).accept c =
        (st.endBare start before.reverse).bind fun st' => st'.begin c := by
      rw [← endBare_inside (.bare start before false), accept, inside]
      simp only [continueBare, hrest c r rfl, if_true]
      cases endBare _ _ _ <;> rfl
    rw [answer_cons, step, haccept]
    cases hend : st.endBare start before.reverse with
    | error e => rfl
    | ok st' =>
      obtain ⟨v, -, -, rfl⟩ := endBare_eq_ok_iff.1 hend
      rw [Except.bind, Except.bind, answer_cons_begin (put_lexeme v)]
      cases (st.put v).begin c <;> rfl

/-- The spelling of a bare lexeme is passed over; what is kept of it is its name. -/
lemma answer_spelling {s name rest : Text} (hs : Bare s name) (hstop : Stops s rest) (start : Nat)
    (before : Text) :
    (st.inside (.bare start before false)).answer (s ++ rest) =
      ((st.advance s.length).inside (.bare start (name.reverse ++ before) false)).answer rest := by
  induction hs generalizing st before with
  | nil => simp [advance]
  | @space t name _ ih =>
    rw [List.cons_append, List.cons_append, answer_bare_backslash, answer_bare_escapedSpace,
      ih (Stops.of_append (p := [ofChar '\\', ofChar ' ']) hstop), advance_advance, advance_advance]
    simp [Nat.add_comm]
  | @plain c t name hc hs ih =>
    have hlength : 1 + t.length = (c :: t).length := by simp [Nat.add_comm]
    have hname : name.reverse ++ c :: before = (c :: name).reverse ++ before := by simp
    by_cases hslash : c = ofChar '\\'
    · subst hslash
      have hhead : (t ++ rest).head? ≠ some (ofChar ' ') := by
        rcases t with _ | ⟨d, t⟩
        · intro hd
          obtain ⟨r, hr⟩ := List.head?_eq_some_iff.1 hd
          exact (hstop _ r hr).2 rfl rfl
        · simpa using ne_space_of_not_isDelimiter hs.head
      rw [List.cons_append, answer_bare_backslash, answer_escaping hhead,
        ih (Stops.of_append (p := [ofChar '\\']) hstop), advance_advance, hlength, hname]
    · rw [List.cons_append, answer_bare_plain hc hslash, ih (Stops.of_append (p := [c]) hstop),
        advance_advance, hlength, hname]

lemma answer_openBare (h : st.lexeme = .between) {c : CodePoint} (hc : isDelimiter c = false)
    (r : Text) :
    st.answer (c :: r) = (st.inside (.bare st.position [] false)).answer (c :: r) := by
  simp only [isDelimiter, Bool.or_eq_false_iff, decide_eq_false_iff_not] at hc
  obtain ⟨⟨⟨hblank, hopen⟩, hclose⟩, hquote⟩ := hc
  by_cases hslash : c = ofChar '\\'
  · subst hslash
    rw [answer_bare_backslash, answer_cons_begin h, begin, if_neg (by decide), if_neg (by decide),
      if_neg (by decide), if_neg (by decide), if_pos rfl, Except.bind]
    rfl
  · have hdelimiter := not_isDelimiter_of_ne hblank hopen hclose hquote
    rw [answer_bare_plain hdelimiter hslash, answer_cons_begin h, begin, if_neg (by simp [hblank]),
      if_neg hclose, if_neg hopen, if_neg hquote, if_neg hslash, Except.bind]
    rfl

/-- A bare lexeme is an item, if it has a value and the list takes it. -/
lemma answer_bare (h : st.lexeme = .between) {s name rest : Text} (hs : Bare s name)
    (hne : s ≠ []) (hstop : Stops s rest) :
    st.answer (s ++ rest) =
      ((st.advance s.length).endBare st.position name).bind fun st' => st'.answer rest := by
  obtain ⟨c, s, rfl⟩ := List.exists_cons_of_ne_nil hne
  have hopen := answer_openBare h hs.head (s ++ rest)
  rw [← List.cons_append] at hopen
  rw [hopen, answer_spelling hs hstop, answer_bare_end (fun c r hr => (hstop c r hr).1)]
  simp

end State

end Reader

end SuggestBridge.Sexp
