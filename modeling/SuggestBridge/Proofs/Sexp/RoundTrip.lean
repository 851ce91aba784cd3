import SuggestBridge.Sexp.Printer
import SuggestBridge.Proofs.Sexp.Grammar
import SuggestBridge.Proofs.Result
import Mathlib.Tactic.IntervalCases

/-!
# Written values are read back

Whatever value is written, reading the text gives the value with its truth values and tuples
replaced by what they are written as (`read_write`).  The induction is over the value and its
sequences of values; what it carries is that the written form is read as one item in front of
any rest that a delimiter begins (`Written`).
-/

namespace SuggestBridge.Sexp

open CodePoint (ofChar)
open Json (wideCodePoint wideLiteral)
open Reader

/-- What can stand behind a written value: nothing, or a delimiter. -/
def Follows (rest : Text) : Prop := ∀ c r, rest = c :: r → isDelimiter c = true

/-- In front of whatever can follow, a text is read as one item with the given value, where the
list takes it. -/
def Written (t : Text) (v : Sexp) : Prop :=
  ∀ (st : State) (rest : Text), st.lexeme = .between → Follows rest →
    st.current.Admits st.outer v →
    ∃ n, st.answer (t ++ rest) = ((st.advance n).put v).answer rest

/-! ## Names, numbers and strings -/

/-- A bare lexeme is read whole if it does not end in a backslash. -/
lemma written_bare {s name : Text} {v : Sexp} (hs : Bare s name) (hne : s ≠ [])
    (hlast : s.getLast? ≠ some (ofChar '\\')) (hatom : atom name = .ok v) : Written s v := by
  intro st rest hst hrest hadmits
  have hstop : Stops s rest := fun c r hr => ⟨hrest c r hr, fun _ => hlast⟩
  have hend : (st.advance s.length).endBare st.position name =
      .ok ((st.advance s.length).put v) :=
    State.endBare_eq_ok_iff.2 ⟨v, hatom, hadmits, rfl⟩
  refine ⟨s.length, ?_⟩
  rw [State.answer_bare hst hs hne hstop, hend]
  rfl

lemma bare_self {t : Text} (h : ∀ c ∈ t, isDelimiter c = false) : Bare t t := by
  induction t with
  | nil => exact .nil
  | cons c t ih => exact .plain (h c (by simp)) (ih fun d hd => h d (List.mem_cons_of_mem c hd))

lemma written_nil : Written (Text.ofString "nil") .nil :=
  written_bare (bare_self (by decide)) (by decide) (by decide) rfl

lemma written_t : Written (Text.ofString "t") (.symbol (Text.ofString "t")) :=
  written_bare (bare_self (by decide)) (by decide) (by decide) rfl

/-- The dot of a written pair. -/
lemma written_dot : Written (Text.ofString ".") dot :=
  written_bare (bare_self (by decide)) (by decide) (by decide) rfl

lemma not_isDelimiter_of_digit {c : CodePoint} (h : 0x30 ≤ c.val ∧ c.val ≤ 0x39) :
    isDelimiter c = false ∧ c ≠ ofChar '\\' := by
  have hc : c = CodePoint.ofNat c.val := by simp [CodePoint.ofNat, c.isLt]
  obtain ⟨hlow, hhigh⟩ := h
  rw [hc]
  generalize c.val = n at hlow hhigh
  interval_cases n <;> exact ⟨by decide, by decide⟩

lemma IsNumeral.not_isDelimiter {name ds : Text} (h : IsNumeral name ds) :
    ∀ c ∈ name, isDelimiter c = false ∧ c ≠ ofChar '\\' := by
  obtain ⟨rfl | rfl, -, hds⟩ := h
  · exact fun c hc => not_isDelimiter_of_digit (hds c hc)
  · intro c hc
    rcases List.mem_cons.1 hc with rfl | hc
    · exact ⟨by decide, by decide⟩
    · exact not_isDelimiter_of_digit (hds c hc)

lemma written_int {n : Int} {t : Text} (h : Integer.write n = .ok t) : Written t (.int n) := by
  obtain ⟨ds, hds⟩ := isNumeral_of_write h
  refine written_bare (bare_self fun c hc => (hds.not_isDelimiter c hc).1) ?_ ?_ (atom_of_write h)
  · obtain ⟨rfl | rfl, hne, -⟩ := hds
    · exact hne
    · simp
  · intro hlast
    exact (hds.not_isDelimiter _ (List.mem_of_getLast? hlast)).2 rfl

lemma written_string (t : Text) : Written (wideLiteral t) (.string t) := by
  intro st rest hst _ _
  have hraw := (Json.spells_flatMap_wideCodePoint t).inside
  have hquoted : wideLiteral t ++ rest = quotedBefore (t.flatMap wideCodePoint) rest := by
    simp [wideLiteral, quotedBefore]
  refine ⟨(t.flatMap wideCodePoint).length + 2, ?_⟩
  rw [hquoted, State.answer_quoted hst hraw, State.endQuoted, List.reverse_reverse]
  by_cases hin : ofChar '\\' ∈ t.flatMap wideCodePoint
  · rw [if_pos (by simpa using hin),
      (Json.decode_eq_ok_iff hraw).2 (Json.spells_flatMap_wideCodePoint t),
      ← State.push_eq_put rfl]
    rfl
  · rw [if_neg (by simpa using hin), Json.flatMap_wideCodePoint_eq_self hin,
      ← State.push_eq_put rfl]
    rfl

/-- What a name must be for its symbol to be written. -/
lemma of_isWritableName {name : Text} (h : isWritableName name = true) :
    name ≠ [] ∧ name ≠ Text.ofString "nil" ∧ name ≠ Text.ofString "." ∧
      name.getLast? ≠ some (ofChar '\\') ∧ (¬∃ ds, IsNumeral name ds) ∧
      ∀ c ∈ name, isDelimiter c = true → c = ofChar ' ' := by
  simp only [isWritableName, Bool.and_eq_true, Bool.not_eq_true', decide_eq_true_eq,
    Option.isNone_iff_eq_none, integerDigits?_eq_none_iff, List.isEmpty_eq_false_iff] at h
  obtain ⟨⟨⟨⟨⟨hne, hnil⟩, hdot⟩, hend⟩, hnum⟩, hchars⟩ := h
  refine ⟨hne, hnil, hdot, ?_, hnum, ?_⟩
  · intro hlast
    obtain ⟨p, rfl⟩ := List.getLast?_eq_some_iff.1 hlast
    have hends : Text.endsWith (p ++ [ofChar '\\']) (Text.ofString "\\") = true := by
      rw [Text.endsWith, List.reverse_append]
      rfl
    exact absurd hends (by simpa using hend)
  · intro c hc hdel
    by_contra hspace
    refine absurd hchars ?_
    rw [Bool.not_eq_false, List.any_eq_true]
    exact ⟨c, hc, by simpa [hdel] using hspace⟩

/-- The escaped form of a name spells it. -/
lemma bare_flatMap_nameCodePoint {name : Text}
    (h : ∀ c ∈ name, isDelimiter c = true → c = ofChar ' ') :
    Bare (name.flatMap nameCodePoint) name := by
  induction name with
  | nil => exact .nil
  | cons c name ih =>
    have hrest := ih fun d hd => h d (List.mem_cons_of_mem c hd)
    rw [List.flatMap_cons, nameCodePoint]
    by_cases hc : c = ofChar ' '
    · rw [if_pos hc, hc]
      exact .space hrest
    · rw [if_neg hc]
      exact .plain (Bool.not_eq_true _ ▸ fun hdel => hc (h c (by simp) hdel)) hrest

/-- The escaped form of a name ends as the name does. -/
lemma getLast?_flatMap_nameCodePoint (name : Text) :
    (name.flatMap nameCodePoint).getLast? = name.getLast? := by
  rcases List.eq_nil_or_concat name with rfl | ⟨p, c, rfl⟩
  · rfl
  · rw [List.concat_eq_append, List.flatMap_append, List.flatMap_singleton,
      List.getLast?_concat, nameCodePoint]
    by_cases hc : c = ofChar ' '
    · rw [if_pos hc, hc]
      simp [Text.ofString]
    · rw [if_neg hc]
      simp

lemma written_symbol {name t : Text} (h : writeName name = .ok t) : Written t (.symbol name) := by
  rw [writeName] at h
  split at h
  · next hname =>
    cases h
    obtain ⟨hne, hnil, -, hlast, hnum, hchars⟩ := of_isWritableName hname
    refine written_bare (bare_flatMap_nameCodePoint hchars) ?_ ?_ ?_
    · intro hempty
      have hsame := getLast?_flatMap_nameCodePoint name
      rw [hempty] at hsame
      exact hne (List.getLast?_eq_none_iff.1 hsame.symm)
    · rwa [getLast?_flatMap_nameCodePoint]
    · rw [atom_of_not_isNumeral hnum, if_neg hnil]
  · cases h

/-! ## Lists and pairs -/

/-- In front of a closing bracket, a text is read as items with the given values, where the list
takes them. -/
def WrittenAll (t : Text) (vs : List Sexp) : Prop :=
  ∀ (st : State) (rest : Text), st.lexeme = .between → st.current.AdmitsAll st.outer vs →
    ∃ n, st.answer (t ++ ofChar ')' :: rest) =
      ((st.advance n).putAll vs).answer (ofChar ')' :: rest)

lemma written_bracketed {t : Text} {vs : List Sexp} {v : Sexp} (hvs : Bracketed vs v)
    (h : WrittenAll t vs) : Written (ofChar '(' :: (t ++ [ofChar ')'])) v := by
  intro st rest hst _ _
  obtain ⟨n, hn⟩ := h (st.advance 1).descend rest hst (admitsAll_of_bracketed hvs)
  refine ⟨1 + n + 1, ?_⟩
  rw [List.cons_append, List.append_assoc]
  exact answer_bracketed hst hvs hn

lemma isBlank_space : isBlank (ofChar ' ') = true := by decide

lemma follows_cons {c : CodePoint} (hc : isDelimiter c = true) (r : Text) : Follows (c :: r) := by
  rintro d q heq
  rwa [← (List.cons.inj heq).1]

lemma writtenAll_nil : WrittenAll [] [] := fun _ _ _ _ => ⟨0, rfl⟩

lemma writtenAll_singleton {t : Text} {v : Sexp} (h : Written t v) : WrittenAll t [v] :=
  fun st rest hst hadmits => h st _ hst (follows_cons (by decide) rest) hadmits.1

/-- A single space stands between neighbours. -/
lemma writtenAll_cons {t ts : Text} {v : Sexp} {vs : List Sexp} (h : Written t v)
    (hs : WrittenAll ts vs) : WrittenAll (t ++ ofChar ' ' :: ts) (v :: vs) := by
  intro st rest hst hadmits
  obtain ⟨n, hn⟩ := h st (ofChar ' ' :: (ts ++ ofChar ')' :: rest)) hst
    (follows_cons isDelimiter_space _) hadmits.1
  obtain ⟨k, hk⟩ := hs (((st.advance n).put v).advance 1) rest rfl hadmits.2
  refine ⟨n + 1 + k, ?_⟩
  rw [List.append_assoc, List.cons_append, hn, State.answer_blank rfl isBlank_space, hk,
    Nat.add_assoc, ← State.advance_advance, ← State.advance_advance]
  rfl

/-! ## Whole values -/

/-- No value is read back as the dot: the name of the dot is refused. -/
lemma isDot_canon {v : Sexp} {t : Text} (h : write v = .ok t) : v.canon.isDot = false := by
  cases v with
  | bool b => cases b <;> rfl
  | symbol name =>
    rw [write, writeName] at h
    split at h
    · next hname =>
      have hcanon : (symbol name).canon = symbol name := rfl
      rw [hcanon, ← Bool.not_eq_true, isDot_iff]
      exact fun heq => (of_isWritableName hname).2.2.1 (Sexp.symbol.inj heq)
    · cases h
  | _ => rfl

/-- A sequence is written only if each of its values is. -/
lemma writeAll_cons_eq_ok {v : Sexp} {vs : List Sexp} {ts : List Text}
    (h : writeAll (v :: vs) = .ok ts) :
    ∃ u us, write v = .ok u ∧ writeAll vs = .ok us ∧ ts = u :: us := by
  obtain ⟨u, hu, h⟩ := Result.bind_eq_ok_iff.1 h
  obtain ⟨us, hus, h⟩ := Result.bind_eq_ok_iff.1 h
  cases h
  exact ⟨u, us, hu, hus, rfl⟩

lemma isDot_canonAll {vs : List Sexp} {ts : List Text} (h : writeAll vs = .ok ts) :
    ∀ w ∈ canonAll vs, w.isDot = false := by
  induction vs generalizing ts with
  | nil => exact fun w hw => absurd hw (by simp [canonAll])
  | cons v vs ih =>
    obtain ⟨u, us, hu, hus, -⟩ := writeAll_cons_eq_ok h
    intro w hw
    rcases List.mem_cons.1 hw with rfl | hw
    · exact isDot_canon hu
    · exact ih hus w hw

/-- What stands between the brackets of a sequence, if each of its values is read back. -/
lemma writtenAll_join {vs : List Sexp} {ts : List Text} (h : writeAll vs = .ok ts)
    (ih : ∀ v ∈ vs, ∀ t, write v = .ok t → Written t v.canon) :
    WrittenAll (Text.join " " ts) (canonAll vs) := by
  induction vs generalizing ts with
  | nil =>
    cases h
    exact writtenAll_nil
  | cons v vs ihs =>
    obtain ⟨u, us, hu, hus, rfl⟩ := writeAll_cons_eq_ok h
    have hv := ih v (by simp) u hu
    have hvs := ihs hus fun w hw => ih w (List.mem_cons_of_mem v hw)
    cases vs with
    | nil =>
      cases hus
      exact writtenAll_singleton hv
    | cons w vs =>
      obtain ⟨x, xs, -, -, rfl⟩ := writeAll_cons_eq_ok hus
      have hjoin : Text.join " " (u :: x :: xs) = u ++ ofChar ' ' :: Text.join " " (x :: xs) := by
        simp [Text.join, Text.ofString]
      rw [hjoin]
      exact writtenAll_cons hv hvs

lemma written_sequence {vs : List Sexp} {t : Text}
    (h : (writeAll vs).map (fun ts => "(" ++ Text.join " " ts ++ ")") = .ok t)
    (ih : ∀ v ∈ vs, ∀ t, write v = .ok t → Written t v.canon) :
    Written t (.list (canonAll vs)) := by
  obtain ⟨ts, hts, rfl⟩ := Result.map_eq_ok_iff.1 h
  exact written_bracketed (.list (isDot_canonAll hts)) (writtenAll_join hts ih)

lemma written_cons {a d : Sexp} {t : Text} (h : write (.cons a d) = .ok t)
    (iha : ∀ t, write a = .ok t → Written t a.canon)
    (ihd : ∀ t, write d = .ok t → Written t d.canon) : Written t (.cons a.canon d.canon) := by
  obtain ⟨ta, hta, h⟩ := Result.bind_eq_ok_iff.1 h
  obtain ⟨td, htd, h⟩ := Result.bind_eq_ok_iff.1 h
  cases h
  have hpair : Bracketed [a.canon, dot, d.canon] (.cons a.canon d.canon) :=
    .pair (isDot_canon hta) (isDot_canon htd)
  have hinside :=
    writtenAll_cons (iha ta hta) (writtenAll_cons written_dot (writtenAll_singleton (ihd td htd)))
  have ht : Text.ofString "(" ++ ta ++ Text.ofString " . " ++ td ++ Text.ofString ")" =
      ofChar '(' :: ((ta ++ ofChar ' ' :: (Text.ofString "." ++ ofChar ' ' :: td)) ++
        [ofChar ')']) := by
    simp [Text.ofString]
  exact ht ▸ written_bracketed hpair hinside

lemma written_bool {b : Bool} {t : Text} (h : write (.bool b) = .ok t) :
    Written t (canon (.bool b)) := by
  cases b with
  | true =>
    cases h
    exact written_t
  | false =>
    cases h
    exact written_nil

/-- In front of whatever can follow, a written value is read as the value it is read back as. -/
lemma written_of_write (v : Sexp) : ∀ t, write v = .ok t → Written t v.canon := by
  refine @Sexp.rec (fun v => ∀ t, write v = .ok t → Written t v.canon)
    (fun vs => ∀ v ∈ vs, ∀ t, write v = .ok t → Written t v.canon)
    ?nil ?bool ?int ?string ?symbol ?list ?cons ?tuple ?alien ?noItems ?items v
  case nil => exact fun t h => (Except.ok.inj h) ▸ written_nil
  case bool => exact fun b t h => written_bool h
  case int =>
    intro n t h
    rw [write, Result.mapError_eq_ok_iff] at h
    exact written_int h
  case string => exact fun s t h => (Except.ok.inj h) ▸ written_string s
  case symbol => exact fun name t h => written_symbol h
  case list => exact fun vs ih t h => written_sequence h ih
  case cons => exact fun a d iha ihd t h => written_cons h iha ihd
  case tuple => exact fun vs ih t h => written_sequence h ih
  case alien => exact fun x t h => nomatch h
  case noItems => exact fun v hv => absurd hv List.not_mem_nil
  case items =>
    intro v vs ihv ihvs w hw
    rcases List.mem_cons.1 hw with rfl | hw
    · exact ihv
    · exact ihvs w hw

/-- A sequence of values that are read back as they are is read back as it is. -/
lemma canonAll_eq_self {vs : List Sexp} (h : ∀ v ∈ vs, v.canon = v) : canonAll vs = vs := by
  induction vs with
  | nil => rfl
  | cons v vs ih =>
    obtain ⟨hv, h⟩ := List.forall_mem_cons.1 h
    rw [canonAll, hv, ih h]

/-- A value without truth values and tuples. -/
inductive Plain : Sexp → Prop
  | nil : Plain .nil
  | int (n : Int) : Plain (.int n)
  | string (t : Text) : Plain (.string t)
  | symbol (name : Text) : Plain (.symbol name)
  | list {vs : List Sexp} : (∀ v ∈ vs, Plain v) → Plain (.list vs)
  | cons {a d : Sexp} : Plain a → Plain d → Plain (.cons a d)
  | alien (x : Alien) : Plain (.alien x)

lemma Plain.canon {v : Sexp} (h : Plain v) : v.canon = v := by
  induction h with
  | list _ ih => rw [Sexp.canon, canonAll_eq_self ih]
  | cons _ _ iha ihd => rw [Sexp.canon, iha, ihd]
  | _ => rfl

/-! ## Whole texts -/

/-- A text that is read as one item in front of anything is read as that item alone. -/
lemma read_of_written {t : Text} {v : Sexp} (h : Written t v) (hdot : v.isDot = false) :
    read t = .ok v := by
  have hadmits : State.initial.current.Admits State.initial.outer v :=
    Open.admits_of_not_isDot hdot
  obtain ⟨n, hn⟩ := h State.initial [] rfl (fun _ _ hr => nomatch hr) hadmits
  rw [List.append_nil, State.answer_nil] at hn
  exact hn.trans (State.finish_eq_of_between rfl)

lemma read_of_write {v : Sexp} {t : Text} (h : write v = .ok t) : read t = .ok v.canon :=
  read_of_written (written_of_write v t h) (isDot_canon h)

/-- Whatever a value is written as is read back as that value, with its truth values and tuples
replaced by what they are written as. -/
theorem read_write (v : Sexp) (t : Text) (h : write v = .ok t) : read t = .ok v.canon :=
  read_of_write h

/-- A pair of a name that holds an escaped blank and a tuple of every other kind. -/
theorem read_write_pair :
    write (.cons (.symbol "a\\ b") (.tuple [.bool true, .string "\\ \"", .int (-12), .bool false])) =
        .ok "(a\\\\ b . (t \"\\\\ \\\"\" -12 nil))" ∧
      read "(a\\\\ b . (t \"\\\\ \\\"\" -12 nil))" =
        .ok (.cons (.symbol "a\\ b") (.list [.symbol "t", .string "\\ \"", .int (-12), .nil])) := by
  have hint : Integer.write (-12) = .ok "-12" := by
    have hdigits : Text.ofNat 12 = Text.ofString "12" := by
      rw [ofNat_of_le (by decide), ofNat_of_lt (by decide)]
      decide
    rw [write_of_natAbs_lt (show 2 ≤ Integer.digitLimit by decide) (by decide)]
    exact congrArg (fun ds => Except.ok (ofChar '-' :: ds)) hdigits
  have hname : writeName "a\\ b" = .ok "a\\\\ b" := by decide
  have hwrite : write (.cons (.symbol "a\\ b")
      (.tuple [.bool true, .string "\\ \"", .int (-12), .bool false])) =
        .ok "(a\\\\ b . (t \"\\\\ \\\"\" -12 nil))" := by
    simp only [write, writeAll, hint, hname, bind, Except.bind, pure, Except.pure, Except.map,
      Except.mapError]
    decide
  exact ⟨hwrite, read_write _ _ hwrite⟩

end SuggestBridge.Sexp
