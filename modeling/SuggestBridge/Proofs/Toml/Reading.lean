import SuggestBridge.Proofs.Result
import SuggestBridge.Toml.Reader
import Mathlib.Data.List.Infix
import Mathlib.Data.Option.Basic
import Mathlib.Tactic.Common

/-!
# What reading a document leaves

Each reader takes what it reads from the front of a text and leaves an end of it.  A reading fails for
its digits only if it has come to a number with more of them than can be read, so such a number stands
in the text (`Reads`).  A reader that is put together from others does so if its parts do, and so a
document fails for its digits only if it holds a run of too many (`exists_overlong_of_read`).
-/

namespace SuggestBridge.Toml

open CodePoint (ofChar)

/-- Digits with underscores between them, more digits than can be read. -/
structure IsOverlong (run : Text) (e : DigitLimit) : Prop where
  digits : ∀ c ∈ run, c.isAsciiDigit = true ∨ c = ofChar '_'
  exceeds : Integer.digitLimit < (run.filter CodePoint.isAsciiDigit).length
  reported : e = .reading (run.filter CodePoint.isAsciiDigit).length

/-- Somewhere in the text stands a run of too many digits. -/
def HoldsOverlong (t : Text) (e : DigitLimit) : Prop := ∃ run, run <:+: t ∧ IsOverlong run e

lemma HoldsOverlong.of_part {r t : Text} {e : DigitLimit} (h : HoldsOverlong r e) (hr : r <:+: t) :
    HoldsOverlong t e := by
  obtain ⟨run, hrun, hlong⟩ := h
  exact ⟨run, hrun.trans hr, hlong⟩

section Reads

variable {α β : Type} {t r : Text} {rest : α → Text} {rest' : β → Text}

/-- A reading that leaves an end of the text, and that fails for its digits only if the text holds too
many. -/
structure Reads (t : Text) (rest : α → Text) (x : Except ReadError α) : Prop where
  leaves : ∀ a, x = .ok a → rest a <:+ t
  digits : ∀ e, x = .error (.digits e) → HoldsOverlong t e

lemma reads_refuse : Reads t rest refuse := ⟨nofun, nofun⟩

lemma reads_ok {a : α} (h : rest a <:+ t) : Reads t rest (.ok a) :=
  ⟨fun _ hb => Except.ok.inj hb ▸ h, nofun⟩

lemma reads_pair {γ : Type} (v : γ) (h : r <:+ t) :
    Reads t Prod.snd (.ok (v, r) : Except ReadError (γ × Text)) := reads_ok h

lemma reads_required {o : Option α} (h : ∀ a ∈ o, rest a <:+ t) : Reads t rest (required o) := by
  cases o with
  | none => exact reads_refuse
  | some a => exact reads_ok (h a rfl)

/-- What was read is checked, and nothing more is read. -/
lemma reads_checked (t : Text) (o : Option α) : Reads t (fun _ => t) (required o) :=
  reads_required fun _ _ => List.suffix_refl t

lemma Reads.of_suffix {x : Except ReadError α} (h : Reads r rest x) (hr : r <:+ t) :
    Reads t rest x :=
  ⟨fun a ha => (h.leaves a ha).trans hr, fun e he => (h.digits e he).of_part hr.isInfix⟩

/-- A reading goes on where another has ended. -/
lemma Reads.bind {x : Except ReadError α} {f : α → Except ReadError β} (hx : Reads t rest x)
    (hf : ∀ a, Reads (rest a) rest' (f a)) : Reads t rest' (x >>= f) := by
  cases x with
  | error e => exact ⟨nofun, fun e' he => hx.digits e' (by cases he; rfl)⟩
  | ok a => exact (hf a).of_suffix (hx.leaves a rfl)

lemma Reads.map {x : Except ReadError α} {f : α → β} (hx : Reads t rest x)
    (hf : ∀ a, rest' (f a) <:+ rest a) : Reads t rest' (x.map f) := by
  cases x with
  | error e => exact ⟨nofun, fun e' he => hx.digits e' (by cases he; rfl)⟩
  | ok a => exact reads_ok ((hf a).trans (hx.leaves a rfl))

end Reads

variable {t r : Text}

/-! ## Blanks and comments -/

lemma skipBlanks_suffix (t : Text) : skipBlanks t <:+ t := List.dropWhile_suffix _

lemma reads_skipComment (t : Text) : Reads t id (skipComment t) := by
  cases t with
  | nil => exact reads_ok (List.suffix_refl _)
  | cons c r =>
    rw [skipComment]
    split_ifs
    · exact reads_ok (List.suffix_refl _)
    · exact reads_refuse
    · exact reads_ok ((List.dropWhile_suffix _).trans (List.suffix_cons c r))

lemma reads_skipGaps (inComment : Bool) (t : Text) : Reads t id (skipGaps inComment t) := by
  induction t generalizing inComment with
  | nil => exact reads_ok (List.suffix_refl _)
  | cons c r ih =>
    have hr : r <:+ c :: r := List.suffix_cons c r
    rw [skipGaps]
    split_ifs
    · exact (ih _).of_suffix hr
    · exact reads_refuse
    · exact (ih _).of_suffix hr
    · exact (ih _).of_suffix hr
    · exact (ih _).of_suffix hr
    · exact reads_ok (List.suffix_refl _)

/-! ## Texts and keys -/

lemma reads_keep (c : CodePoint) {x : Except ReadError (Text × Text)} (h : Reads t Prod.snd x) :
    Reads t Prod.snd (keep c x) := h.map fun _ => List.suffix_refl _

lemma reads_quotedText (long : Bool) (st : Within) (t : Text) :
    Reads t Prod.snd (quotedText long st t) := by
  induction t generalizing st with
  | nil => exact reads_refuse
  | cons c r ih =>
    have hr : r <:+ c :: r := List.suffix_cons c r
    have hgo : ∀ st, Reads (c :: r) Prod.snd (quotedText long st r) := fun st => (ih st).of_suffix hr
    have hkeep : ∀ x st, Reads (c :: r) Prod.snd (keep x (quotedText long st r)) :=
      fun x st => reads_keep x (hgo st)
    rw [quotedText]
    cases st.at c with
    | trimming => exact hgo _
    | lineEnd =>
      dsimp only
      split_ifs
      exacts [hgo _, hgo _, reads_refuse]
    | number missing value =>
      dsimp only
      cases c.hexValue? with
      | none => exact reads_refuse
      | some d =>
        dsimp only
        split_ifs
        · exact hgo _
        · cases CodePoint.ofNat? (16 * value + d) with
          | none => exact reads_refuse
          | some x =>
            dsimp only
            split_ifs
            exacts [reads_refuse, hkeep _ _]
    | escape =>
      dsimp only
      split_ifs
      · exact hgo _
      · exact hgo _
      · exact hgo _
      · exact hgo _
      · cases unescape? c with
        | none => exact reads_refuse
        | some x => exact hkeep _ _
    | plain =>
      dsimp only
      split_ifs
      · exact reads_ok hr
      · exact reads_ok ((List.drop_suffix 2 r).trans hr)
      · exact hkeep _ _
      · exact hgo _
      · exact reads_refuse
      · exact hkeep _ _

lemma reads_literalText (long : Bool) (t : Text) : Reads t Prod.snd (literalText long t) := by
  induction t with
  | nil => exact reads_refuse
  | cons c r ih =>
    have hr : r <:+ c :: r := List.suffix_cons c r
    rw [literalText]
    split
    · exact reads_ok ((List.drop_suffix _ r).trans hr)
    · split
      · exact reads_refuse
      · exact reads_keep c (ih.of_suffix hr)

lemma reads_withFurtherQuotes (quote : CodePoint) {x : Except ReadError (Text × Text)}
    (h : Reads t Prod.snd x) : Reads t Prod.snd (withFurtherQuotes quote x) :=
  h.map fun _ => List.drop_suffix _ _

lemma skipFirstLineEnd_suffix (t : Text) : skipFirstLineEnd t <:+ t := by
  cases t with
  | nil => exact List.suffix_refl _
  | cons c r =>
    rw [skipFirstLineEnd]
    split
    · exact List.suffix_cons c r
    · exact List.suffix_refl _

lemma reads_text (t : Text) : Reads t Prod.snd (text t) := by
  have hlong : skipFirstLineEnd (t.drop 3) <:+ t :=
    (skipFirstLineEnd_suffix _).trans (List.drop_suffix 3 t)
  unfold text
  split_ifs
  · exact reads_withFurtherQuotes _ ((reads_quotedText _ _ _).of_suffix hlong)
  · exact reads_withFurtherQuotes _ ((reads_literalText _ _).of_suffix hlong)
  · cases t with
    | nil => exact reads_refuse
    | cons c r =>
      have hr : r <:+ c :: r := List.suffix_cons c r
      dsimp only
      split_ifs
      · exact (reads_quotedText _ _ _).of_suffix hr
      · exact (reads_literalText _ _).of_suffix hr
      · exact reads_refuse

lemma reads_keyPart (t : Text) : Reads t Prod.snd (keyPart t) := by
  cases t with
  | nil => exact reads_refuse
  | cons c r =>
    have hr : r <:+ c :: r := List.suffix_cons c r
    rw [keyPart]
    split_ifs
    · exact reads_ok (List.dropWhile_suffix _)
    · exact (reads_quotedText _ _ _).of_suffix hr
    · exact (reads_literalText _ _).of_suffix hr
    · exact reads_refuse

lemma reads_key (fuel : Nat) (t : Text) : Reads t Prod.snd (key fuel t) := by
  induction fuel generalizing t with
  | zero => exact reads_refuse
  | succ fuel ih =>
    rw [key]
    refine (reads_keyPart t).bind fun ⟨part, r⟩ => ?_
    have hskip := skipBlanks_suffix r
    dsimp only
    cases hr : skipBlanks r with
    | nil => exact reads_ok (List.nil_suffix)
    | cons c s =>
      rw [hr] at hskip
      have hs : skipBlanks s <:+ r :=
        (skipBlanks_suffix s).trans ((List.suffix_cons c s).trans hskip)
      dsimp only
      split_ifs
      · exact ((ih _).bind fun p => reads_pair (part :: p.1) (List.suffix_refl p.2)).of_suffix hs
      · exact reads_ok hskip

/-! ## Numbers -/

/-- Digits are read from the front, with single underscores between them passed over. -/
lemma exists_run_furtherDigits (isDigit : CodePoint → Bool) (t : Text) :
    ∃ run, t = run ++ (furtherDigits isDigit t).2 ∧
      (∀ c ∈ run, isDigit c = true ∨ c = ofChar '_') ∧
      run.filter isDigit = (furtherDigits isDigit t).1 := by
  induction t using furtherDigits.induct isDigit with
  | case1 => exact ⟨[], rfl, nofun, rfl⟩
  | case2 c r hc digits rest heq ih =>
    obtain ⟨run, hrun, hdigits, hfilter⟩ := ih
    rw [furtherDigits.eq_def]
    simp only [if_pos hc]
    refine ⟨c :: run, congrArg (c :: ·) hrun, List.forall_mem_cons.2 ⟨.inl hc, hdigits⟩, ?_⟩
    rw [List.filter_cons_of_pos hc, hfilter]
  | case3 c hc =>
    rw [furtherDigits.eq_def]
    simp only [if_neg hc]
    exact ⟨[], rfl, nofun, rfl⟩
  | case4 c hc d r hd digits rest heq ih =>
    obtain ⟨run, hrun, hdigits, hfilter⟩ := ih
    rw [furtherDigits.eq_def]
    simp only [if_neg hc, if_pos hd]
    rw [Bool.and_eq_true, decide_eq_true_eq] at hd
    refine ⟨c :: d :: run, congrArg (c :: d :: ·) hrun, ?_, ?_⟩
    · exact List.forall_mem_cons.2 ⟨.inr hd.1, List.forall_mem_cons.2 ⟨.inl hd.2, hdigits⟩⟩
    · rw [List.filter_cons_of_neg hc, List.filter_cons_of_pos hd.2, hfilter]
  | case5 c hc d r hd =>
    rw [furtherDigits.eq_def]
    simp only [if_neg hc, if_neg hd]
    exact ⟨[], rfl, nofun, rfl⟩

lemma exists_run_digits? {isDigit : CodePoint → Bool} {t digits rest : Text}
    (h : digits? isDigit t = some (digits, rest)) :
    ∃ run, t = run ++ rest ∧ (∀ c ∈ run, isDigit c = true ∨ c = ofChar '_') ∧
      run.filter isDigit = digits := by
  cases t with
  | nil => cases h
  | cons c r =>
    rw [digits?] at h
    split_ifs at h with hc
    cases h
    obtain ⟨run, hrun, hdigits, hfilter⟩ := exists_run_furtherDigits isDigit r
    refine ⟨c :: run, congrArg (c :: ·) hrun, List.forall_mem_cons.2 ⟨.inl hc, hdigits⟩, ?_⟩
    rw [List.filter_cons_of_pos hc, hfilter]

lemma digits?_suffix {isDigit : CodePoint → Bool} {t digits rest : Text}
    (h : digits? isDigit t = some (digits, rest)) : rest <:+ t := by
  obtain ⟨run, rfl, -⟩ := exists_run_digits? h
  exact List.suffix_append run rest

lemma exists_run_wholePart? {t whole rest : Text} (h : wholePart? t = some (whole, rest)) :
    ∃ run, t = run ++ rest ∧ (∀ c ∈ run, c.isAsciiDigit = true ∨ c = ofChar '_') ∧
      run.filter CodePoint.isAsciiDigit = whole := by
  cases t with
  | nil => cases h
  | cons c r =>
    rw [wholePart?] at h
    split_ifs at h with hc
    · cases h
      subst hc
      exact ⟨[ofChar '0'], rfl, by decide, rfl⟩
    · exact exists_run_digits? h

lemma splitSign_suffix (t : Text) : (Integer.splitSign t).2 <:+ t := by
  cases t with
  | nil => exact List.suffix_refl _
  | cons c r =>
    rw [Integer.splitSign]
    split_ifs
    exacts [List.suffix_cons c r, List.suffix_cons c r, List.suffix_refl _]

lemma basedInteger?_suffix {t : Text} {p : Raw × Text} (h : basedInteger? t = some p) :
    p.2 <:+ t := by
  match t, h with
  | zero :: letter :: r, h =>
    simp only [basedInteger?, Option.bind_eq_bind, Option.bind_eq_some_iff] at h
    obtain ⟨-, -, base, hbase, ⟨digits, rest⟩, hdigits, ⟨⟩⟩ := h
    exact (digits?_suffix hdigits).trans ⟨[zero, letter], rfl⟩

lemma places_suffix (t : Text) : (places t).2 <:+ t := by
  cases t with
  | nil => exact List.suffix_refl _
  | cons c r =>
    rw [places]
    split
    · exact List.suffix_refl _
    · cases h : digits? CodePoint.isAsciiDigit r with
      | none => exact List.suffix_refl _
      | some p => exact (digits?_suffix h).trans (List.suffix_cons c r)

lemma exponent_suffix (t : Text) : (exponent t).2 <:+ t := by
  cases t with
  | nil => exact List.suffix_refl _
  | cons c r =>
    rw [exponent]
    split
    · exact List.suffix_refl _
    · dsimp only
      cases h : digits? CodePoint.isAsciiDigit (Integer.splitSign r).2 with
      | none => exact List.suffix_refl _
      | some p =>
        exact (digits?_suffix h).trans
          ((splitSign_suffix r).trans (List.suffix_cons c r))

lemma specialNumber?_suffix {t : Text} {p : Raw × Text} (h : specialNumber? t = some p) :
    p.2 <:+ t := by
  simp only [specialNumber?] at h
  split_ifs at h <;> cases h
  all_goals exact (List.drop_suffix 3 _).trans (splitSign_suffix t)

lemma reads_decimal? {t : Text} {x : Except ReadError (Raw × Text)} (h : decimal? t = some x) :
    Reads t Prod.snd x := by
  simp only [decimal?, Option.bind_eq_bind, Option.bind_eq_some_iff] at h
  obtain ⟨⟨whole, r⟩, hwhole, h⟩ := h
  obtain ⟨run, hrun, hdigits, rfl⟩ := exists_run_wholePart? hwhole
  have hsign := splitSign_suffix t
  rw [hrun] at hsign
  have hr : r <:+ t := (List.suffix_append run r).trans hsign
  have hrest : (exponent (places r).2).2 <:+ t :=
    (exponent_suffix _).trans ((places_suffix r).trans hr)
  dsimp only at h
  split_ifs at h with hnone hlimit
  · cases h
    exact reads_ok hrest
  · cases h
    refine ⟨nofun, fun e he => ?_⟩
    cases he
    exact ⟨run, (List.prefix_append run r).isInfix.trans hsign.isInfix, hdigits,
      Nat.lt_of_not_le hlimit, rfl⟩
  · cases h
    exact reads_ok hrest

/-! ## Moments -/

lemma field?_suffix {width low high n : Nat} {t r : Text} (h : field? width low high t = some (n, r)) :
    r <:+ t := by
  simp only [field?] at h
  split_ifs at h
  cases h
  exact List.drop_suffix width t

lemma mark?_suffix {c : CodePoint} {t r : Text} (h : mark? c t = some r) : r <:+ t := by
  cases t with
  | nil => cases h
  | cons d s =>
    rw [mark?] at h
    split_ifs at h
    cases h
    exact List.suffix_cons d _

lemma reads_mark (c : CodePoint) (t : Text) : Reads t id (required (mark? c t)) :=
  reads_required fun _ => mark?_suffix

lemma timeOfDay?_suffix {t r : Text} (h : timeOfDay? t = some r) : r <:+ t := by
  simp only [timeOfDay?, Option.bind_eq_bind, Option.bind_eq_some_iff] at h
  obtain ⟨⟨_, t₁⟩, h₁, t₂, h₂, ⟨_, t₃⟩, h₃, t₄, h₄, ⟨_, t₅⟩, h₅, h⟩ := h
  have hrest : t₅ <:+ t := (field?_suffix h₅).trans <| (mark?_suffix h₄).trans <|
    (field?_suffix h₃).trans <| (mark?_suffix h₂).trans (field?_suffix h₁)
  match t₅, h, hrest with
  | [], h, hrest => cases h; exact hrest
  | [c], h, hrest => cases h; exact hrest
  | c :: d :: s, h, hrest =>
    dsimp only at h
    split_ifs at h <;> cases h
    · exact (List.dropWhile_suffix _).trans (List.IsSuffix.trans ⟨[c, d], rfl⟩ hrest)
    · exact hrest

lemma signedOffset?_suffix {t r : Text} (h : signedOffset? t = some r) : r <:+ t := by
  simp only [signedOffset?, Option.bind_eq_bind, Option.bind_eq_some_iff] at h
  obtain ⟨⟨_, t₁⟩, h₁, t₂, h₂, ⟨_, t₃⟩, h₃, ⟨⟩⟩ := h
  exact (field?_suffix h₃).trans ((mark?_suffix h₂).trans (field?_suffix h₁))

lemma skipOffset_suffix (t : Text) : skipOffset t <:+ t := by
  cases t with
  | nil => exact List.suffix_refl _
  | cons c r =>
    have hr : r <:+ c :: r := List.suffix_cons c r
    rw [skipOffset]
    split_ifs
    · exact hr
    · cases h : signedOffset? r with
      | none => exact List.suffix_refl _
      | some s => exact (signedOffset?_suffix h).trans hr
    · exact List.suffix_refl _

lemma reads_dated? {t : Text} {x : Except ReadError (Raw × Text)} (h : dated? t = some x) :
    Reads t Prod.snd x := by
  simp only [dated?, Option.bind_eq_bind, Option.bind_eq_some_iff] at h
  obtain ⟨⟨year, t₁⟩, h₁, t₂, h₂, ⟨month, t₃⟩, h₃, t₄, h₄, ⟨day, t₅⟩, h₅, h⟩ := h
  have hrest : t₅ <:+ t := (field?_suffix h₅).trans <| (mark?_suffix h₄).trans <|
    (field?_suffix h₃).trans <| (mark?_suffix h₂).trans (field?_suffix h₁)
  have hwhole : Reads t Prod.snd (.ok (Raw.moment .date, t₅)) := reads_ok hrest
  dsimp only at h
  split at h
  · cases h
    exact reads_refuse
  · cases t₅ with
    | nil =>
      cases h
      exact hwhole
    | cons c s =>
      dsimp only at h
      by_cases hmark : c = ofChar 'T' ∨ c = ofChar 't' ∨ c = ofChar ' '
      · rw [if_pos hmark] at h
        cases htime : timeOfDay? s with
        | none =>
          rw [htime] at h
          cases h
          exact hwhole
        | some r =>
          rw [htime] at h
          cases h
          refine reads_ok ((skipOffset_suffix r).trans ((timeOfDay?_suffix htime).trans ?_))
          exact (List.suffix_cons c s).trans hrest
      · rw [if_neg hmark] at h
        cases h
        exact hwhole

lemma time?_suffix {t : Text} {p : Raw × Text} (h : time? t = some p) : p.2 <:+ t := by
  obtain ⟨r, hr, rfl⟩ := Option.map_eq_some_iff.1 h
  exact timeOfDay?_suffix hr

/-! ## Values -/

lemma reads_scalar (t : Text) : Reads t Prod.snd (scalar t) := by
  unfold scalar
  split_ifs
  · exact (reads_text t).map fun _ => List.suffix_refl _
  · exact reads_ok (List.drop_suffix 4 t)
  · exact reads_ok (List.drop_suffix 5 t)
  · cases hdated : dated? t with
    | some x => exact reads_dated? hdated
    | none =>
      dsimp only
      cases hor : (time? t).or (basedInteger? t) with
      | some p =>
        rcases Option.or_eq_some_iff.1 hor with htime | ⟨-, hbased⟩
        · exact reads_ok (time?_suffix htime)
        · exact reads_ok (basedInteger?_suffix hbased)
      | none =>
        dsimp only
        cases hdecimal : decimal? t with
        | some x => exact reads_decimal? hdecimal
        | none => exact reads_required fun _ => specialNumber?_suffix

/-- Whatever the fuel, a value, the items of an array and the entries of an inline table are read from
the front. -/
lemma reads_nested (fuel : Nat) :
    (∀ t, Reads t Prod.snd (value fuel t)) ∧ (∀ t, Reads t Prod.snd (arrayItems fuel t)) ∧
      ∀ table t, Reads t Prod.snd (inlineEntries fuel table t) := by
  induction fuel with
  | zero => exact ⟨fun _ => reads_refuse, fun _ => reads_refuse, fun _ _ => reads_refuse⟩
  | succ fuel ih =>
    obtain ⟨hvalue, hitems, hentries⟩ := ih
    refine ⟨fun t => ?_, fun t => ?_, fun table t => ?_⟩
    · cases t with
      | nil =>
        rw [value]
        exact reads_refuse
      | cons c r =>
        have hr : r <:+ c :: r := List.suffix_cons c r
        rw [value]
        dsimp only
        split_ifs
        · refine Reads.of_suffix ((reads_skipGaps false r).bind fun s => ?_) hr
          exact (hitems s).bind fun p => reads_pair (Raw.list p.1) (List.suffix_refl p.2)
        · have hskip := skipBlanks_suffix r
          cases hs : skipBlanks r with
          | nil => exact reads_refuse
          | cons d s =>
            rw [hs] at hskip
            dsimp only
            split_ifs
            · exact reads_ok ((List.suffix_cons d s).trans (hskip.trans hr))
            · refine Reads.of_suffix ((hentries _ (d :: s)).bind fun p => ?_) (hskip.trans hr)
              exact reads_pair (Raw.table p.1) (List.suffix_refl p.2)
        · exact reads_scalar _
    · rw [arrayItems]
      cases hend : mark? (ofChar ']') t with
      | some r => exact reads_ok (mark?_suffix hend)
      | none =>
        refine (hvalue t).bind fun ⟨v, r⟩ => (reads_skipGaps false r).bind fun s => ?_
        cases s with
        | nil => exact reads_refuse
        | cons c s =>
          have hs : s <:+ c :: s := List.suffix_cons c s
          dsimp only
          split_ifs
          · exact reads_ok hs
          · refine Reads.of_suffix ((reads_skipGaps false s).bind fun s => ?_) hs
            exact (hitems s).bind fun p => reads_pair (v :: p.1) (List.suffix_refl p.2)
          · exact reads_refuse
    · rw [inlineEntries]
      refine (reads_key fuel t).bind fun ⟨name, r⟩ => (reads_mark _ r).bind fun s => ?_
      refine Reads.of_suffix ((hvalue (skipBlanks s)).bind fun ⟨v, r⟩ => ?_) (skipBlanks_suffix s)
      refine (reads_checked r (table.add name v)).bind fun table => ?_
      have hskip := skipBlanks_suffix r
      cases hs : skipBlanks r with
      | nil => exact reads_refuse
      | cons c s =>
        rw [hs] at hskip
        have hs : s <:+ r := (List.suffix_cons c s).trans hskip
        dsimp only
        split_ifs
        · exact reads_ok hs
        · exact (hentries _ _).of_suffix ((skipBlanks_suffix s).trans hs)
        · exact reads_refuse

/-! ## Documents -/

lemma reads_statement (fuel : Nat) (d : Document) (t : Text) :
    Reads t Prod.snd (statement fuel d t) := by
  cases t with
  | nil => exact reads_refuse
  | cons c r =>
    have hr : r <:+ c :: r := List.suffix_cons c r
    rw [statement]
    split_ifs
    · cases hmark : mark? (ofChar '[') r with
      | some s =>
        refine Reads.of_suffix ((reads_key fuel (skipBlanks s)).bind fun ⟨name, r⟩ => ?_)
          ((skipBlanks_suffix s).trans ((mark?_suffix hmark).trans hr))
        refine (reads_checked r (d.openFurther name)).bind fun d => ?_
        refine (reads_mark _ r).bind fun s => (reads_mark _ s).bind fun s => ?_
        exact reads_pair d (List.suffix_refl s)
      | none =>
        refine Reads.of_suffix ((reads_key fuel (skipBlanks r)).bind fun ⟨name, r⟩ => ?_)
          ((skipBlanks_suffix r).trans hr)
        refine (reads_checked r (d.openTable name)).bind fun d => (reads_mark _ r).bind fun s => ?_
        exact reads_pair d (List.suffix_refl s)
    · refine (reads_key fuel (c :: r)).bind fun ⟨name, r⟩ => (reads_mark _ r).bind fun s => ?_
      refine Reads.of_suffix (((reads_nested fuel).1 (skipBlanks s)).bind fun ⟨v, r⟩ => ?_)
        (skipBlanks_suffix s)
      exact (reads_checked r (d.add name v)).bind fun d => reads_pair d (List.suffix_refl r)
    · exact reads_refuse

/-- A line ends with the text or goes on behind its line end, after blanks and a comment. -/
lemma reads_lineEnd {d : Document} {further : Text → Except ReadError Document}
    {goOn : Text → Except ReadError Document} (hend : goOn [] = .ok d)
    (hline : ∀ c s, goOn (c :: s) = if c = ofChar '\n' then further s else refuse)
    (hfurther : ∀ s, Reads s (fun _ => []) (further s)) (t : Text) :
    Reads t (fun _ => []) (skipComment (skipBlanks t) >>= goOn) := by
  refine Reads.of_suffix ((reads_skipComment (skipBlanks t)).bind fun s => ?_)
    (skipBlanks_suffix t)
  cases s with
  | nil => exact hend ▸ reads_ok List.nil_suffix
  | cons c s =>
    rw [hline]
    split_ifs
    · exact (hfurther s).of_suffix (List.suffix_cons c s)
    · exact reads_refuse

lemma reads_lines (fuel : Nat) (d : Document) (t : Text) :
    Reads t (fun _ => []) (lines fuel d t) := by
  induction fuel generalizing d t with
  | zero => exact reads_refuse
  | succ fuel ih =>
    rw [lines]
    refine Reads.of_suffix ?_ (skipBlanks_suffix t)
    split
    · exact reads_lineEnd rfl (fun _ _ => rfl) (ih d) (skipBlanks t)
    · refine (reads_statement fuel d (skipBlanks t)).bind fun p => ?_
      exact reads_lineEnd rfl (fun _ _ => rfl) (ih p.1) p.2

lemma eq_nil_of_prefix_cons {run s : Text} {x : CodePoint} (hx : x ∉ run) (h : run <+: x :: s) :
    run = [] := by
  cases run with
  | nil => rfl
  | cons c run => exact absurd (List.cons_prefix_cons.1 h).1 fun hc => hx (hc ▸ List.mem_cons_self)

/-- What stands in a text with parts replaced by one code point, and does not hold that one, stands in
the text itself; and at its front, if it stood there. -/
lemma infix_of_replaceFrom {old run : Text} {x : CodePoint} (hx : x ∉ run) (n : Nat) (t : Text) :
    (run <+: Text.replaceFrom old [x] n t → run <+: t.drop n) ∧
      (run <:+: Text.replaceFrom old [x] n t → run <:+: t.drop n) := by
  induction t generalizing n run with
  | nil => cases n <;> exact ⟨id, id⟩
  | cons c r ih =>
    cases n with
    | succ n => exact ih hx n
    | zero =>
      have hr : ∀ m, r.drop m <:+: c :: r := fun m =>
        (List.drop_suffix m r).isInfix.trans (List.suffix_cons c r).isInfix
      rw [Text.replaceFrom]
      split
      · refine ⟨fun h => eq_nil_of_prefix_cons hx h ▸ List.nil_prefix, fun h => ?_⟩
        rcases List.infix_cons_iff.1 h with h | h
        · exact eq_nil_of_prefix_cons hx h ▸ List.nil_infix
        · exact ((ih hx _).2 h).trans (hr _)
      · have hfront : run <+: c :: Text.replaceFrom old [x] 0 r → run <+: c :: r := fun h => by
          cases run with
          | nil => exact List.nil_prefix
          | cons d run =>
            obtain ⟨rfl, hrun⟩ := List.cons_prefix_cons.1 h
            have hxrun : x ∉ run := fun hmem => hx (List.mem_cons_of_mem _ hmem)
            exact List.cons_prefix_cons.2 ⟨rfl, (ih hxrun 0).1 hrun⟩
        refine ⟨hfront, fun h => ?_⟩
        rcases List.infix_cons_iff.1 h with h | h
        · exact (hfront h).isInfix
        · exact ((ih hx 0).2 h).trans (hr 0)

/-- **A document is refused for its digits only if it holds a run of too many.** -/
theorem exists_overlong_of_read {t : Text} {e : DigitLimit} (h : read t = .error (.digits e)) :
    HoldsOverlong t e := by
  rw [read, Result.map_eq_error_iff] at h
  obtain ⟨run, hrun, hlong⟩ := (reads_lines _ _ _).digits e h
  have hbreak : ofChar '\n' ∉ run := fun hmem => by
    rcases hlong.digits _ hmem with h | h
    · exact absurd h (by decide)
    · exact absurd h (by decide)
  exact ⟨run, (infix_of_replaceFrom hbreak 0 t).2 hrun, hlong⟩

end SuggestBridge.Toml
