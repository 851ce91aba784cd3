import SuggestBridge.Proofs.Sexp.Descent

/-!
# The cursor of the descent

Reading by descent ends for every text, and no loop needs more passes than one for each code point
and one more; its cursor moves forward only, with every item by one code point at least, and never
past the end of the text; and what it gives is what the reader gives (`Descent.parse_eq_read`).  One
induction on the fuel carries all three (`Descent.loop_runs`), from one pass of the loop to the next
(`Descent.pass_runs`).

So the offset of every malformation is a place in the text, and for most of them one at which a
given code point stands (`Malformed.Located`).
-/

namespace SuggestBridge.Sexp

open CodePoint (ofChar)
open Json (Inside)
open Reader

/-! ## The descent and the reader

Where the cursor stands between two lexemes, the reader is between them too, with the same lists
open.  What the reader answers there is what every computation of the descent is compared with. -/

namespace Reader.State

variable {st : State}

/-- Ending a string, as its content put among the items. -/
lemma endQuoted_eq (start : Nat) (raw : Text) (escapes : Bool) :
    st.endQuoted start raw.reverse escapes =
      (Descent.unquoted raw escapes start).map fun s => st.put (.string s) := by
  rw [endQuoted, Descent.unquoted, List.reverse_reverse]
  cases escapes with
  | false =>
    rw [if_neg (by decide), if_neg (by decide), push_eq_put rfl]
    rfl
  | true =>
    rw [if_pos rfl, if_pos rfl]
    cases Json.decode (raw ++ [ofChar '"']) with
    | ok s => exact congrArg Except.ok (push_eq_put rfl)
    | error cause => rfl

/-- Ending a bare lexeme, as its value placed among the items. -/
lemma endBare_eq (start : Nat) (name : Text) :
    st.endBare start name = (atom name).bind fun v =>
      (st.current.place st.outer.isEmpty start v).map fun o =>
        { st with current := o, lexeme := .between } := by
  rw [endBare]
  by_cases hdot : name = Text.ofString "."
  · subst hdot
    rw [if_pos rfl, atom_dot, Except.bind, Open.place]
    have hsame : (st.outer.isEmpty || st.current.dotted || st.current.items.length ≠ 1) =
        (isDot (.symbol (Text.ofString ".")) &&
          (st.outer.isEmpty || st.current.dotted || st.current.items.length ≠ 1)) := by
      simp [isDot]
    split
    · next hbad => rw [if_pos (hsame ▸ hbad)]; rfl
    · next hgood =>
      rw [if_neg (hsame ▸ hgood)]
      simp [Except.map, push, Open.put, isDot]
  · rw [if_neg hdot]
    cases hatom : atom name with
    | error e => rfl
    | ok v =>
      have hnot : v.isDot = false := by rw [isDot_of_atom hatom, decide_eq_false hdot]
      simp [Except.map, Except.bind, Open.place, hnot, push, Open.put]

end Reader.State

namespace Cursor

variable {t r : Text} {c d : Cursor} {x : CodePoint} {o parent : Open} {outer : List Open}

/-- What the reader answers from where the cursor stands, if the lists `o` and `outer` are open. -/
def answer (c : Cursor) (t : Text) (o : Open) (outer : List Open) : Except ReadError Sexp :=
  State.answer ⟨c.position, o, outer, .between⟩ (c.rest t)

/-- What the reader answers from behind the bracket that closes the list `o`. -/
def answerClosed (c : Cursor) (t : Text) (o parent : Open) (outer : List Open) :
    Except ReadError Sexp :=
  (o.closedAt c.position).bind fun v => c.answer t (parent.put v) outer

lemma answer_blank (h : c.rest t = x :: r) (hx : isBlank x = true) :
    c.answer t o outer = (c.moved 1).answer t o outer := by
  rw [answer, answer, h, State.answer_blank rfl hx, rest_moved_one h]
  rfl

lemma answer_opening (h : c.rest t = ofChar '(' :: r) :
    c.answer t o outer = (c.moved 1).answer t ⟨[], false⟩ (o :: outer) := by
  rw [answer, answer, h, State.answer_opening rfl, rest_moved_one h]
  rfl

lemma answer_unbalanced (h : c.rest t = ofChar ')' :: r) :
    c.answer t o [] = refuse .unbalancedClose c.position := by
  rw [answer, h, State.answer_closing rfl]

lemma answer_closing (h : c.rest t = ofChar ')' :: r) :
    c.answer t o (parent :: outer) = (c.moved 1).answerClosed t o parent outer := by
  rw [answer, h, State.answer_closing rfl, answerClosed, Open.closedAt]
  cases o.close with
  | none => rfl
  | some v =>
    simp only [answer, rest_moved_one h]
    rfl

lemma answer_quoted {raw : Text} (hraw : Inside raw) (h : c.rest t = quotedBefore raw r)
    (hd : d.position = c.position + raw.length + 2) (hr : d.rest t = r) :
    c.answer t o outer =
      (Descent.unquoted raw (raw.contains (ofChar '\\')) c.position).bind fun s =>
        d.answer t (o.put (.string s)) outer := by
  rw [answer, h, State.answer_quoted rfl hraw, State.endQuoted_eq]
  cases Descent.unquoted raw (raw.contains (ofChar '\\')) c.position with
  | error e => rfl
  | ok s =>
    simp only [answer, hr, hd]
    rfl

lemma answer_bare {s name : Text} (hs : Bare s name) (hne : s ≠ []) (hstop : Stops s r)
    (h : c.rest t = s ++ r) (hd : d.position = c.position + s.length) (hr : d.rest t = r) :
    c.answer t o outer = (atom name).bind fun v =>
      (o.place outer.isEmpty c.position v).bind fun o' => d.answer t o' outer := by
  rw [answer, h, State.answer_bare rfl hs hne hstop, State.endBare_eq]
  cases atom name with
  | error e => rfl
  | ok v =>
    change Except.bind (Except.map _ (o.place outer.isEmpty c.position v)) _ =
      Except.bind (o.place outer.isEmpty c.position v) _
    cases o.place outer.isEmpty c.position v with
    | error e => rfl
    | ok o' =>
      simp only [answer, hr, hd]
      rfl

lemma answer_unterminated {raw : Text} (hraw : Inside raw) (h : c.rest t = ofChar '"' :: raw) :
    c.answer t o outer = refuse .unterminatedString c.position := by
  rw [answer, h, State.answer_unterminated rfl hraw]

lemma answer_cutOff {raw : Text} (hraw : Inside raw)
    (h : c.rest t = ofChar '"' :: (raw ++ [ofChar '\\'])) :
    c.answer t o outer = refuse .endAfterBackslash (c.position + 1 + raw.length) := by
  rw [answer, h, State.answer_cutOff rfl hraw]

lemma answer_end (h : c.rest t = []) :
    c.answer t o outer =
      if !outer.isEmpty then refuse .prematureEnd c.position else o.wholeAt c.position := by
  rw [answer, h]
  exact @State.finish_eq_of_between ⟨c.position, o, outer, .between⟩ rfl

end Cursor

namespace Descent

/-- How a pass of the loop from `c` ends at `d`, where the reader answers `answer` from `c`. -/
inductive Passes (t : Text) (answer : Except ReadError Sexp) (c d : Cursor) :
    List Open → Except ReadError Pass → Prop
  | refused {outer : List Open} {e : ReadError} :
      answer = .error e → Passes t answer c d outer (.error e)
  | next {outer : List Open} {o : Open} :
      c.position < d.position → answer = d.answer t o outer →
      Passes t answer c d outer (.ok (.next o))
  | closed {parent : Open} {outer : List Open} {o : Open} :
      c.position < d.position → answer = d.answerClosed t o parent outer →
      Passes t answer c d (parent :: outer) (.ok (.closed o))
  | ended {outer : List Open} {o : Open} :
      d.rest t = [] → answer = d.answer t o outer →
      Passes t answer c d outer (.ok (.ended o))

/-- How the loop from `c` ends at `d`, where the reader answers `answer` from `c`. -/
inductive Loops (t : Text) (answer : Except ReadError Sexp) (c d : Cursor) :
    List Open → Except ReadError Open → Prop
  | refused {outer : List Open} {e : ReadError} :
      answer = .error e → Loops t answer c d outer (.error e)
  | closed {parent : Open} {outer : List Open} {o : Open} :
      c.position < d.position → answer = d.answerClosed t o parent outer →
      Loops t answer c d (parent :: outer) (.ok o)
  | ended {o : Open} :
      d.rest t = [] → answer = d.answer t o [] → Loops t answer c d [] (.ok o)

/-- How reading a list from `c` ends at `d`, where the reader answers `answer` from `c`. -/
inductive Lists (t : Text) (answer : Except ReadError Sexp) (c d : Cursor) (parent : Open)
    (outer : List Open) : Except ReadError Sexp → Prop
  | refused {e : ReadError} : answer = .error e → Lists t answer c d parent outer (.error e)
  | value {v : Sexp} :
      c.position < d.position → answer = d.answer t (parent.put v) outer →
      Lists t answer c d parent outer (.ok v)

/-- A pass of the loop from `c` comes to an end that fits the reader's answer. -/
def PassRuns (t : Text) (fuel : Nat) (c : Cursor) : Prop :=
  ∀ o outer, ∃ result d, pass t (fuel + 1) (list t fuel) outer.isEmpty o c = some (result, d) ∧
    Passage t c d ∧ Passes t (c.answer t o outer) c d outer result

/-- The loop from `c` comes to an end that fits the reader's answer. -/
def LoopRuns (t : Text) (fuel : Nat) (c : Cursor) : Prop :=
  ∀ o outer, ∃ result d, items t fuel outer.isEmpty o c = some (result, d) ∧ Passage t c d ∧
    Loops t (c.answer t o outer) c d outer result

/-- Reading a list from `c` comes to an end that fits the reader's answer. -/
def ListRuns (t : Text) (fuel : Nat) (c : Cursor) : Prop :=
  ∀ parent outer, ∃ result d, list t fuel c = some (result, d) ∧ Passage t c d ∧
    Lists t (c.answer t ⟨[], false⟩ (parent :: outer)) c d parent outer result

section Runs

variable {t r : Text} {c d : Cursor} {x : CodePoint} {o : Open} {root : Bool} {fuel : Nat}
  {inner : Descent Sexp}

/-- Blanks are passed over, up to something else, and the reader passes over them too. -/
lemma skipBlanks_runs (hfuel : (c.rest t).length < fuel) :
    ∃ d, skipBlanks t fuel c = some (.ok (), d) ∧ Passage t c d ∧
      (∀ x r, d.rest t = x :: r → isBlank x = false) ∧ c.position ≤ d.position ∧
      ∀ o outer, c.answer t o outer = d.answer t o outer := by
  generalize hrest : c.rest t = r at hfuel
  obtain ⟨fuel, rfl⟩ := Nat.exists_eq_add_one.2 (Nat.zero_lt_of_lt hfuel)
  induction r generalizing c fuel with
  | nil =>
    refine ⟨c, skipBlanks_nil hrest, .stay, fun x r hx => ?_, Nat.le_refl _, fun _ _ => rfl⟩
    rw [hrest] at hx
    cases hx
  | cons x r ih =>
    by_cases hx : isBlank x = true
    · rw [List.length_cons] at hfuel
      obtain ⟨fuel, rfl⟩ : ∃ n, fuel = n + 1 := Nat.exists_eq_add_one.2 (by omega)
      obtain ⟨d, hd, hpassage, hother, hle, hanswer⟩ :=
        ih (Cursor.rest_moved_one hrest) fuel (by omega)
      exact ⟨d, (skipBlanks_blank hrest hx).trans hd, (Passage.one hrest).trans hpassage, hother,
        Nat.le_of_succ_le hle, fun o outer =>
          (Cursor.answer_blank hrest hx).trans (hanswer o outer)⟩
    · rw [Bool.not_eq_true] at hx
      refine ⟨c, skipBlanks_other hrest hx, .stay, fun y r' hy => ?_, Nat.le_refl _,
        fun _ _ => rfl⟩
      cases hrest.symm.trans hy
      exact hx

lemma list_runs (h : LoopRuns t fuel c) : ListRuns t fuel c := by
  intro parent outer
  obtain ⟨result, d, hloop, hpassage, hends⟩ := h ⟨[], false⟩ (parent :: outer)
  cases hends with
  | @refused _ e hanswer =>
    exact ⟨.error e, d, bind_error hloop, hpassage, .refused hanswer⟩
  | @closed _ _ o hlt hanswer =>
    rw [Cursor.answerClosed] at hanswer
    have hlist : list t fuel c = some (o.closedAt d.position, d) := bind_ok hloop
    refine ⟨_, d, hlist, hpassage, ?_⟩
    cases hclosed : o.closedAt d.position with
    | error e =>
      rw [hclosed] at hanswer
      exact .refused hanswer
    | ok v =>
      rw [hclosed] at hanswer
      exact .value hlt hanswer

lemma lexeme_nil (h : c.rest t = []) :
    lexeme t fuel inner root o c = some (.ok (.ended o), c) := by
  rw [lexeme, bind_ok (ahead_zero_nil h)]
  rfl

lemma lexeme_closing (h : c.rest t = ofChar ')' :: r) :
    lexeme t fuel inner false o c = some (.ok (.closed o), c.moved 1) := by
  rw [lexeme, bind_ok (ahead_zero_cons h)]
  rfl

lemma lexeme_unbalanced (h : c.rest t = ofChar ')' :: r) :
    lexeme t fuel inner true o c = some (Reader.refuse .unbalancedClose c.position, c) := by
  rw [lexeme, bind_ok (ahead_zero_cons h)]
  rfl

lemma lexeme_opening (h : c.rest t = ofChar '(' :: r) :
    lexeme t fuel inner root o c =
      (do return .next (o.put (← inner)) : Descent Pass) (c.moved 1) := by
  rw [lexeme, bind_ok (ahead_zero_cons h)]
  exact bind_ok (move_eq 1)

lemma lexeme_quote (h : c.rest t = ofChar '"' :: r) :
    lexeme t fuel inner root o c =
      (do return .next (o.put (.string (← string t fuel))) : Descent Pass) (c.moved 1) := by
  rw [lexeme, bind_ok (ahead_zero_cons h)]
  exact bind_ok (move_eq 1)

lemma lexeme_symbol (h : c.rest t = x :: r) (hx : isDelimiter x = false) :
    lexeme t fuel inner root o c =
      (do return .next (← give (o.place root c.position (← symbol t fuel))) : Descent Pass) c := by
  simp only [isDelimiter, Bool.or_eq_false_iff, decide_eq_false_iff_not] at hx
  obtain ⟨⟨⟨_, hopen⟩, hclose⟩, hquote⟩ := hx
  rw [lexeme, bind_ok (ahead_zero_cons h)]
  simp only [if_neg hopen, if_neg hclose, if_neg hquote]
  exact bind_ok position_eq

/-- Where a later cursor has got, an earlier one has got too. -/
lemma Passes.earlier {answer : Except ReadError Sexp} {c' : Cursor} {outer : List Open}
    {result : Except ReadError Pass} (h : Passes t answer c' d outer result)
    (hle : c.position ≤ c'.position) : Passes t answer c d outer result := by
  cases h with
  | refused hanswer => exact .refused hanswer
  | next hlt hanswer => exact .next (Nat.lt_of_le_of_lt hle hlt) hanswer
  | closed hlt hanswer => exact .closed (Nat.lt_of_le_of_lt hle hlt) hanswer
  | ended hrest hanswer => exact .ended hrest hanswer

lemma Loops.earlier {answer : Except ReadError Sexp} {c' : Cursor} {outer : List Open}
    {result : Except ReadError Open} (h : Loops t answer c' d outer result)
    (hle : c.position ≤ c'.position) : Loops t answer c d outer result := by
  cases h with
  | refused hanswer => exact .refused hanswer
  | closed hlt hanswer => exact .closed (Nat.lt_of_le_of_lt hle hlt) hanswer
  | ended hrest hanswer => exact .ended hrest hanswer

/-- What stands behind the blanks is read to an end that fits the reader's answer. -/
lemma lexeme_runs (hfuel : (c.rest t).length ≤ fuel)
    (hother : ∀ x r, c.rest t = x :: r → isBlank x = false)
    (hlist : ∀ d, (d.rest t).length < (c.rest t).length → ListRuns t fuel d) (o : Open)
    (outer : List Open) :
    ∃ result d, lexeme t (fuel + 1) (list t fuel) outer.isEmpty o c = some (result, d) ∧
      Passage t c d ∧ Passes t (c.answer t o outer) c d outer result := by
  generalize hrest : c.rest t = r at hfuel hother hlist
  induction r using lexeme_induction with
  | nil => exact ⟨_, c, lexeme_nil hrest, .stay, .ended hrest rfl⟩
  | blank x r hx _ => exact absurd hx (by simp [hother x r rfl])
  | opening r _ =>
    have hlater : ListRuns t fuel (c.moved 1) := by
      refine hlist _ ?_
      rw [Cursor.rest_moved_one hrest]
      exact Nat.lt_succ_self _
    obtain ⟨result, d, hrun, hpassage, hends⟩ := hlater o outer
    rw [← Cursor.answer_opening hrest] at hends
    have hlexeme : lexeme t (fuel + 1) (list t fuel) outer.isEmpty o c = _ := lexeme_opening hrest
    cases hends with
    | refused hanswer =>
      exact ⟨_, d, hlexeme.trans (bind_error hrun), (Passage.one hrest).trans hpassage,
        .refused hanswer⟩
    | value hlt hanswer =>
      exact ⟨_, d, hlexeme.trans (bind_ok hrun), (Passage.one hrest).trans hpassage,
        .next (Nat.lt_of_succ_lt hlt) hanswer⟩
  | closing r _ =>
    cases outer with
    | nil =>
      exact ⟨_, c, lexeme_unbalanced hrest, .stay, .refused (Cursor.answer_unbalanced hrest)⟩
    | cons parent outer =>
      exact ⟨_, c.moved 1, lexeme_closing hrest, .one hrest,
        .closed (Nat.lt_succ_self _) (Cursor.answer_closing hrest)⟩
  | quoted raw rest hraw _ =>
    rw [quotedBefore, List.length_cons, List.length_append] at hfuel
    have hrawfuel : raw.length < fuel + 1 := by omega
    obtain ⟨d, hstring, hpassage, hposition, hrest'⟩ :=
      string_quoted hraw hrawfuel (Cursor.rest_moved_one hrest)
    have hlexeme : lexeme t (fuel + 1) (list t fuel) outer.isEmpty o c = _ := lexeme_quote hrest
    have hd : d.position = c.position + raw.length + 2 := by
      rw [hposition, Cursor.moved_position]
      omega
    have hanswer : c.answer t o outer = _ := Cursor.answer_quoted hraw hrest hd hrest'
    rw [Cursor.moved_position, Nat.add_sub_cancel] at hstring
    cases hcontent : unquoted raw (raw.contains (ofChar '\\')) c.position with
    | error e =>
      rw [hcontent] at hstring hanswer
      exact ⟨_, d, hlexeme.trans (bind_error hstring), (Passage.one hrest).trans hpassage,
        .refused hanswer⟩
    | ok s =>
      rw [hcontent] at hstring hanswer
      exact ⟨_, d, hlexeme.trans (bind_ok hstring), (Passage.one hrest).trans hpassage,
        .next (by omega) hanswer⟩
  | unterminated raw hraw =>
    have hrawfuel : raw.length < fuel + 1 := Nat.lt_succ_of_lt hfuel
    rw [← Cursor.rest_moved_one hrest] at hraw hrawfuel
    obtain ⟨d, hpassage, hstring⟩ := string_unterminated hraw hrawfuel
    refine ⟨_, d, (lexeme_quote hrest).trans (bind_error hstring),
      (Passage.one hrest).trans hpassage, .refused ?_⟩
    rw [Cursor.moved_position, Nat.add_sub_cancel]
    exact Cursor.answer_unterminated (Cursor.rest_moved_one hrest ▸ hraw) hrest
  | cutOff raw hraw =>
    rw [List.length_cons, List.length_append] at hfuel
    have hrawfuel : raw.length < fuel + 1 := by omega
    obtain ⟨d, hpassage, hstring⟩ := string_cutOff hraw hrawfuel (Cursor.rest_moved_one hrest)
    exact ⟨_, d, (lexeme_quote hrest).trans (bind_error hstring),
      (Passage.one hrest).trans hpassage, .refused (Cursor.answer_cutOff hraw hrest)⟩
  | bare s name rest hs hne hstop _ =>
    obtain ⟨x, s, rfl⟩ := List.exists_cons_of_ne_nil hne
    rw [List.length_append] at hfuel
    have hspellfuel : (x :: s).length < fuel + 1 := by omega
    obtain ⟨d, hspelling, hpassage, hposition, hrest'⟩ :=
      spelling_bare hs hstop hspellfuel [] hrest
    have hlexeme : lexeme t (fuel + 1) (list t fuel) outer.isEmpty o c = _ :=
      lexeme_symbol hrest hs.head
    have hanswer : c.answer t o outer = _ :=
      Cursor.answer_bare hs hne hstop hrest hposition hrest'
    have hsymbol : symbol t (fuel + 1) c = some (atom name, d) := by
      rw [symbol, bind_ok hspelling]
      rfl
    have hlt : c.position < d.position := by
      rw [hposition, List.length_cons]
      omega
    cases hatom : atom name with
    | error e =>
      rw [hatom] at hsymbol hanswer
      exact ⟨_, d, hlexeme.trans (bind_error hsymbol), hpassage, .refused hanswer⟩
    | ok v =>
      rw [hatom] at hsymbol hanswer
      rw [bind_ok hsymbol] at hlexeme
      cases hplace : o.place outer.isEmpty c.position v with
      | error e =>
        rw [hplace] at hlexeme
        rw [Except.bind, hplace] at hanswer
        exact ⟨_, d, hlexeme, hpassage, .refused hanswer⟩
      | ok o' =>
        rw [hplace] at hlexeme
        rw [Except.bind, hplace] at hanswer
        exact ⟨_, d, hlexeme, hpassage, .next hlt hanswer⟩

/-- A pass of the loop comes to an end that fits the reader's answer. -/
lemma pass_runs (hfuel : (c.rest t).length ≤ fuel)
    (hlist : ∀ d, (d.rest t).length < (c.rest t).length → ListRuns t fuel d) :
    PassRuns t fuel c := by
  intro o outer
  obtain ⟨d, hblanks, hpassage, hother, hle, hanswer⟩ := skipBlanks_runs (Nat.lt_succ_of_le hfuel)
  have hrest : (d.rest t).length ≤ (c.rest t).length := by
    rw [Cursor.rest, Cursor.rest, List.length_drop, List.length_drop]
    omega
  obtain ⟨result, e, hlexeme, hpassage', hends⟩ :=
    lexeme_runs (Nat.le_trans hrest hfuel) hother
      (fun d' hd' => hlist d' (Nat.lt_of_lt_of_le hd' hrest)) o outer
  rw [← hanswer] at hends
  refine ⟨result, e, ?_, hpassage.trans hpassage', hends.earlier hle⟩
  rw [pass]
  exact (bind_ok hblanks).trans hlexeme

/-- From wherever the cursor stands, the loop comes to an end that fits the reader's answer, if
there is fuel for one pass more than there are code points. -/
lemma loop_runs (hfuel : (c.rest t).length < fuel) : LoopRuns t fuel c := by
  induction fuel generalizing c with
  | zero => exact absurd hfuel (Nat.not_lt_zero _)
  | succ fuel ih =>
    have hle : (c.rest t).length ≤ fuel := Nat.le_of_lt_succ hfuel
    have hlist : ∀ d, (d.rest t).length < (c.rest t).length → ListRuns t fuel d :=
      fun d hd => list_runs (ih (Nat.lt_of_lt_of_le hd hle))
    intro o outer
    obtain ⟨result, d, hpass, hpassage, hends⟩ := pass_runs hle hlist o outer
    rw [list] at hpass
    cases hends with
    | refused hanswer =>
      refine ⟨_, d, ?_, hpassage, .refused hanswer⟩
      rw [items, bind_error hpass]
    | @next _ o' hlt hanswer =>
      have hshorter := Nat.lt_of_lt_of_le (hpassage.length_rest_lt hlt) hle
      obtain ⟨result, e, hloop, hpassage', hends⟩ := ih hshorter o' outer
      rw [← hanswer] at hends
      refine ⟨result, e, ?_, hpassage.trans hpassage', hends.earlier (Nat.le_of_lt hlt)⟩
      rw [items, bind_ok hpass]
      exact hloop
    | closed hlt hanswer =>
      refine ⟨_, d, ?_, hpassage, .closed hlt hanswer⟩
      rw [items]
      exact bind_ok hpass
    | ended hrest hanswer =>
      cases outer with
      | nil =>
        refine ⟨_, d, ?_, hpassage, .ended hrest hanswer⟩
        rw [items]
        exact bind_ok hpass
      | cons parent outer =>
        refine ⟨_, d, ?_, hpassage, .refused (hanswer.trans (Cursor.answer_end hrest))⟩
        rw [items]
        exact bind_ok hpass

end Runs

/-- Reading by descent ends for every text, moves its cursor forward inside the text only, and
gives what the reader gives. -/
theorem parse_eq_read {t : Text} {fuel : Nat} (hfuel : t.length < fuel) :
    ∃ d, parse t fuel .start = some (read t, d) ∧ Passage t .start d := by
  have hread : read t = Cursor.start.answer t ⟨[], false⟩ [] := rfl
  have hstart : (Cursor.start.rest t).length < fuel := hfuel
  obtain ⟨result, d, hloop, hpassage, hends⟩ := loop_runs hstart ⟨[], false⟩ []
  rw [hread]
  refine ⟨d, ?_, hpassage⟩
  cases hends with
  | refused hanswer =>
    rw [hanswer, parse]
    exact bind_error hloop
  | ended hrest hanswer =>
    rw [hanswer, Cursor.answer_end hrest, parse]
    exact bind_ok hloop

/-! ### How far the cursor gets -/

/-- Wherever a computation that began at `c` gives a value, the cursor is further on, and inside the
text. -/
def Advances {α : Type} (t : Text) (m : Descent α) (c : Cursor) : Prop :=
  ∀ a d, m c = some (.ok a, d) → c.position < d.position ∧ d.position ≤ t.length

section Advances

variable {t : Text} {fuel : Nat} {c d : Cursor}

/-- With fuel for the whole text there is fuel enough wherever the cursor stands. -/
lemma length_rest_lt_fuel (hfuel : t.length < fuel) (c : Cursor) : (c.rest t).length < fuel := by
  rw [Cursor.rest, List.length_drop]
  omega

/-- A pass of the loop that does not end it. -/
lemma pass_advances (hfuel : t.length < fuel) {root : Bool} {o o' : Open}
    (h : pass t (fuel + 1) (list t fuel) root o c = some (.ok (.next o'), d)) :
    c.position < d.position ∧ d.position ≤ t.length := by
  have hroot : ∃ outer : List Open, outer.isEmpty = root := by
    cases root with
    | true => exact ⟨[], rfl⟩
    | false => exact ⟨[o], rfl⟩
  obtain ⟨outer, rfl⟩ := hroot
  obtain ⟨result, d', hpass, hpassage, hends⟩ :=
    pass_runs (Nat.le_of_lt (length_rest_lt_fuel hfuel c))
      (fun d _ => list_runs (loop_runs (length_rest_lt_fuel hfuel d))) o outer
  cases h.symm.trans hpass
  cases hends with
  | next hlt _ => exact ⟨hlt, hpassage.inside hlt⟩

lemma list_advances (hfuel : t.length < fuel) : Advances t (list t fuel) c := by
  intro v d h
  obtain ⟨result, d', hlist, hpassage, hends⟩ :=
    list_runs (loop_runs (length_rest_lt_fuel hfuel c)) ⟨[], false⟩ []
  cases h.symm.trans hlist
  cases hends with
  | value hlt _ => exact ⟨hlt, hpassage.inside hlt⟩

lemma string_advances (hfuel : t.length < fuel) : Advances t (string t fuel) c := by
  intro s d h
  have hrestfuel := length_rest_lt_fuel hfuel c
  rcases quoted_cases (c.rest t) with ⟨raw, rest, hrest, hraw⟩ | hraw | ⟨raw, hrest, hraw⟩
  · rw [hrest, List.length_append] at hrestfuel
    have hrawfuel : raw.length < fuel := by omega
    obtain ⟨d', hstring, hpassage, hposition, -⟩ := string_quoted hraw hrawfuel hrest
    obtain ⟨-, rfl⟩ := Prod.mk.inj (Option.some.inj (h.symm.trans hstring))
    have hlt : c.position < d.position := by omega
    exact ⟨hlt, hpassage.inside hlt⟩
  · obtain ⟨d', -, hstring⟩ := string_unterminated hraw hrestfuel
    cases h.symm.trans hstring
  · rw [hrest, List.length_append] at hrestfuel
    have hrawfuel : raw.length < fuel := by omega
    obtain ⟨d', -, hstring⟩ := string_cutOff hraw hrawfuel hrest
    cases h.symm.trans hstring

lemma symbol_advances (hfuel : t.length < fuel) {x : CodePoint} (hx : t[c.position]? = some x)
    (hdelimiter : isDelimiter x = false) : Advances t (symbol t fuel) c := by
  intro v d h
  have hrestfuel := length_rest_lt_fuel hfuel c
  obtain ⟨s, name, rest, hrest, hs, hstop⟩ := exists_bare (c.rest t)
  rw [hrest, List.length_append] at hrestfuel
  have hspellfuel : s.length < fuel := by omega
  obtain ⟨d', hspelling, hpassage, hposition, -⟩ := spelling_bare hs hstop hspellfuel [] hrest
  have hsymbol : symbol t fuel c = some (atom name, d') := by
    rw [symbol, bind_ok hspelling]
    rfl
  obtain ⟨-, rfl⟩ := Prod.mk.inj (Option.some.inj (h.symm.trans hsymbol))
  -- an empty spelling would stop at a delimiter
  have hne : s ≠ [] := by
    rintro rfl
    have hhead : (c.rest t)[0]? = some x := by rw [Cursor.getElem?_rest, Nat.add_zero, hx]
    rw [hrest, List.nil_append, ← List.head?_eq_getElem?] at hhead
    obtain ⟨r, hr⟩ := List.head?_eq_some_iff.1 hhead
    rw [(hstop x r hr).1] at hdelimiter
    cases hdelimiter
  have hpos := List.length_pos_iff.2 hne
  have hlt : c.position < d.position := by omega
  exact ⟨hlt, hpassage.inside hlt⟩

end Advances

end Descent

/-! ## Where texts are malformed -/

/-- Where a malformation is found: at the end of the text if something is missing there or if there
is more than one value, and else at the code point that it is about.  A misplaced dot is found where
it stands, or behind the bracket of its list. -/
def Malformed.Located (m : Malformed) (t : Text) : Prop :=
  match m.reason with
  | .emptyInput | .dataAfterValue | .prematureEnd => m.position = t.length
  | .unbalancedClose => t[m.position]? = some (ofChar ')')
  | .unterminatedString | .invalidEscape _ => t[m.position]? = some (ofChar '"')
  | .endAfterBackslash => m.position + 1 = t.length ∧ t[m.position]? = some (ofChar '\\')
  | .invalidCons =>
    t[m.position]? = some (ofChar '.') ∨
      ∃ p, m.position = p + 1 ∧ t[p]? = some (ofChar ')')

lemma Malformed.Located.le {m : Malformed} {t : Text} (h : m.Located t) :
    m.position ≤ t.length := by
  have hlt : ∀ {p : Nat} {x : CodePoint}, t[p]? = some x → p < t.length :=
    fun hx => (List.getElem?_eq_some_iff.1 hx).1
  rw [Located] at h
  split at h
  · exact Nat.le_of_eq h
  · exact Nat.le_of_eq h
  · exact Nat.le_of_eq h
  · exact Nat.le_of_lt (hlt h)
  · exact Nat.le_of_lt (hlt h)
  · exact Nat.le_of_lt (hlt h)
  · exact Nat.le_of_lt (hlt h.2)
  · rcases h with hdot | ⟨p, hp, hclose⟩
    · exact Nat.le_of_lt (hlt hdot)
    · have := hlt hclose
      omega

section Located

variable {t r : Text} {c : Cursor} {x : CodePoint} {m : Malformed}

lemma Cursor.getElem?_of_rest (h : c.rest t = x :: r) : t[c.position]? = some x := by
  have hhead := c.getElem?_rest (t := t) 0
  rw [h] at hhead
  exact hhead.symm

/-- A bare lexeme whose name is a dot is a dot. -/
lemma Bare.eq_dot {s name : Text} (h : Bare (x :: s) name) (hname : name = Text.ofString ".") :
    x = ofChar '.' := by
  cases h with
  | space _ => exact absurd (List.cons.inj hname).1 (by decide)
  | plain _ _ => exact (List.cons.inj hname).1

/-- A bare lexeme without a value is a number with too many digits. -/
lemma atom_ne_malformed {name : Text} : atom name ≠ .error (.malformed m) := by
  intro h
  rw [atom] at h
  split at h
  · split at h <;> cases h
  · cases h

lemma located_of_answerClosed {o parent : Open} {outer : List Open}
    (h : c.answerClosed t o parent outer = .error (.malformed m))
    (hclose : ∃ p, c.position = p + 1 ∧ t[p]? = some (ofChar ')'))
    (hrest : ∀ o', c.answer t o' outer = .error (.malformed m) → m.Located t) : m.Located t := by
  rw [Cursor.answerClosed, Open.closedAt] at h
  cases hvalue : o.close with
  | none =>
    rw [hvalue] at h
    cases h
    exact .inr hclose
  | some v =>
    rw [hvalue] at h
    exact hrest _ h

lemma located_of_place {o : Open} {root : Bool} {v : Sexp} {name : Text}
    (h : o.place root c.position v = .error (.malformed m)) (hatom : atom name = .ok v)
    (hdot : name = Text.ofString "." → t[c.position]? = some (ofChar '.')) : m.Located t := by
  rw [Open.place] at h
  split at h
  · next hbad =>
    cases h
    have hisDot : v.isDot = true := (Bool.and_eq_true_iff.1 hbad).1
    rw [State.isDot_of_atom hatom] at hisDot
    exact .inl (hdot (of_decide_eq_true hisDot))
  · cases h

/-- What the reader finds malformed from where a cursor stands in the text, it locates. -/
lemma located_of_answer {o : Open} {outer : List Open} (hc : c.position ≤ t.length)
    (h : c.answer t o outer = .error (.malformed m)) : m.Located t := by
  generalize hrest : c.rest t = r
  induction r using lexeme_induction generalizing c o outer with
  | nil =>
    have hend : c.position = t.length := by
      have := Cursor.position_add_length_rest hc
      rwa [hrest] at this
    rw [Cursor.answer_end hrest, Open.wholeAt] at h
    split at h
    · cases h
      exact hend
    · split at h <;> cases h <;> exact hend
  | blank x r hx ih =>
    rw [Cursor.answer_blank hrest hx] at h
    exact ih ((Passage.one hrest).inside (Nat.lt_succ_self _)) h (Cursor.rest_moved_one hrest)
  | opening r ih =>
    rw [Cursor.answer_opening hrest] at h
    exact ih ((Passage.one hrest).inside (Nat.lt_succ_self _)) h (Cursor.rest_moved_one hrest)
  | closing r ih =>
    have hx := Cursor.getElem?_of_rest hrest
    cases outer with
    | nil =>
      rw [Cursor.answer_unbalanced hrest] at h
      cases h
      exact hx
    | cons parent outer =>
      rw [Cursor.answer_closing hrest] at h
      exact located_of_answerClosed h ⟨c.position, rfl, hx⟩ fun o' h' =>
        ih ((Passage.one hrest).inside (Nat.lt_succ_self _)) h' (Cursor.rest_moved_one hrest)
  | quoted raw rest hraw ih =>
    have hlength := Cursor.inside_of_rest hrest
    rw [List.length_cons, List.length_append, List.length_cons] at hlength
    have hrest' : (c.moved (raw.length + 2)).rest t = rest := by
      have hsplit : c.rest t = (ofChar '"' :: raw ++ [ofChar '"']) ++ rest := by
        rw [hrest, quotedBefore]
        simp
      have := Cursor.rest_moved hsplit
      rwa [List.length_append, List.length_cons] at this
    rw [Cursor.answer_quoted hraw hrest rfl hrest'] at h
    cases hcontent : Descent.unquoted raw (raw.contains (ofChar '\\')) c.position with
    | error e =>
      rw [hcontent] at h
      cases h
      rw [Descent.unquoted] at hcontent
      split at hcontent
      · split at hcontent <;> cases hcontent
        exact Cursor.getElem?_of_rest hrest
      · cases hcontent
    | ok s =>
      rw [hcontent] at h
      refine ih ?_ h hrest'
      rw [Cursor.moved_position]
      omega
  | unterminated raw hraw =>
    rw [Cursor.answer_unterminated hraw hrest] at h
    cases h
    exact Cursor.getElem?_of_rest hrest
  | cutOff raw hraw =>
    rw [Cursor.answer_cutOff hraw hrest] at h
    cases h
    have hlength := Cursor.inside_of_rest hrest
    rw [List.length_cons, List.length_append, List.length_singleton] at hlength
    have hend : c.position + 1 + raw.length + 1 = t.length := by omega
    refine ⟨hend, ?_⟩
    have hlast := c.getElem?_rest (t := t) (raw.length + 1)
    rw [hrest, List.getElem?_cons_succ, List.getElem?_concat_length] at hlast
    rw [hlast, Nat.add_assoc, Nat.add_comm 1]
  | bare s name rest hs hne hstop ih =>
    obtain ⟨x, s, rfl⟩ := List.exists_cons_of_ne_nil hne
    have hrest' := Cursor.rest_moved hrest
    rw [Cursor.answer_bare hs hne hstop hrest rfl hrest'] at h
    cases hatom : atom name with
    | error e =>
      rw [hatom] at h
      cases h
      exact absurd hatom atom_ne_malformed
    | ok v =>
      rw [hatom, Except.bind] at h
      cases hplace : o.place outer.isEmpty c.position v with
      | error e =>
        rw [hplace] at h
        cases h
        refine located_of_place hplace hatom fun hname => ?_
        rw [← hs.eq_dot hname]
        exact Cursor.getElem?_of_rest hrest
      | ok o' =>
        rw [hplace] at h
        refine ih ?_ h hrest'
        have hlength := congrArg List.length hrest
        rw [Cursor.rest, List.length_drop, List.length_append] at hlength
        rw [Cursor.moved_position]
        omega

end Located

/-- **Reading moves forward and stays inside the text.**  Reading by descent ends for every text,
with fuel for one pass of each loop more than there are code points, and gives what reading gives;
with every move the cursor went forward, and it never went past the end.  Every pass of the loop
over the items of a list that does not end it, and every list, string and bare lexeme that was read,
has moved the cursor by one code point at least.  A text that is malformed is so at an offset from 0
to its length, at which stands what the malformation is about. -/
theorem Descent.moves_forward {t : Text} {fuel : Nat} (hfuel : t.length < fuel) :
    (∃ d, parse t fuel .start = some (read t, d) ∧ d.Forward t) ∧
    (∀ root o o' c d, pass t (fuel + 1) (list t fuel) root o c = some (.ok (.next o'), d) →
      c.position < d.position ∧ d.position ≤ t.length) ∧
    (∀ c, Advances t (list t fuel) c) ∧
    (∀ c, Advances t (string t fuel) c) ∧
    (∀ c x, t[c.position]? = some x → isDelimiter x = false → Advances t (symbol t fuel) c) ∧
    ∀ m, read t = .error (.malformed m) → m.position ≤ t.length ∧ m.Located t := by
  obtain ⟨d, hparse, hpassage⟩ := parse_eq_read hfuel
  refine ⟨⟨d, hparse, hpassage.forward Cursor.forward_start⟩, ?_, fun c => list_advances hfuel,
    fun c => string_advances hfuel, ?_, ?_⟩
  · intro root o o' c d h
    exact pass_advances hfuel h
  · intro c x hx hdelimiter
    exact symbol_advances hfuel hx hdelimiter
  · intro m h
    have hlocated : m.Located t := @located_of_answer t .start m ⟨[], false⟩ [] (Nat.zero_le _) h
    exact ⟨hlocated.le, hlocated⟩

/-- A list inside a list that is still open, with a string in it that a backslash cuts off. -/
theorem Descent.moves_forward_cutOff :
    (Text.ofString "((a) \"b\\").length < 9 ∧
      read "((a) \"b\\" = .error (.malformed ⟨.endAfterBackslash, 7⟩) ∧
      (∃ d, parse "((a) \"b\\" 9 .start =
        some (.error (.malformed ⟨.endAfterBackslash, 7⟩), d) ∧ d.Forward "((a) \"b\\") ∧
      Malformed.Located ⟨.endAfterBackslash, 7⟩ "((a) \"b\\" := by
  have hfuel : (Text.ofString "((a) \"b\\").length < 9 := by decide
  have hread : read "((a) \"b\\" = .error (.malformed ⟨.endAfterBackslash, 7⟩) := rfl
  obtain ⟨hparse, -, -, -, -, hmalformed⟩ := moves_forward hfuel
  rw [hread] at hparse
  exact ⟨hfuel, hread, hparse, (hmalformed _ hread).2⟩

end SuggestBridge.Sexp
