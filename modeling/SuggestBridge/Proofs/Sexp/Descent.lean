import SuggestBridge.Proofs.Sexp.Lexeme

/-!
# Reading by descent

The reader folds one step over a text.  The same texts can be read by recursive descent: all
functions share one cursor, a loop collects the items of a list, and a list inside the list is read
by calling that loop again.  Whether such loops end, and whether their cursor stays inside the text,
is not plain from how they are written, so neither is assumed here: every loop is given fuel, which
each of its passes uses up, and has no outcome without it, and a cursor keeps the trail of the
places where it stood.

This file writes the descent down and says what it does on one lexeme: on a blank, on a complete or
cut off string (`string_quoted`, `string_unterminated`, `string_cutOff`), and on a bare lexeme
(`spelling_bare`).  That fuel for one pass more than the text has code points is enough for the
whole of it, and that it gives what the reader gives, is in `Proofs.Sexp.Cursor`.
-/

namespace SuggestBridge.Sexp

open CodePoint (ofChar)
open Json (Inside)
open Reader

/-! ## The cursor -/

/-- A cursor in a text: where it stands, and where it stood before, the latest place first. -/
structure Cursor where
  position : Nat
  trail : List Nat

namespace Cursor

/-- The cursor before the first code point. -/
def start : Cursor := ⟨0, []⟩

/-- A cursor that has been moved. -/
def moved (c : Cursor) (n : Nat) : Cursor := ⟨c.position + n, c.position :: c.trail⟩

/-- What of a text is behind the cursor. -/
def rest (c : Cursor) (t : Text) : Text := t.drop c.position

/-- The cursor has moved forward with every move, and not past the end of the text. -/
structure Forward (c : Cursor) (t : Text) : Prop where
  increasing : (c.position :: c.trail).Pairwise (· > ·)
  inside : ∀ p ∈ c.position :: c.trail, p ≤ t.length

end Cursor

/-- The cursor has come from one place to another by moves forward that stay inside the text. -/
inductive Passage (t : Text) (c : Cursor) : Cursor → Prop
  | stay : Passage t c c
  | move {d : Cursor} {n : Nat} :
      Passage t c d → 0 < n → d.position + n ≤ t.length → Passage t c (d.moved n)

namespace Cursor

variable {t r : Text} {c d e : Cursor} {x y : CodePoint}

@[simp] lemma moved_position (n : Nat) : (c.moved n).position = c.position + n := rfl

lemma forward_start : start.Forward t := ⟨by simp [start], by simp [start]⟩

lemma getElem?_rest (n : Nat) : (c.rest t)[n]? = t[c.position + n]? := by
  rw [rest, List.getElem?_drop]

lemma position_add_length_rest (h : c.position ≤ t.length) :
    c.position + (c.rest t).length = t.length := by
  rw [rest, List.length_drop]
  omega

lemma inside_of_rest (h : c.rest t = x :: r) : c.position + (x :: r).length = t.length := by
  have hlength := congrArg List.length h
  rw [rest, List.length_drop] at hlength
  rw [List.length_cons] at hlength ⊢
  omega

lemma rest_moved {u : Text} (h : c.rest t = u ++ r) : (c.moved u.length).rest t = r := by
  rw [rest, moved_position, ← List.drop_drop, ← rest, h, List.drop_left]

lemma rest_moved_one (h : c.rest t = x :: r) : (c.moved 1).rest t = r :=
  rest_moved (u := [x]) h

lemma rest_moved_two (h : c.rest t = x :: y :: r) : (c.moved 2).rest t = r :=
  rest_moved (u := [x, y]) h

end Cursor

namespace Passage

variable {t r : Text} {c d e : Cursor} {x y : CodePoint}

lemma one (h : c.rest t = x :: r) : Passage t c (c.moved 1) := by
  have := Cursor.inside_of_rest h
  rw [List.length_cons] at this
  exact .move .stay (by omega) (by omega)

lemma two (h : c.rest t = x :: y :: r) : Passage t c (c.moved 2) := by
  have := Cursor.inside_of_rest h
  rw [List.length_cons, List.length_cons] at this
  exact .move .stay (by omega) (by omega)

lemma trans (h : Passage t c d) (h' : Passage t d e) : Passage t c e := by
  induction h' with
  | stay => exact h
  | move _ hn hinside ih => exact .move ih hn hinside

/-- Wherever the cursor has moved to is inside the text. -/
lemma inside (h : Passage t c d) (hlt : c.position < d.position) : d.position ≤ t.length := by
  cases h with
  | stay => exact absurd hlt (Nat.lt_irrefl _)
  | move _ _ hinside => exact hinside

/-- A cursor that has moved has less of the text behind it. -/
lemma length_rest_lt (h : Passage t c d) (hlt : c.position < d.position) :
    (d.rest t).length < (c.rest t).length := by
  have hinside := h.inside hlt
  rw [Cursor.rest, Cursor.rest, List.length_drop, List.length_drop]
  omega

lemma forward (h : Passage t c d) (hc : c.Forward t) : d.Forward t := by
  induction h with
  | stay => exact hc
  | @move d n _ hn hinside ih =>
    constructor
    · refine List.pairwise_cons.2 ⟨fun p hp => ?_, ih.increasing⟩
      have hlast : p ≤ d.position := by
        rcases List.mem_cons.1 hp with rfl | hp
        · exact Nat.le_refl _
        · exact Nat.le_of_lt ((List.pairwise_cons.1 ih.increasing).1 p hp)
      rw [Cursor.moved_position]
      omega
    · intro p hp
      rcases List.mem_cons.1 hp with rfl | hp
      · exact hinside
      · exact ih.inside p hp

end Passage

/-! ## The descent -/

/-- An open list with one more item, which began at `start`.  A dot is placed only as the second
item, once, and not at the root. -/
def Reader.Open.place (o : Open) (root : Bool) (start : Nat) (v : Sexp) : Except ReadError Open :=
  if v.isDot && (root || o.dotted || o.items.length ≠ 1) then refuse .invalidCons start
  else .ok (o.put v)

/-- What an open list stands for when it is closed, with the cursor at `position`. -/
def Reader.Open.closedAt (o : Open) (position : Nat) : Except ReadError Sexp :=
  match o.close with
  | some v => .ok v
  | none => refuse .invalidCons position

/-- The one value of a whole text, with the cursor at `position`. -/
def Reader.Open.wholeAt (o : Open) (position : Nat) : Except ReadError Sexp :=
  match o.items with
  | [] => refuse .emptyInput position
  | [v] => .ok v
  | _ => refuse .dataAfterValue position

/-- A computation that moves a cursor and may refuse the text; without an outcome if a loop runs out
of fuel. -/
abbrev Descent := ExceptT ReadError (StateT Cursor Option)

namespace Descent

/-- Where the cursor stands. -/
def position : Descent Nat := return (← get).position

/-- Moves the cursor. -/
def move (n : Nat) : Descent Unit := modify fun c => c.moved n

/-- The code point some places behind the cursor. -/
def ahead (t : Text) (n : Nat) : Descent (Option CodePoint) := return t[(← position) + n]?

/-- Gives a value, or refuses the text. -/
def give {α : Type} (result : Except ReadError α) : Descent α := ExceptT.mk (pure result)

/-- Refuses the text. -/
def refuse {α : Type} (reason : Malformation) (position : Nat) : Descent α :=
  give (Reader.refuse reason position)

/-- A loop is out of fuel. -/
def exhausted {α : Type} : Descent α := ExceptT.mk fun _ => none

/-- Passes over blanks. -/
def skipBlanks (t : Text) : Nat → Descent Unit
  | 0 => exhausted
  | fuel + 1 => do
    match ← ahead t 0 with
    | none => return
    | some x =>
      if isBlank x then
        move 1
        skipBlanks t fuel

/-- Passes over a bare lexeme; `name` holds what was read of its name, last code point first. -/
def spelling (t : Text) : Nat → Text → Descent Text
  | 0, _ => exhausted
  | fuel + 1, name => do
    match ← ahead t 0 with
    | none => return name.reverse
    | some x =>
      if isDelimiter x then return name.reverse
      else if x = '\\' ∧ (← ahead t 1) = some (ofChar ' ') then
        move 2
        spelling t fuel (ofChar ' ' :: name)
      else
        move 1
        spelling t fuel (x :: name)

/-- Reads a bare lexeme. -/
def symbol (t : Text) (fuel : Nat) : Descent Sexp := do give (atom (← spelling t fuel []))

/-- Passes over the inside of a string, up to the quote that ends it; gives whether a backslash is
in it.  The inside begins at `start`, and `escapes` tells whether a backslash was met so far. -/
def inside (t : Text) (start : Nat) : Nat → Bool → Descent Bool
  | 0, _ => exhausted
  | fuel + 1, escapes => do
    match ← ahead t 0 with
    | none => refuse .unterminatedString (start - 1)
    | some x =>
      if x = '"' then return escapes
      else if x = '\\' then
        if (← ahead t 1).isNone then refuse .endAfterBackslash (← position)
        else
          move 2
          inside t start fuel true
      else
        move 1
        inside t start fuel escapes

/-- What the inside of a string stands for, if its opening quote is at `quote`. -/
def unquoted (raw : Text) (escapes : Bool) (quote : Nat) : Except ReadError Text :=
  if escapes then
    match Json.decode (raw ++ [ofChar '"']) with
    | .ok s => .ok s
    | .error cause => Reader.refuse (.invalidEscape cause) quote
  else .ok raw

/-- Reads a string behind its opening quote. -/
def string (t : Text) (fuel : Nat) : Descent Text := do
  let start ← position
  let escapes ← inside t start fuel false
  let stop ← position
  move 1
  give (unquoted ((t.drop start).take (stop - start)) escapes (start - 1))

/-- What one pass of the loop over the items of a list comes to. -/
inductive Pass where
  /-- There is one more item, and the loop goes on. -/
  | next (o : Open)
  /-- The list is closed by its bracket. -/
  | closed (o : Open)
  /-- The text is at its end. -/
  | ended (o : Open)

section Items

variable (t : Text) (fuel : Nat) (list : Descent Sexp) (root : Bool) (o : Open)

/-- Reads what stands behind the blanks: an item, a closing bracket or nothing.  At the root, a
closing bracket closes nothing.  Behind an opening bracket, `list` reads the list. -/
def lexeme : Descent Pass := do
  match ← ahead t 0 with
  | none => return .ended o
  | some x =>
    if x = ')' then
      if root then refuse .unbalancedClose (← position)
      else
        move 1
        return .closed o
    else if x = '(' then
      move 1
      return .next (o.put (← list))
    else if x = '"' then
      move 1
      return .next (o.put (.string (← string t fuel)))
    else
      let start ← position
      let v ← symbol t fuel
      return .next (← give (o.place root start v))

/-- One pass of the loop over the items of a list. -/
def pass : Descent Pass := do
  skipBlanks t fuel
  lexeme t fuel list root o

end Items

/-- Reads a list behind its opening bracket, if `items` collects its items. -/
def listOf (items : Descent Open) : Descent Sexp := do
  let o ← items
  give (o.closedAt (← position))

/-- The loop over the items of a list. -/
def items (t : Text) : Nat → Bool → Open → Descent Open
  | 0, _, _ => exhausted
  | fuel + 1, root, o => do
    match ← pass t (fuel + 1) (listOf (items t fuel false ⟨[], false⟩)) root o with
    | .next o => items t fuel root o
    | .closed o => return o
    | .ended o => if root then return o else refuse .prematureEnd (← position)

/-- Reads a list behind its opening bracket. -/
def list (t : Text) (fuel : Nat) : Descent Sexp := listOf (items t fuel false ⟨[], false⟩)

/-- Reads a text that holds exactly one value. -/
def parse (t : Text) (fuel : Nat) : Descent Sexp := do
  let o ← items t fuel true ⟨[], false⟩
  give (o.wholeAt (← position))

/-! ### One step after the other -/

section Steps

variable {α β : Type} {t r : Text} {c d : Cursor} {x y : CodePoint}

lemma bind_ok {m : Descent α} {f : α → Descent β} {a : α} (h : m c = some (.ok a, d)) :
    (m >>= f) c = f a d := by
  simp [bind, ExceptT.bind, ExceptT.mk, StateT.bind, h, ExceptT.bindCont]

lemma bind_error {m : Descent α} {f : α → Descent β} {e : ReadError}
    (h : m c = some (.error e, d)) : (m >>= f) c = some (.error e, d) := by
  simp [bind, ExceptT.bind, ExceptT.mk, StateT.bind, h, ExceptT.bindCont]
  rfl

lemma give_eq (result : Except ReadError α) : give result c = some (result, c) := rfl

lemma position_eq : position c = some (.ok c.position, c) := rfl

lemma move_eq (n : Nat) : move n c = some (.ok (), c.moved n) := rfl

lemma ahead_eq (n : Nat) : ahead t n c = some (.ok (c.rest t)[n]?, c) := by
  rw [Cursor.getElem?_rest]
  rfl

lemma ahead_zero_nil (h : c.rest t = []) : ahead t 0 c = some (.ok none, c) := by
  rw [ahead_eq, h]
  rfl

lemma ahead_zero_cons (h : c.rest t = x :: r) : ahead t 0 c = some (.ok (some x), c) := by
  rw [ahead_eq, h]
  rfl

end Steps

/-! ### Blanks, bare lexemes and strings -/

section Lexemes

variable {t r : Text} {c d : Cursor} {x y : CodePoint}

lemma skipBlanks_nil {fuel : Nat} (h : c.rest t = []) :
    skipBlanks t (fuel + 1) c = some (.ok (), c) := by
  rw [skipBlanks, bind_ok (ahead_zero_nil h)]
  rfl

lemma skipBlanks_blank {fuel : Nat} (h : c.rest t = x :: r) (hx : isBlank x = true) :
    skipBlanks t (fuel + 1) c = skipBlanks t fuel (c.moved 1) := by
  rw [skipBlanks, bind_ok (ahead_zero_cons h)]
  simp only [hx, if_true]
  exact bind_ok (move_eq 1)

lemma skipBlanks_other {fuel : Nat} (h : c.rest t = x :: r) (hx : isBlank x = false) :
    skipBlanks t (fuel + 1) c = some (.ok (), c) := by
  rw [skipBlanks, bind_ok (ahead_zero_cons h)]
  simp only [hx, Bool.false_eq_true, if_false]
  rfl

lemma spelling_stop {fuel : Nat} {name : Text}
    (h : ∀ x r, c.rest t = x :: r → isDelimiter x = true) :
    spelling t (fuel + 1) name c = some (.ok name.reverse, c) := by
  cases hrest : c.rest t with
  | nil =>
    rw [spelling, bind_ok (ahead_zero_nil hrest)]
    rfl
  | cons x r =>
    rw [spelling, bind_ok (ahead_zero_cons hrest)]
    simp only [h x r hrest, if_true]
    rfl

lemma spelling_space {fuel : Nat} {name : Text} (h : c.rest t = ofChar '\\' :: ofChar ' ' :: r) :
    spelling t (fuel + 1) name c = spelling t fuel (ofChar ' ' :: name) (c.moved 2) := by
  have hahead : ahead t 1 c = some (.ok (some (ofChar ' ')), c) := by rw [ahead_eq, h]; rfl
  rw [spelling, bind_ok (ahead_zero_cons h)]
  simp only [not_isDelimiter_backslash, Bool.false_eq_true, if_false]
  rw [bind_ok hahead]
  simp only [and_self, if_true]
  exact bind_ok (move_eq 2)

lemma spelling_plain {fuel : Nat} {name : Text} (h : c.rest t = x :: r)
    (hx : isDelimiter x = false)
    (hspace : ¬(x = ofChar '\\' ∧ r.head? = some (ofChar ' '))) :
    spelling t (fuel + 1) name c = spelling t fuel (x :: name) (c.moved 1) := by
  have hahead : ahead t 1 c = some (.ok r.head?, c) := by
    rw [ahead_eq, h, List.head?_eq_getElem?]
    rfl
  rw [spelling, bind_ok (ahead_zero_cons h)]
  simp only [hx, Bool.false_eq_true, if_false]
  rw [bind_ok hahead, if_neg hspace]
  exact bind_ok (move_eq 1)

/-- The spelling of a bare lexeme is passed over; what is kept of it is its name. -/
lemma spelling_bare {s name : Text} (hs : Bare s name) (hstop : Stops s r) {fuel : Nat}
    (hfuel : s.length < fuel) (before : Text) (h : c.rest t = s ++ r) :
    ∃ d, spelling t fuel before c = some (.ok (before.reverse ++ name), d) ∧ Passage t c d ∧
      d.position = c.position + s.length ∧ d.rest t = r := by
  obtain ⟨fuel, rfl⟩ := Nat.exists_eq_add_one.2 (Nat.zero_lt_of_lt hfuel)
  induction hs generalizing c before fuel with
  | nil =>
    refine ⟨c, ?_, .stay, rfl, h⟩
    rw [List.append_nil]
    exact spelling_stop fun x r' hx => (hstop x r' (h.symm.trans hx)).1
  | @space s name _ ih =>
    rw [List.length_cons, List.length_cons] at hfuel
    obtain ⟨fuel, rfl⟩ : ∃ n, fuel = n + 1 := Nat.exists_eq_add_one.2 (by omega)
    obtain ⟨d, hd, hpassage, hposition, hrest⟩ :=
      ih (.of_append (p := [ofChar '\\', ofChar ' ']) hstop) (ofChar ' ' :: before)
        (Cursor.rest_moved_two h) fuel (by omega)
    refine ⟨d, ?_, (Passage.two h).trans hpassage, ?_, hrest⟩
    · rw [spelling_space h, hd]
      simp
    · rw [hposition, Cursor.moved_position, List.length_cons, List.length_cons]
      omega
  | @plain x s name hx hs ih =>
    rw [List.length_cons] at hfuel
    obtain ⟨fuel, rfl⟩ : ∃ n, fuel = n + 1 := Nat.exists_eq_add_one.2 (by omega)
    have hspace : ¬(x = ofChar '\\' ∧ (s ++ r).head? = some (ofChar ' ')) := by
      rintro ⟨rfl, hhead⟩
      cases s with
      | nil =>
        obtain ⟨r', hr⟩ := List.head?_eq_some_iff.1 hhead
        exact (hstop _ r' hr).2 rfl rfl
      | cons y s =>
        exact ne_space_of_not_isDelimiter hs.head (Option.some.inj hhead)
    obtain ⟨d, hd, hpassage, hposition, hrest⟩ :=
      ih (.of_append (p := [x]) hstop) (x :: before) (Cursor.rest_moved_one h) fuel (by omega)
    refine ⟨d, ?_, (Passage.one h).trans hpassage, ?_, hrest⟩
    · rw [spelling_plain h hx hspace, hd]
      simp
    · rw [hposition, Cursor.moved_position, List.length_cons]
      omega

lemma inside_plain {start fuel : Nat} {escapes : Bool} (h : c.rest t = x :: r)
    (hquote : x ≠ ofChar '"') (hslash : x ≠ ofChar '\\') :
    inside t start (fuel + 1) escapes c = inside t start fuel escapes (c.moved 1) := by
  rw [inside, bind_ok (ahead_zero_cons h)]
  simp only [hquote, hslash, if_false]
  exact bind_ok (move_eq 1)

lemma inside_escaped {start fuel : Nat} {escapes : Bool}
    (h : c.rest t = ofChar '\\' :: y :: r) :
    inside t start (fuel + 1) escapes c = inside t start fuel true (c.moved 2) := by
  have hahead : ahead t 1 c = some (.ok (some y), c) := by rw [ahead_eq, h]; rfl
  rw [inside, bind_ok (ahead_zero_cons h)]
  simp only [if_neg (show ofChar '\\' ≠ ofChar '"' by decide), if_true]
  rw [bind_ok hahead]
  simp only [Option.isNone_some, Bool.false_eq_true, if_false]
  exact bind_ok (move_eq 2)

/-- The inside of a string is passed over, and leaves fuel for one pass more. -/
lemma inside_through {raw : Text} (hraw : Inside raw) (start : Nat) {fuel : Nat}
    (hfuel : raw.length < fuel) (escapes : Bool) (h : c.rest t = raw ++ r) :
    ∃ d k, inside t start fuel escapes c =
        inside t start (k + 1) (escapes || raw.contains (ofChar '\\')) d ∧
      Passage t c d ∧ d.position = c.position + raw.length ∧ d.rest t = r := by
  obtain ⟨fuel, rfl⟩ := Nat.exists_eq_add_one.2 (Nat.zero_lt_of_lt hfuel)
  induction hraw generalizing c escapes fuel with
  | nil => exact ⟨c, fuel, by simp, .stay, rfl, h⟩
  | @plain x raw hquote hslash _ ih =>
    rw [List.length_cons] at hfuel
    obtain ⟨fuel, rfl⟩ : ∃ n, fuel = n + 1 := Nat.exists_eq_add_one.2 (by omega)
    have hcontains : (x :: raw).contains (ofChar '\\') = raw.contains (ofChar '\\') := by
      simp [Ne.symm hslash]
    obtain ⟨d, k, hd, hpassage, hposition, hrest⟩ :=
      ih escapes (Cursor.rest_moved_one h) fuel (by omega)
    refine ⟨d, k, ?_, (Passage.one h).trans hpassage, ?_, hrest⟩
    · rw [inside_plain h hquote hslash, hd, hcontains]
    · rw [hposition, Cursor.moved_position, List.length_cons]
      omega
  | @escaped raw y _ ih =>
    rw [List.length_cons, List.length_cons] at hfuel
    obtain ⟨fuel, rfl⟩ : ∃ n, fuel = n + 1 := Nat.exists_eq_add_one.2 (by omega)
    have hcontains : (ofChar '\\' :: y :: raw).contains (ofChar '\\') = true := by simp
    obtain ⟨d, k, hd, hpassage, hposition, hrest⟩ :=
      ih true (Cursor.rest_moved_two h) fuel (by omega)
    refine ⟨d, k, ?_, (Passage.two h).trans hpassage, ?_, hrest⟩
    · rw [inside_escaped h, hd, hcontains, Bool.true_or, Bool.or_true]
    · rw [hposition, Cursor.moved_position, List.length_cons, List.length_cons]
      omega

variable {fuel : Nat} {raw : Text}

/-- A complete string is read from quote to quote. -/
lemma string_quoted (hraw : Inside raw) (hfuel : raw.length < fuel)
    (h : c.rest t = raw ++ ofChar '"' :: r) :
    ∃ d, string t fuel c = some (unquoted raw (raw.contains (ofChar '\\')) (c.position - 1), d) ∧
      Passage t c d ∧ d.position = c.position + raw.length + 1 ∧ d.rest t = r := by
  obtain ⟨d, k, hd, hpassage, hposition, hrest⟩ :=
    inside_through hraw c.position hfuel false h
  have hinside : inside t c.position fuel false c =
      some (.ok (raw.contains (ofChar '\\')), d) := by
    rw [hd, inside, bind_ok (ahead_zero_cons hrest)]
    simp only [if_true, Bool.false_or]
    rfl
  have htake : (t.drop c.position).take (d.position - c.position) = raw := by
    rw [hposition, Nat.add_sub_cancel_left]
    exact (congrArg (List.take raw.length) h).trans List.take_left
  refine ⟨d.moved 1, ?_, hpassage.trans (.one hrest), ?_, Cursor.rest_moved_one hrest⟩
  · rw [string, bind_ok position_eq, bind_ok hinside, bind_ok position_eq, bind_ok (move_eq 1),
      htake, give_eq]
  · rw [Cursor.moved_position, hposition]

/-- A string that no quote ends. -/
lemma string_unterminated (hraw : Inside (c.rest t)) (hfuel : (c.rest t).length < fuel) :
    ∃ d, Passage t c d ∧ string t fuel c =
      some (.error (.malformed ⟨.unterminatedString, c.position - 1⟩), d) := by
  obtain ⟨d, k, hd, hpassage, -, hrest⟩ :=
    inside_through (r := []) hraw c.position hfuel false (List.append_nil _).symm
  refine ⟨d, hpassage, ?_⟩
  rw [string, bind_ok position_eq]
  refine bind_error ?_
  rw [hd, inside, bind_ok (ahead_zero_nil hrest)]
  rfl

/-- A string whose last backslash escapes nothing. -/
lemma string_cutOff (hraw : Inside raw) (hfuel : raw.length < fuel)
    (h : c.rest t = raw ++ [ofChar '\\']) :
    ∃ d, Passage t c d ∧ string t fuel c =
      some (.error (.malformed ⟨.endAfterBackslash, c.position + raw.length⟩), d) := by
  obtain ⟨d, k, hd, hpassage, hposition, hrest⟩ :=
    inside_through hraw c.position hfuel false h
  have hahead : ahead t 1 d = some (.ok none, d) := by rw [ahead_eq, hrest]; rfl
  refine ⟨d, hpassage, ?_⟩
  rw [string, bind_ok position_eq]
  refine bind_error ?_
  rw [hd, inside, bind_ok (ahead_zero_cons hrest)]
  simp only [if_neg (show ofChar '\\' ≠ ofChar '"' by decide), if_true]
  rw [bind_ok hahead, ← hposition]
  rfl

end Lexemes

end Descent

end SuggestBridge.Sexp
