import SuggestBridge.Answer.Rows
import SuggestBridge.Proofs.Sexp.Readable

/-!
# Answers row by row

Every value that was read is an answer (`ofAnswer_row_by_row`).  A list has one row for each item of the
form of a row, in their order, and one line in the log for each other item.  What an item comes to
depends on its own first eight fields only, so the halves of a list can be taken one after the other.

The form is said by `isRow`, and what a row of that form says by `rowOf`.  Both look at the fields one
by one.  That taking a value for a row fails elsewhere, and there with a report, is `checks_decode`.
-/

namespace SuggestBridge.Row

open Sexp (Readable)

variable {α β : Type} {v : Sexp} {vs : List Sexp}

/-! ## The form of a row -/

/-- Nil, a string or a symbol. -/
def isText : Sexp → Bool
  | .nil | .string _ | .symbol _ => true
  | _ => false

/-- A text, or a list of texts. -/
def isNames : Sexp → Bool
  | .list parts => parts.all isText
  | v => isText v

/-- An integer. -/
def isInteger : Sexp → Bool
  | .int _ => true
  | _ => false

/-- A list of at least eight fields, each of the kind that its place asks for. -/
def isRow : Sexp → Bool
  | .list (kind :: symbol :: names :: path :: signature :: line :: column :: documentation :: _) =>
    isText kind && isText symbol && isNames names && isText path && isText signature &&
      isInteger line && isInteger column && isText documentation
  | _ => false

/-- The text that a field says. -/
def textOf : Sexp → Text
  | .string t => t
  | .symbol name => name
  | _ => []

/-- The texts that a field says. -/
def namesOf : Sexp → List Text
  | .nil => []
  | .list parts => parts.map textOf
  | v => [textOf v]

/-- The number that a field says. -/
def integerOf : Sexp → Int
  | .int n => n
  | _ => 0

/-- The row that a list of eight fields or more says. -/
def rowOf : Sexp → Row
  | .list (kind :: symbol :: names :: path :: signature :: line :: column :: documentation :: _) =>
    { answerKind := textOf kind
      symbolKind := textOf symbol
      names := namesOf names
      signature := textOf signature
      path := Text.replace (textOf path) "\\,\\" "\\"
      line := integerOf line
      column := integerOf column
      documentation := Markup.toMarkdown (textOf documentation) }
  | _ => {}

/-! ## Checking one field after the other -/

/-- A computation gives a result if what it checks is in order, and else says what is malformed. -/
def Checks (inOrder : Bool) (x : Except DecodeError α) (a : α) : Prop :=
  if inOrder then x = .ok a else ∃ e, x = .error (.malformed e)

namespace Checks

variable {g g' : Bool} {x : Except DecodeError α} {a : α} {f : α → Except DecodeError β} {b : β}

lemma pure (a : α) : Checks true (Except.ok a) a := rfl

lemma malformed (e : Malformed) : Checks false (.error (.malformed e)) a := ⟨e, rfl⟩

lemma bind (hx : Checks g x a) (hf : Checks g' (f a) b) : Checks (g && g') (x >>= f) b := by
  cases g with
  | true =>
    obtain rfl : x = .ok a := hx
    exact hf
  | false =>
    obtain ⟨e, rfl⟩ := hx
    exact ⟨e, rfl⟩

end Checks

lemma checks_textField (field : Text) (v : Sexp) :
    Checks (isText v) (textField field v) (textOf v) := by
  cases v <;> first | exact .pure _ | exact .malformed _

/-- A readable value that is no integer can be shown in the report. -/
lemma checks_integerField (field : Text) (hv : Readable v) :
    Checks (isInteger v) (integerField field v) (integerOf v) := by
  obtain ⟨s, hs⟩ := hv.exists_shown
  cases v with
  | int n => exact .pure n
  | _ =>
    rw [integerField, hs]
    · exact .malformed _
    · nofun

lemma checks_mapM_textField (field : Text) (parts : List Sexp) :
    Checks (parts.all isText) (parts.mapM (textField field)) (parts.map textOf) := by
  induction parts with
  | nil => exact .pure []
  | cons v vs ih =>
    rw [List.mapM_cons, List.all_cons, List.map_cons, ← Bool.and_true (vs.all isText)]
    exact (checks_textField field v).bind (ih.bind (.pure _))

lemma checks_namesField (v : Sexp) : Checks (isNames v) (namesField v) (namesOf v) := by
  cases v with
  | list parts => exact checks_mapM_textField "names" parts
  | nil | string | symbol => exact .pure _
  | _ => exact .malformed _

/-- A readable value is a row if it has the form of one, and else it is reported. -/
lemma checks_decode (hv : Readable v) : Checks (isRow v) (decode v) (rowOf v) := by
  cases hv with
  | @list items hitems =>
    rw [decode, fields?]
    dsimp only
    split
    · next kind symbol names path signature line column documentation more =>
      have hline := checks_integerField "line" (hitems line (by simp))
      have hcolumn := checks_integerField "column" (hitems column (by simp))
      simp only [isRow, Bool.and_assoc]
      rw [← Bool.and_true (isText documentation)]
      exact (checks_textField _ kind).bind <| (checks_textField _ symbol).bind <|
        (checks_namesField names).bind <| (checks_textField _ path).bind <|
        (checks_textField _ signature).bind <| hline.bind <| hcolumn.bind <|
        (checks_textField _ documentation).bind (.pure _)
    · next hshort =>
      have hnot : isRow (.list items) = false := by
        rw [isRow]
        rintro kind symbol names path signature line column documentation more ⟨⟩
        exact hshort _ _ _ _ _ _ _ _ _ rfl
      rw [hnot]
      exact .malformed _
  | _ => exact .malformed _

/-! ## Lists of items -/

/-- The line of the log for an item that is no row. -/
def Reports (v : Sexp) (line : LogLine) : Prop :=
  ∃ e, decode v = .error (.malformed e) ∧
    line = Log.debug ("Dropping malformed nimsuggest row: " ++ e.message)

/-- What a list comes to: its rows, and a report for each other item. -/
lemma decodeAll_eq (hvs : ∀ v ∈ vs, Readable v) :
    ∃ log, decodeAll vs = (.ok ((vs.filter isRow).map rowOf), log) ∧
      List.Forall₂ Reports (vs.filter fun v => !isRow v) log := by
  induction vs with
  | nil => exact ⟨[], rfl, .nil⟩
  | cons v vs ih =>
    obtain ⟨log, hrest, hlog⟩ := ih fun w hw => hvs w (.tail v hw)
    have hdecode := checks_decode (hvs v (by simp))
    cases hrow : isRow v with
    | true =>
      rw [hrow] at hdecode
      have hok : decode v = .ok (rowOf v) := hdecode
      refine ⟨log, ?_, by simpa [hrow] using hlog⟩
      rw [decodeAll, hok, hrest, List.filter_cons_of_pos hrow]
      rfl
    | false =>
      rw [hrow] at hdecode
      obtain ⟨e, herror⟩ := hdecode
      refine ⟨Log.debug ("Dropping malformed nimsuggest row: " ++ e.message) :: log, ?_, ?_⟩
      · rw [decodeAll, herror, hrest, List.filter_cons_of_neg (by simp [hrow])]
      · rw [List.filter_cons_of_pos (by simp [hrow])]
        exact .cons ⟨e, herror, rfl⟩ hlog

/-- What two lists come to one after the other: the rows and the reports of both, unless the first
fails. -/
def andThen (first second : Except DigitLimit (List Row) × List LogLine) :
    Except DigitLimit (List Row) × List LogLine :=
  match first with
  | (.ok rows, log) => (second.1.map (rows ++ ·), log ++ second.2)
  | (.error e, log) => (.error e, log)

lemma decodeAll_append (us vs : List Sexp) :
    decodeAll (us ++ vs) = andThen (decodeAll us) (decodeAll vs) := by
  induction us with
  | nil =>
    rcases hvs : decodeAll vs with ⟨_ | rows, log⟩
    all_goals simp [decodeAll, andThen, Except.map, hvs]
  | cons v us ih =>
    rw [List.cons_append, decodeAll, decodeAll, ih]
    rcases decode v with (e | e) | row
    · rcases decodeAll us with ⟨_ | rows, log⟩ <;> rfl
    · rfl
    · rcases decodeAll us with ⟨_ | rows, log⟩
      · rfl
      · rcases decodeAll vs with ⟨_ | rows', log'⟩ <;> rfl

/-- Fields behind the eighth do not count, neither for the row nor for the report. -/
lemma decode_take (items : List Sexp) : decode (.list (items.take 8)) = decode (.list items) := by
  match items with
  | [] | [_] | [_, _] | [_, _, _] | [_, _, _, _] | [_, _, _, _, _] | [_, _, _, _, _, _]
  | [_, _, _, _, _, _, _] => rfl
  | _ :: _ :: _ :: _ :: _ :: _ :: _ :: _ :: _ => rfl

lemma decodeAll_take (us items vs : List Sexp) :
    decodeAll (us ++ .list (items.take 8) :: vs) = decodeAll (us ++ .list items :: vs) := by
  rw [decodeAll_append, decodeAll_append us, decodeAll, decodeAll, decode_take]

/-! ## Whole answers -/

/-- The rows of an answer and what is logged about it. -/
structure Answers (v : Sexp) (rows : List Row) (log : List LogLine) : Prop where
  list : ∀ items, v = .list items → rows = (items.filter isRow).map rowOf ∧
    List.Forall₂ Reports (items.filter fun item => !isRow item) log
  nil : v = .nil → rows = [] ∧ log = []
  scalar : v ≠ .nil → (∀ items, v ≠ .list items) →
    log = [] ∧ ∃ t, v.display = .ok t ∧ rows = [{ symbolKind := t }]

/-- The value of some text. -/
def IsRead (v : Sexp) : Prop := ∃ t, Sexp.read t = .ok v

lemma answers_of_readable (hv : Readable v) :
    ∃ rows log, ofAnswer v = (.ok rows, log) ∧ Answers v rows log := by
  obtain ⟨s, hs⟩ := hv.exists_shown
  have hscalar : ∀ t, v ≠ .nil → (∀ items, v ≠ .list items) → v.display = .ok t →
      Answers v [{ symbolKind := t }] [] := fun t hnil hlist ht =>
    ⟨fun items h => absurd h (hlist items), fun h => absurd h hnil, fun _ _ => ⟨rfl, t, ht, rfl⟩⟩
  cases hv with
  | nil => exact ⟨[], [], rfl, nofun, fun _ => ⟨rfl, rfl⟩, fun h => absurd rfl h⟩
  | list hitems =>
    obtain ⟨log, hall, hlog⟩ := decodeAll_eq hitems
    refine ⟨_, log, hall, ?_, nofun, fun _ h => absurd rfl (h _)⟩
    rintro _ ⟨⟩
    exact ⟨rfl, hlog⟩
  | string t => exact ⟨_, [], rfl, hscalar t nofun nofun rfl⟩
  | symbol name => exact ⟨_, [], rfl, hscalar name nofun nofun rfl⟩
  | int =>
    refine ⟨[{ symbolKind := s }], [], ?_, hscalar s nofun nofun hs⟩
    rw [ofAnswer, Sexp.display, hs]
    · rfl
    all_goals nofun
  | cons =>
    refine ⟨[{ symbolKind := s }], [], ?_, hscalar s nofun nofun hs⟩
    rw [ofAnswer, Sexp.display, hs]
    · rfl
    all_goals nofun

/-- **Answers are taken row by row.**  Every value that was read has rows; two lists one after the other
have the rows of the first and then those of the second; fields behind the eighth of a row change
nothing. -/
theorem ofAnswer_row_by_row :
    (∀ v, IsRead v → ∃ rows log, ofAnswer v = (.ok rows, log) ∧ Answers v rows log) ∧
      (∀ us vs, ofAnswer (.list (us ++ vs)) = andThen (ofAnswer (.list us)) (ofAnswer (.list vs))) ∧
      ∀ us items vs, ofAnswer (.list (us ++ .list (items.take 8) :: vs)) =
        ofAnswer (.list (us ++ .list items :: vs)) := by
  refine ⟨?_, decodeAll_append, decodeAll_take⟩
  rintro v ⟨t, ht⟩
  exact answers_of_readable (Sexp.readable_of_read ht)

/-- A row with a ninth field, and a number that is no row. -/
theorem ofAnswer_row_and_number :
    ∃ row line, Sexp.read "((def skProc (\"m\" f) \"a.nim\" nil 3 5 \"``x``\" more) 7)" =
        .ok (.list [row, .int 7]) ∧
      ofAnswer (.list [row, .int 7]) = (.ok [rowOf row], [line]) := by
  obtain ⟨row, hread, hrow⟩ : ∃ row, Sexp.read
      "((def skProc (\"m\" f) \"a.nim\" nil 3 5 \"``x``\" more) 7)" = .ok (.list [row, .int 7]) ∧
        isRow row = true := ⟨_, rfl, rfl⟩
  obtain ⟨rows, log, hanswer, hanswers⟩ := ofAnswer_row_by_row.1 _ ⟨_, hread⟩
  obtain ⟨hrows, hlog⟩ := hanswers.list _ rfl
  have hnot : isRow (.int 7) = false := rfl
  simp only [List.filter_cons, hrow, hnot, List.filter_nil, Bool.not_true, Bool.not_false, if_true,
    Bool.false_eq_true, if_false, List.map_cons, List.map_nil] at hrows hlog
  cases hlog with
  | @cons _ line _ _ _ hlog =>
    cases hlog
    exact ⟨row, line, hread, hrows ▸ hanswer⟩

end SuggestBridge.Row
