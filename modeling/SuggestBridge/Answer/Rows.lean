import SuggestBridge.Answer.Row
import SuggestBridge.Log

/-!
# Whole answers

An answer is a list of rows, nil, or a single scalar. Malformed rows are dropped and reported; they
do not disturb their neighbours.
-/

namespace SuggestBridge.Row

/-- Takes the items of a list for rows, with a report for each one dropped. What was reported before
an integer exceeds the limit on digits stays reported. -/
def decodeAll : List Sexp → Except DigitLimit (List Row) × List LogLine
  | [] => (.ok [], [])
  | v :: vs =>
    match decode v with
    | .ok row =>
      let (rows, log) := decodeAll vs
      (rows.map (row :: ·), log)
    | .error (.malformed e) =>
      let (rows, log) := decodeAll vs
      (rows, Log.debug ("Dropping malformed nimsuggest row: " ++ e.message) :: log)
    | .error (.digits e) => (.error e, [])

/-- The rows of an answer. A scalar becomes a single row that carries it as its symbol kind. -/
def ofAnswer : Sexp → Except DigitLimit (List Row) × List LogLine
  | .nil => (.ok [], [])
  | .list items => decodeAll items
  | .symbol name => (.ok [{ symbolKind := name }], [])
  | v => (v.display.map fun t => [{ symbolKind := t }], [])

end SuggestBridge.Row
