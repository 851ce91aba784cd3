import SuggestBridge.Log.Record
import SuggestBridge.Proofs.Json.Rendering

/-!
# What the line of a record tells

The line is an object of texts, so it is one line of printable ASCII and is read back as JSON.  What
it tells of the record comes back as it was, unless it holds the two halves of a surrogate pair side
by side: JSON writes these like the code point that they form.
-/

namespace SuggestBridge.Log

open Json (textObject joinFields joinPairs Unpaired IsPrintable)

/-- What the line of a record tells of it. -/
def Record.told (r : Record) (message : Text) : List (Text × Text) :=
  [("level", r.level.name), ("component", component r.logger), ("logger", r.logger),
    ("message", message)]

/-- A line that ends nowhere before its end and that is read as an object with the fields told. A
text with a surrogate pair in two halves is excepted, which JSON cannot tell from the pair. -/
structure Tells (line : Text) (told : List (Text × Text)) : Prop where
  printable : ∀ c ∈ line, IsPrintable c
  decoded : ∃ doc, Json.read? line = some doc ∧
    ∀ name value, (name, value) ∈ told → Unpaired value → doc.get? name = some (.text value)

/-- The fields of the line of a record. -/
def Record.fields (r : Record) (now : Moment) (message : Text) : List (Text × Text) :=
  (Text.ofString "ts", now.isoText) :: (r.told message ++
    (r.exception.map fun e => (Text.ofString "exception", e.text)).toList)

lemma Record.document_eq (r : Record) (now : Moment) (message : Text) :
    r.document now message = textObject (r.fields now message) := by
  cases h : r.exception <;> simp [document, h, fields, told, textObject]

lemma get?_textObject_cons (f : Text × Text) (fs : List (Text × Text)) (name : Text) :
    (textObject (f :: fs)).get? name =
      if f.1 = name then some (.text f.2) else (textObject fs).get? name := by
  by_cases h : f.1 = name <;> simp [textObject, Json.get?, h]

/-- Every line tells the level, the component, the logger and the message of its record. -/
lemma Record.tells_line (r : Record) (now : Moment) (message : Text) :
    Tells (r.line now message) (r.told message) where
  printable := by
    rw [line, r.document_eq]
    exact Json.isPrintable_render_textObject _
  decoded := by
    refine ⟨textObject (joinFields (r.fields now message)), ?_, fun name value hmem hvalue => ?_⟩
    · rw [line, r.document_eq]
      exact Json.read?_render_textObject _
    · have hself := Json.joinPairs_eq_self hvalue
      -- the names of the fields hold no surrogates
      have hnames : joinFields (r.fields now message) =
          (Text.ofString "ts", joinPairs now.isoText) ::
          (Text.ofString "level", joinPairs r.level.name) ::
          (Text.ofString "component", joinPairs (component r.logger)) ::
          (Text.ofString "logger", joinPairs r.logger) ::
          (Text.ofString "message", joinPairs message) ::
          joinFields (r.exception.map fun e => (Text.ofString "exception", e.text)).toList := rfl
      simp only [told, List.mem_cons, List.not_mem_nil, or_false, Prod.mk.injEq] at hmem
      rw [hnames]
      rcases hmem with ⟨rfl, rfl⟩ | ⟨rfl, rfl⟩ | ⟨rfl, rfl⟩ | ⟨rfl, rfl⟩ <;>
        simp [get?_textObject_cons, Text.ofString, hself]

end SuggestBridge.Log
