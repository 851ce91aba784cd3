import SuggestBridge.Json.Document
import SuggestBridge.Proofs.Json.Literal
import Mathlib.Data.List.Chain

/-!
# Reading back what was written in ASCII

A narrow literal writes every code point outside printable ASCII as an escape, or as the escapes of
the two halves of a surrogate pair.  Halves that stood side by side in the text itself are written
the same way, so reading joins them (`joinPairs`); a text in which no high half is directly followed
by a low one (`Unpaired`) comes back as it was.

An object whose values are texts is written on one line of printable ASCII
(`printable_of_mem_render_textObject`) and read back field by field (`read?_render_textObject`).
-/

namespace SuggestBridge.Json

open CodePoint (ofChar)

instance (n : Nat) : Decidable (IsHigh n) := inferInstanceAs (Decidable (_ ∧ _))
instance (n : Nat) : Decidable (IsLow n) := inferInstanceAs (Decidable (_ ∧ _))

/-- The text with every high half of a surrogate pair joined to a low half right behind it. -/
def joinPairs : Text → Text
  | [] => []
  | [c] => [c]
  | c :: d :: r =>
    if IsHigh c.val ∧ IsLow d.val then pairOf c.val d.val :: joinPairs r
    else c :: joinPairs (d :: r)

/-- No high half of a surrogate pair is directly followed by a low one. -/
def Unpaired (t : Text) : Prop := t.IsChain fun c d => ¬(IsHigh c.val ∧ IsLow d.val)

instance (t : Text) : Decidable (Unpaired t) := inferInstanceAs (Decidable (List.IsChain _ _))

lemma joinPairs_eq_self {t : Text} (h : Unpaired t) : joinPairs t = t := by
  induction t using joinPairs.induct with
  | case1 => rfl
  | case2 c => rfl
  | case3 c d r hpair => exact absurd hpair h.rel
  | case4 c d r hpair ih => rw [joinPairs, if_neg hpair, ih h.of_cons]

/-! ## Narrow literals -/

/-- A half of a surrogate pair is written as one escape by number. -/
lemma narrowCodePoint_half {c : CodePoint} (h : IsHigh c.val ∨ IsLow c.val) :
    narrowCodePoint c = numericEscape c.val := by
  have hrange : 0xD800 ≤ c.val ∧ c.val < 0x10000 := by
    unfold IsHigh IsLow at h
    omega
  have hshort : shortEscape? c = none := by
    simp only [shortEscape?, CodePoint.ext_iff, CodePoint.ofChar]
    split_ifs
    all_goals simp_all
    all_goals omega
  have hplain : ¬(0x20 ≤ c.val ∧ c.val < 0x7F) := by omega
  simp only [narrowCodePoint, hshort, if_neg hplain, if_pos hrange.2]

/-- What follows a high half is a low half only if the text has one there. -/
lemma isLow_of_beginsLow {c : CodePoint} {r : Text} (h : BeginsLow (narrowCodePoint c ++ r)) :
    IsLow c.val := by
  obtain ⟨h₁, h₂, h₃, h₄, s, n, heq, hn, hlow⟩ := h
  rw [narrowCodePoint] at heq
  split at heq
  · next e he =>
    obtain ⟨-, hu, -⟩ : ofChar '\\' = ofChar '\\' ∧ e = ofChar 'u' ∧ r = _ := by simpa using heq
    have := shortEscape?_unescape? he
    rw [hu, unescape?_u] at this
    cases this
  · next hshort =>
    split_ifs at heq with hplain hbmp
    · obtain ⟨rfl, -⟩ := List.cons.inj heq
      simp [shortEscape?] at hshort
    · obtain ⟨d₁, d₂, d₃, d₄, hdigits, hvalue⟩ := fourDigits?_numericEscape hbmp
      simp only [hdigits, List.cons_append, List.nil_append, List.cons.injEq] at heq
      obtain ⟨-, -, rfl, rfl, rfl, rfl, -⟩ := heq
      rw [hvalue] at hn
      cases hn
      exact hlow
    · -- the first escape of a pair is one of a high half
      have hlt := c.isLt
      obtain ⟨d₁, d₂, d₃, d₄, hdigits, hvalue⟩ :=
        @fourDigits?_numericEscape (0xD800 + (c.val - 0x10000) / 0x400) (by omega)
      simp only [hdigits, List.cons_append, List.nil_append, List.cons.injEq] at heq
      obtain ⟨-, -, rfl, rfl, rfl, rfl, -⟩ := heq
      rw [hvalue] at hn
      cases hn
      unfold IsLow at hlow
      omega

/-- One written code point, before what spells the rest of a text. -/
lemma Spells.narrowCodePoint {r t : Text} (c : CodePoint) (hfree : ¬(IsHigh c.val ∧ BeginsLow r))
    (h : Spells r t) : Spells (narrowCodePoint c ++ r) (c :: t) := by
  rw [Json.narrowCodePoint]
  split
  · next e he => exact .short (shortEscape?_unescape? he) h
  · next hnone =>
    split_ifs with hplain hbmp
    · have hne : c ≠ ofChar '"' ∧ c ≠ ofChar '\\' := by
        constructor <;> rintro rfl <;> simp [shortEscape?] at hnone
      exact .plain hne.1 hne.2 hplain.1 h
    · obtain ⟨h₁, h₂, h₃, h₄, heq, hn⟩ := fourDigits?_numericEscape hbmp
      have hs := Spells.number hn hfree h
      rw [show CodePoint.ofNat c.val = c from CodePoint.ext (ofNat_val c.isLt)] at hs
      rw [heq]
      exact hs
    · have hlt := c.isLt
      obtain ⟨h₁, h₂, h₃, h₄, heq, hn⟩ :=
        @fourDigits?_numericEscape (0xD800 + (c.val - 0x10000) / 0x400) (by omega)
      obtain ⟨l₁, l₂, l₃, l₄, heq', hm⟩ :=
        @fourDigits?_numericEscape (0xDC00 + (c.val - 0x10000) % 0x400) (by omega)
      have hpair : pairOf (0xD800 + (c.val - 0x10000) / 0x400)
          (0xDC00 + (c.val - 0x10000) % 0x400) = c := by
        refine CodePoint.ext ?_
        rw [pairOf, ofNat_val (by omega)]
        omega
      have hs := Spells.pair hn (by unfold IsHigh; omega) hm (by unfold IsLow; omega) h
      rw [hpair] at hs
      simp only [heq, heq']
      exact hs

/-- The inside of a narrow literal spells the text that was written, its surrogate pairs joined. -/
lemma spells_flatMap_narrowCodePoint (t : Text) :
    Spells (t.flatMap narrowCodePoint) (joinPairs t) := by
  induction t using joinPairs.induct with
  | case1 => exact .nil
  | case2 c =>
    refine Spells.narrowCodePoint c ?_ .nil
    rintro ⟨-, h₁, h₂, h₃, h₄, s, n, heq, -⟩
    cases heq
  | case3 c d r hpair ih =>
    obtain ⟨h₁, h₂, h₃, h₄, heq, hn⟩ :=
      @fourDigits?_numericEscape c.val (Nat.lt_of_le_of_lt hpair.1.2 (by decide))
    obtain ⟨l₁, l₂, l₃, l₄, heq', hm⟩ :=
      @fourDigits?_numericEscape d.val (Nat.lt_of_le_of_lt hpair.2.2 (by decide))
    rw [joinPairs, if_pos hpair, List.flatMap_cons, List.flatMap_cons,
      narrowCodePoint_half (.inl hpair.1), narrowCodePoint_half (.inr hpair.2), heq, heq']
    exact .pair hn hpair.1 hm hpair.2 ih
  | case4 c d r hpair ih =>
    rw [joinPairs, if_neg hpair, List.flatMap_cons]
    refine ih.narrowCodePoint c fun h => hpair ⟨h.1, ?_⟩
    rw [List.flatMap_cons] at h
    exact isLow_of_beginsLow h.2

lemma literal?_flatMap_narrowCodePoint (t rest : Text) :
    literal? (t.flatMap narrowCodePoint ++ ofChar '"' :: rest) = some (joinPairs t, rest) := by
  rw [literal?, scan_of_spells (spells_flatMap_narrowCodePoint t)]
  rfl

lemma narrowLiteral_append (t rest : Text) : narrowLiteral t ++ rest =
    ofChar '"' :: (t.flatMap narrowCodePoint ++ ofChar '"' :: rest) := by
  simp [narrowLiteral]

/-! ## Objects of texts -/

/-- The object whose fields have texts as values. -/
def textObject (fs : List (Text × Text)) : Json := .object (fs.map fun f => (f.1, .text f.2))

/-- What reading makes of the names and the values. -/
def joinFields (fs : List (Text × Text)) : List (Text × Text) :=
  fs.map fun f => (joinPairs f.1, joinPairs f.2)

lemma skipBlanks_blank (t : Text) : skipBlanks (ofChar ' ' :: t) = skipBlanks t := rfl

lemma skipBlanks_narrowLiteral (t rest : Text) :
    skipBlanks (narrowLiteral t ++ rest) = narrowLiteral t ++ rest := rfl

lemma value?_narrowLiteral (fuel : Nat) (t rest : Text) :
    value? (fuel + 1) (ofChar ' ' :: (narrowLiteral t ++ rest)) =
      some (.text (joinPairs t), rest) := by
  rw [value?, skipBlanks_blank, skipBlanks_narrowLiteral, narrowLiteral_append]
  simp only [if_true, literal?_flatMap_narrowCodePoint, Option.map_some]

/-- The fields of an object and its closing brace, as they are written. -/
def fieldsText (fs : List (Text × Text)) : Text :=
  Text.join ", " (renderFields (fs.map fun f => (f.1, .text f.2))) ++ [ofChar '\x7d']

lemma render_textObject (fs : List (Text × Text)) :
    (textObject fs).render = ofChar '\x7b' :: fieldsText fs := by
  rw [textObject, render]
  rfl

lemma fieldsText_singleton (f : Text × Text) : fieldsText [f] =
    narrowLiteral f.1 ++ (ofChar ':' :: ofChar ' ' :: (narrowLiteral f.2 ++ [ofChar '\x7d'])) := by
  simp [fieldsText, renderFields, render, Text.join, Text.ofString]

lemma fieldsText_cons (f g : Text × Text) (fs : List (Text × Text)) : fieldsText (f :: g :: fs) =
    narrowLiteral f.1 ++ (ofChar ':' :: ofChar ' ' ::
      (narrowLiteral f.2 ++ ofChar ',' :: ofChar ' ' :: fieldsText (g :: fs))) := by
  simp [fieldsText, renderFields, render, Text.join, Text.ofString]

lemma skipBlanks_fieldsText (f : Text × Text) (fs : List (Text × Text)) (rest : Text) :
    skipBlanks (fieldsText (f :: fs) ++ rest) = fieldsText (f :: fs) ++ rest := by
  cases fs with
  | nil => rw [fieldsText_singleton, List.append_assoc, skipBlanks_narrowLiteral]
  | cons g fs => rw [fieldsText_cons, List.append_assoc, skipBlanks_narrowLiteral]

/-- The first field is read, and what stands behind it decides how reading goes on. -/
lemma fields?_narrowLiteral {fuel : Nat} {t name value rest : Text}
    (ht : skipBlanks t = narrowLiteral name ++
      (ofChar ':' :: ofChar ' ' :: (narrowLiteral value ++ rest))) :
    fields? (fuel + 2) t =
      match skipBlanks rest with
      | [] => none
      | c :: r =>
        if c = ofChar '\x7d' then some ([(joinPairs name, .text (joinPairs value))], r)
        else if c = ofChar ',' then do
          let (fs, r) ← fields? (fuel + 1) r
          some ((joinPairs name, .text (joinPairs value)) :: fs, r)
        else none := by
  have hquote : after? (ofChar '"') (skipBlanks t) = some (name.flatMap narrowCodePoint ++
      ofChar '"' :: ofChar ':' :: ofChar ' ' :: (narrowLiteral value ++ rest)) := by
    rw [ht, narrowLiteral_append, after?, if_pos rfl]
  rw [fields?, hquote]
  simp only [Option.bind_eq_bind, Option.bind_some, literal?_flatMap_narrowCodePoint]
  have hcolon : after? (ofChar ':')
      (skipBlanks (ofChar ':' :: ofChar ' ' :: (narrowLiteral value ++ rest))) =
        some (ofChar ' ' :: (narrowLiteral value ++ rest)) := rfl
  rw [hcolon, Option.bind_some]
  exact congrArg (Option.bind · _) (value?_narrowLiteral fuel value rest)

/-- The written fields are read back, if there is fuel for all of them. -/
lemma fields?_fieldsText {fuel : Nat} {f : Text × Text} {fs : List (Text × Text)} {t rest : Text}
    (ht : skipBlanks t = fieldsText (f :: fs) ++ rest) (hfuel : fs.length ≤ fuel) :
    fields? (fuel + 2) t =
      some ((f :: fs).map fun f => (joinPairs f.1, .text (joinPairs f.2)), rest) := by
  induction fs generalizing f t fuel with
  | nil =>
    rw [fieldsText_singleton] at ht
    simp only [List.append_assoc, List.cons_append, List.nil_append] at ht
    rw [fields?_narrowLiteral ht]
    rfl
  | cons g fs ih =>
    obtain ⟨fuel, rfl⟩ : ∃ n, fuel = n + 1 := Nat.exists_eq_add_one.2 (by simp at hfuel; omega)
    rw [fieldsText_cons] at ht
    simp only [List.append_assoc, List.cons_append] at ht
    rw [fields?_narrowLiteral ht]
    have hblank : skipBlanks (ofChar ' ' :: (fieldsText (g :: fs) ++ rest)) =
        fieldsText (g :: fs) ++ rest := by
      rw [skipBlanks_blank, skipBlanks_fieldsText]
    have hrest := ih hblank (by simpa using hfuel)
    have hcomma : skipBlanks (ofChar ',' :: ofChar ' ' :: (fieldsText (g :: fs) ++ rest)) =
        ofChar ',' :: ofChar ' ' :: (fieldsText (g :: fs) ++ rest) := rfl
    have hne : ofChar ',' ≠ ofChar '\x7d' := by decide
    simp only [hcomma, if_neg hne, if_true, hrest]
    rfl

lemma length_le_length_fieldsText (f : Text × Text) (fs : List (Text × Text)) :
    fs.length < (fieldsText (f :: fs)).length := by
  induction fs generalizing f with
  | nil =>
    rw [fieldsText_singleton]
    simp [narrowLiteral]
  | cons g fs ih =>
    have := ih g
    rw [fieldsText_cons]
    simp only [List.length_append, List.length_cons]
    omega

lemma after?_brace_fieldsText (f : Text × Text) (fs : List (Text × Text)) :
    after? (ofChar '\x7d') (fieldsText (f :: fs)) = none := by
  have hne : ofChar '"' ≠ ofChar '\x7d' := by decide
  cases fs with
  | nil => rw [fieldsText_singleton, narrowLiteral_append, after?, if_neg hne]
  | cons g fs => rw [fieldsText_cons, narrowLiteral_append, after?, if_neg hne]

/-- A written object of texts is read back, its surrogate pairs joined. -/
theorem read?_render_textObject (fs : List (Text × Text)) :
    read? (textObject fs).render = some (textObject (joinFields fs)) := by
  have hbrace : ofChar '\x7b' ≠ ofChar '"' ∧ ofChar '\x7b' ≠ ofChar '[' := by decide
  rw [read?, render_textObject, value?]
  have hskip : skipBlanks (ofChar '\x7b' :: fieldsText fs) = ofChar '\x7b' :: fieldsText fs := rfl
  simp only [hskip, if_neg hbrace.1, if_neg hbrace.2, if_true]
  cases fs with
  | nil => rfl
  | cons f fs =>
    have hfront : skipBlanks (fieldsText (f :: fs)) = fieldsText (f :: fs) ++ [] := by
      simpa using skipBlanks_fieldsText f fs []
    have hlength := length_le_length_fieldsText f fs
    obtain ⟨fuel, hfuel⟩ : ∃ n, 2 * (ofChar '\x7b' :: fieldsText (f :: fs)).length + 1 = n + 2 :=
      ⟨2 * (fieldsText (f :: fs)).length + 1, by simp only [List.length_cons]; omega⟩
    rw [List.length_cons] at hfuel
    simp only [List.length_cons, hfuel, fields?_fieldsText hfront (by omega : fs.length ≤ fuel)]
    rw [hfront, List.append_nil, after?_brace_fieldsText]
    simp [textObject, joinFields, Function.comp_def, skipBlanks]

/-! ## Printable ASCII -/

/-- A code point that stands for itself on every terminal and ends no line. -/
def IsPrintable (c : CodePoint) : Prop := 0x20 ≤ c.val ∧ c.val < 0x7F

instance (c : CodePoint) : Decidable (IsPrintable c) := inferInstanceAs (Decidable (_ ∧ _))

lemma isPrintable_hexDigit : ∀ {n : Nat}, n < 16 → IsPrintable (CodePoint.hexDigit n) := by decide

lemma isPrintable_numericEscape (n : Nat) : ∀ c ∈ numericEscape n, IsPrintable c := by
  have hmark : ∀ c ∈ Text.ofString "\\u", IsPrintable c := by decide
  have hdigits : ∀ width n, ∀ c ∈ Text.hexPadded width n, IsPrintable c := by
    intro width
    induction width with
    | zero => simp [Text.hexPadded]
    | succ width ih =>
      intro n
      rw [Text.hexPadded, List.forall_mem_append, List.forall_mem_singleton]
      exact ⟨ih _, isPrintable_hexDigit (Nat.mod_lt _ (by decide))⟩
  exact List.forall_mem_append.2 ⟨hmark, hdigits 4 n⟩

lemma isPrintable_of_shortEscape? {c e : CodePoint} (h : shortEscape? c = some e) :
    IsPrintable e := by
  simp only [shortEscape?] at h
  split_ifs at h with h₁ <;> cases h
  · rcases h₁ with rfl | rfl <;> decide
  all_goals decide

lemma isPrintable_narrowCodePoint (c : CodePoint) :
    ∀ d ∈ narrowCodePoint c, IsPrintable d := by
  rw [narrowCodePoint]
  split
  · next e he =>
    simp only [List.forall_mem_cons]
    exact ⟨by decide, isPrintable_of_shortEscape? he, by simp⟩
  · split_ifs with hplain hbmp
    · exact List.forall_mem_singleton.2 hplain
    · exact isPrintable_numericEscape _
    · exact List.forall_mem_append.2 ⟨isPrintable_numericEscape _, isPrintable_numericEscape _⟩

lemma isPrintable_narrowLiteral (t : Text) : ∀ c ∈ narrowLiteral t, IsPrintable c := by
  have hquote : IsPrintable (ofChar '"') := by decide
  rw [narrowLiteral, List.forall_mem_append, List.forall_mem_cons, List.forall_mem_singleton]
  refine ⟨⟨hquote, fun c hc => ?_⟩, hquote⟩
  obtain ⟨d, -, hd⟩ := List.mem_flatMap.1 hc
  exact isPrintable_narrowCodePoint d c hd

/-- An object of texts is written on one line of printable ASCII. -/
theorem isPrintable_render_textObject (fs : List (Text × Text)) :
    ∀ c ∈ (textObject fs).render, IsPrintable c := by
  have hfields : ∀ c ∈ fieldsText fs, IsPrintable c := by
    induction fs with
    | nil => decide
    | cons f fs ih =>
      cases fs with
      | nil =>
        simp only [fieldsText_singleton, List.forall_mem_append, List.forall_mem_cons]
        exact ⟨isPrintable_narrowLiteral _, by decide, by decide, isPrintable_narrowLiteral _,
          by decide⟩
      | cons g fs =>
        simp only [fieldsText_cons, List.forall_mem_append, List.forall_mem_cons]
        exact ⟨isPrintable_narrowLiteral _, by decide, by decide, isPrintable_narrowLiteral _,
          by decide, by decide, ih⟩
  rw [render_textObject, List.forall_mem_cons]
  exact ⟨by decide, hfields⟩

end SuggestBridge.Json
