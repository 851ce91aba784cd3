import SuggestBridge.Proofs.Sexp.Reprint

/-!
# Names among other values

The writer refuses the name of a symbol exactly if some list of written values would be read as
something else with that name in it (`write_symbol_iff_read_among`).

A name that it accepts is read as that symbol wherever it stands, since it ends where its spelling
ends.  Of the names that it refuses, most are given to no symbol by any text at all (`ReadName`), so
the list of the symbol alone is misread.  The others end in a backslash, and swallow the space before
the next item.
-/

namespace SuggestBridge.Sexp

open CodePoint (ofChar)
open Reader

/-! ## Lists of texts -/

/-- The text of a list whose items have the given texts. -/
def listOf (ts : List Text) : Text := "(" ++ Text.join " " ts ++ ")"

lemma writeAll_append {vs ws : List Sexp} {ts us : List Text} (hvs : writeAll vs = .ok ts)
    (hws : writeAll ws = .ok us) : writeAll (vs ++ ws) = .ok (ts ++ us) := by
  induction vs generalizing ts with
  | nil =>
    cases hvs
    exact hws
  | cons v vs ih =>
    obtain ⟨t, ts, ht, hts, rfl⟩ := writeAll_cons_eq_ok hvs
    rw [List.cons_append, writeAll, ht, ih hts]
    rfl

/-- Written values in a list are read back as they are. -/
lemma read_listOf {vs : List Sexp} {ts : List Text} (hvs : ∀ v ∈ vs, v.Plain)
    (h : writeAll vs = .ok ts) : read (listOf ts) = .ok (.list vs) := by
  have hwrite : write (.list vs) = .ok (listOf ts) := by
    rw [write, h]
    rfl
  rw [read_of_write hwrite, (Plain.list hvs).canon]

/-! ## Names that end in a backslash -/

lemma not_isNumeral_of_space {name : Text} (h : ofChar ' ' ∈ name) : ¬∃ ds, IsNumeral name ds := by
  rintro ⟨ds, hds⟩
  exact absurd (hds.not_isDelimiter _ h).1 (by decide)

/-- Two items behind the first of which no delimiter stands are read as one: the backslash at the end
of the name and the space behind it together stand for a space of a longer name. -/
lemma read_listOf_trails {p : Text} (hp : ∀ c ∈ p, isDelimiter c = true → c = ofChar ' ') :
    read (listOf [(p ++ [ofChar '\\']).flatMap nameCodePoint, Text.ofString "nil"]) =
      .ok (.list [.symbol (p ++ Text.ofString " nil")]) := by
  have hspelling : Bare (p.flatMap nameCodePoint ++ Text.ofString "\\ nil")
      (p ++ Text.ofString " nil") :=
    (bare_flatMap_nameCodePoint hp).append (.space (bare_self (by decide)))
  have hatom : atom (p ++ Text.ofString " nil") = .ok (.symbol (p ++ Text.ofString " nil")) := by
    have hspace : ofChar ' ' ∈ p ++ Text.ofString " nil" := by simp [Text.ofString]
    rw [atom_of_not_isNumeral (not_isNumeral_of_space hspace), if_neg]
    intro hnil
    rw [hnil] at hspace
    exact absurd hspace (by decide)
  have hwritten : Written (p.flatMap nameCodePoint ++ Text.ofString "\\ nil")
      (.symbol (p ++ Text.ofString " nil")) := by
    have hlast : (p.flatMap nameCodePoint ++ Text.ofString "\\ nil").getLast? = some (ofChar 'l') := by
      rw [List.getLast?_append]
      rfl
    refine written_bare hspelling (by simp [Text.ofString]) ?_ hatom
    rw [hlast]
    decide
  have hdot : (symbol (p ++ Text.ofString " nil")).isDot = false := by
    rw [← Bool.not_eq_true, isDot_iff]
    intro heq
    have hlength := congrArg List.length (Sexp.symbol.inj heq)
    simp [Text.ofString] at hlength
  have htext : listOf [(p ++ [ofChar '\\']).flatMap nameCodePoint, Text.ofString "nil"] =
      ofChar '(' :: (p.flatMap nameCodePoint ++ Text.ofString "\\ nil" ++ [ofChar ')']) := by
    have hslash : nameCodePoint (ofChar '\\') = [ofChar '\\'] := by decide
    simp [listOf, Text.join, Text.ofString, hslash]
  rw [htext]
  exact read_of_written (written_bracketed (.list (by simpa using hdot))
    (writtenAll_singleton hwritten)) rfl

/-! ## The guard -/

/-- A name that can be written is read as its symbol among all written values. -/
lemma read_among {name : Text} (hname : isWritableName name = true) {before after : List Sexp}
    {ts us : List Text} (hplain : ∀ v ∈ before ++ after, v.Plain) (hts : writeAll before = .ok ts)
    (hus : writeAll after = .ok us) :
    read (listOf (ts ++ [name.flatMap nameCodePoint] ++ us)) =
      .ok (.list (before ++ [.symbol name] ++ after)) := by
  have hsymbol : writeAll [.symbol name] = .ok [name.flatMap nameCodePoint] := by
    rw [writeAll, write, writeName, if_pos hname]
    rfl
  refine read_listOf (fun v hv => ?_) (writeAll_append (writeAll_append hts hsymbol) hus)
  simp only [List.mem_append, List.mem_singleton] at hv hplain
  rcases hv with (hv | rfl) | hv
  · exact hplain v (.inl hv)
  · exact .symbol name
  · exact hplain v (.inr hv)

/-- A name that reading gives ends in no backslash if it is read as its symbol before nil. -/
lemma not_trails_of_read {name : Text} (hname : ReadName name)
    (h : read (listOf [name.flatMap nameCodePoint, Text.ofString "nil"]) =
      .ok (.list [.symbol name, .nil])) : ¬Trails name := by
  intro htrails
  obtain ⟨p, rfl⟩ := List.getLast?_eq_some_iff.1 htrails
  have hswallowed := read_listOf_trails fun c hc => hname.spaces c (List.mem_append_left _ hc)
  have hlists := Sexp.list.inj (Except.ok.inj (hswallowed.symm.trans h))
  exact absurd (congrArg List.length hlists) (by simp)

/-- **The guard on names is exact.**  The symbol of a name can be written if and only if its escaped
name is read as that symbol among all written values, whatever stands before and behind it. -/
theorem write_symbol_iff_read_among (name : Text) :
    (∃ t, write (.symbol name) = .ok t) ↔
      ∀ (before after : List Sexp) (ts us : List Text), (∀ v ∈ before ++ after, v.Plain) →
        writeAll before = .ok ts → writeAll after = .ok us →
        read (listOf (ts ++ [name.flatMap nameCodePoint] ++ us)) =
          .ok (.list (before ++ [.symbol name] ++ after)) := by
  constructor
  · rintro ⟨t, ht⟩ before after ts us hplain hts hus
    have hname : isWritableName name = true := by
      rw [write, writeName] at ht
      split at ht
      · assumption
      · cases ht
    exact read_among hname hplain hts hus
  · intro hread
    -- the list of the symbol alone is read, so reading gives the name to a symbol
    have halone := hread [] [] [] [] (fun v hv => absurd hv List.not_mem_nil) rfl rfl
    have hname : ReadName name := named_of_read halone name (.item (by simp) .symbol)
    have hnil := hread [] [.nil] [] [Text.ofString "nil"]
      (fun v hv => by rw [List.mem_singleton.1 hv]; exact .nil) rfl rfl
    have hwritable := (isWritableName_iff hname).2 (not_trails_of_read hname hnil)
    exact ⟨name.flatMap nameCodePoint, by rw [write, writeName, if_pos hwritable]⟩

end SuggestBridge.Sexp
