import SuggestBridge.Proofs.Sexp.Readable
import SuggestBridge.Proofs.Sexp.RoundTrip

/-!
# Writing what was read

A value that was read is written again, and as a text that is read as the same value, unless a symbol
in it has a name that ends in a backslash (`write_of_read`).  The grammar says which names reading
gives to symbols (`ReadName`): all that the writer asks of a name, but for that last code point.
-/

namespace SuggestBridge.Sexp

open CodePoint (ofChar)
open Reader

/-! ## The symbols of a value -/

/-- A symbol of this name occurs in a value. -/
inductive Mentions (name : Text) : Sexp → Prop
  | symbol : Mentions name (.symbol name)
  | item {vs : List Sexp} {v : Sexp} : v ∈ vs → Mentions name v → Mentions name (.list vs)
  | member {vs : List Sexp} {v : Sexp} : v ∈ vs → Mentions name v → Mentions name (.tuple vs)
  | car {a d : Sexp} : Mentions name a → Mentions name (.cons a d)
  | cdr {a d : Sexp} : Mentions name d → Mentions name (.cons a d)

/-- The last code point of a name is a backslash. -/
def Trails (name : Text) : Prop := name.getLast? = some (ofChar '\\')

/-- A name that reading gives to symbols. -/
structure ReadName (name : Text) : Prop where
  nonempty : name ≠ []
  notNil : name ≠ Text.ofString "nil"
  notDot : name ≠ Text.ofString "."
  notNumeral : ¬∃ ds, IsNumeral name ds
  spaces : ∀ c ∈ name, isDelimiter c = true → c = ofChar ' '

/-! ## What is read -/

lemma Bare.delimiter_eq_space {s name : Text} (h : Bare s name) :
    ∀ c ∈ name, isDelimiter c = true → c = ofChar ' ' := by
  induction h with
  | nil => exact fun c hc => absurd hc List.not_mem_nil
  | space _ ih =>
    intro c hc hdel
    rcases List.mem_cons.1 hc with rfl | hc
    · rfl
    · exact ih c hc hdel
  | plain hplain _ ih =>
    intro c hc hdel
    rcases List.mem_cons.1 hc with rfl | hc
    · exact absurd (hplain.symm.trans hdel) (by decide)
    · exact ih c hc hdel

lemma Bare.name_ne_nil {s name : Text} (h : Bare s name) (hne : s ≠ []) : name ≠ [] := by
  cases h with
  | nil => exact absurd rfl hne
  | space _ => exact List.cons_ne_nil _ _
  | plain _ _ => exact List.cons_ne_nil _ _

/-- All symbols of a value have names that reading gives. -/
def Named (v : Sexp) : Prop := ∀ name, Mentions name v → ReadName name

lemma named_of_atom {s name : Text} {v : Sexp} (hs : Bare s name) (hne : s ≠ [])
    (h : Atom name v) (hdot : v.isDot = false) : Named v := by
  intro n hn
  cases h with
  | symbol hnum hnil =>
    cases hn
    refine ⟨hs.name_ne_nil hne, hnil, ?_, hnum, hs.delimiter_eq_space⟩
    rintro rfl
    cases hdot
  | _ => cases hn

lemma named_of_bracketed {vs : List Sexp} {v : Sexp} (h : Bracketed vs v)
    (hvs : ∀ w ∈ vs, w.isDot = false → Named w) : Named v := by
  intro name hname
  cases h with
  | list hdots =>
    cases hname with
    | item hmem hname => exact hvs _ hmem (hdots _ hmem) name hname
  | pair ha hd =>
    cases hname with
    | car hname => exact hvs _ (by simp) ha name hname
    | cdr hname => exact hvs _ (by simp) hd name hname

/-- By induction on the derivation; the dot of a pair is the one item that is not concerned. -/
lemma Item.named {t rest : Text} {v : Sexp} (h : Item t v rest) : v.isDot = false → Named v := by
  refine @Item.rec (fun _ v _ _ => v.isDot = false → Named v)
    (fun _ vs _ _ => ∀ w ∈ vs, w.isDot = false → Named w)
    ?bare ?verbatim ?literal ?bracketed ?noItems ?items t v rest h
  case bare => exact fun hne hs _ hatom hdot => named_of_atom hs hne hatom hdot
  case verbatim => exact fun _ _ _ _ hname => nomatch hname
  case literal => exact fun _ _ _ _ _ hname => nomatch hname
  case bracketed => exact fun _ hvs ih _ => named_of_bracketed hvs ih
  case noItems => exact fun _ w hw => absurd hw List.not_mem_nil
  case items =>
    intro b t r rest v vs _ _ _ ihv ihvs w hw
    rcases List.mem_cons.1 hw with rfl | hw
    · exact ihv
    · exact ihvs w hw

lemma named_of_read {t : Text} {v : Sexp} (h : read t = .ok v) : Named v := by
  obtain ⟨before, item, after, -, -, hitem, -, hdot⟩ := derives_of_read h
  exact hitem.named hdot

/-! ## What is written -/

lemma isWritableName_iff {name : Text} (h : ReadName name) :
    isWritableName name = true ↔ ¬Trails name := by
  refine ⟨fun hw => (of_isWritableName hw).2.2.2.1, fun htrails => ?_⟩
  have hends : Text.endsWith name (Text.ofString "\\") = false := by
    rw [Text.endsWith]
    rcases List.eq_nil_or_concat name with rfl | ⟨p, c, rfl⟩
    · rfl
    · rw [List.concat_eq_append, List.reverse_append]
      rw [Trails, List.concat_eq_append, List.getLast?_concat] at htrails
      have hc : c ≠ ofChar '\\' := fun heq => htrails (congrArg some heq)
      simpa [Text.ofString, List.isPrefixOf] using hc.symm
  have hchars : (name.any fun c => isDelimiter c && c ≠ ofChar ' ') = false := by
    rw [List.any_eq_false]
    intro c hc
    cases hdel : isDelimiter c with
    | true => simp [h.spaces c hc hdel]
    | false => simp
  simp only [isWritableName, Bool.and_eq_true, Bool.not_eq_true', decide_eq_true_eq,
    Option.isNone_iff_eq_none, integerDigits?_eq_none_iff, List.isEmpty_eq_false_iff]
  exact ⟨⟨⟨⟨⟨h.nonempty, h.notNil⟩, h.notDot⟩, hends⟩, h.notNumeral⟩, hchars⟩

/-- A value is refused for a symbol whose name ends in a backslash, or it is written and has no such
symbol. -/
def Settles (v : Sexp) : Prop :=
  (∃ name, Mentions name v ∧ Trails name ∧ write v = .error (.symbol name)) ∨
    (∃ t, write v = .ok t) ∧ ∀ name, Mentions name v → ¬Trails name

lemma settles_symbol {name : Text} (h : ReadName name) : Settles (.symbol name) := by
  by_cases htrails : Trails name
  · refine .inl ⟨name, .symbol, htrails, ?_⟩
    rw [write, writeName, if_neg (by simpa [isWritableName_iff h] using htrails)]
  · have hwrite : write (.symbol name) = .ok (name.flatMap nameCodePoint) := by
      rw [write, writeName, if_pos ((isWritableName_iff h).2 htrails)]
    refine .inr ⟨⟨_, hwrite⟩, fun n hn => ?_⟩
    cases hn
    exact htrails

lemma settles_all {vs : List Sexp} (h : ∀ v ∈ vs, Settles v) :
    (∃ name, (∃ v ∈ vs, Mentions name v) ∧ Trails name ∧ writeAll vs = .error (.symbol name)) ∨
      (∃ ts, writeAll vs = .ok ts) ∧ ∀ v ∈ vs, ∀ name, Mentions name v → ¬Trails name := by
  induction vs with
  | nil => exact .inr ⟨⟨[], rfl⟩, fun v hv => absurd hv List.not_mem_nil⟩
  | cons v vs ih =>
    obtain ⟨hv, hvs⟩ := List.forall_mem_cons.1 h
    rcases hv with ⟨name, hname, htrails, hwrite⟩ | ⟨⟨t, ht⟩, hnone⟩
    · exact .inl ⟨name, ⟨v, by simp, hname⟩, htrails, by rw [writeAll, hwrite]; rfl⟩
    rcases ih hvs with ⟨name, ⟨w, hw, hname⟩, htrails, hwrite⟩ | ⟨⟨ts, hts⟩, hrest⟩
    · exact .inl ⟨name, ⟨w, by simp [hw], hname⟩, htrails, by rw [writeAll, ht, hwrite]; rfl⟩
    · exact .inr ⟨⟨t :: ts, by rw [writeAll, ht, hts]; rfl⟩,
        List.forall_mem_cons.2 ⟨hnone, hrest⟩⟩

lemma settles_cons {a d : Sexp} (ha : Settles a) (hd : Settles d) : Settles (.cons a d) := by
  rcases ha with ⟨name, hname, htrails, hwrite⟩ | ⟨⟨s, hs⟩, hnone⟩
  · exact .inl ⟨name, .car hname, htrails, by rw [write, hwrite]; rfl⟩
  rcases hd with ⟨name, hname, htrails, hwrite⟩ | ⟨⟨t, ht⟩, hnone'⟩
  · exact .inl ⟨name, .cdr hname, htrails, by rw [write, hs, hwrite]; rfl⟩
  · refine .inr ⟨⟨_, by rw [write, hs, ht]; rfl⟩, fun name hname => ?_⟩
    cases hname with
    | car hname => exact hnone name hname
    | cdr hname => exact hnone' name hname

/-- Nothing but the name of a symbol is in the way of writing a value that was read. -/
lemma Readable.settles {v : Sexp} (h : Readable v) (hnamed : Named v) : Settles v := by
  induction h with
  | nil =>
    refine .inr ⟨⟨_, rfl⟩, ?_⟩
    rintro _ ⟨⟩
  | int hn =>
    refine .inr ⟨⟨_, by rw [write, Integer.write_eq_ok hn]; rfl⟩, ?_⟩
    rintro _ ⟨⟩
  | string t =>
    refine .inr ⟨⟨_, rfl⟩, ?_⟩
    rintro _ ⟨⟩
  | symbol name => exact settles_symbol (hnamed name .symbol)
  | list _ ih =>
    rcases settles_all fun v hv => ih v hv fun name hname => hnamed name (.item hv hname) with
      ⟨name, ⟨v, hv, hname⟩, htrails, hwrite⟩ | ⟨⟨ts, hts⟩, hnone⟩
    · exact .inl ⟨name, .item hv hname, htrails, by rw [write, hwrite]; rfl⟩
    · refine .inr ⟨⟨_, by rw [write, hts]; rfl⟩, fun name hname => ?_⟩
      cases hname with
      | item hv hname => exact hnone _ hv name hname
  | cons _ _ iha ihd =>
    exact settles_cons (iha fun name hname => hnamed name (.car hname))
      (ihd fun name hname => hnamed name (.cdr hname))

/-- What was read holds nothing that is read back as anything else. -/
lemma Readable.canon {v : Sexp} (h : Readable v) : v.canon = v := by
  induction h with
  | list _ ih => rw [Sexp.canon, canonAll_eq_self ih]
  | cons _ _ iha ihd => rw [Sexp.canon, iha, ihd]
  | _ => rfl

/-- **Writing again is faithful.**  A value that was read is refused, for a symbol in it whose name
ends in a backslash, or it has no such symbol and is written as a text that is read as the same value
and that is what this value is written as. -/
theorem write_of_read (t : Text) (v : Sexp) (h : read t = .ok v) :
    (∃ name, Mentions name v ∧ Trails name ∧ write v = .error (.symbol name)) ∨
      (∀ name, Mentions name v → ¬Trails name) ∧
        ∃ t', write v = .ok t' ∧ read t' = .ok v ∧ ∀ w, read t' = .ok w → write w = .ok t' := by
  have hread := readable_of_read h
  rcases hread.settles (named_of_read h) with hrefused | ⟨⟨t', ht'⟩, hnone⟩
  · exact .inl hrefused
  · have hback : read t' = .ok v := (read_of_write ht').trans (congrArg _ hread.canon)
    refine .inr ⟨hnone, t', ht', hback, fun w hw => ?_⟩
    cases hback.symm.trans hw
    exact ht'

/-- A list with blanks of all kinds is written with single spaces; one with a name that ends in a
backslash is refused. -/
theorem write_of_read_blanks :
    (read "( a\\ b\t. nil)\n" = .ok (.cons (.symbol "a b") .nil) ∧
      (∃ t', write (.cons (.symbol "a b") .nil) = .ok t' ∧
        read t' = .ok (.cons (.symbol "a b") .nil) ∧
        ∀ w, read t' = .ok w → write w = .ok t') ∧
      write (.cons (.symbol "a b") .nil) = .ok "(a\\ b . nil)") ∧
    read "(a\\)" = .ok (.list [.symbol "a\\"]) ∧
      ∃ name, Mentions name (.list [.symbol "a\\"]) ∧ Trails name ∧
        write (.list [.symbol "a\\"]) = .error (.symbol name) := by
  have hpair : read "( a\\ b\t. nil)\n" = .ok (.cons (.symbol "a b") .nil) := rfl
  have hlist : read "(a\\)" = .ok (.list [.symbol "a\\"]) := rfl
  have hwrite : write (.cons (.symbol "a b") .nil) = .ok "(a\\ b . nil)" := rfl
  refine ⟨⟨hpair, ?_, hwrite⟩, hlist, ?_⟩
  · rcases write_of_read _ _ hpair with ⟨name, -, -, hrefused⟩ | ⟨-, hagain⟩
    · cases hwrite.symm.trans hrefused
    · exact hagain
  · rcases write_of_read _ _ hlist with hrefused | ⟨hnone, -⟩
    · exact hrefused
    · exact absurd rfl (hnone _ (.item (List.mem_singleton.2 rfl) .symbol))

end SuggestBridge.Sexp
