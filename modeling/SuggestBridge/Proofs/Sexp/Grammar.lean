import SuggestBridge.Proofs.Sexp.Atom
import SuggestBridge.Proofs.Sexp.Lexeme

/-!
# The grammar of symbolic expressions

`Derives t v` says, without the reader, that the text `t` is one item between blanks and that `v`
is what the item means.  The grammar is written over what is left of a text: `Item t v rest` cuts
an item from the front of `t`, and `Items t vs rest` a run of items with blanks around them.

The dot of a pair is a bare lexeme like any other, whose value is the symbol of that name; it is
`Bracketed` that accepts it only as the second of exactly three items and then gives the pair, and
`Derives` that refuses it as the item of a whole text.

The reader and the grammar agree on every text whose numbers have no more digits than an integer
may be read from (`read_eq_ok_iff_derives`).  Both directions use the equations of
`Proofs.Sexp.Lexeme`: what the grammar derives is read by induction on the derivation
(`Item.read`), and what a reader in the middle of a text answers is derived by induction on the
lexemes that are left (`completes_of_answer`), where `Completes` says what the lists that are
still open demand of the rest.
-/

namespace SuggestBridge.Sexp

open CodePoint (ofChar)
open Json (Inside Spells)
open Reader

/-! ## The grammar -/

/-- A run of blanks. -/
def IsBlanks (b : Text) : Prop := ∀ c ∈ b, isBlank c = true

/-- What the items between two brackets make together. -/
inductive Bracketed : List Sexp → Sexp → Prop
  | list {vs : List Sexp} : (∀ v ∈ vs, v.isDot = false) → Bracketed vs (.list vs)
  | pair {a d : Sexp} : a.isDot = false → d.isDot = false →
      Bracketed [a, dot, d] (.cons a d)

mutual

/-- An item at the front of a text, what it means, and the rest of the text. -/
inductive Item : Text → Sexp → Text → Prop
  | bare {s name rest : Text} {v : Sexp} :
      s ≠ [] → Bare s name → Maximal s rest → Atom name v → Item (s ++ rest) v rest
  | verbatim {raw rest : Text} :
      Inside raw → ofChar '\\' ∉ raw → Item (quotedBefore raw rest) (.string raw) rest
  | literal {raw t rest : Text} :
      Inside raw → ofChar '\\' ∈ raw → Spells raw t → Item (quotedBefore raw rest) (.string t) rest
  | bracketed {t rest : Text} {vs : List Sexp} {v : Sexp} :
      Items t vs (ofChar ')' :: rest) → Bracketed vs v → Item (ofChar '(' :: t) v rest

/-- Items at the front of a text with blanks around them, what they mean, and the rest. -/
inductive Items : Text → List Sexp → Text → Prop
  | nil {b rest : Text} : IsBlanks b → Items (b ++ rest) [] rest
  | cons {b t r rest : Text} {v : Sexp} {vs : List Sexp} :
      IsBlanks b → Item t v r → Items r vs rest → Items (b ++ t) (v :: vs) rest

end

/-- A text that is one item between blanks, and what it means. -/
def Derives (t : Text) (v : Sexp) : Prop :=
  ∃ before item after, t = before ++ item ∧ IsBlanks before ∧ Item item v after ∧
    IsBlanks after ∧ v.isDot = false

/-! ## The numbers of a text -/

/-- The first lexeme of a text, and what follows it. -/
inductive Cut : Text → Text → Prop
  | blank {c : CodePoint} {r : Text} : isBlank c = true → Cut (c :: r) r
  | opening {r : Text} : Cut (ofChar '(' :: r) r
  | closing {r : Text} : Cut (ofChar ')' :: r) r
  | quoted {raw rest : Text} : Inside raw → Cut (quotedBefore raw rest) rest
  | bare {s name rest : Text} : s ≠ [] → Bare s name → Maximal s rest → Cut (s ++ rest) rest

/-- The digits of a number among the lexemes of a text. -/
inductive HasNumber : Text → Text → Prop
  | here {s name rest ds : Text} :
      s ≠ [] → Bare s name → Maximal s rest → IsNumeral name ds → HasNumber (s ++ rest) ds
  | later {t rest ds : Text} : Cut t rest → HasNumber rest ds → HasNumber t ds

/-- The numbers of a text have no more digits than an integer may be read from. -/
def ShortNumbers (t : Text) : Prop := ∀ ds, HasNumber t ds → ds.length ≤ Integer.digitLimit

lemma ShortNumbers.rest {t rest : Text} (h : ShortNumbers t) (hcut : Cut t rest) :
    ShortNumbers rest :=
  fun ds hds => h ds (.later hcut hds)

lemma Cut.length_le {t rest : Text} (h : Cut t rest) : rest.length ≤ t.length := by
  cases h with
  | quoted _ =>
    simp only [quotedBefore, List.length_cons, List.length_append]
    omega
  | bare _ _ _ => simp
  | _ => exact Nat.le_succ _

lemma HasNumber.length_le {t ds : Text} (h : HasNumber t ds) : ds.length ≤ t.length := by
  induction h with
  | here _ hs _ hds =>
    have hname := hs.length_le
    have hnumeral := hds.length_le
    rw [List.length_append]
    omega
  | later hcut _ ih => exact ih.trans hcut.length_le

/-- The numbers of a text that is itself short are short. -/
lemma shortNumbers_of_length {t : Text} (h : t.length ≤ Integer.digitLimit) : ShortNumbers t :=
  fun _ hds => hds.length_le.trans h

/-! ## What the grammar derives is read -/

namespace Reader

/-- Whether an open list takes items one after the other. -/
def Open.AdmitsAll (o : Open) (outer : List Open) : List Sexp → Prop
  | [] => True
  | v :: vs => o.Admits outer v ∧ (o.put v).AdmitsAll outer vs

/-- A reader that has read items one after the other. -/
def State.putAll (st : State) (vs : List Sexp) : State := vs.foldl State.put st

lemma Open.admits_of_not_isDot {o : Open} {outer : List Open} {v : Sexp} (h : v.isDot = false) :
    o.Admits outer v := by
  simp [Open.Admits, h]

lemma Open.admitsAll_of_not_isDot {o : Open} {outer : List Open} {vs : List Sexp}
    (h : ∀ v ∈ vs, v.isDot = false) : o.AdmitsAll outer vs := by
  induction vs generalizing o with
  | nil => trivial
  | cons v vs ih =>
    exact ⟨admits_of_not_isDot (h v (by simp)), ih fun w hw => h w (List.mem_cons_of_mem v hw)⟩

lemma State.putAll_outer {st : State} (vs : List Sexp) : (st.putAll vs).outer = st.outer := by
  induction vs generalizing st with
  | nil => rfl
  | cons v vs ih => exact ih

lemma State.putAll_position {st : State} (vs : List Sexp) :
    (st.putAll vs).position = st.position := by
  induction vs generalizing st with
  | nil => rfl
  | cons v vs ih => exact ih

lemma State.putAll_current {st : State} (vs : List Sexp) :
    (st.putAll vs).current =
      ⟨vs.reverse ++ st.current.items, st.current.dotted || vs.any Sexp.isDot⟩ := by
  induction vs generalizing st with
  | nil => simp [putAll]
  | cons v vs ih =>
    have hput : (st.putAll (v :: vs)).current = ((st.put v).putAll vs).current := rfl
    rw [hput, ih]
    simp [Open.put, Bool.or_assoc]

lemma State.putAll_lexeme {st : State} (h : st.lexeme = .between) (vs : List Sexp) :
    (st.putAll vs).lexeme = .between := by
  induction vs generalizing st with
  | nil => exact h
  | cons v vs ih => exact ih (State.put_lexeme v)

/-- The items between two brackets close to what they make together. -/
lemma close_of_bracketed {vs : List Sexp} {v : Sexp} (h : Bracketed vs v) :
    Open.close ⟨vs.reverse, vs.any Sexp.isDot⟩ = some v := by
  cases h with
  | list hvs =>
    have hany : vs.any Sexp.isDot = false := by simpa using hvs
    simp [Open.close, hany]
  | pair ha hd => simp [Open.close, dot, isDot]

/-- A list takes the items that make something together. -/
lemma admitsAll_of_bracketed {o : Open} {outer : List Open} {vs : List Sexp} {v : Sexp}
    (h : Bracketed vs v) : Open.AdmitsAll ⟨[], false⟩ (o :: outer) vs := by
  cases h with
  | list hvs => exact Open.admitsAll_of_not_isDot hvs
  | @pair a d ha hd =>
    refine ⟨Open.admits_of_not_isDot ha, fun _ => ⟨by simp, ?_, by simp [Open.put]⟩,
      Open.admits_of_not_isDot hd, trivial⟩
    simp [Open.put, ha]

end Reader

/-- Blanks are passed over. -/
lemma answer_blanks {b : Text} (hb : IsBlanks b) {st : State} (hst : st.lexeme = .between)
    {t : Text} (ht : ShortNumbers (b ++ t)) :
    st.answer (b ++ t) = (st.advance b.length).answer t ∧ ShortNumbers t := by
  induction b generalizing st with
  | nil => exact ⟨rfl, ht⟩
  | cons c b ih =>
    have hc := hb c (by simp)
    obtain ⟨hanswer, hshort⟩ := @ih (fun d hd => hb d (List.mem_cons_of_mem c hd))
      (st.advance 1) hst (ht.rest (.blank hc))
    refine ⟨?_, hshort⟩
    rw [List.cons_append, State.answer_blank hst hc, hanswer, State.advance_advance,
      List.length_cons, Nat.add_comm 1]

/-- The grammar's item is read, where the list takes it. -/
def ItemRead (t : Text) (v : Sexp) (rest : Text) : Prop :=
  ∀ st : State, st.lexeme = .between → ShortNumbers t → st.current.Admits st.outer v →
    ∃ n, st.answer t = ((st.advance n).put v).answer rest ∧ ShortNumbers rest

/-- The grammar's items are read, where the list takes them. -/
def ItemsRead (t : Text) (vs : List Sexp) (rest : Text) : Prop :=
  ∀ st : State, st.lexeme = .between → ShortNumbers t → st.current.AdmitsAll st.outer vs →
    ∃ n, st.answer t = ((st.advance n).putAll vs).answer rest ∧ ShortNumbers rest

lemma itemRead_bare {s name rest : Text} {v : Sexp} (hne : s ≠ []) (hs : Bare s name)
    (hmax : Maximal s rest) (hatom : Atom name v) : ItemRead (s ++ rest) v rest := by
  intro st hst hshort hadmits
  have hok : atom name = .ok v :=
    atom_eq_ok_iff.2 ⟨hatom, fun ds hds => hshort ds (.here hne hs hmax hds)⟩
  have hend : (st.advance s.length).endBare st.position name =
      .ok ((st.advance s.length).put v) := State.endBare_eq_ok_iff.2 ⟨v, hok, hadmits, rfl⟩
  refine ⟨s.length, ?_, hshort.rest (.bare hne hs hmax)⟩
  rw [State.answer_bare hst hs hne ((maximal_iff_stops hs).1 hmax), hend]
  rfl

lemma itemRead_verbatim {raw rest : Text} (hraw : Inside raw) (hno : ofChar '\\' ∉ raw) :
    ItemRead (quotedBefore raw rest) (.string raw) rest := by
  intro st hst hshort _
  refine ⟨raw.length + 2, ?_, hshort.rest (.quoted hraw)⟩
  have hcontains : raw.contains (ofChar '\\') = false := by simpa using hno
  rw [State.answer_quoted hst hraw, hcontains, State.endQuoted, if_neg (by simp), Except.bind,
    List.reverse_reverse, State.push_eq_put rfl]

lemma itemRead_literal {raw t rest : Text} (hraw : Inside raw) (hin : ofChar '\\' ∈ raw)
    (hspell : Spells raw t) : ItemRead (quotedBefore raw rest) (.string t) rest := by
  intro st hst hshort _
  refine ⟨raw.length + 2, ?_, hshort.rest (.quoted hraw)⟩
  have hcontains : raw.contains (ofChar '\\') = true := by simpa using hin
  rw [State.answer_quoted hst hraw, hcontains, State.endQuoted, if_pos rfl, List.reverse_reverse,
    (Json.decode_eq_ok_iff hraw).2 hspell, ← State.push_eq_put rfl]
  rfl

/-- What stands between two brackets is read as what its items make together. -/
lemma answer_bracketed {st : State} (hst : st.lexeme = .between) {t rest : Text} {vs : List Sexp}
    {v : Sexp} (hvs : Bracketed vs v) {n : Nat}
    (h : (st.advance 1).descend.answer t =
      (((st.advance 1).descend.advance n).putAll vs).answer (ofChar ')' :: rest)) :
    st.answer (ofChar '(' :: t) = ((st.advance (1 + n + 1)).put v).answer rest := by
  let inner := ((st.advance 1).descend.advance n).putAll vs
  have hlexeme : inner.lexeme = .between :=
    @State.putAll_lexeme ((st.advance 1).descend.advance n) hst vs
  have houter : inner.outer = st.current :: st.outer := State.putAll_outer vs
  have hcurrent : inner.current = ⟨vs.reverse, vs.any Sexp.isDot⟩ := by
    rw [State.putAll_current]
    simp
  have hposition : inner.position = st.position + 1 + n := State.putAll_position vs
  have hascend : (inner.advance 1).ascend st.current st.outer v =
      (st.advance (1 + n + 1)).put v := by
    simp [State.ascend, State.put, State.advance, hposition, Nat.add_assoc]
  have hclosing := State.answer_closing hlexeme rest
  rw [houter, hcurrent] at hclosing
  simp only [close_of_bracketed hvs] at hclosing
  rw [State.answer_opening hst, h, hclosing, hascend]

lemma itemRead_bracketed {t rest : Text} {vs : List Sexp} {v : Sexp} (hvs : Bracketed vs v)
    (ih : ItemsRead t vs (ofChar ')' :: rest)) : ItemRead (ofChar '(' :: t) v rest := by
  intro st hst hshort _
  obtain ⟨n, hanswer, hrest⟩ := ih (st.advance 1).descend hst (hshort.rest .opening)
    (admitsAll_of_bracketed hvs)
  exact ⟨1 + n + 1, answer_bracketed hst hvs hanswer, hrest.rest .closing⟩

lemma itemsRead_nil {b rest : Text} (hb : IsBlanks b) : ItemsRead (b ++ rest) [] rest :=
  fun _ hst hshort _ => ⟨b.length, answer_blanks hb hst hshort⟩

lemma itemsRead_cons {b t r rest : Text} {v : Sexp} {vs : List Sexp} (hb : IsBlanks b)
    (hitem : ItemRead t v r) (hitems : ItemsRead r vs rest) :
    ItemsRead (b ++ t) (v :: vs) rest := by
  intro st hst hshort hadmits
  obtain ⟨hblanks, hshort⟩ := answer_blanks hb hst hshort
  obtain ⟨m, hm, hshort⟩ := hitem (st.advance b.length) hst hshort hadmits.1
  obtain ⟨n, hn, hshort⟩ :=
    hitems (((st.advance b.length).advance m).put v) (State.put_lexeme v) hshort hadmits.2
  refine ⟨b.length + m + n, ?_, hshort⟩
  rw [hblanks, hm, hn, State.advance_advance, ← State.advance_advance (b.length + m)]
  rfl

lemma Item.read {t rest : Text} {v : Sexp} (h : Item t v rest) : ItemRead t v rest :=
  @Item.rec (fun t v rest _ => ItemRead t v rest) (fun t vs rest _ => ItemsRead t vs rest)
    itemRead_bare itemRead_verbatim itemRead_literal (fun _ hvs ih => itemRead_bracketed hvs ih)
    itemsRead_nil (fun hb _ _ ih ihs => itemsRead_cons hb ih ihs) t v rest h

/-- The reader answers what the grammar derives. -/
lemma read_of_derives {t : Text} {v : Sexp} (hshort : ShortNumbers t) (h : Derives t v) :
    read t = .ok v := by
  obtain ⟨before, item, after, rfl, hbefore, hitem, hafter, hdot⟩ := h
  have hst : State.initial.lexeme = .between := rfl
  obtain ⟨hblanks, hshort⟩ := answer_blanks hbefore hst hshort
  obtain ⟨n, hanswer, hshort⟩ :=
    hitem.read (State.initial.advance before.length) hst hshort (Open.admits_of_not_isDot hdot)
  let last := ((State.initial.advance before.length).advance n).put v
  rw [← List.append_nil after] at hanswer hshort
  obtain ⟨hend, -⟩ := @answer_blanks after hafter last (State.put_lexeme v) [] hshort
  calc read (before ++ item)
      = State.initial.answer (before ++ item) := rfl
    _ = last.answer (after ++ []) := hblanks.trans hanswer
    _ = (last.advance after.length).finish := hend
    _ = .ok v := State.finish_eq_of_between rfl

/-! ## What is read, the grammar derives -/

/-- What the open lists demand of the rest of a text for the whole text to mean `v`: the rest of
the innermost list closes it to a value, which the list around takes as its next item; and the
outermost list, which stands for the whole text, holds one item in the end. -/
def Completes (o : Open) : List Open → Text → Sexp → Prop
  | [], t, v => ∃ vs, Items t vs [] ∧ o.items.reverse ++ vs = [v] ∧ v.isDot = false
  | parent :: outer, t, v =>
    ∃ vs w r, Items t vs (ofChar ')' :: r) ∧ Bracketed (o.items.reverse ++ vs) w ∧
      Completes (parent.put w) outer r v

namespace Reader

/-- The items of an open list are well placed: a dot among them is the second item, and the list
is not the outermost one. -/
def Open.Placed (o : Open) (outer : List Open) : Prop :=
  (o.dotted = false ∧ ∀ v ∈ o.items, v.isDot = false) ∨
  (o.dotted = true ∧ outer ≠ [] ∧ ∃ a more, o.items.reverse = a :: dot :: more ∧
    a.isDot = false ∧ ∀ v ∈ more, v.isDot = false)

/-- The items of all open lists are well placed. -/
def AllPlaced (o : Open) : List Open → Prop
  | [] => o.Placed []
  | parent :: outer => o.Placed (parent :: outer) ∧ AllPlaced parent outer

lemma AllPlaced.placed {o : Open} {outer : List Open} (h : AllPlaced o outer) :
    o.Placed outer := by
  cases outer with
  | nil => exact h
  | cons _ _ => exact h.1

lemma Open.Placed.put {o : Open} {outer : List Open} {v : Sexp} (h : o.Placed outer)
    (hv : o.Admits outer v) : (o.put v).Placed outer := by
  by_cases hdot : v.isDot = true
  · obtain ⟨houter, hno, hlen⟩ := hv hdot
    obtain ⟨a, ha⟩ := List.length_eq_one_iff.1 hlen
    rcases h with ⟨-, hitems⟩ | ⟨hyes, -⟩
    · refine .inr ⟨by simp [Open.put, hdot], houter, a, [], ?_, hitems a (by simp [ha]), by simp⟩
      simp [Open.put, ha, isDot_iff.1 hdot]
    · simp [hno] at hyes
  · rw [Bool.not_eq_true] at hdot
    rcases h with ⟨hno, hitems⟩ | ⟨hyes, houter, a, more, heq, ha, hmore⟩
    · refine .inl ⟨by simp [Open.put, hno, hdot], fun w hw => ?_⟩
      rcases List.mem_cons.1 hw with rfl | hw
      · exact hdot
      · exact hitems w hw
    · refine .inr ⟨by simp [Open.put, hyes], houter, a, more ++ [v], ?_, ha, fun w hw => ?_⟩
      · simp [Open.put, heq]
      · rcases List.mem_append.1 hw with hw | hw
        · exact hmore w hw
        · rw [List.mem_singleton.1 hw]
          exact hdot

lemma AllPlaced.put {o : Open} {outer : List Open} {v : Sexp} (h : AllPlaced o outer)
    (hv : o.Admits outer v) : AllPlaced (o.put v) outer := by
  cases outer with
  | nil => exact Open.Placed.put h hv
  | cons _ _ => exact ⟨h.1.put hv, h.2⟩

/-- A list that closes closes to what its items make together. -/
lemma Open.Placed.bracketed {o : Open} {outer : List Open} {w : Sexp} (h : o.Placed outer)
    (hclose : o.close = some w) : Bracketed o.items.reverse w := by
  rw [Open.close] at hclose
  rcases h with ⟨hno, hitems⟩ | ⟨hyes, -, a, more, heq, ha, hmore⟩
  · rw [hno, if_neg (by simp)] at hclose
    cases hclose
    exact .list fun v hv => hitems v (List.mem_reverse.1 hv)
  · rw [hyes, if_pos rfl] at hclose
    split at hclose
    · next cdr second car hthree =>
      cases hclose
      rw [hthree] at heq ⊢
      simp only [List.reverse_cons, List.reverse_nil, List.nil_append, List.cons_append,
        List.cons.injEq] at heq ⊢
      obtain ⟨rfl, rfl, rfl⟩ := heq
      exact .pair ha (hmore cdr (by simp))
    · cases hclose

end Reader

lemma Items.blank {c : CodePoint} {r rest : Text} {vs : List Sexp} (hc : isBlank c = true)
    (h : Items r vs rest) : Items (c :: r) vs rest := by
  have hcons : ∀ {b : Text}, IsBlanks b → IsBlanks (c :: b) := by
    intro b hb d hd
    rcases List.mem_cons.1 hd with rfl | hd
    · exact hc
    · exact hb d hd
  cases h with
  | nil hb => exact .nil (hcons hb)
  | cons hb hitem hrest => exact .cons (hcons hb) hitem hrest

lemma Items.item {t r rest : Text} {w : Sexp} {vs : List Sexp} (hw : Item t w r)
    (h : Items r vs rest) : Items t (w :: vs) rest :=
  Items.cons (fun _ hc => absurd hc List.not_mem_nil) hw h

/-- A blank before the rest demands nothing more. -/
lemma Completes.blank {o : Open} {outer : List Open} {c : CodePoint} {r : Text} {v : Sexp}
    (hc : isBlank c = true) (h : Completes o outer r v) : Completes o outer (c :: r) v := by
  cases outer with
  | nil =>
    obtain ⟨vs, hvs, hv⟩ := h
    exact ⟨vs, hvs.blank hc, hv⟩
  | cons parent outer =>
    obtain ⟨vs, w, rest, hvs, hw⟩ := h
    exact ⟨vs, w, rest, hvs.blank hc, hw⟩

/-- An item before the rest is the next one of the innermost list. -/
lemma Completes.item {o : Open} {outer : List Open} {t r : Text} {w v : Sexp} (hw : Item t w r)
    (h : Completes (o.put w) outer r v) : Completes o outer t v := by
  have hitems : ∀ vs, (o.put w).items.reverse ++ vs = o.items.reverse ++ w :: vs := by
    simp [Open.put]
  cases outer with
  | nil =>
    obtain ⟨vs, hvs, hall, hdot⟩ := h
    exact ⟨w :: vs, hvs.item hw, hitems vs ▸ hall, hdot⟩
  | cons parent outer =>
    obtain ⟨vs, u, rest, hvs, hu, hrest⟩ := h
    exact ⟨w :: vs, u, rest, hvs.item hw, hitems vs ▸ hu, hrest⟩

/-- What a string gives when it ends is what the grammar says. -/
lemma item_of_endQuoted {st st' : State} {start : Nat} {raw : Text} (hraw : Inside raw)
    (rest : Text) (h : st.endQuoted start raw.reverse (raw.contains (ofChar '\\')) = .ok st') :
    ∃ t, st' = st.put (.string t) ∧ Item (quotedBefore raw rest) (.string t) rest := by
  rw [State.endQuoted, List.reverse_reverse] at h
  by_cases hin : ofChar '\\' ∈ raw
  · rw [if_pos (by simpa using hin)] at h
    split at h
    · next t ht =>
      cases h
      exact ⟨t, State.push_eq_put rfl, .literal hraw hin ((Json.decode_eq_ok_iff hraw).1 ht)⟩
    · cases h
  · rw [if_neg (by simpa using hin)] at h
    cases h
    exact ⟨raw, State.push_eq_put rfl, .verbatim hraw hin⟩

/-- What a reader between two lexemes answers, the open lists demand. -/
lemma completes_of_answer (t : Text) {st : State} (hst : st.lexeme = .between)
    (hplaced : AllPlaced st.current st.outer) {v : Sexp} (h : st.answer t = .ok v) :
    Completes st.current st.outer t v := by
  induction t using lexeme_induction generalizing st with
  | nil =>
    rw [State.answer_nil, State.finish_eq_of_between hst] at h
    split at h
    · cases h
    · next houter =>
      have hnil : st.outer = [] := by simpa using houter
      split at h
      · cases h
      · next w hone =>
        cases h
        have hdot : v.isDot = false := by
          rcases hplaced.placed with ⟨-, hitems⟩ | ⟨-, hbad, -⟩
          · exact hitems v (by simp [hone])
          · exact absurd hnil hbad
        rw [hnil]
        exact ⟨[], .nil fun _ hc => absurd hc List.not_mem_nil, by simp [hone], hdot⟩
      · cases h
  | blank c r hc ih =>
    rw [State.answer_blank hst hc] at h
    exact (@ih (st.advance 1) hst hplaced h).blank hc
  | opening r ih =>
    rw [State.answer_opening hst] at h
    obtain ⟨vs, w, rest, hvs, hw, hrest⟩ :=
      @ih (st.advance 1).descend hst ⟨.inl ⟨rfl, by simp⟩, hplaced⟩ h
    exact .item (.bracketed hvs hw) hrest
  | closing r ih =>
    rw [State.answer_closing hst] at h
    cases houter : st.outer with
    | nil =>
      rw [houter] at h
      cases h
    | cons parent outer =>
      rw [houter] at h hplaced
      simp only at h
      cases hclose : st.current.close with
      | none =>
        rw [hclose] at h
        cases h
      | some w =>
        rw [hclose] at h
        have hw : parent.Admits outer w :=
          Open.admits_of_not_isDot (State.not_isDot_of_close hclose)
        have hrest := @ih ((st.advance 1).ascend parent outer w) rfl (hplaced.2.put hw) h
        refine ⟨[], w, r, .nil fun _ hc => absurd hc List.not_mem_nil, ?_, hrest⟩
        rw [List.append_nil]
        exact hplaced.1.bracketed hclose
  | quoted raw rest hraw ih =>
    rw [State.answer_quoted hst hraw] at h
    obtain ⟨st', hend, hrest⟩ := Result.bind_eq_ok_iff.1 h
    obtain ⟨t, rfl, hitem⟩ := item_of_endQuoted hraw rest hend
    exact .item hitem (ih rfl (hplaced.put (Open.admits_of_not_isDot rfl)) hrest)
  | unterminated raw hraw =>
    rw [State.answer_unterminated hst hraw] at h
    cases h
  | cutOff raw hraw =>
    rw [State.answer_cutOff hst hraw] at h
    cases h
  | bare s name rest hs hne hstop ih =>
    rw [State.answer_bare hst hs hne hstop] at h
    obtain ⟨st', hend, hrest⟩ := Result.bind_eq_ok_iff.1 h
    obtain ⟨w, hatom, hadmits, rfl⟩ := State.endBare_eq_ok_iff.1 hend
    have hitem : Item (s ++ rest) w rest :=
      .bare hne hs ((maximal_iff_stops hs).2 hstop) (atom_eq_ok_iff.1 hatom).1
    exact .item hitem (ih rfl (hplaced.put hadmits) hrest)

/-- The grammar derives what the reader answers. -/
lemma derives_of_read {t : Text} {v : Sexp} (h : read t = .ok v) : Derives t v := by
  obtain ⟨vs, hvs, hall, hdot⟩ :=
    @completes_of_answer t State.initial rfl
      (.inl ⟨rfl, fun _ hv => absurd hv List.not_mem_nil⟩) v h
  rw [show State.initial.current.items.reverse ++ vs = vs from rfl] at hall
  subst hall
  cases hvs with
  | @cons b t r _ _ _ hb hitem hafter =>
    cases hafter with
    | @nil b' _ hb' =>
      rw [List.append_nil] at hitem
      exact ⟨b, t, b', rfl, hb, hitem, hb', hdot⟩

/-! ## What is not read is malformed -/

/-- Where the numbers are short, whatever is not read is malformed. -/
lemma malformed_of_answer (t : Text) {st : State} (hst : st.lexeme = .between)
    (hshort : ShortNumbers t) {e : ReadError} (h : st.answer t = .error e) :
    ∃ m, e = .malformed m := by
  induction t using lexeme_induction generalizing st with
  | nil =>
    rw [State.answer_nil, State.finish_eq_of_between hst] at h
    split at h
    · cases h
      exact ⟨_, rfl⟩
    · split at h <;> cases h <;> exact ⟨_, rfl⟩
  | blank c r hc ih =>
    rw [State.answer_blank hst hc] at h
    exact @ih (st.advance 1) hst (hshort.rest (.blank hc)) h
  | opening r ih =>
    rw [State.answer_opening hst] at h
    exact @ih (st.advance 1).descend hst (hshort.rest .opening) h
  | closing r ih =>
    rw [State.answer_closing hst] at h
    split at h
    · cases h
      exact ⟨_, rfl⟩
    · split at h
      · cases h
        exact ⟨_, rfl⟩
      · exact ih rfl (hshort.rest .closing) h
  | quoted raw rest hraw ih =>
    rw [State.answer_quoted hst hraw] at h
    rcases Result.bind_eq_error_iff.1 h with hend | ⟨st', hend, hrest⟩
    · rw [State.endQuoted] at hend
      split at hend
      · split at hend
        · cases hend
        · cases hend
          exact ⟨_, rfl⟩
      · cases hend
    · obtain ⟨t, rfl, -⟩ := item_of_endQuoted hraw rest hend
      exact ih rfl (hshort.rest (.quoted hraw)) hrest
  | unterminated raw hraw =>
    rw [State.answer_unterminated hst hraw] at h
    cases h
    exact ⟨_, rfl⟩
  | cutOff raw hraw =>
    rw [State.answer_cutOff hst hraw] at h
    cases h
    exact ⟨_, rfl⟩
  | bare s name rest hs hne hstop ih =>
    have hmax := (maximal_iff_stops hs).2 hstop
    rw [State.answer_bare hst hs hne hstop] at h
    rcases Result.bind_eq_error_iff.1 h with hend | ⟨st', hend, hrest⟩
    · rcases State.endBare_eq_error hend with ⟨-, rfl⟩ | hatom
      · exact ⟨_, rfl⟩
      · obtain ⟨ds, hds, hlong, -⟩ := atom_eq_error_iff.1 hatom
        exact absurd (hshort ds (.here hne hs hmax hds)) (by omega)
    · obtain ⟨w, -, -, rfl⟩ := State.endBare_eq_ok_iff.1 hend
      exact ih rfl (hshort.rest (.bare hne hs hmax)) hrest

/-- **Reading follows the grammar.**  On a text whose numbers are short, reading gives exactly the
values that the grammar derives, and where it derives none the text is reported as malformed. -/
theorem read_eq_ok_iff_derives (t : Text) (hshort : ShortNumbers t) :
    (∀ v, read t = .ok v ↔ Derives t v) ∧
      ((¬∃ v, Derives t v) → ∃ m, read t = .error (.malformed m)) := by
  refine ⟨fun v => ⟨derives_of_read, read_of_derives hshort⟩, fun hnone => ?_⟩
  cases h : read t with
  | ok v => exact absurd ⟨v, derives_of_read h⟩ hnone
  | error e =>
    obtain ⟨m, rfl⟩ := @malformed_of_answer t State.initial rfl hshort e h
    exact ⟨m, rfl⟩

/-- A pair of a name that holds an escaped blank and a negative number, and the same text with the
dot in the last place. -/
theorem derives_escaped_pair :
    ShortNumbers "(a\\ b . -12)" ∧
      Derives "(a\\ b . -12)" (.cons (.symbol "a b") (.int (-12))) ∧
      ShortNumbers "(a\\ b -12 .)" ∧ ¬∃ v, Derives "(a\\ b -12 .)" v := by
  have hpair : ShortNumbers "(a\\ b . -12)" := shortNumbers_of_length (by decide)
  have hlast : ShortNumbers "(a\\ b -12 .)" := shortNumbers_of_length (by decide)
  refine ⟨hpair, ((read_eq_ok_iff_derives _ hpair).1 _).1 rfl, hlast, ?_⟩
  rintro ⟨v, hv⟩
  exact nomatch ((read_eq_ok_iff_derives _ hlast).1 v).2 hv

end SuggestBridge.Sexp
