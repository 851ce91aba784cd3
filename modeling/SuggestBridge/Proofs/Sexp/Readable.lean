import SuggestBridge.Sexp.Display
import SuggestBridge.Proofs.Sexp.Grammar

/-!
# What reading can give

A value that was read holds no truth values, tuples or objects without a written form, and its
integers are within the limit on digits (`readable_of_read`).  So it can be shown in a message
(`Readable.exists_shown`).
-/

namespace SuggestBridge.Sexp

open Reader

/-- The values that reading gives. -/
inductive Readable : Sexp → Prop
  | nil : Readable .nil
  | int {n : Int} : n.natAbs < Nat.pow 10 Integer.digitLimit → Readable (.int n)
  | string (t : Text) : Readable (.string t)
  | symbol (name : Text) : Readable (.symbol name)
  | list {vs : List Sexp} : (∀ v ∈ vs, Readable v) → Readable (.list vs)
  | cons {a d : Sexp} : Readable a → Readable d → Readable (.cons a d)

/-! ## What is read is readable -/

lemma decimal_lt {ds : Text} (h : IsDigits ds) {k : Nat} (hk : ds.length ≤ k) :
    decimal ds < Nat.pow 10 k := by
  have hdigit : ∀ d ∈ ds.reverse.map fun c => c.val - 0x30, d < 10 := by
    intro d hd
    obtain ⟨c, hc, rfl⟩ := List.mem_map.1 hd
    have := h.2 c (List.mem_reverse.1 hc)
    omega
  have hlt := Nat.ofDigits_lt_base_pow_length (by decide) hdigit
  rw [List.length_map, List.length_reverse] at hlt
  exact Nat.lt_of_lt_of_le hlt (Nat.pow_le_pow_right (by decide) hk)

lemma readable_of_atom {name : Text} {v : Sexp} (h : atom name = .ok v) : Readable v := by
  obtain ⟨hatom, hshort⟩ := atom_eq_ok_iff.1 h
  cases hatom with
  | natural hds => exact .int (decimal_lt hds (hshort _ ⟨.inl rfl, hds⟩))
  | @negative ds hds =>
    refine .int ?_
    rw [Int.natAbs_neg]
    exact decimal_lt hds (hshort ds ⟨.inr rfl, hds⟩)
  | nil => exact .nil
  | symbol _ _ => exact .symbol name

/-- The items of the open lists are readable. -/
def Reader.State.AllReadable (st : State) : Prop :=
  ∀ o ∈ st.current :: st.outer, ∀ v ∈ o.items, Readable v

lemma Reader.State.AllReadable.put {st : State} {v : Sexp} (h : st.AllReadable) (hv : Readable v) :
    (st.put v).AllReadable := by
  intro o ho w hw
  rcases List.mem_cons.1 ho with rfl | ho
  · rcases List.mem_cons.1 hw with rfl | hw
    · exact hv
    · exact h _ (by simp) w hw
  · exact h o (List.mem_cons_of_mem _ ho) w hw

lemma readable_of_close {o : Open} {v : Sexp} (h : o.close = some v)
    (hitems : ∀ w ∈ o.items, Readable w) : Readable v := by
  rw [Open.close] at h
  split at h
  · split at h
    · next cdr mid car hlist =>
      cases h
      exact .cons (hitems car (by simp [hlist])) (hitems cdr (by simp [hlist]))
    · cases h
  · cases h
    exact .list fun w hw => hitems w (List.mem_reverse.1 hw)

lemma readable_of_answer (t : Text) {st : State} (hst : st.lexeme = .between)
    (hitems : st.AllReadable) {v : Sexp} (h : st.answer t = .ok v) : Readable v := by
  induction t using lexeme_induction generalizing st with
  | nil =>
    rw [State.answer_nil, State.finish_eq_of_between hst] at h
    split at h
    · cases h
    · split at h
      · cases h
      · next w hone =>
        cases h
        exact hitems st.current (by simp) v (by simp [hone])
      · cases h
  | blank c r hc ih =>
    rw [State.answer_blank hst hc] at h
    exact @ih (st.advance 1) hst hitems h
  | opening r ih =>
    rw [State.answer_opening hst] at h
    refine @ih (st.advance 1).descend hst ?_ h
    intro o ho w hw
    rcases List.mem_cons.1 ho with rfl | ho
    · exact absurd hw List.not_mem_nil
    · exact hitems o ho w hw
  | closing r ih =>
    rw [State.answer_closing hst] at h
    cases houter : st.outer with
    | nil =>
      rw [houter] at h
      cases h
    | cons parent outer =>
      rw [houter] at h
      simp only at h
      cases hclose : st.current.close with
      | none =>
        rw [hclose] at h
        cases h
      | some w =>
        rw [hclose] at h
        have hw := readable_of_close hclose (hitems st.current (by simp))
        refine @ih ((st.advance 1).ascend parent outer w) rfl ?_ h
        intro o ho u hu
        rcases List.mem_cons.1 ho with rfl | ho
        · rcases List.mem_cons.1 hu with rfl | hu
          · exact hw
          · exact hitems parent (by simp [houter]) u hu
        · exact hitems o (by rw [houter]; exact .tail _ (.tail _ ho)) u hu
  | quoted raw rest hraw ih =>
    rw [State.answer_quoted hst hraw] at h
    obtain ⟨st', hend, hrest⟩ := Result.bind_eq_ok_iff.1 h
    obtain ⟨t, rfl, -⟩ := item_of_endQuoted hraw rest hend
    exact @ih ((st.advance (raw.length + 2)).put (.string t)) rfl
      (State.AllReadable.put hitems (.string t)) hrest
  | unterminated raw hraw =>
    rw [State.answer_unterminated hst hraw] at h
    cases h
  | cutOff raw hraw =>
    rw [State.answer_cutOff hst hraw] at h
    cases h
  | bare s name rest hs hne hstop ih =>
    rw [State.answer_bare hst hs hne hstop] at h
    obtain ⟨st', hend, hrest⟩ := Result.bind_eq_ok_iff.1 h
    obtain ⟨w, hatom, -, rfl⟩ := State.endBare_eq_ok_iff.1 hend
    exact @ih ((st.advance s.length).put w) rfl
      (State.AllReadable.put hitems (readable_of_atom hatom)) hrest

lemma readable_of_read {t : Text} {v : Sexp} (h : read t = .ok v) : Readable v :=
  @readable_of_answer t State.initial rfl
    (fun o ho w hw => by cases List.mem_singleton.1 ho; exact absurd hw List.not_mem_nil) v h

/-! ## What is readable can be shown -/

lemma Integer.write_eq_ok {n : Int} (h : n.natAbs < Nat.pow 10 Integer.digitLimit) :
    Integer.write n = .ok (Text.ofInt n) := by
  rw [Integer.write, if_pos h]

lemma exists_shownAll {vs : List Sexp} (h : ∀ v ∈ vs, ∃ s, shown v = .ok s) :
    ∃ ss, shownAll vs = .ok ss := by
  induction vs with
  | nil => exact ⟨[], rfl⟩
  | cons v vs ih =>
    obtain ⟨s, hs⟩ := h v (by simp)
    obtain ⟨ss, hss⟩ := ih fun w hw => h w (List.mem_cons_of_mem v hw)
    exact ⟨s :: ss, by rw [shownAll, hs, hss]; rfl⟩

lemma Readable.exists_shown {v : Sexp} (h : Readable v) : ∃ s, shown v = .ok s := by
  induction h with
  | nil => exact ⟨_, rfl⟩
  | int h => exact ⟨_, by rw [shown, Integer.write_eq_ok h]⟩
  | string t => exact ⟨_, rfl⟩
  | symbol name => exact ⟨_, rfl⟩
  | list _ ih =>
    obtain ⟨ss, hss⟩ := exists_shownAll ih
    exact ⟨_, by rw [shown, hss]; rfl⟩
  | cons _ _ iha ihd =>
    obtain ⟨a, ha⟩ := iha
    obtain ⟨d, hd⟩ := ihd
    exact ⟨_, by rw [shown, ha, hd]; rfl⟩

end SuggestBridge.Sexp
