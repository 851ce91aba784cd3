import SuggestBridge.Proofs.Task.Kernel

/-!
# How far a request to cancel is passed on

A request to cancel a future is passed on along two kinds of edges: from a task to the future that
it waits for, and from a group to its members.  `Entered` names the futures that a request has come
to so far, and `cancelWithin_steps` takes a whole request apart into its single steps: a task that
waits passes it on, another task keeps it for its next step, and a future that is no task is
cancelled.
-/

namespace SuggestBridge.Task.Kernel

variable {ρ κ ν ε : Type} {k k' : Kernel ρ κ ν ε} {t x root : Id} {a : Activity ρ}

/-! ## Single steps -/

/-- Counts a request to cancel a task. -/
def ask (k : Kernel ρ κ ν ε) (t : Id) (a : Activity ρ) : Kernel ρ κ ν ε :=
  k.update t fun f => { f with activity := some { a with cancelRequests := a.cancelRequests + 1 } }

/-- A task keeps a request to cancel for its next step. -/
def keep (k : Kernel ρ κ ν ε) (t : Id) : Kernel ρ κ ν ε :=
  k.update t fun f => { f with activity := f.activity.map fun a => { a with mustCancel := true } }

/-- A group keeps in mind that a request was passed on to a member. -/
def markAsked (k : Kernel ρ κ ν ε) (g : Id) : Kernel ρ κ ν ε :=
  k.update g fun f => { f with cancelAsked := true }

/-- Whoever has kept a request to cancel for its next step still has it. -/
structure Firm (k k' : Kernel ρ κ ν ε) : Prop where
  must : ∀ {t a}, k.activity? t = some a → a.mustCancel = true →
    ∃ b, k'.activity? t = some b ∧ b.mustCancel = true

lemma Firm.of_lt (h : ∀ {x}, x < k.futures.size → k'.activity? x = k.activity? x) : Firm k k' :=
  ⟨fun ha hmust => ⟨_, (h (lt_size_of_activity? ha)).trans ha, hmust⟩⟩

lemma Firm.of_activity (h : ∀ x, k'.activity? x = k.activity? x) : Firm k k' := .of_lt fun _ => h _

lemma Firm.trans {k'' : Kernel ρ κ ν ε} (h : Firm k k') (h' : Firm k' k'') : Firm k k'' :=
  ⟨fun ha hmust => by
    obtain ⟨b, hb, hmust'⟩ := h.must ha hmust
    exact h'.must hb hmust'⟩

/-- The tasks wait for what they waited for, and a request to cancel is not taken back. -/
structure Urges (k k' : Kernel ρ κ ν ε) : Prop where
  activity : ∀ {t a}, k.activity? t = some a → ∃ b, k'.activity? t = some b ∧
    b.waitingFor = a.waitingFor ∧ (a.cancelRequests ≠ 0 → b.cancelRequests ≠ 0)
  firm : Firm k k'
  members : ∀ g, k'.members g = k.members g

/-- The futures that a request to cancel comes to. -/
def Entered (k : Kernel ρ κ ν ε) (root x : Id) : Prop :=
  x = root ∨
    (∃ t a, k.activity? t = some a ∧ a.waitingFor = some x ∧ a.cancelRequests ≠ 0) ∨
    ∃ g, x ∈ k.members g

namespace Urges

lemma refl (k : Kernel ρ κ ν ε) : Urges k k :=
  ⟨fun ha => ⟨_, ha, rfl, id⟩, .of_activity fun _ => rfl, fun _ => rfl⟩

lemma trans {k'' : Kernel ρ κ ν ε} (h : Urges k k') (h' : Urges k' k'') : Urges k k'' where
  activity ha := by
    obtain ⟨b, hb, hwaiting, hasked⟩ := h.activity ha
    obtain ⟨c, hc, hwaiting', hasked'⟩ := h'.activity hb
    exact ⟨c, hc, hwaiting'.trans hwaiting, hasked' ∘ hasked⟩
  firm := h.firm.trans h'.firm
  members g := (h'.members g).trans (h.members g)

lemma entered (h : Urges k k') (hx : k.Entered root x) : k'.Entered root x := by
  rcases hx with hx | ⟨t, a, ha, hwaiting, hasked⟩ | ⟨g, hg⟩
  · exact .inl hx
  · obtain ⟨b, hb, hwaiting', hasked'⟩ := h.activity ha
    exact .inr (.inl ⟨t, b, hb, hwaiting'.trans hwaiting, hasked' hasked⟩)
  · exact .inr (.inr ⟨g, by rwa [h.members g]⟩)

lemma settle {o : Outcome ν ε} (hplain : k.activity? x = none) : Urges k (k.settle x o) where
  activity ha := ⟨_, by rw [activity?_settle_of_plain hplain, ha], rfl, id⟩
  firm := .of_activity fun _ => activity?_settle_of_plain hplain
  members _ := members_settle

end Urges

/-! ## The steps one by one -/

lemma activity?_ask_self (ha : k.activity? t = some a) :
    (k.ask t a).activity? t = some { a with cancelRequests := a.cancelRequests + 1 } := by
  obtain ⟨F, hF, -⟩ := Option.bind_eq_some_iff.1 ha
  exact activity?_update_self hF

lemma activity?_ask_of_ne (h : x ≠ t) : (k.ask t a).activity? x = k.activity? x :=
  activity?_update_of_ne h

lemma activity?_keep_self (ha : k.activity? t = some a) :
    (k.keep t).activity? t = some { a with mustCancel := true } := activity?_update_map ha

lemma activity?_keep_of_ne (h : x ≠ t) : (k.keep t).activity? x = k.activity? x :=
  activity?_update_of_ne h

lemma activity?_markAsked : (k.markAsked t).activity? x = k.activity? x :=
  activity?_update fun _ => rfl

lemma isNote_markAsked (k : Kernel ρ κ ν ε) (g : Id) :
    IsNote k g fun f => { f with cancelAsked := true } :=
  fun _ _ => ⟨rfl, rfl, rfl, id, fun a ha => ⟨a, ha, rfl, rfl⟩⟩

lemma Urges.ask (ha : k.activity? t = some a) : Urges k (k.ask t a) where
  activity {u b} hb := by
    by_cases hu : u = t
    · subst hu
      rw [ha] at hb
      cases hb
      exact ⟨_, activity?_ask_self ha, rfl, fun _ => Nat.succ_ne_zero _⟩
    · exact ⟨b, by rw [activity?_ask_of_ne hu, hb], rfl, id⟩
  firm := by
    refine ⟨fun {u b} hb hmust => ?_⟩
    by_cases hu : u = t
    · subst hu
      cases ha.symm.trans hb
      exact ⟨_, activity?_ask_self ha, hmust⟩
    · exact ⟨b, by rw [activity?_ask_of_ne hu, hb], hmust⟩
  members _ := members_note (isNote_ask ha)

lemma Urges.keep (k : Kernel ρ κ ν ε) (t : Id) : Urges k (k.keep t) where
  activity {u b} hb := by
    by_cases hu : u = t
    · subst hu
      exact ⟨_, activity?_keep_self hb, rfl, id⟩
    · exact ⟨b, by rw [activity?_keep_of_ne hu, hb], rfl, id⟩
  firm := by
    refine ⟨fun {u b} hb hmust => ?_⟩
    by_cases hu : u = t
    · subst hu
      exact ⟨_, activity?_keep_self hb, rfl⟩
    · exact ⟨b, by rw [activity?_keep_of_ne hu, hb], hmust⟩
  members _ := members_note (isNote_keep k t)

lemma Urges.markAsked (k : Kernel ρ κ ν ε) (g : Id) : Urges k (k.markAsked g) where
  activity hb := ⟨_, by rw [activity?_markAsked, hb], rfl, id⟩
  firm := .of_activity fun _ => activity?_markAsked
  members _ := members_note (isNote_markAsked k g)

/-! ## A whole request -/

section Steps

variable {P : Kernel ρ κ ν ε → Prop}

/-- What every step of a request to cancel keeps, the request keeps.  The futures that the request
comes to are known at every step. -/
theorem cancelWithin_steps
    (settle : ∀ {k x}, P k → k.activity? x = none → k.Entered root x → P (k.settle x .cancelled))
    (pass : ∀ {k t a}, P k → k.activity? t = some a → a.waitingFor ≠ none → k.Entered root t →
      P (k.ask t a))
    (hold : ∀ {k t a}, P k → k.activity? t = some a → a.waitingFor = none → k.Entered root t →
      P ((k.ask t a).keep t))
    (keep : ∀ {k t a}, P k → k.activity? t = some a → a.cancelRequests ≠ 0 → k.Entered root t →
      P (k.keep t))
    (mark : ∀ {k g}, P k → P (k.markAsked g)) (fuel : Nat) (hx : k.Entered root x) (h : P k) :
    P (k.cancelWithin fuel x).1 ∧ Urges k (k.cancelWithin fuel x).1 := by
  induction fuel generalizing k x with
  | zero => exact ⟨h, .refl k⟩
  | succ fuel ih =>
    rw [cancelWithin]
    split
    · exact ⟨h, .refl k⟩
    · next F hF =>
      split
      · exact ⟨h, .refl k⟩
      · split
        · next a ha =>
          have hact : k.activity? x = some a := by rw [activity?, hF]; exact ha
          have hurges : Urges k (k.ask x a) := .ask hact
          split
          · next hidle => exact ⟨hold h hact hidle hx, hurges.trans (.keep _ x)⟩
          · next target htarget =>
            have hself := activity?_ask_self hact
            have htargeted : (k.ask x a).Entered root target :=
              .inr (.inl ⟨x, _, hself, htarget, Nat.succ_ne_zero _⟩)
            obtain ⟨hpassed, hurges'⟩ :=
              ih htargeted (pass h hact (by simp [htarget]) hx)
            have hboth := hurges.trans hurges'
            obtain ⟨b, hb, -, hasked⟩ := hurges'.activity hself
            dsimp only
            split
            · exact ⟨hpassed, hboth⟩
            · exact ⟨keep hpassed hb (hasked (Nat.succ_ne_zero _)) (hboth.entered hx),
                hboth.trans (.keep _ x)⟩
        · next hnone =>
          have hplain : k.activity? x = none := by rw [activity?, hF]; exact hnone
          split
          · exact ⟨settle h hplain hx, .settle hplain⟩
          · -- the members of a group are asked one after the other
            have hmembers : ∀ (ms : List Id) (k' : Kernel ρ κ ν ε) (asked : Bool), P k' →
                Urges k k' → (∀ m ∈ ms, m ∈ k.members x) →
                P (ms.foldl (fun r m =>
                  ((cancelWithin r.1 fuel m).1, r.2 || (cancelWithin r.1 fuel m).2)) (k', asked)).1 ∧
                Urges k (ms.foldl (fun r m =>
                  ((cancelWithin r.1 fuel m).1, r.2 || (cancelWithin r.1 fuel m).2))
                  (k', asked)).1 := by
              intro ms
              induction ms with
              | nil => exact fun k' asked hP hurges _ => ⟨hP, hurges⟩
              | cons m ms ihms =>
                intro k' asked hP hurges hms
                obtain ⟨hm, hms⟩ := List.forall_mem_cons.1 hms
                have hentered : k'.Entered root m :=
                  .inr (.inr ⟨x, by rw [hurges.members x]; exact hm⟩)
                obtain ⟨hP', hurges'⟩ := ih hentered hP
                exact ihms _ _ hP' (hurges.trans hurges') hms
            obtain ⟨hP, hurges⟩ := hmembers F.members k false h (.refl k) fun m hm => by
              rw [members, hF]
              exact hm
            dsimp only at hP hurges ⊢
            split
            · exact ⟨mark hP, hurges.trans (.markAsked _ x)⟩
            · exact ⟨hP, hurges⟩

end Steps

lemma Urges.cancel (k : Kernel ρ κ ν ε) (root : Id) : Urges k (k.cancel root).1 :=
  (cancelWithin_steps (P := fun _ => True) (fun _ _ _ => trivial) (fun _ _ _ _ => trivial)
    (fun _ _ _ _ => trivial) (fun _ _ _ _ => trivial) (fun _ => trivial) _ (.inl rfl) trivial).2

@[simp] lemma size_cancel (k : Kernel ρ κ ν ε) (root : Id) :
    (k.cancel root).1.futures.size = k.futures.size :=
  cancelWithin_induction (P := fun k' => k'.futures.size = k.futures.size)
    (fun _ _ _ h => size_settle.trans h) (fun _ _ _ _ h => size_update.trans h) _ rfl

/-- A task that is asked to cancel has been asked. -/
lemma asked_of_cancel (ha : k.activity? t = some a) (hnone : k.outcome? t = none) :
    ∃ b, (k.cancel t).1.activity? t = some b ∧ b.cancelRequests ≠ 0 := by
  have hself := activity?_ask_self ha
  obtain ⟨F, hF, hact⟩ := Option.bind_eq_some_iff.1 ha
  have hopen : ¬F.outcome.isSome = true := by
    rw [outcome?, hF] at hnone
    simp [show F.outcome = none from hnone]
  have asked : ∀ {k'}, Urges (k.ask t a) k' →
      ∃ b, k'.activity? t = some b ∧ b.cancelRequests ≠ 0 := fun h => by
    obtain ⟨b, hb, -, hasked⟩ := h.activity hself
    exact ⟨b, hb, hasked (Nat.succ_ne_zero _)⟩
  rw [cancel, cancelWithin, hF]
  dsimp only
  rw [if_neg hopen, hact]
  dsimp only
  split
  · exact asked (.keep _ t)
  · next target htarget =>
    have hpassed : Urges (k.ask t a) ((k.ask t a).cancelWithin k.futures.size target).1 :=
      (cancelWithin_steps (P := fun _ => True) (fun _ _ _ => trivial) (fun _ _ _ _ => trivial)
        (fun _ _ _ _ => trivial) (fun _ _ _ _ => trivial) (fun _ => trivial) _ (.inl rfl) trivial).2
    split
    · exact asked hpassed
    · exact asked (hpassed.trans (.keep _ t))

end SuggestBridge.Task.Kernel
