import SuggestBridge.Proofs.Peer.Moves
import Mathlib.Algebra.Order.BigOperators.Group.List

/-!
# An exchange comes to rest

When nothing happens from outside any more, only finitely many jobs are left: a call that is to
begin takes at most three turns, one that waits for the write buffer two, one that waits for its
reply one, and the listener reads all that is there in one turn (`Orderly.remaining_lt`).  So every
state of a run leads, by jobs alone, to one where no job is left (`Orderly.exists_rest`).

`Delivers` is the part of a run in which nothing but bytes arrives.
-/

namespace SuggestBridge.Exchange

open Peer (History)
open SuggestBridge.Task (Outcome Progress)
open SuggestBridge.Task.Kernel (Turn)

variable {x y z : Exchange} {h h' : History} {t : Task.Id} {a : Task.Activity Routine}

/-! ## The turns that are left -/

/-- A bound on the turns that a call takes until it has ended. -/
def turnsOf : Routine → Nat
  | .call _ _ => 3
  | .calling (.draining _ _) => 2
  | .calling (.awaiting _ _) => 1
  | .listen => 0

/-- A bound on the turns that the call of a task takes until it has ended. -/
def turnsLeft (x : Exchange) (t : Task.Id) : Nat :=
  (((x.kernel.activity? t).bind (·.body)).map turnsOf).getD 0

/-- Whether the listener is to have a turn. -/
def reading (x : Exchange) : Bool :=
  (x.connection.listener.bind x.kernel.activity?).any fun a => a.waitingFor.all x.kernel.isDone

/-- A bound on the jobs that are left to do when nothing happens from outside.  A call counts twice,
since the turn in which it ends leaves the listener as it was. -/
def remaining (x : Exchange) : Nat := 2 * (x.callers.map x.turnsLeft).sum + x.reading.toNat

lemma turnsLeft_of_activity {b : Routine} (ha : x.kernel.activity? t = some a)
    (hb : a.body = some b) : x.turnsLeft t = turnsOf b := by
  rw [turnsLeft, ha, Option.bind_some, hb]
  rfl

lemma turnsLeft_of_none (ha : x.kernel.activity? t = none) : x.turnsLeft t = 0 := by
  rw [turnsLeft, ha]
  rfl

/-- After its turn a call has fewer turns left. -/
lemma turnsLeft_lt {made : Nat} {os : List (Task.Id × Outcome Sexp Failure)}
    {progress : Progress Routine Sexp Failure} (turn : Turn x.kernel y.kernel t made os progress)
    {b : Routine} (ha : x.kernel.activity? t = some a) (hb : a.body = some b)
    (hlt : ∀ r g, progress = .waits r g → turnsOf r < turnsOf b) (hpos : 0 < turnsOf b) :
    y.turnsLeft t < x.turnsLeft t := by
  rw [turnsLeft_of_activity ha hb]
  cases progress with
  | ends o => rwa [turnsLeft_of_none (turn.ended o rfl).1]
  | waits r g =>
    obtain ⟨-, c, hc, hr, -⟩ := turn.waits r g rfl
    rw [turnsLeft_of_activity hc hr]
    exact hlt r g rfl

/-- The turn of a call. -/
lemma remaining_lt_of_caller {made : Nat} {os : List (Task.Id × Outcome Sexp Failure)}
    {progress : Progress Routine Sexp Failure} (turn : Turn x.kernel y.kernel t made os progress)
    (hcaller : t ∈ x.callers) (calls : y.calls = x.calls)
    (hlt : y.turnsLeft t < x.turnsLeft t) : y.remaining < x.remaining := by
  have hcallers : y.callers = x.callers := by rw [callers, calls]; rfl
  have hle : ∀ u ∈ x.callers, y.turnsLeft u ≤ x.turnsLeft u := by
    intro u _
    by_cases hut : u = t
    · exact hut ▸ Nat.le_of_lt hlt
    · rw [turnsLeft, turn.other u hut]
      exact Nat.le_refl _
  have hsum := List.sum_lt_sum y.turnsLeft x.turnsLeft hle ⟨t, hcaller, hlt⟩
  have hreading : y.reading.toNat ≤ 1 := Bool.toNat_le _
  rw [remaining, remaining, hcallers]
  omega

/-- The turn of the listener. -/
lemma remaining_lt_of_listener {made : Nat} {os : List (Task.Id × Outcome Sexp Failure)}
    {progress : Progress Routine Sexp Failure} (turn : Turn x.kernel y.kernel t made os progress)
    (ha : x.kernel.activity? t = some a) (hl : x.connection.listener = some t)
    (hnot : t ∉ x.callers) (calls : y.calls = x.calls)
    (same : y.connection.listener = x.connection.listener)
    (before : a.waitingFor.all x.kernel.isDone = true)
    (after : ∀ b, y.kernel.activity? t = some b → b.waitingFor.all y.kernel.isDone = false) :
    y.remaining < x.remaining := by
  have hcallers : y.callers = x.callers := by rw [callers, calls]; rfl
  have hsum : x.callers.map y.turnsLeft = x.callers.map x.turnsLeft := by
    refine List.map_congr_left fun u hu => ?_
    rw [turnsLeft, turn.other u (ne_of_mem_of_not_mem hu hnot)]
    rfl
  have hx : x.reading = true := by
    rw [reading, hl, Option.bind_some, ha]
    exact before
  have hy : y.reading = false := by
    rw [reading, same, hl, Option.bind_some]
    cases hb : y.kernel.activity? t with
    | none => rfl
    | some b => exact after b hb
  rw [remaining, remaining, hcallers, hsum, hx, hy]
  exact Nat.lt_succ_self _

/-- Whatever the next job does, fewer jobs are left. -/
lemma Orderly.remaining_lt (hx : Orderly x h) {limit : Float} (hwork : Work x limit y) :
    y.remaining < x.remaining := by
  have hlistener : ∀ {t}, x.connection.listener = some t → t ∉ x.callers :=
    fun hl hmem => not_mem_callers hx hmem hl
  have htold : ∀ {a : Task.Activity Routine},
      (∀ w, a.waitingFor = some w → ∃ o, x.kernel.outcome? w = some o) →
      a.waitingFor.all x.kernel.isDone = true := by
    intro a htold
    cases hw : a.waitingFor with
    | none => rfl
    | some w =>
      obtain ⟨o, ho⟩ := htold w hw
      exact Task.Kernel.isDone_eq_true_iff.2 ⟨o, ho⟩
  cases hwork with
  | @cancelled t a b ha hb hidle hasked turn hissue hconnection hcalls =>
    have hplaced := hx.placed ha hb
    cases b with
    | call method args =>
      exact remaining_lt_of_caller turn hplaced.2.1 hcalls
        (turnsLeft_lt turn ha hb nofun (by decide : 0 < 3))
    | calling state =>
      -- a call that goes on waits for a future
      cases state with
      | awaiting uid future => simp [hplaced.1] at hidle
      | draining uid future =>
        obtain ⟨⟨d, hd, -⟩, -⟩ := hplaced
        simp [hd] at hidle
    | listen =>
      refine remaining_lt_of_listener turn ha hplaced.1 (hlistener hplaced.1) hcalls
        (by rw [hconnection]) (by rw [hidle]; rfl) fun b hb => ?_
      simp [(turn.ended _ rfl).1] at hb
  | @call t a method args d es progress closes ha hb begun turn hissue hconnection hcalls =>
    refine remaining_lt_of_caller turn (hx.placed ha hb).2.1 hcalls
      (turnsLeft_lt turn ha hb (fun r g hprogress => ?_) (by decide : 0 < 3))
    cases progress with
    | ends o => cases hprogress
    | waits state g =>
      cases hprogress
      cases state with
      | draining uid future => exact (by decide : 2 < 3)
      | awaiting uid future => exact (by decide : 1 < 3)
  | @answered t a uid future o ha hb ho turn hissue hconnection hcalls =>
    obtain ⟨-, ⟨i, hi, htask, -⟩, -⟩ := hx.placed ha hb
    exact remaining_lt_of_caller turn (htask ▸ hx.makers i hi) hcalls
      (turnsLeft_lt turn ha hb nofun (by decide : 0 < 1))
  | @drained t a uid future d es progress closes ha hb told went turn hissue hconnection hcalls =>
    obtain ⟨-, ⟨i, hi, htask, -⟩, -⟩ := hx.placed ha hb
    refine remaining_lt_of_caller turn (htask ▸ hx.makers i hi) hcalls
      (turnsLeft_lt turn ha hb (fun r g hprogress => ?_) (by decide : 0 < 2))
    cases went with
    | awaits hes =>
      cases hprogress
      exact (by decide : 1 < 2)
    | drains hes hd => cases hd
    | leaves hes ho => cases hprogress
    | breaks handled => cases hprogress
  | @late t a uid future o closes ha hb told ho turn hissue hconnection hcalls =>
    obtain ⟨-, ⟨i, hi, htask, -⟩, -⟩ := hx.placed ha hb
    exact remaining_lt_of_caller turn (htask ▸ hx.makers i hi) hcalls
      (turnsLeft_lt turn ha hb nofun (by decide : 0 < 2))
  | @listens t a bytes done rejection d es closes ha hb listened told turn hissue hconnection
      hcalls =>
    have hl := (hx.placed ha hb).1
    refine remaining_lt_of_listener turn ha hl (hlistener hl) hcalls
      (by rw [hconnection, listened.same]) (htold told) fun b hb => ?_
    obtain ⟨-, c, hc, -, hw, -⟩ := turn.waits _ _ rfl
    cases hc.symm.trans hb
    rw [hw]
    exact Task.Kernel.isDone_eq_false_iff.2 (hx.waits_for_bytes ha listened turn)
  | @closes t a bytes done rejection d es cause closes ha hb listened told why turn hissue
      hconnection hcalls =>
    have hl := (hx.placed ha hb).1
    refine remaining_lt_of_listener turn ha hl (hlistener hl) hcalls
      (by rw [hconnection, listened.same]) (htold told) fun b hb => ?_
    simp [(turn.ended _ rfl).1] at hb

/-! ## Deliveries -/

/-- What can come of a state when bytes arrive and nothing else happens from outside. -/
inductive Delivers (x : Exchange) (h : History) : Bytes → Exchange → History → Prop
  | refl : Delivers x h [] x h
  | data {bytes y h'} (chunk : Bytes) : Delivers x h bytes y h' →
    Delivers x h (bytes ++ chunk) (y.data chunk) h'
  | elapse {bytes y h'} (now : Float) : Delivers x h bytes y h' →
    Delivers x h bytes (y.occur (.elapse now)) h'
  | work {bytes y z h'} (limit : Float) : Delivers x h bytes y h' → y.step? limit = some z →
    Delivers x h bytes z (note h' y limit z)

variable {bytes : Bytes}

lemma Delivers.leads (hd : Delivers x h bytes y h') : Leads x h y h' := by
  induction hd with
  | refl => exact .refl
  | data chunk _ ih => exact .occur (.data chunk) ih
  | elapse now _ ih => exact .occur (.elapse now) ih
  | work limit _ hstep ih => exact .work limit ih hstep

/-- One delivery after the other. -/
lemma Delivers.trans {more : Bytes} {h'' : History} (hd : Delivers x h bytes y h')
    (hmore : Delivers y h' more z h'') : Delivers x h (bytes ++ more) z h'' := by
  induction hmore with
  | refl => rwa [List.append_nil]
  | data chunk _ ih =>
    rw [← List.append_assoc]
    exact .data chunk ih
  | elapse now _ ih => exact .elapse now ih
  | work limit _ hstep ih => exact .work limit ih hstep

/-- A job that is left can be done. -/
lemma Orderly.exists_step (hx : Orderly x h) (hready : x.kernel.ready ≠ []) (limit : Float) :
    ∃ y, x.step? limit = some y := by
  obtain ⟨n, hnext⟩ := Task.Kernel.next?_eq hx.tasksOnly.timers limit
  cases hjobs : x.kernel.ready with
  | nil => exact absurd hjobs hready
  | cons job rest =>
    rw [hjobs] at hnext
    rw [step?, hnext]
    dsimp only
    split
    · exact ⟨_, rfl⟩
    · exact ⟨_, rfl⟩
    · exact ⟨_, rfl⟩
    · next k _ _ => exact k.elim

/-- However far an exchange has come, it comes to rest when nothing else happens from outside. -/
theorem Orderly.exists_rest (hx : Orderly x h) :
    ∃ y h', Delivers x h [] y h' ∧ y.kernel.ready = [] := by
  induction hn : x.remaining using Nat.strongRecOn generalizing x h with
  | ind n ih =>
    by_cases hready : x.kernel.ready = []
    · exact ⟨x, h, .refl, hready⟩
    · obtain ⟨y, hstep⟩ := hx.exists_step hready 0
      have hwork := work_of_step? hx hstep
      obtain ⟨hy, -⟩ := hx.work hwork
      obtain ⟨z, h', hrest, hnone⟩ := ih _ (hn ▸ hx.remaining_lt hwork) hy rfl
      exact ⟨z, h', (Delivers.work 0 .refl hstep).trans hrest, hnone⟩

end SuggestBridge.Exchange
