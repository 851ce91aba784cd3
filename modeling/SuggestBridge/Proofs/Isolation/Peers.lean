import SuggestBridge.Proofs.Isolation.Daemons
import SuggestBridge.Proofs.Peer.Outward
import SuggestBridge.Proofs.Peer.Regard

/-!
# Peers of a project

What the peer of a project makes happen is about the project alone, and so is what becomes of a
session when its peer closes.
-/

namespace SuggestBridge.Supervisor

open SuggestBridge.Task

variable {k : Text} {o : Owners} {s t : Supervisor} {n port : Nat}

/-! ## Connections -/

namespace Owners

variable {c d : Connection Nat} {es : List (Peer.Effect Nat)}

/-- An operation that begins no call stays among what is the project's. -/
lemma HasConnection.within (h : o.HasConnection k c)
    (hwithin : Connection.Within (fun f => o.of (.future f) = some k) c d es)
    (hconfines : c.peer.Confines d.peer es) :
    o.HasConnection k d ∧ ∀ e ∈ es, o.Has k (effectParts e) := by
  refine ⟨⟨hwithin.awaits, fun n hn => ?_, ⟨fun w hw => ?_⟩, fun u hu => ?_⟩, fun e he => ?_⟩
  · exact h.callbacks n (hconfines n (.inl hn))
  · exact h.incoming.waiter w (hwithin.waiter ▸ hw)
  · exact h.listener u (hwithin.listener ▸ hu)
  · cases e with
    | settle f r => exact has_cons.2 ⟨hwithin.settles f r he, has_nil⟩
    | callback n => exact has_cons.2 ⟨h.callbacks n (hconfines n (.inr he)), has_nil⟩
    | _ => exact has_nil

lemma HasConnection.close (h : o.HasConnection k c) (isDone : Id → Bool) (cause : Option Text) :
    o.HasConnection k (c.withPeer (c.peer.close isDone cause)).1 ∧
      ∀ e ∈ (c.withPeer (c.peer.close isDone cause)).2, o.Has k (effectParts e) :=
  h.within (.withPeer (h.awaits.close isDone cause) (Peer.shrinks_close _ _ _))
    (Peer.outward_close c.peer isDone cause).confines

/-- A session of the project is to be called back. -/
lemma HasConnection.addCallback (h : o.HasConnection k c) (hn : o.of (.session n) = some k) :
    o.HasConnection k (c.withPeer (c.peer.addCallback n)).1 ∧
      ∀ e ∈ (c.withPeer (c.peer.addCallback n)).2, o.Has k (effectParts e) := by
  unfold Connection.withPeer Peer.addCallback
  split
  · refine ⟨⟨h.awaits, h.callbacks, h.incoming, h.listener⟩, fun e he => ?_⟩
    cases List.mem_singleton.1 he
    exact has_cons.2 ⟨hn, has_nil⟩
  · refine ⟨⟨h.awaits, fun m hm => ?_, h.incoming, h.listener⟩, fun e he => ?_⟩
    · rcases List.mem_append.1 hm with hm | hm
      · exact h.callbacks m hm
      · exact List.mem_singleton.1 hm ▸ hn
    · exact absurd he List.not_mem_nil

end Owners

/-- The slot of the project is emptied. -/
lemma Parallel.erase : Parallel k o s t { s with slots := s.slots.erase k }
    { t with slots := t.slots.erase k } := by
  refine .single (.slots (fun hkey => Slots.get?_erase_of_ne _ hkey) ?_ fun {u} hu => ?_)
  · rw [Slots.get?_erase_self, Slots.get?_erase_self]
  · cases (Slots.get?_erase_self s.slots k).symm.trans hu

namespace Joint

variable (h : Joint k o s t)
include h

/-- Both kernels say the same of the futures that a connection keeps. -/
lemma awaits {c : Connection Nat} (hc : o.HasConnection k c) :
    c.peer.Awaits fun f => t.kernel.isDone f = s.kernel.isDone f :=
  fun call hcall => h.machine.isDone (hc.awaits call hcall)

/-! ## Sessions -/

lemma sessionOf? {u : Id} (hu : o.of (.future u) = some k) : t.sessionOf? u = s.sessionOf? u := by
  rw [Supervisor.sessionOf?, h.machine.outcome? hu, Supervisor.sessionOf?]

lemma of_sessionOf? {u : Id} (hu : o.of (.future u) = some k) (hn : s.sessionOf? u = some n) :
    o.of (.session n) = some k := by
  unfold Supervisor.sessionOf? at hn
  split at hn
  · next m hout =>
    cases hn
    exact (Owners.has_cons.1 (h.machine.has_outcome hu hout)).1
  · cases hn

lemma evict (hn : o.of (.session n) = some k) : Parallel k o s t (s.evict n) (t.evict n) := by
  unfold Supervisor.evict
  rw [h.alike.sessions hn]
  cases hx : s.opened[n]? with
  | none => exact .refl
  | some x =>
    have hkey := (h.owned.sessions hn hx).key
    dsimp only
    rw [hkey, h.alike.slot]
    cases hu : s.slots.get? k with
    | none => exact .refl
    | some u =>
      have hown := h.owned.slots hu
      dsimp only
      rw [h.sessionOf? hown]
      split
      · exact .erase
      · exact .refl

lemma onPeerClosed (hn : o.of (.session n) = some k) :
    Parallel k o s t (s.onPeerClosed n) (t.onPeerClosed n) := by
  unfold Supervisor.onPeerClosed
  rw [h.alike.sessions hn]
  cases hx : s.opened[n]? with
  | none => exact .refl
  | some x =>
    have hpid := (h.owned.sessions hn hx).process
    refine (h.evict hn).andThen h fun hg h => ?_
    replace hpid := hg.old hpid
    dsimp only
    rw [h.isRunning hpid]
    split
    · exact .refl
    · generalize Text.ofString "EPC connection to nimsuggest for " ++ _ ++ _ = line
      refine (Parallel.report [Log.info line]).andThen h fun hg h => ?_
      obtain ⟨o', s', t', fault, hs', ht', hacts, -⟩ := (h.kill (hg.old hpid)).split h
      rw [hs', ht']
      refine hacts.andThen ?_
      cases fault with
      | none => exact .refl
      | some f => exact .report _

/-! ## Effects -/

lemma apply (hn : o.of (.link n) = some k) {e : Peer.Effect Nat} (he : o.Has k (effectParts e)) :
    Parallel k o s t (apply n s e) (apply n t e) := by
  cases e with
  | send frame => exact h.transmit hn frame
  | settle future result =>
    refine .kernel (h.machine.settle (Owners.has_cons.1 he).1 ?_)
    cases result <;> exact Owners.has_nil
  | log line => exact .report [line]
  | closeConnection =>
    exact .single (.link hn fun l hl => ⟨hl.process, hl.connection.awaits, hl.connection.callbacks,
      hl.connection.incoming, hl.connection.listener⟩)
  | callback m => exact h.onPeerClosed (Owners.has_cons.1 he).1

omit h in
lemma applyEach (h : Joint k o s t) (hn : o.of (.link n) = some k) {es : List (Peer.Effect Nat)}
    (hes : ∀ e ∈ es, o.Has k (effectParts e)) :
    Parallel k o s t (es.foldl (Supervisor.apply n) s) (es.foldl (Supervisor.apply n) t) := by
  induction es generalizing s t o with
  | nil => exact .refl
  | cons e es ih =>
    refine (h.apply hn (hes e List.mem_cons_self)).andThen h fun hg h => ?_
    exact ih h (hg.old hn) fun e' he' => hg.has (hes e' (List.mem_cons_of_mem _ he'))

lemma applyAll (hn : o.of (.link n) = some k) {c : Connection Nat} (hc : o.HasConnection k c)
    {es : List (Peer.Effect Nat)} (hes : ∀ e ∈ es, o.Has k (effectParts e)) :
    Parallel k o s t (s.applyAll n c es) (t.applyAll n c es) := by
  refine (Parallel.single (.link (f := fun l => { l with connection := c }) hn fun l hl =>
    ⟨hl.process, hc⟩)).andThen h fun hg h => ?_
  exact h.applyEach (hg.old hn) fun e he => hg.has (hes e he)

lemma stopPeer (hn : o.of (.link n) = some k) : Parallel k o s t (s.stopPeer n) (t.stopPeer n) := by
  unfold Supervisor.stopPeer
  rw [h.alike.links hn]
  cases hl : s.links[n]? with
  | none => exact .refl
  | some l =>
    have hc := (h.owned.links hn hl).connection
    dsimp only
    split
    · exact .refl
    have hstop : ∀ {o' : Owners} {K L : Machine}, Owners.Grows k o o' →
        MachineActs k ⟨o, s.kernel, t.kernel⟩ ⟨o', K, L⟩ →
        Parallel k o s t
          ({ s with kernel := K }.applyAll n
            (l.connection.withPeer (l.connection.peer.close K.isDone none)).1
            (l.connection.withPeer (l.connection.peer.close K.isDone none)).2)
          ({ t with kernel := L }.applyAll n
            (l.connection.withPeer (l.connection.peer.close L.isDone none)).1
            (l.connection.withPeer (l.connection.peer.close L.isDone none)).2) := by
      intro o' K L hg hacts
      replace hc := hg.hasConnection hc
      have hclose := hc.close K.isDone none
      refine (Acts.single (.kernel hacts)).andThen ?_
      replace h := (Acts.single (.kernel hacts)).joint h
      rw [Peer.close_congr (h.awaits hc)]
      exact h.applyAll (hg.old hn) hclose.1 hclose.2
    cases hlistener : l.connection.listener with
    | none => exact hstop .refl .refl
    | some task => exact hstop .refl (h.machine.cancel (hc.listener task hlistener)).1

end Joint

end SuggestBridge.Supervisor
