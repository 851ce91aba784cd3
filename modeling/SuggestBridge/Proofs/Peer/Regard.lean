import SuggestBridge.Proofs.Peer.Futures

/-!
# What a peer looks at

A peer is told which futures are settled.  It looks at those that its own calls wait for, and at no
others: with two judgments that agree on these, it does the same.
-/

namespace SuggestBridge

namespace Peer

variable {κ : Type} {p : Peer κ} {d d' : Task.Id → Bool}

lemma rejectAll_congr (h : p.Awaits fun f => d' f = d f) (e : Failure) :
    p.rejectAll d' e = p.rejectAll d e := by
  unfold rejectAll
  congr 1
  exact List.filterMap_congr fun c hc => by rw [h c hc]

lemma close_congr (h : p.Awaits fun f => d' f = d f) (cause : Option Text) :
    p.close d' cause = p.close d cause := by
  have hreject := rejectAll_congr (p := { p with closed := true }) h (.closed closedMessage)
  unfold close
  rw [hreject]

lemma reply_congr (h : p.Awaits fun f => d' f = d f) (now : Float) (kind : Text)
    (uid value : Sexp) : p.reply d' now kind uid value = p.reply d now kind uid value := by
  unfold reply
  split
  · rfl
  · next call hcall =>
    obtain ⟨n, -, hfind⟩ := Option.bind_eq_some_iff.1 hcall
    rw [h call (List.mem_of_find?_eq_some hfind)]

lemma dispatch_congr (h : p.Awaits fun f => d' f = d f) (now : Float) (fault : Option Fault)
    (payload : Text) : p.dispatch d' now fault payload = p.dispatch d now fault payload := by
  unfold dispatch
  simp only [rejectAll_congr h, reply_congr h]

lemma dispatchAll_congr (h : p.Awaits fun f => d' f = d f) (now : Float) (fault : Option Fault)
    (payloads : List Text) :
    p.dispatchAll d' now fault payloads = p.dispatchAll d now fault payloads := by
  induction payloads generalizing p with
  | nil => rfl
  | cons payload payloads ih =>
    have hnext := (h.dispatch d now fault payload).1
    rw [dispatchAll, dispatchAll, dispatch_congr h]
    split
    · next q es hq =>
      rw [hq] at hnext
      rw [ih hnext]
    · rfl

lemma receive_congr (h : p.Awaits fun f => d' f = d f) (now : Float) (fault : Option Fault)
    (data : Bytes) : p.receive d' now fault data = p.receive d now fault data := by
  have hfed : Awaits (fun f => d' f = d f) { p with buffer := (Frame.feed p.buffer data).buffer } :=
    h
  unfold receive
  simp only [dispatchAll_congr hfed, rejectAll_congr hfed]

end Peer

namespace Connection

variable {κ : Type} {c : Connection κ} {d d' : Task.Id → Bool}

lemma failSending_congr (h : c.peer.Awaits fun f => d' f = d f) (uid : Nat) (f : Fault) :
    c.failSending d' uid f = c.failSending d uid f := by
  unfold failSending
  rw [Peer.close_congr (h.forget uid)]

lemma beginCall_congr (h : c.peer.Awaits fun f => d' f = d f) (now : Float)
    {future : Task.Id} (hfuture : d' future = d future) (drained : Task.Id) (method : Text)
    (args : List Sexp) :
    c.beginCall d' now future drained method args = c.beginCall d now future drained method args := by
  have hissue := Peer.Awaits.issue h now hfuture method args
  unfold beginCall
  split
  · rfl
  · next p uid frame hp =>
    rw [hp] at hissue
    simp only [failSending_congr (c := { c with peer := p }) hissue]

lemma resumeCall_congr (h : c.peer.Awaits fun f => d' f = d f) (state : CallState)
    (input : Task.Outcome Sexp Failure) :
    c.resumeCall d' state input = c.resumeCall d state input := by
  unfold resumeCall
  simp only [failSending_congr h]

lemma absorb_congr (h : c.peer.Awaits fun f => d' f = d f) (now : Float) (fuel : Nat) :
    c.absorb d' now fuel = c.absorb d now fuel := by
  induction fuel generalizing c with
  | zero => rfl
  | succ fuel ih =>
    have hreceive := (h.receive d now (c.refusalFault.or c.writeFault)
      (c.incoming.take chunkSize).1).1
    rw [absorb, absorb]
    dsimp only at hreceive ⊢
    rw [Peer.receive_congr h]
    split
    · rfl
    · split
      · rfl
      · next p es hp =>
        rw [hp] at hreceive
        rw [ih (c := { c with peer := p, incoming := (c.incoming.take chunkSize).2 }) hreceive]

lemma endListening_congr {r : Connection κ × List (Peer.Effect κ) × Pause}
    (h : r.1.peer.Awaits fun f => d' f = d f) : endListening d' r = endListening d r := by
  obtain ⟨c, es, pause⟩ := r
  cases pause with
  | blocked => rfl
  | ended cause =>
    unfold endListening
    dsimp only
    rw [Peer.close_congr h]

lemma beginListening_congr (h : c.peer.Awaits fun f => d' f = d f) (now : Float) :
    c.beginListening d' now = c.beginListening d now := by
  unfold beginListening
  rw [absorb_congr h]
  refine endListening_congr ?_
  split
  · exact h
  · exact h
  · exact (within_absorb h d now _).awaits

lemma resumeListening_congr {ν : Type} (h : c.peer.Awaits fun f => d' f = d f) (now : Float)
    (input : Task.Outcome ν Failure) :
    c.resumeListening d' now input = c.resumeListening d now input := by
  unfold resumeListening
  rw [absorb_congr h]
  refine endListening_congr ?_
  split
  · exact (within_absorb h d now _).awaits
  · exact h
  · exact h

end Connection

end SuggestBridge
