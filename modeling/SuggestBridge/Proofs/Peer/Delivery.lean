import SuggestBridge.Proofs.Peer.Attention
import SuggestBridge.Proofs.Peer.Rest

/-!
# Replies that are delivered to calls that wait

Where nothing that has happened takes the connection down (`Sound`), and from then on nothing
happens from outside but that reply frames arrive, cut into any chunks and at any time (`Delivers`),
the peer stays open, and nothing but replies settles the calls that wait: each is settled by the
first verdict on its number, if there is one (`Delivers.future`), and its caller is told so
(`Delivers.task_awaiting`).
-/

namespace SuggestBridge.Exchange

open SuggestBridge.Frame (Whole bytesOf)
open Peer (History Issue firstVerdict)
open SuggestBridge.Task (Outcome)

variable {x y z : Exchange} {h h' : History} {bytes : Bytes} {ws : List Whole}

/-! ## Connections that stay up -/

/-- Nothing that has happened takes the connection down: the stream is not over, no call that is to
begin will find a fault of the connection, and none that waits for the write buffer is told of
one. -/
structure Sound (x : Exchange) : Prop where
  opened : x.connection.peer.closed = false
  stream : x.connection.incoming.ended = false ∧ x.connection.incoming.failure = none
  writes : ∀ t a method args, x.kernel.activity? t = some a → a.body = some (.call method args) →
    ∀ f : Fault, x.connection.writeFault = some f ∨ x.connection.drainFault = some f →
      f.isSystem = false
  told : ∀ t a uid future g f, x.kernel.activity? t = some a →
    a.body = some (.calling (.draining uid future)) → a.waitingFor = some g →
    x.kernel.outcome? g = some (.failure (.fault f)) → f.isSystem = false

/-- The peer is open, and no job is left. -/
structure Quiet (x : Exchange) : Prop where
  ready : x.kernel.ready = []
  opened : x.connection.peer.closed = false

/-- When no job is left, every task waits for what is open. -/
lemma Orderly.waits (hx : Orderly x h) (hready : x.kernel.ready = []) {t : Task.Id}
    {a : Task.Activity Routine} (ha : x.kernel.activity? t = some a) :
    ∃ g, a.waitingFor = some g ∧ x.kernel.outcome? g = none := by
  cases hg : a.waitingFor with
  | none =>
    have hscheduled := hx.waking.scheduled ha hg (by simp)
    simp [hready] at hscheduled
  | some g =>
    have hawaited := hx.waking.awaited ha hg
    rw [hready, or_iff_left List.not_mem_nil] at hawaited
    exact ⟨g, rfl, (hx.waking.watching hawaited).1.2⟩

lemma readiness_eq_blocked_iff {s : Task.Stream Failure} :
    s.readiness = .blocked ↔ s.buffer = [] ∧ s.ended = false ∧ s.failure = none := by
  obtain ⟨buffer, ended, failure, waiter⟩ := s
  cases failure <;> cases buffer <;> cases ended <;> simp [Task.Stream.readiness]

/-- The listener of an open peer. -/
lemma Orderly.exists_listener (hx : Orderly x h) (hopen : x.connection.peer.closed = false) :
    ∃ l a, x.kernel.activity? l = some a ∧ a.body = some .listen := by
  obtain ⟨l, -, -, ⟨a, ha, hb⟩ | ⟨hclosed, -⟩⟩ := hx.listener
  · exact ⟨l, a, ha, hb⟩
  · simp [hopen] at hclosed

/-- An open peer has received what it has read. -/
lemma Orderly.drained (hx : Orderly x h) (hopen : x.connection.peer.closed = false) :
    Frame.drain h.read = ⟨.ok h.received, x.connection.peer.buffer⟩ := by
  obtain ⟨l, a, ha, hb⟩ := hx.exists_listener hopen
  exact (hx.placed ha hb).2.2.1

/-- When no job is left, an open peer has read all that has arrived. -/
lemma Orderly.stream (hx : Orderly x h) (hready : x.kernel.ready = [])
    (hopen : x.connection.peer.closed = false) :
    x.connection.incoming.buffer = [] ∧ x.connection.incoming.ended = false ∧
      x.connection.incoming.failure = none := by
  obtain ⟨l, a, ha, hb⟩ := hx.exists_listener hopen
  obtain ⟨w, hw, hnone⟩ := hx.waits hready ha
  obtain ⟨-, -, -, hwaits⟩ := hx.placed ha hb
  exact readiness_eq_blocked_iff.1 ((hwaits w hw).2 hnone).2

/-- When no job is left, nobody is about to find a fault. -/
lemma Quiet.sound (hq : x.Quiet) (hx : Orderly x h) : Sound x where
  opened := hq.opened
  stream := (hx.stream hq.ready hq.opened).2
  writes t a method args ha hb := by
    obtain ⟨g, hg, -⟩ := hx.waits hq.ready ha
    simp [(hx.placed ha hb).1] at hg
  told t a uid future g f ha hb hg ho := by
    obtain ⟨g', hg', hnone⟩ := hx.waits hq.ready ha
    cases hg.symm.trans hg'
    simp [hnone] at ho

lemma Quiet.attentive (hq : x.Quiet) (hx : Orderly x h) : x.Attentive := by
  intro t a w o ha hb hw ho
  obtain ⟨g, hg, hnone⟩ := hx.waits hq.ready ha
  cases hw.symm.trans hg
  simp [hnone] at ho

/-- A job that leaves the peer open leaves the connection up. -/
lemma Sound.work (hs : x.Sound) (hx : Orderly x h) {limit : Float} (hwork : Work x limit y)
    (hopen : y.connection.peer.closed = false) : y.Sound := by
  obtain ⟨u, b, made, os, progress, m⟩ := hx.moves hwork
  refine ⟨hopen, by rw [m.stream.1, m.stream.2]; exact hs.stream, ?_, ?_⟩
  · intro t a method args ha hb
    rw [m.faults.1, m.faults.2]
    refine hs.writes t a method args ?_ hb
    by_cases hne : t = u
    · -- who has had its turn has begun
      subst hne
      cases hprogress : progress with
      | ends o => simp [(m.turn.ended o hprogress).1] at ha
      | waits r g =>
        obtain ⟨-, c, hc, hbody, -⟩ := m.turn.waits r g hprogress
        cases hc.symm.trans ha
        cases hbody.symm.trans hb
        rcases m.waits _ _ hprogress with ⟨_, _, heq⟩ | ⟨heq | ⟨_, _, heq⟩, -⟩ <;> cases heq
    · rw [← m.turn.other t hne, ha]
  · intro t a uid future g f ha hb hg ho
    obtain ⟨-, hxa⟩ := m.other_of_settled ha hb hg ho nofun
    obtain ⟨⟨d, hd, hspare, -⟩, -⟩ := hx.placed hxa hb
    cases hd.symm.trans hg
    exact hs.told t a uid future g f hxa hb hg (m.outcome_spare hspare ▸ ho)

/-- A job closes a sound peer only if its listener finds the connection over. -/
lemma Sound.opened_work (hs : x.Sound) {limit : Float} (hwork : Work x limit y)
    (hlistens : ∀ l a bytes, x.kernel.activity? l = some a → a.body = some .listen →
      x.connection.incoming.buffer = bytes ++ y.connection.incoming.buffer →
      (∀ w, a.waitingFor = some w → ∃ o, x.kernel.outcome? w = some o) →
      ¬(a.mustCancel = true ∨
        (∃ w o, a.waitingFor = some w ∧ x.kernel.outcome? w = some o ∧ ∀ v, o ≠ .value v) ∨
        x.connection.Over bytes ∧
          (a.waitingFor = none → x.connection.incoming.readiness ≠ .blocked))) :
    y.connection.peer.closed = false := by
  have hkept : ∀ {d : Connection NamedCallback} {closes : Nat},
      y.connection = { d with closes } →
      (d.peer.closed ≠ x.connection.peer.closed → False) → y.connection.peer.closed = false := by
    intro d closes hconnection hfault
    rw [hconnection, ← hs.opened]
    exact not_not.1 hfault
  cases hwork with
  | cancelled ha hb hidle hasked turn hissue hconnection => rw [hconnection, hs.opened]
  | answered ha hb ho turn hissue hconnection => rw [hconnection]; exact hs.opened
  | late ha hb told ho turn hissue hconnection => rw [hconnection]; exact hs.opened
  | call ha hb begun turn hissue hconnection hcalls hfault =>
    refine hkept hconnection fun hne => ?_
    obtain ⟨f, hf, hsystem⟩ := hfault hne
    simp [hs.writes _ _ _ _ ha hb f hf] at hsystem
  | drained ha hb told went turn hissue hconnection hcalls hfault =>
    refine hkept hconnection fun hne => ?_
    obtain ⟨g, f, hg, hf, hsystem⟩ := hfault hne
    simp [hs.told _ _ _ _ g f ha hb hg hf] at hsystem
  | listens ha hb listened told turn hissue hconnection =>
    rw [hconnection, (listened.blocked rfl).2.1, hs.opened]
  | closes ha hb listened told why turn hissue hconnection =>
    exact absurd why (hlistens _ _ _ ha hb (by rw [hconnection]; exact listened.read) told)

/-! ## Calls that wait -/

/-- A call that waits has the future of no other call. -/
lemma Orderly.future_of_pending (hx : Orderly x h) {c : PendingCall}
    (hc : c ∈ x.connection.peer.pending) {t future : Task.Id} (hmakes : x.Makes h t c.uid future) :
    c.future = future := by
  obtain ⟨⟨i, hi, -, huid, rfl⟩, -⟩ := hmakes
  obtain ⟨j, hj, huid', hfuture, -⟩ := hx.ledger.entries c hc
  cases hx.ledger.uid_inj hi hj (huid.trans huid'.symm)
  exact hfuture.symm

/-- While the peer stays open, a call waits until it is settled. -/
lemma Orderly.kept_work (hx : Orderly x h) {limit : Float} (hwork : Work x limit y)
    (hopen : y.connection.peer.closed = false) {c : PendingCall}
    (hc : c ∈ x.connection.peer.pending) (hnone : y.kernel.outcome? c.future = none) :
    c ∈ y.connection.peer.pending := by
  have hforget : ∀ {t future : Task.Id} {uid : Nat} {o : Outcome Sexp Failure},
      x.Makes h t uid future → x.kernel.outcome? future = some o →
      c ∈ (x.connection.peer.forget uid).pending := by
    intro t future uid o hmakes ho
    refine List.mem_filter.2 ⟨hc, ?_⟩
    by_contra huid
    have huid : c.uid = uid := by simpa using huid
    subst huid
    obtain ⟨-, _, hlater⟩ := hx.work hwork
    have hsettled := hlater.outcome ho
    rw [← hx.future_of_pending hc hmakes, hnone] at hsettled
    cases hsettled
  cases hwork with
  | cancelled ha hb hidle hasked turn hissue hconnection => rwa [hconnection]
  | answered ha hb ho turn hissue hconnection =>
    rw [hconnection]
    exact hforget (hx.placed ha hb).2 ho
  | late ha hb told ho turn hissue hconnection =>
    rw [hconnection]
    exact hforget (hx.placed ha hb).2 ho
  | call ha hb begun turn hissue hconnection =>
    rw [hconnection] at hopen ⊢
    cases begun with
    | refused => exact hc
    | unsendable => exact hc
    | issued _ went =>
      cases went with
      | breaks handled closed => simp [closed] at hopen
      | _ => exact List.mem_append_left _ hc
  | drained ha hb told went turn hissue hconnection =>
    rw [hconnection] at hopen ⊢
    cases went with
    | breaks handled closed => simp [closed] at hopen
    | _ => exact hc
  | listens ha hb listened told turn hissue hconnection =>
    rw [hconnection]
    exact (hx.listened turn ha hb listened rfl).2 c hc hnone
  | closes ha hb listened told why turn hissue hconnection =>
    rw [hconnection, (listened.ended _ rfl).1] at hopen
    cases hopen

/-! ## What a delivery keeps -/

/-- What holds while replies are delivered. -/
structure Delivering (x : Exchange) (h : History) (bytes : Bytes) (y : Exchange) (h' : History) :
    Prop where
  order : Orderly y h'
  attentive : y.Attentive
  sound : y.Sound
  issues : ∀ i ∈ h.issues, i ∈ h'.issues
  read : h'.read ++ y.connection.incoming.buffer =
    h.read ++ (x.connection.incoming.buffer ++ bytes)
  received : ∃ new, h'.received = h.received ++ new
  /-- Nobody gives up a call. -/
  settled : ∀ i ∈ h.issues, x.kernel.outcome? i.future = none → ∀ o,
    y.kernel.outcome? i.future = some o → ∃ r, o = .ofExcept r
  /-- A call waits until it is settled. -/
  kept : ∀ c ∈ x.connection.peer.pending, y.kernel.outcome? c.future = none →
    c ∈ y.connection.peer.pending
  /-- Its caller is told how it was settled. -/
  ended : ∀ t a uid future, x.kernel.activity? t = some a →
    a.body = some (.calling (.awaiting uid future)) → y.kernel.activity? t = some a ∨
      ∃ o, y.kernel.outcome? future = some o ∧
        y.kernel.outcome? t = some (if a.mustCancel then .cancelled else o)
  /-- Nobody is told that the write buffer has drained. -/
  drains : ∀ t a uid future g, x.kernel.activity? t = some a →
    a.body = some (.calling (.draining uid future)) → a.waitingFor = some g →
    x.kernel.outcome? g = none → y.kernel.activity? t = some a ∧ y.kernel.outcome? g = none

namespace Delivering

lemma start (hx : Orderly x h) (hat : x.Attentive) (hs : x.Sound) : Delivering x h [] x h where
  order := hx
  attentive := hat
  sound := hs
  issues _ hi := hi
  read := by rw [List.append_nil]
  received := ⟨[], (List.append_nil _).symm⟩
  settled _ _ hnone _ ho := by simp [hnone] at ho
  kept _ hc _ := hc
  ended _ _ _ _ ha _ := .inl ha
  drains _ _ _ _ _ ha _ _ hnone := ⟨ha, hnone⟩

lemma elapse (hd : Delivering x h bytes y h') (now : Float) :
    Delivering x h bytes (y.occur (.elapse now)) h' where
  order := (hd.order.occur (.elapse now)).1
  attentive := hd.attentive.occur hd.order (.elapse now)
  sound := ⟨hd.sound.opened, hd.sound.stream, hd.sound.writes, hd.sound.told⟩
  issues := hd.issues
  read := hd.read
  received := hd.received
  settled := hd.settled
  kept := hd.kept
  ended := hd.ended
  drains := hd.drains

end Delivering

/-! ## Bytes arrive -/

/-- What the arrival of bytes does. -/
lemma Orderly.data_settles (hy : Orderly y h) {chunk : Bytes} (hchunk : chunk ≠ [])
    (hended : y.connection.incoming.ended = false) :
    ∃ os, Task.Kernel.Settled y.kernel (y.data chunk).kernel os ∧
      (∀ p ∈ os, y.connection.incoming.waiter = some p.1 ∧ p.2 = .value default) ∧
      (y.data chunk).connection = { y.connection with
        incoming := { y.connection.incoming with
          buffer := y.connection.incoming.buffer ++ chunk, waiter := none } } := by
  have hsome : ¬(chunk.isEmpty || y.connection.incoming.ended) = true := by
    simp [hended, hchunk]
  rw [Exchange.data, onIncoming, Task.Stream.feed, if_neg hsome, Task.Stream.notify]
  cases hw : y.connection.incoming.waiter with
  | none => exact ⟨[], .nil hy.waking hy.tasksOnly, by simp, by simp⟩
  | some w =>
    obtain ⟨⟨hlt, hplain, -⟩, -⟩ := hy.waiter w hw
    exact ⟨[(w, .value default)],
      (Task.Kernel.Settled.nil hy.waking hy.tasksOnly).settle hlt hplain, by simp, by simp⟩

lemma Delivering.data (hd : Delivering x h bytes y h') (chunk : Bytes) :
    Delivering x h (bytes ++ chunk) (y.data chunk) h' := by
  by_cases hchunk : chunk = []
  · have hsame : y.data [] = y := by
      rw [Exchange.data, onIncoming, Task.Stream.feed, if_pos (by simp)]
    rw [hchunk, hsame, List.append_nil]
    exact hd
  · obtain ⟨os, hsettled, hos, hconnection⟩ := hd.order.data_settles hchunk hd.sound.stream.1
    -- only the listener is told
    have hother : ∀ {u}, y.connection.incoming.waiter ≠ some u →
        (y.data chunk).kernel.outcome? u = y.kernel.outcome? u := by
      intro u hu
      have hlookup : os.lookup u = none := by
        cases ho : os.lookup u with
        | none => rfl
        | some o => exact absurd (hos _ (Task.Kernel.mem_of_lookup ho)).1 hu
      rw [hsettled.outcome, hlookup, Option.or_none]
    have hkept : ∀ {u o}, y.kernel.outcome? u = some o →
        (y.data chunk).kernel.outcome? u = some o := fun ho => by
      rw [hsettled.outcome, ho, Option.some_or]
    exact
      { order := (hd.order.data chunk).1
        attentive := hd.attentive.data hd.order chunk
        sound :=
          { opened := by rw [hconnection]; exact hd.sound.opened
            stream := by rw [hconnection]; exact hd.sound.stream
            writes := fun t a method args ha hb => by
              rw [hconnection]
              exact hd.sound.writes t a method args (hsettled.activity t ▸ ha) hb
            told := fun t a uid future g f ha hb hg ho => by
              refine hd.sound.told t a uid future g f (hsettled.activity t ▸ ha) hb hg ?_
              rw [hsettled.outcome] at ho
              rcases Option.or_eq_some_iff.1 ho with ho | ⟨-, ho⟩
              · exact ho
              · cases (hos _ (Task.Kernel.mem_of_lookup ho)).2 }
        issues := hd.issues
        read := by
          rw [hconnection, ← List.append_assoc, hd.read]
          simp
        received := hd.received
        settled := fun i hi hnone o ho => by
          rw [hother fun hw => (hd.order.waiter _ hw).1.2.2 i (hd.issues i hi) rfl] at ho
          exact hd.settled i hi hnone o ho
        kept := fun c hc hnone => by
          rw [hconnection]
          refine hd.kept c hc ?_
          rw [hsettled.outcome, Option.or_eq_none_iff] at hnone
          exact hnone.1
        ended := fun t a uid future ha hb => by
          rw [hsettled.activity]
          exact (hd.ended t a uid future ha hb).imp_right fun hended => by
            obtain ⟨o, ho, ht⟩ := hended
            exact ⟨o, hkept ho, hkept ht⟩
        drains := fun t a uid future g ha hb hg hnone => by
          obtain ⟨hya, hopen⟩ := hd.drains t a uid future g ha hb hg hnone
          obtain ⟨⟨d, hd', -, hdraining⟩, -⟩ := hd.order.placed hya hb
          cases hd'.symm.trans hg
          rw [hsettled.activity, hother fun hw => (hd.order.waiter _ hw).2 (hdraining hopen)]
          exact ⟨hya, hopen⟩ }

/-! ## A job is done -/

namespace Delivering

/-- The bytes that were read, drained: nothing but replies that are delivered. -/
lemma drain_read (hd : Delivering x h bytes y h')
    (hdrain : Frame.drain h.read = ⟨.ok h.received, x.connection.peer.buffer⟩)
    (hbytes : x.connection.peer.buffer ++ (x.connection.incoming.buffer ++ bytes) <+: bytesOf ws)
    {new rest : Bytes} (hnew : y.connection.incoming.buffer = new ++ rest) :
    ∃ tail, Frame.drain ((h'.read ++ new) ++ tail) =
      ⟨.ok (h.received ++ ws.map Whole.payload), []⟩ := by
  obtain ⟨tail, htail⟩ := hbytes
  refine ⟨rest ++ tail, ?_⟩
  have hread := hd.read
  rw [hnew] at hread
  have hstream : (h'.read ++ new) ++ (rest ++ tail) =
      h.read ++ ((x.connection.incoming.buffer ++ bytes) ++ tail) := by
    rw [← List.append_assoc h.read, ← hread]
    simp
  have hall : Frame.drain
      (x.connection.peer.buffer ++ ((x.connection.incoming.buffer ++ bytes) ++ tail)) =
      ⟨.ok (ws.map Whole.payload), []⟩ := by
    rw [← List.append_assoc, htail]
    exact Frame.drain_eq_ok_iff.2 ⟨ws, by simp, rfl, rfl⟩
  rw [hstream, Frame.drain_append_of_ok hdrain, hall]
  rfl

/-- While nothing but replies is delivered, the listener does not find the connection over. -/
lemma not_over (hd : Delivering x h bytes y h')
    (hdrain : Frame.drain h.read = ⟨.ok h.received, x.connection.peer.buffer⟩)
    (hbytes : x.connection.peer.buffer ++ (x.connection.incoming.buffer ++ bytes) <+: bytesOf ws)
    (hreplies : ∀ w ∈ ws, ¬Peer.Stops w.payload) {new rest : Bytes}
    (hnew : y.connection.incoming.buffer = new ++ rest)
    (hbuffer : y.connection.incoming.buffer ≠ []) : ¬y.connection.Over new := by
  have hread := hd.order.drained hd.sound.opened
  obtain ⟨tail, hall⟩ := hd.drain_read hdrain hbytes hnew
  rintro (hempty | hended | hfailure | ⟨e, left, herror⟩ | ⟨payload, hmem, hstops⟩)
  · exact hbuffer hempty
  · simp [hd.sound.stream.1] at hended
  · exact hfailure hd.sound.stream.2
  · -- no bytes behind a corrupt header would have mended it
    have hcorrupt : Frame.drain (h'.read ++ new) = ⟨.error e, left⟩ := by
      rw [Frame.drain_append_of_ok hread, herror]
      rfl
    rw [Frame.drain_append_of_error hcorrupt] at hall
    cases hall
  · obtain ⟨later, hlater⟩ := Frame.leading_append (h'.read ++ new) tail
    obtain ⟨before, hbefore⟩ := hd.received
    rw [Frame.leading_of_drain hall, Frame.leading_append_of_drain hread, hbefore,
      List.append_assoc, List.append_assoc, List.append_cancel_left_eq] at hlater
    have hpayload : payload ∈ ws.map Whole.payload := by
      rw [hlater]
      exact List.mem_append_right _ (List.mem_append_left _ hmem)
    obtain ⟨w, hw, rfl⟩ := List.mem_map.1 hpayload
    exact hreplies w hw hstops

/-- While nothing but replies is delivered, the peer stays open. -/
lemma opened_work (hd : Delivering x h bytes y h')
    (hdrain : Frame.drain h.read = ⟨.ok h.received, x.connection.peer.buffer⟩)
    (hbytes : x.connection.peer.buffer ++ (x.connection.incoming.buffer ++ bytes) <+: bytesOf ws)
    (hreplies : ∀ w ∈ ws, ¬Peer.Stops w.payload) {limit : Float} (hwork : Work y limit z) :
    z.connection.peer.closed = false := by
  refine hd.sound.opened_work hwork fun l a new ha hb hnew htold hwhy => ?_
  have hover : y.connection.incoming.buffer ≠ [] → ¬y.connection.Over new :=
    hd.not_over hdrain hbytes hreplies hnew
  have hwoken : ∀ w o, a.waitingFor = some w → y.kernel.outcome? w = some o →
      (∃ v, o = .value v) ∧ y.connection.incoming.buffer ≠ [] := by
    intro w o hw ho
    rcases hd.attentive l a w o ha hb hw ho with hclosed | hended | hfailure | hbytes
    · simp [hd.sound.opened] at hclosed
    · simp [hd.sound.stream.1] at hended
    · exact absurd hd.sound.stream.2 hfailure
    · exact hbytes
  rcases hwhy with hasked | ⟨w, o, hw, ho, hnovalue⟩ | ⟨hfound, hidle⟩
  · have hclosed := (hd.order.placed ha hb).2.1 hasked
    simp [hd.sound.opened] at hclosed
  · obtain ⟨⟨v, rfl⟩, -⟩ := hwoken w o hw ho
    exact hnovalue v rfl
  · refine hover ?_ hfound
    cases hw : a.waitingFor with
    | none =>
      intro hempty
      exact hidle hw (readiness_eq_blocked_iff.2 ⟨hempty, hd.sound.stream⟩)
    | some w =>
      obtain ⟨o, ho⟩ := htold w hw
      exact (hwoken w o hw ho).2

/-- A job done while replies are delivered. -/
lemma work (hd : Delivering x h bytes y h')
    (hdrain : Frame.drain h.read = ⟨.ok h.received, x.connection.peer.buffer⟩)
    (hbytes : x.connection.peer.buffer ++ (x.connection.incoming.buffer ++ bytes) <+: bytesOf ws)
    (hreplies : ∀ w ∈ ws, ¬Peer.Stops w.payload) {limit : Float} (hwork : Work y limit z) :
    Delivering x h bytes z (note h' y limit z) := by
  obtain ⟨horder, _, hlater⟩ := hd.order.work hwork
  obtain ⟨u, b, made, os, progress, m⟩ := hd.order.moves hwork
  have hopen := hd.opened_work hdrain hbytes hreplies hwork
  have hopen_of : ∀ {f}, z.kernel.outcome? f = none → y.kernel.outcome? f = none := fun hz =>
    hlater.open_of_open hz
  exact
    { order := horder
      attentive := hd.attentive.work hd.order hwork
      sound := hd.sound.work hd.order hwork hopen
      issues := fun i hi => hlater.mem_issues (hd.issues i hi)
      read := by
        obtain ⟨new, hnew⟩ := m.reads
        rw [note, taken_of_append hnew, List.append_assoc, ← hnew, hd.read]
      received := by
        obtain ⟨old, hold⟩ := hd.received
        obtain ⟨new, hnew⟩ := hlater.received
        exact ⟨old ++ new, by rw [hnew, hold, List.append_assoc]⟩
      settled := fun i hi hnone o ho => by
        cases hy : y.kernel.outcome? i.future with
        | some o' =>
          cases (hlater.outcome hy).symm.trans ho
          exact hd.settled i hi hnone o hy
        | none => exact m.outcome_future (hd.order.futures i (hd.issues i hi)).2 hy ho
      kept := fun c hc hnone =>
        hd.order.kept_work hwork hopen (hd.kept c hc (hopen_of hnone)) hnone
      ended := fun t a uid future ha hb => by
        rcases hd.ended t a uid future ha hb with hya | ⟨o, ho, ht⟩
        · by_cases hne : t = u
          · subst hne
            cases hya.symm.trans m.activity
            obtain ⟨o, ho, hprogress⟩ := m.answers uid future hb
            exact .inr ⟨o, hlater.outcome ho, (m.turn.ended _ hprogress).2⟩
          · exact .inl (by rw [m.turn.other t hne, hya])
        · exact .inr ⟨o, hlater.outcome ho, hlater.outcome ht⟩
      drains := fun t a uid future g ha hb hg hnone => by
        obtain ⟨hya, hopen⟩ := hd.drains t a uid future g ha hb hg hnone
        obtain ⟨⟨d, hd', hspare, -⟩, -⟩ := hd.order.placed hya hb
        cases hd'.symm.trans hg
        exact ⟨m.other hya hg hopen, by rw [m.outcome_spare hspare, hopen]⟩ }

end Delivering

/-! ## What has been read -/

/-- Where the stream goes on, all that is delivered arrives. -/
lemma Delivers.reads (hx : Orderly x h) (hended : x.connection.incoming.ended = false)
    (hd : Delivers x h bytes y h') : y.connection.incoming.ended = false ∧
      h'.read ++ y.connection.incoming.buffer =
        h.read ++ (x.connection.incoming.buffer ++ bytes) := by
  induction hd with
  | refl => exact ⟨hended, by rw [List.append_nil]⟩
  | @data bytes y h' chunk hd ih =>
    by_cases hchunk : chunk = []
    · have hsame : y.data [] = y := by
        rw [Exchange.data, onIncoming, Task.Stream.feed, if_pos (by simp)]
      rwa [hchunk, hsame, List.append_nil]
    · obtain ⟨-, -, -, hconnection⟩ := (hx.leads hd.leads).data_settles hchunk ih.1
      rw [hconnection]
      refine ⟨ih.1, ?_⟩
      rw [← List.append_assoc, ih.2]
      simp
  | elapse now _ ih => exact ih
  | @work bytes y z h' limit hd hstep ih =>
    have hy := hx.leads hd.leads
    obtain ⟨u, b, made, os, progress, m⟩ := hy.moves (work_of_step? hy hstep)
    obtain ⟨new, hnew⟩ := m.reads
    refine ⟨m.stream.1.trans ih.1, ?_⟩
    rw [note, taken_of_append hnew, List.append_assoc, ← hnew, ih.2]

/-- When a delivery has come to rest and the peer is open, all its payloads have been received. -/
lemma Delivers.received_of_opened (hx : Orderly x h) (hs : x.Sound) (hd : Delivers x h bytes y h')
    (hall : x.connection.peer.buffer ++ (x.connection.incoming.buffer ++ bytes) = bytesOf ws)
    (hready : y.kernel.ready = []) (hopen : y.connection.peer.closed = false) :
    h'.received = h.received ++ ws.map Whole.payload := by
  obtain ⟨hbuffer, -⟩ := (hx.leads hd.leads).stream hready hopen
  obtain ⟨-, hread⟩ := hd.reads hx hs.stream.1
  rw [hbuffer, List.append_nil] at hread
  have hframes : Frame.drain
      (x.connection.peer.buffer ++ (x.connection.incoming.buffer ++ bytes)) =
      ⟨.ok (ws.map Whole.payload), []⟩ :=
    Frame.drain_eq_ok_iff.2 ⟨ws, by rw [hall, List.append_nil], rfl, rfl⟩
  rw [History.received, hread, Frame.leading_append_of_drain (hx.drained hs.opened),
    Frame.leading_of_drain hframes]

section Sound

variable (hx : Orderly x h) (hat : x.Attentive) (hs : x.Sound)
  (hreplies : ∀ w ∈ ws, ¬Peer.Stops w.payload)

include hx hat hs hreplies

/-- While replies are delivered, the peer stays open, and nothing but they settles calls. -/
theorem Delivers.delivering (hd : Delivers x h bytes y h')
    (hbytes : x.connection.peer.buffer ++ (x.connection.incoming.buffer ++ bytes) <+: bytesOf ws) :
    Delivering x h bytes y h' := by
  induction hd with
  | refl => exact .start hx hat hs
  | data chunk _ ih => exact (ih (List.IsPrefix.trans ⟨chunk, by simp⟩ hbytes)).data chunk
  | elapse now _ ih => exact (ih hbytes).elapse now
  | work limit _ hstep ih =>
    exact (ih hbytes).work (hx.drained hs.opened) hbytes hreplies
      (work_of_step? (ih hbytes).order hstep)

/-! ## What has been delivered -/

/-- When a delivery has come to rest, all its payloads have been received. -/
lemma Delivers.received (hd : Delivers x h bytes y h')
    (hall : x.connection.peer.buffer ++ (x.connection.incoming.buffer ++ bytes) = bytesOf ws)
    (hready : y.kernel.ready = []) : h'.received = h.received ++ ws.map Whole.payload := by
  have hdelivering := hd.delivering hx hat hs hreplies (hall ▸ List.prefix_refl _)
  exact hd.received_of_opened hx hs hall hready hdelivering.sound.opened

/-- A call that waits is settled by the first verdict on its number that is received. -/
lemma Delivers.future (hd : Delivers x h bytes y h')
    (hbytes : x.connection.peer.buffer ++ (x.connection.incoming.buffer ++ bytes) <+: bytesOf ws)
    {new : List Text} (hnew : h'.received = h.received ++ new) {c : PendingCall}
    (hc : c ∈ x.connection.peer.pending) (hopen : x.kernel.outcome? c.future = none) :
    y.kernel.outcome? c.future = (firstVerdict c.uid new).map Outcome.ofExcept := by
  have hdelivering := hd.delivering hx hat hs hreplies hbytes
  obtain ⟨i, hi, huid, hfuture, hnone⟩ := hx.ledger.entries c hc
  have hi' := hdelivering.issues i hi
  have hsince : firstVerdict c.uid (h'.since i) = firstVerdict c.uid new := by
    rw [hx.ledger.since_append hnew hi, Peer.firstVerdict_append, ← huid, hnone, Option.none_or]
  cases hout : y.kernel.outcome? c.future with
  | none =>
    obtain ⟨j, hj, hjuid, -, hnone'⟩ :=
      hdelivering.order.ledger.entries c (hdelivering.kept c hc hout)
    cases hdelivering.order.ledger.uid_inj hj hi' (hjuid.trans huid.symm)
    rw [← hsince, ← huid, hnone', Option.map_none]
  | some o =>
    rw [← hfuture] at hopen hout
    rcases hdelivering.order.ledger.settled i hi' o hout with rfl | ⟨r, rfl, hr | ⟨hclosed, -⟩⟩
    · obtain ⟨r, hr⟩ := hdelivering.settled i hi hopen _ hout
      cases r <;> cases hr
    · rw [← hsince, ← huid, hr, Option.map_some]
    · simp [hdelivering.sound.opened] at hclosed

/-- When a delivery has come to rest, a call that waited for its reply has ended as its future was
settled, if it was. -/
lemma Delivers.task_awaiting (hd : Delivers x h bytes y h')
    (hbytes : x.connection.peer.buffer ++ (x.connection.incoming.buffer ++ bytes) <+: bytesOf ws)
    (hready : y.kernel.ready = []) {t future : Task.Id} {uid : Nat} {a : Task.Activity Routine}
    (ha : x.kernel.activity? t = some a)
    (hb : a.body = some (.calling (.awaiting uid future))) :
    y.kernel.outcome? t =
      (y.kernel.outcome? future).map fun o => if a.mustCancel then .cancelled else o := by
  have hdelivering := hd.delivering hx hat hs hreplies hbytes
  rcases hdelivering.ended t a uid future ha hb with hya | ⟨o, ho, ht⟩
  · obtain ⟨g, hg, hnone⟩ := hdelivering.order.waits hready hya
    cases (hdelivering.order.placed hya hb).1.symm.trans hg
    rw [hdelivering.order.waking.unsettled hya, hnone, Option.map_none]
  · rw [ht, ho, Option.map_some]

end Sound

/-- The outcome of a call depends on nothing but the first verdict on its number. -/
theorem Delivers.agree (hx : Orderly x h) (hq : x.Quiet) {us vs : List Whole} {more : Bytes}
    {h'' : History} (hus : ∀ w ∈ us, ¬Peer.Stops w.payload)
    (hvs : ∀ w ∈ vs, ¬Peer.Stops w.payload) (hy : Delivers x h bytes y h')
    (hbytes : x.connection.peer.buffer ++ bytes = bytesOf us) (hyready : y.kernel.ready = [])
    (hz : Delivers x h more z h'') (hmore : x.connection.peer.buffer ++ more = bytesOf vs)
    (hzready : z.kernel.ready = []) {t : Task.Id} (ht : t ∈ x.callers)
    (hsame : ∀ i ∈ h.issues, i.task = t → x.kernel.outcome? t = none →
      firstVerdict i.uid (us.map Whole.payload) = firstVerdict i.uid (vs.map Whole.payload)) :
    y.kernel.outcome? t = z.kernel.outcome? t ∧
      ∀ i ∈ h.issues, i.task = t → x.kernel.outcome? t = none →
        y.kernel.outcome? i.future = z.kernel.outcome? i.future := by
  obtain ⟨hykept, -⟩ := hx.persists hy.leads
  obtain ⟨hzkept, -⟩ := hx.persists hz.leads
  cases hout : x.kernel.outcome? t with
  | some o => exact ⟨(hykept hout).trans (hzkept hout).symm, fun _ _ _ hnone => nomatch hnone⟩
  | none =>
    have hat := hq.attentive hx
    have hs := hq.sound hx
    obtain ⟨hempty, -⟩ := hx.stream hq.ready hq.opened
    have hus' : x.connection.peer.buffer ++ (x.connection.incoming.buffer ++ bytes) =
        bytesOf us := by rw [hempty, List.nil_append, hbytes]
    have hvs' : x.connection.peer.buffer ++ (x.connection.incoming.buffer ++ more) =
        bytesOf vs := by rw [hempty, List.nil_append, hmore]
    have hyreceived := hy.received hx hat hs hus hus' hyready
    have hzreceived := hz.received hx hat hs hvs hvs' hzready
    obtain ⟨a, ha⟩ := hx.callers t ht hout
    obtain ⟨b, hb⟩ := hx.waking.body ha (by simp)
    have hplaced := hx.placed ha hb
    cases b with
    | call method args =>
      obtain ⟨g, hg, -⟩ := hx.waits hq.ready ha
      simp [hplaced.1] at hg
    | listen => exact absurd hplaced.1 (not_mem_callers hx ht)
    | calling state =>
      obtain ⟨uid, future, hmakes, hstate⟩ : ∃ uid future, x.Makes h t uid future ∧
          (state = .awaiting uid future ∨ state = .draining uid future) := by
        cases state with
        | awaiting uid future => exact ⟨uid, future, hplaced.2, .inl rfl⟩
        | draining uid future => exact ⟨uid, future, hplaced.2, .inr rfl⟩
      obtain ⟨⟨i, hi, htask, rfl, rfl⟩, hentry⟩ := hmakes
      have hfuture : y.kernel.outcome? i.future = z.kernel.outcome? i.future := by
        cases hopen : x.kernel.outcome? i.future with
        | some o => rw [hykept hopen, hzkept hopen]
        | none =>
          obtain ⟨c, hc, hcuid, hcfuture⟩ := hentry hopen
          rw [← hcfuture] at hopen ⊢
          rw [hy.future hx hat hs hus (hus' ▸ List.prefix_refl _) hyreceived hc hopen,
            hz.future hx hat hs hvs (hvs' ▸ List.prefix_refl _) hzreceived hc hopen, hcuid,
            hsame i hi htask hout]
      refine ⟨?_, fun j hj hjtask _ => ?_⟩
      · rcases hstate with rfl | rfl
        · rw [hy.task_awaiting hx hat hs hus (hus' ▸ List.prefix_refl _) hyready ha hb,
            hz.task_awaiting hx hat hs hvs (hvs' ▸ List.prefix_refl _) hzready ha hb, hfuture]
        · -- the write buffer does not drain meanwhile
          obtain ⟨g, hg, hnone⟩ := hx.waits hq.ready ha
          have hydelivering := hy.delivering hx hat hs hus (hus' ▸ List.prefix_refl _)
          have hzdelivering := hz.delivering hx hat hs hvs (hvs' ▸ List.prefix_refl _)
          obtain ⟨hya, -⟩ := hydelivering.drains t a _ _ g ha hb hg hnone
          obtain ⟨hza, -⟩ := hzdelivering.drains t a _ _ g ha hb hg hnone
          rw [hydelivering.order.waking.unsettled hya, hzdelivering.order.waking.unsettled hza]
      · cases hx.ledger.task_inj hi hj (htask.trans hjtask.symm)
        exact hfuture

end SuggestBridge.Exchange
