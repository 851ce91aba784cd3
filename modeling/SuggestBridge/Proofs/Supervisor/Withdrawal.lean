import SuggestBridge.Proofs.Supervisor.Discarding
import SuggestBridge.Proofs.Supervisor.Heeding

/-!
# Requests that give up

A request may end without an answer and without anything being wrong: its time is over, or its call
cannot be encoded.  The former takes two turns of its own and one of the task that calls for it, in
whatever order the jobs of others come in between; the latter takes one turn of whoever calls.
`Withdraws` lists these turns, with the numbers of the calls that are given up in them.

None of them costs anybody else anything (`Costless`): all that changes is the request itself, the task
that calls for it, and what this waits for.
-/

namespace SuggestBridge

open SuggestBridge.Task

namespace Client.Request

/-- A reply after which a request ends, without rows, and its session goes on: the time of the request is
over, or its call cannot be encoded. -/
def Forgoes (r : Request) : Reply → Prop
  | .value _ => False
  | .failure e => (∃ m, e = .unencodable m) ∨ isTimeout e = true ∧ r.timeout ≠ none
  | .expired => r.timeout ≠ none

lemma onReply_of_forgoes (r : Request) (session : SessionRef) {reply : Reply} (h : r.Forgoes reply) :
    ∃ log, r.onReply session reply = (.ends (.ok []), log) := by
  cases reply with
  | value v => exact h.elim
  | expired =>
    obtain ⟨t, ht⟩ := Option.ne_none_iff_exists'.1 h
    unfold onReply
    rw [ht]
    exact ⟨_, rfl⟩
  | failure e =>
    rcases h with ⟨m, rfl⟩ | ⟨hkind, hlimit⟩
    · unfold onReply
      cases r.timeout <;> exact ⟨_, rfl⟩
    · obtain ⟨t, ht⟩ := Option.ne_none_iff_exists'.1 hlimit
      unfold onReply
      rw [ht]
      simp only [hkind, if_true]
      exact ⟨_, rfl⟩

end Client.Request

namespace Supervisor

variable {p p' : Plan} {s s' s'' m : Supervisor} {k : Machine} {turn : Option Id} {t u f g x : Id}
variable {b b' d : Scene} {keys : List Text} {n link uid : Nat} {r : Routine} {o : Outcome Value Failure}
variable {input : Outcome Value Failure} {kept : Id → Prop} {gone : Nat → Nat → Prop}

/-! ## What is left as it is -/

/-- A connection with another peer. -/
def Link.withPeer (l : Link) (q : Peer Nat) : Link :=
  { l with connection := { l.connection with peer := q } }

/-- Nothing becomes of a supervisor but that futures other than `kept` change, that calls may end whose
numbers are among `gone`, and that numbers are used up. -/
structure Costless (kept : Id → Prop) (gone : Nat → Nat → Prop) (s s' : Supervisor) : Prop where
  slots : s'.slots = s.slots
  processes : s'.processes = s.processes
  sessions : s'.opened = s.opened
  /-- Nothing is sent, and nobody is killed. -/
  events : s'.events = s.events
  kernel : Kernel.Untouched kept (fun _ => True) s.kernel s'.kernel
  links : ∀ n : Nat, s'.links[n]? = (s.links[n]?).map (·.withPeer (s'.peerOf n))
  peers : ∀ n, s'.peerOf n =
    { s.peerOf n with pending := (s'.peerOf n).pending, nextUid := (s'.peerOf n).nextUid }
  ends : ∀ n, (s'.peerOf n).pending.Sublist (s.peerOf n).pending
  calls : ∀ {n c}, c ∈ (s.peerOf n).pending → ¬gone n c.uid → c ∈ (s'.peerOf n).pending

namespace Costless

/-- Nothing becomes of the connections. -/
lemma of_links (hslots : s'.slots = s.slots) (hprocesses : s'.processes = s.processes)
    (hsessions : s'.opened = s.opened) (hevents : s'.events = s.events)
    (hkernel : Kernel.Untouched kept (fun _ => True) s.kernel s'.kernel) (hlinks : s'.links = s.links) :
    Costless kept gone s s' := by
  have hpeers : ∀ n, s'.peerOf n = s.peerOf n := fun n => by rw [peerOf, peerOf, hlinks]
  refine ⟨hslots, hprocesses, hsessions, hevents, hkernel, fun n => ?_, fun n => by rw [hpeers],
    fun n => by rw [hpeers], fun {n c} hc _ => by rw [hpeers]; exact hc⟩
  rw [hlinks, hpeers]
  cases hl : s.links[n]? with
  | none => rfl
  | some l => rw [peerOf_eq hl]; rfl

lemma of_kernel (h : Kernel.Untouched kept (fun _ => True) s.kernel k) :
    Costless kept gone s { s with kernel := k } := .of_links rfl rfl rfl rfl h rfl

lemma report (s : Supervisor) (lines : List LogLine) : Costless kept gone s (s.report lines) :=
  .of_links rfl rfl rfl rfl (.refl _) rfl

lemma trans (h : Costless kept gone s s') (h' : Costless kept gone s' s'') :
    Costless kept gone s s'' where
  slots := h'.slots.trans h.slots
  processes := h'.processes.trans h.processes
  sessions := h'.sessions.trans h.sessions
  events := h'.events.trans h.events
  kernel := h.kernel.trans h'.kernel
  links n := by
    rw [h'.links, h.links]
    cases s.links[n]? <;> rfl
  peers n := by
    have hsecond := h'.peers n
    rw [h.peers n] at hsecond
    exact hsecond
  ends n := (h'.ends n).trans (h.ends n)
  calls hc hgone := h'.calls (h.calls hc hgone) hgone

/-- Calls end over one connection, or a number is used up there. -/
lemma updateLink {l : Link} {q : Peer Nat} (hl : s.links[n]? = some l)
    (hq : q = { l.connection.peer with pending := q.pending, nextUid := q.nextUid })
    (hends : q.pending.Sublist l.connection.peer.pending)
    (hcalls : ∀ c ∈ l.connection.peer.pending, ¬gone n c.uid → c ∈ q.pending) :
    Costless kept gone s
      (s.updateLink n fun l' => { l' with connection := { l.connection with peer := q } }) := by
  generalize hs' : (s.updateLink n fun l' =>
    { l' with connection := { l.connection with peer := q } }) = s'
  have hpeers : ∀ i, s'.peerOf i = if n = i then q else s.peerOf i := fun i => by
    subst hs'
    rw [peerOf_updateLink]
    split
    · next hi => rw [← hi, hl]; rfl
    · rfl
  have hself := peerOf_eq hl
  refine ⟨hs' ▸ rfl, hs' ▸ rfl, hs' ▸ rfl, hs' ▸ rfl, hs' ▸ .refl _, fun i => ?_, fun i => ?_,
    fun i => ?_, fun {i c} hc hgone => ?_⟩
  · rw [hpeers, ← hs', Supervisor.updateLink, Array.getElem?_modify]
    split
    · next hi =>
      subst hi
      rw [hl]
      rfl
    · cases hi : s.links[i]? with
      | none => rfl
      | some l' => rw [peerOf_eq hi]; rfl
  · rw [hpeers]
    split
    · next hi => rw [← hi, hself]; exact hq
    · rfl
  · rw [hpeers]
    split
    · next hi => rw [← hi, hself]; exact hends
    · exact .refl _
  · rw [hpeers]
    split
    · next hi =>
      subst hi
      exact hcalls c (hself ▸ hc) hgone
    · exact hc

/-- The turn ends with the end of the task. -/
lemma finish (h : Costless kept gone s s') (ht : ¬kept t) (o : Outcome Value Failure) :
    Costless kept gone s (s'.follow t (.ends o)) := h.trans (.of_kernel (.finish o ht))

/-- The turn ends with a wait. -/
lemma pause (h : Costless kept gone s s') (ht : ¬kept t) (hg : s'.kernel.Leaf g) (hfree : ¬kept g)
    (r : Routine) : Costless kept gone s (s'.follow t (.waits r g)) :=
  h.trans (.of_kernel (.pause r ht hg hfree))

/-! ### Sessions go on -/

/-- A session that could be used can be used. -/
lemma isAlive (h : Costless kept gone s s') (n : Nat) : s'.isAlive n = s.isAlive n := by
  have hrunning : ∀ pid, s'.isRunning pid = s.isRunning pid := fun pid => by
    rw [Supervisor.isRunning, process?, h.processes]
    rfl
  have hpeer : ∀ i, (s'.peerOf i).closed = (s.peerOf i).closed := fun i => by rw [h.peers]
  rw [Supervisor.isAlive, Supervisor.isAlive, linkOf?, linkOf?, h.sessions]
  cases hx : s.opened[n]? with
  | none => rfl
  | some y =>
    simp only [Option.bind_some, h.links]
    cases hl : s.links[y.link]? with
    | none => rfl
    | some l =>
      have hclosed := hpeer y.link
      rw [peerOf_eq hl] at hclosed
      simp only [Option.map_some, hrunning, Link.withPeer, hclosed]

/-- Whoever asks for a session is given the same startup as before. -/
lemma usable? (h : Costless kept gone s s')
    (hkept : ∀ {key u}, s.slots.get? key = some u → kept u) (key : Text) :
    s'.usable? key = s.usable? key := by
  rw [Supervisor.usable?, Supervisor.usable?, h.slots]
  cases hslot : s.slots.get? key with
  | none => rfl
  | some u =>
    have hout := h.kernel.outcome (hkept hslot)
    have halive : ∀ n, s'.isAlive n = s.isAlive n := h.isAlive
    simp only [Option.filter, Kernel.isDone, sessionOf?, hout, halive]
    rfl

end Costless

/-! ## Calls that end -/

/-- A call that is never sent: it uses up a number at most. -/
lemma costless_beginCall (h : Tidy p s) (hkept : ∀ x, kept x → x < s.kernel.futures.size)
    {method : Text} {args : List Sexp} (hcall : s.beginCall n method args = (s', .ends o)) :
    Costless kept gone s s' := by
  unfold beginCall at hcall
  split at hcall
  swap
  · cases hcall
    exact .of_links rfl rfl rfl rfl (.refl _) rfl
  next y l hy hlink =>
    have hl := links_of_linkOf? hy hlink
    have hfresh : Kernel.Untouched kept (fun _ => True) s.kernel s.kernel.fresh.1 := .fresh hkept
    have hwide : s.kernel.Widens s.kernel.fresh.1 := .fresh _
    have hkernel : Costless kept gone s { s with kernel := s.kernel.fresh.1.fresh.1 } :=
      .of_kernel (hfresh.trans (.fresh fun x hx => Nat.lt_of_lt_of_le (hkept x hx) hwide.size))
    dsimp only at hcall
    rcases Connection.beginCall_of_clear (h.links l (Array.mem_of_getElem? hl)).clear
      (s.kernel.fresh.1.fresh.1.isDone) s.kernel.fresh.1.fresh.1.now s.kernel.fresh.2
      s.kernel.fresh.1.fresh.2 method args with heq | ⟨m, heq⟩ | ⟨frame, heq⟩
    · rw [heq] at hcall
      cases hcall
      exact hkernel.trans (.updateLink hl rfl (.refl _) fun _ hc _ => hc)
    · rw [heq] at hcall
      cases hcall
      exact hkernel.trans
        (.updateLink (q := Connection.numbered l.connection.peer) hl rfl (.refl _) fun _ hc _ => hc)
    · rw [heq] at hcall
      cases hcall

/-- A call that ends without an answer leaves nothing behind but its number. -/
lemma costless_resumeCall (hcall : s.resumeCall n (.awaiting uid f) input = (s', .ends o))
    (ho : ∀ v, o ≠ .value v) (hgone : ∀ {link}, On s.opened link n → gone link uid) :
    Costless kept gone s s' := by
  unfold resumeCall at hcall
  split at hcall
  swap
  · cases hcall
    exact .of_links rfl rfl rfl rfl (.refl _) rfl
  next y l hy hlink =>
    have hl := links_of_linkOf? hy hlink
    have hforget : Costless kept gone s (s.updateLink y.link fun l' =>
        { l' with connection := { l.connection with peer := l.connection.peer.forget uid } }) := by
      refine .updateLink hl rfl List.filter_sublist fun c hc hlost => List.mem_filter.2 ⟨hc, ?_⟩
      have hne : c.uid ≠ uid := fun heq => hlost (heq ▸ hgone ⟨y, hy, rfl⟩)
      simpa using hne
    cases input with
    | value v =>
      cases hcall
      exact absurd rfl (ho _)
    | failure e =>
      cases hcall
      exact hforget
    | cancelled =>
      cases hcall
      exact hforget

/-- Whoever is asked to cancel while it waits for a reply ends so. -/
lemma proceed_cancelled (h : Tidy p s) (hon : On s.opened link n) (t : Id) (uid : Nat) (f : Id) :
    ∃ s', s.resumeCall n (.awaiting uid f) .cancelled = (s', .ends .cancelled) ∧
      s.proceed t (.calling n (.awaiting uid f)) .cancelled = (s', .ends .cancelled) := by
  obtain ⟨y, hy, -⟩ := hon
  have hl : s.linkOf? n = s.links[y.link]? := by rw [linkOf?, hy, Option.bind_some]
  rw [Array.getElem?_eq_getElem (h.opened hy).1] at hl
  obtain ⟨s', hcall⟩ : ∃ s', s.resumeCall n (.awaiting uid f) .cancelled = (s', .ends .cancelled) := by
    simp only [resumeCall, hy, hl]
    exact ⟨_, rfl⟩
  refine ⟨s', hcall, ?_⟩
  rw [Supervisor.proceed, hcall]
  rfl

/-- A call that ends at once is the end of a task that does nothing else. -/
lemma proceed_beginCall {method : Text} {args : List Sexp} (hcall : m.beginCall n method args = (s, .ends o))
    (t : Id) (input : Outcome Value Failure) : m.proceed t (.call n method args) input = (s, .ends o) := by
  rw [Supervisor.proceed, hcall]
  rfl

/-! ## Turns in which a request gives up -/

/-- The task `u` waits, through the future `f`, for the reply to the call with the number `uid` over the
connection `link`. -/
inductive Calling (s : Supervisor) (u : Id) (link uid : Nat) (f : Id) : Prop where
  | intro {a : Activity Routine} {r : Routine} {n : Nat} (activity : s.kernel.activity? u = some a)
      (body : a.body = some r) (call : r.call? = some (n, .awaiting uid f))
      (on : On s.opened link n) : Calling s u link uid f

/-- The request `r` has a session at hand in the turn of the task `t` that begins in `m`. -/
inductive Opens (m : Supervisor) (t : Id) (input : Outcome Value Failure) (r : Client.Request)
    (session : SessionRef) : Routine → Prop where
  | waited {key : Text} {u : Id} {o : Outcome Value Failure}
      (acquired : m.resumeAcquiring t key u input = (m, .ends o))
      (opened : m.sessionResult o = some (.ok session)) :
      Opens m t input r session (.answering (.opening r key u))
  | found {c : Client} {q : Query} {project : Project} {o : Outcome Value Failure}
      (asks : Client.Request.begin c q = .needs r (.session project))
      (acquired : m.beginAcquiring project = (m, .ends o))
      (opened : m.sessionResult o = some (.ok session)) : Opens m t input r session (.ask c q)

/-- A number is used up between `s` and `s'`. -/
def UsesUp (s s' : Supervisor) (link uid : Nat) : Prop :=
  (s.peerOf link).nextUid ≤ uid ∧ uid < (s'.peerOf link).nextUid

/-- In the step from `b` to `b'` the task `t` has a turn in which a request gives up, or the task that
calls for one.  The task `asked` is asked to cancel, and the calls with the numbers `lost` are given up. -/
inductive Withdraws (t : Id) (b b' : Scene) : Option Id → (Nat → Nat → Prop) → Prop where
  /-- The time is over, or the client gives up.  The task that calls is asked to cancel. -/
  | abandons {r : Client.Request} {session : SessionRef} {w w' : Deadline} {m : Supervisor}
      {input : Outcome Value Failure} {k : Machine} {g : Id}
      (turn : GoesOn t (.answering (.timed r session w)) m input b b')
      (waits : Deadline.resume m.kernel w input = (k, .waits w' g)) :
      Withdraws t b b' (some w.task) fun link uid => ∃ f, b.supervisor.Calling w.task link uid f
  /-- There is no time at all.  The task that is to call is asked to cancel before it begins. -/
  | hurries {R : Routine} {r₀ r : Client.Request} {session : SessionRef} {m : Supervisor}
      {input : Outcome Value Failure} {method : Text} {args : List Sexp} {timeout : Seconds}
      {log : List LogLine} (turn : GoesOn t R m input b b') (opens : Opens m t input r₀ session R)
      (next : r₀.onSession (.ok session) = (.needs r (.call session method args (some timeout)), log))
      (short : timeout.toFloat ≤ 0) : Withdraws t b b' none fun _ _ => False
  /-- The task that calls has not begun when it was asked to cancel. -/
  | stillborn {a : Activity Routine} {n : Nat} {method : Text} {args : List Sexp} {limit : Float}
      {k : Machine} (next : b.supervisor.kernel.next? limit = some (k, .done))
      (state : b' = ⟨{ b.supervisor with kernel := k }, b.calls⟩)
      (activity : b.supervisor.kernel.activity? t = some a) (body : a.body = some (.call n method args))
      (ended : k.outcome? t ≠ none) : Withdraws t b b' none fun _ _ => False
  /-- The task that calls ends, as it was asked to cancel while it waited. -/
  | cancelled {n : Nat} {state : Connection.CallState} {m : Supervisor}
      (turn : GoesOn t (.calling n state) m .cancelled b b') :
      Withdraws t b b' none fun link uid => ∃ f, b.supervisor.Calling t link uid f
  /-- The task that calls ends, as its call cannot be encoded. -/
  | unsent {n : Nat} {method : Text} {args : List Sexp} {m s : Supervisor}
      {input : Outcome Value Failure} {message : Text} (turn : GoesOn t (.call n method args) m input b b')
      (fails : m.beginCall n method args = (s, .ends (.failure (.unencodable message)))) :
      Withdraws t b b' none (b.supervisor.UsesUp b'.supervisor)
  /-- The request ends. -/
  | ends {R : Routine} {r : Client.Request} {session : SessionRef} {reply : Client.Reply}
      {m : Supervisor} {input : Outcome Value Failure} (turn : GoesOn t R m input b b')
      (hears : Hears m t input r session reply R) (forgoes : r.Forgoes reply) :
      Withdraws t b b' none fun link uid =>
        (∃ f, b.supervisor.Calling t link uid f) ∨ b.supervisor.UsesUp b'.supervisor link uid

/-- A future that is neither the task `t` nor the task `asked`, nor that of a call with one of the numbers
`lost`. -/
structure Others (s : Supervisor) (t : Id) (asked : Option Id) (lost : Nat → Nat → Prop) (x : Id) :
    Prop where
  lt : x < s.kernel.futures.size
  self : x ≠ t
  asked : asked ≠ some x
  call : ∀ {u link uid}, lost link uid → ¬s.Calling u link uid x

variable {asked : Option Id} {lost : Nat → Nat → Prop}

/-! ### The beginning of a turn -/

lemma GoesOn.costless (hturn : GoesOn t r m input b b') (hs : b.Sound p)
    (hkept : ∀ x, kept x → x < b.supervisor.kernel.futures.size) (ht : ¬kept t) :
    Costless kept gone b.supervisor m := by
  cases hturn with
  | «begins» hnext _ hstate =>
    subst hstate
    have hroused := (hs.sound.due hnext rfl).roused
    exact .of_kernel (.of_roused hroused ht fun _ => Kernel.due_of_next? hnext)
  | resumes hnext _ hstate =>
    subst hstate
    have hroused := (hs.sound.due hnext rfl).roused
    exact .of_kernel (.of_roused hroused ht fun _ => Kernel.due_of_next? hnext)
  | entered _ _ hstate =>
    subst hstate
    exact .of_kernel (.add hkept _)

/-- A request that waits on waits for the same call. -/
lemma proceed_timed {r : Client.Request} {session : SessionRef} {w w' : Deadline}
    (hwaits : Deadline.resume m.kernel w input = (k, .waits w' g)) :
    m.proceed t (.answering (.timed r session w)) input =
      ({ m with kernel := k }, .waits (.answering (.timed r session w')) g) := by
  rw [Supervisor.proceed, resumeAsking, hwaits]
  rfl

/-- A request that has a session at hand goes on with it in the same turn. -/
lemma Opens.proceed {r : Client.Request} {session : SessionRef} {R : Routine}
    (h : Opens m t input r session R) :
    ∃ fuel, m.proceed t R input = within .answering (m.pursue (fuel + 1) (r.onSession (.ok session))) := by
  cases h with
  | waited hacquired hopened =>
    refine ⟨3, ?_⟩
    rw [Supervisor.proceed, resumeAsking_opening, hacquired]
    simp only [Progress.andThen, onOpened, hopened]
    rfl
  | found hasks hacquired hopened =>
    refine ⟨2, ?_⟩
    rw [Supervisor.proceed, Supervisor.beginAsking, hasks, show needs = 3 + 1 from rfl, pursue_session,
      report_nil, hacquired]
    simp only [Progress.andThen, onOpened, hopened]

/-- With a limit, a request always waits for its call, even if there is no time. -/
lemma Opens.begins {r₀ r : Client.Request} {session : SessionRef} {R : Routine} {method : Text}
    {args : List Sexp} {timeout : Seconds} {log : List LogLine} (h : Opens m t input r₀ session R)
    (hnext : r₀.onSession (.ok session) = (.needs r (.call session method args (some timeout)), log)) :
    ∃ k w g, Deadline.begin (m.report log).kernel timeout.toFloat (Routine.call session.handle method args) =
        (k, .waits w g) ∧
      m.proceed t R input =
        ({ m.report log with kernel := k }, .waits (.answering (.timed r session w)) g) := by
  obtain ⟨fuel, hproceed⟩ := h.proceed
  obtain ⟨w, g, hwaits⟩ := Kernel.exists_waits_begin (m.report log).kernel timeout.toFloat
    (Routine.call session.handle method args)
  refine ⟨_, w, g, Prod.ext rfl hwaits, ?_⟩
  rw [hproceed, hnext, Supervisor.pursue]
  simp only [hwaits]
  rfl

/-- A request that ends without rows does nothing else. -/
lemma pursue_of_forgoes {r : Client.Request} {reply : Client.Reply} (h : r.Forgoes reply)
    (session : SessionRef) (s : Supervisor) (fuel : Nat) :
    ∃ log, within .answering (s.pursue (fuel + 1) (r.onReply session reply)) =
      (s.report log, .ends (.value (.rows []))) := by
  obtain ⟨log, hreply⟩ := r.onReply_of_forgoes session h
  exact ⟨log, by rw [hreply, pursue]; rfl⟩

lemma Hears.forgoes {r : Client.Request} {session : SessionRef} {reply : Client.Reply} {R : Routine}
    (h : Hears m t input r session reply R) (hforgoes : r.Forgoes reply) :
    ∃ s log, Learned m input session reply R s ∧
      m.proceed t R input = (s.report log, .ends (.value (.rows []))) := by
  obtain ⟨s, fuel, hlearned, hproceed⟩ := h.proceed
  obtain ⟨log, hpursue⟩ := pursue_of_forgoes hforgoes session s fuel
  exact ⟨s, log, hlearned, hproceed.trans hpursue⟩

/-! ### The task that calls -/

/-- A task that does nothing but call, and waits, does so for a reply. -/
lemma Standing.calling {a : Activity Routine} (h : s.Standing r a.waitingFor)
    (ha : s.kernel.activity? u = some a) (hbody : a.body = some r) (hover : r.callsOver? = some n)
    (hwaits : a.waitingFor = some g) : ∃ link uid, s.Calling u link uid g ∧ s.Attends link uid g := by
  cases r with
  | call n' method args => exact absurd ((h.idle rfl).symm.trans hwaits) nofun
  | calling n' state =>
    obtain ⟨link, uid, f, rfl, hf, hon, hattends⟩ := h.call rfl
    cases hf.symm.trans hwaits
    exact ⟨link, uid, .intro ha hbody rfl hon, hattends⟩
  | _ => cases hover

/-- Whoever has another task call is not that task. -/
lemma ne_of_timed {a c : Activity Routine} {R r : Routine} {w : Deadline}
    (ha : s.kernel.activity? t = some a) (hbody : a.body = some R) (htimed : R.timed? = some (n, w))
    (hc : s.kernel.activity? u = some c) (hr : c.body = some r) (hover : r.callsOver? = some n) :
    u ≠ t := by
  rintro rfl
  cases ha.symm.trans hc
  cases hbody.symm.trans hr
  cases R <;> first | (cases hover; done) | cases htimed

/-- The task that calls for a request can be asked to cancel without anybody else being told. -/
lemma Given.aside {R : Routine} {w : Deadline} {a : Activity Routine} (h : Given p s t R m input)
    (hall : s.Attentive) (ha : s.kernel.activity? t = some a) (hbody : a.body = some R)
    (htimed : R.timed? = some (n, w)) :
    Kernel.Aside (s.Others t (some w.task) fun link uid => ∃ f, s.Calling w.task link uid f) m.kernel
      w.task := by
  have hfree : ¬s.Others t (some w.task) (fun link uid => ∃ f, s.Calling w.task link uid f) w.task :=
    fun hother => hother.asked rfl
  rcases (hall ha hbody).timed htimed with ⟨c, r, hc, hr, hover⟩ | ⟨o, ho, -⟩
  · have hsame := h.others (ne_of_timed ha hbody htimed hc hr hover)
    refine ⟨fun _ => hfree, .inr ⟨c, hsame.trans hc⟩, fun {c' g} hc' hg => ?_⟩
    cases (hsame.trans hc).symm.trans hc'
    obtain ⟨link, uid, hcalling, hattends⟩ := (hall hc hr).calling hc hr hover hg
    exact ⟨h.widens.leaf hattends.leaf, fun hother => hother.call ⟨g, hcalling⟩ hcalling⟩
  · have hdone := (h.outcome _).trans ho
    refine ⟨fun _ => hfree, .inl (Kernel.isDone_eq_true_iff.2 ⟨o, hdone⟩), fun hc' => ?_⟩
    cases (h.sound.waking.unsettled hc').symm.trans hdone

/-! ### All turns -/

/-- A request that learns that it gets no answer. -/
lemma Learned.costless {session : SessionRef} {reply : Client.Reply} {R : Routine}
    (h : Learned m input session reply R s') (hgiven : Given p s t R m input) (hall : s.Attentive)
    (hstood : R.isRequest = false → ∃ a, s.kernel.activity? t = some a ∧ a.body = some R)
    (hkept : ∀ x, kept x → x < m.kernel.futures.size) (hreply : ∀ v, reply ≠ .value v)
    (hgone : ∀ {link uid f}, s.Calling t link uid f → gone link uid) : Costless kept gone m s' := by
  cases h with
  | @called r state _ o hcall hresult =>
    obtain ⟨a, ha, hbody⟩ := hstood rfl
    obtain ⟨-, uid, f, rfl, -, -, -⟩ := (hall ha hbody).call rfl
    refine costless_resumeCall hcall (fun v hv => ?_) fun hon => hgone (.intro ha hbody rfl ?_)
    · subst hv
      exact hreply _ (Option.some.inj hresult).symm
    · have hopened : m.opened = s.opened := by rw [hgiven.same]
      exact hopened ▸ hon
  | timed hcall => exact .of_kernel (Kernel.Untouched.resumeWait_ends hcall).1
  | @atOnce R log method args _ o hcall =>
    have hlog : Moves p .all m (m.report log) := moves_report log
    exact (Costless.report m log).trans
      (costless_beginCall (hgiven.sound.toTidy.moves hlog) hkept hcall)

/-- A request that gives up costs nobody else anything. -/
lemma Withdraws.costless (h : Withdraws t b b' asked lost) (hs : b.Sound p)
    (hall : b.supervisor.Attentive) :
    Costless (b.supervisor.Others t asked lost) lost b.supervisor b'.supervisor := by
  have hkept : ∀ x, b.supervisor.Others t asked lost x → x < b.supervisor.kernel.futures.size :=
    fun _ => Others.lt
  have ht : ¬b.supervisor.Others t asked lost t := fun hother => hother.self rfl
  have hwider : ∀ {m : Supervisor}, b.supervisor.kernel.Widens m.kernel →
      ∀ x, b.supervisor.Others t asked lost x → x < m.kernel.futures.size := fun hwide x hx =>
    Nat.lt_of_lt_of_le (hkept x hx) hwide.size
  generalize hs' : b'.supervisor = s'
  cases h with
  | @abandons r session w w' m input k g hturn hwaits =>
    obtain ⟨hgiven, hafter⟩ := hs.goesOn hturn rfl
    obtain ⟨a, ha, hbody⟩ := hturn.stood hs rfl
    have hkernel : Kernel.Untouched _ (fun _ => True) m.kernel (Deadline.resume m.kernel w input).1 :=
      .resumeWait (hwider hgiven.widens) (hgiven.aside hall ha hbody rfl) input
    rw [hwaits] at hkernel
    obtain ⟨hleaf, hnew⟩ := Kernel.leaf_resume hwaits
    obtain rfl := hs'.symm.trans (hafter.trans (resume_eq m t _ input))
    rw [proceed_timed hwaits]
    exact ((hturn.costless hs hkept ht).trans (.of_kernel hkernel)).pause ht hleaf
      (fun hother => absurd (hwider hgiven.widens g hother) (Nat.not_lt.2 hnew)) _
  | @hurries R r₀ r session m input method args timeout log hturn hopens hnext hover =>
    have hhelps : R.helps = false := by cases hopens <;> rfl
    obtain ⟨hgiven, hafter⟩ := hs.goesOn hturn hhelps
    obtain ⟨k, w, g, hbegin, hproceed⟩ := hopens.begins hnext
    have hkernel : Kernel.Untouched (b.supervisor.Others t none fun _ _ => False) (fun _ => True)
        (m.report log).kernel (Deadline.begin (m.report log).kernel timeout.toFloat
          (Routine.call session.handle method args)).1 := .beginWait (hwider hgiven.widens) _ _
    rw [hbegin] at hkernel
    obtain ⟨hleaf, hnew⟩ := Kernel.leaf_begin hbegin
    obtain rfl := hs'.symm.trans (hafter.trans (resume_eq m t _ input))
    rw [hproceed]
    have hreport : Costless (b.supervisor.Others t none fun _ _ => False) (fun _ _ => False) b.supervisor
        (m.report log) := (hturn.costless hs hkept ht).trans (.report m log)
    exact (hreport.trans (.of_kernel hkernel)).pause ht hleaf
      (fun hother => absurd (hwider hgiven.widens g hother) (Nat.not_lt.2 hnew)) _
  | @stillborn a n method args limit k hnext hstate ha hbody hended =>
    subst hstate
    obtain rfl := hs'
    have hnext' : Kernel.Next p Routine.Quiet b.supervisor.kernel k .done :=
      Kernel.next_of_next? hs.sound.follows hs.sound.waking hnext
    cases hnext' with
    | done _ hwaking hgrows _ =>
      obtain ⟨c, hc, -⟩ := hgrows.kept ha
      exact absurd (hwaking.unsettled hc) hended
    | @stillborn t' c hc _ _ _ _ hends =>
      by_cases htt : t' = t
      · subst htt
        exact .of_kernel (.of_ends hends ht fun _ => Kernel.due_of_next? hnext)
      · have hsame := hends.outcome t (Ne.symm htt)
        exact absurd (hsame.trans (hs.sound.waking.unsettled ha)) hended
  | @cancelled n state m hturn =>
    obtain ⟨hgiven, hafter⟩ := hs.goesOn hturn rfl
    obtain ⟨a, ha, hbody⟩ := hturn.stood hs rfl
    obtain ⟨link, uid, f, rfl, -, hon, -⟩ := (hall ha hbody).call rfl
    have hopened : m.opened = b.supervisor.opened := by rw [hgiven.same]
    obtain ⟨s₁, hcall, hproceed⟩ := proceed_cancelled hgiven.sound.toTidy (hopened ▸ hon) t uid f
    obtain rfl := hs'.symm.trans (hafter.trans (resume_eq m t _ .cancelled))
    rw [hproceed]
    exact ((hturn.costless hs hkept ht).trans (costless_resumeCall hcall (fun _ => by simp) fun hon =>
      ⟨f, .intro ha hbody rfl (hopened ▸ hon)⟩)).finish ht _
  | @unsent n method args m s input message hturn hfails =>
    obtain ⟨hgiven, hafter⟩ := hs.goesOn hturn rfl
    obtain rfl := hs'.symm.trans (hafter.trans (resume_eq m t _ input))
    rw [proceed_beginCall hfails]
    exact ((hturn.costless hs hkept ht).trans
      (costless_beginCall hgiven.sound.toTidy (hwider hgiven.widens) hfails)).finish ht _
  | @ends R r session reply m input hturn hhears hforgoes =>
    have hhelps : R.helps = false := by cases hhears <;> rfl
    obtain ⟨hgiven, hafter⟩ := hs.goesOn hturn hhelps
    obtain ⟨s₁, log, hlearned, hproceed⟩ := hhears.forgoes hforgoes
    obtain rfl := hs'.symm.trans (hafter.trans (resume_eq m t _ input))
    rw [hproceed]
    have hlearns : Costless (b.supervisor.Others t none _) (fun link uid =>
        (∃ f, b.supervisor.Calling t link uid f) ∨ b.supervisor.UsesUp b'.supervisor link uid) m s₁ :=
      hlearned.costless hgiven hall (hturn.stood hs) (hwider hgiven.widens)
        (fun v hv => by subst hv; exact hforgoes) fun hcalling => .inl ⟨_, hcalling⟩
    exact (((hturn.costless hs hkept ht).trans hlearns).trans (.report _ log)).finish ht _

end Supervisor

end SuggestBridge
