import SuggestBridge.Proofs.Isolation.Requests

/-!
# Steps of a project

Whatever a task of a project does next, and whatever a supervisor is told about the project, is about
the project alone.
-/

namespace SuggestBridge.Supervisor

open SuggestBridge.Task

variable {k : Text} {o : Owners} {s t : Supervisor} {task : Id} {r : Routine}
  {input : Outcome Value Failure}

lemma Yields.within {σ : Type} {parts : σ → List Part} {x y : Supervisor × Course σ}
    {wrap : σ → Routine} (h : Yields k o s t (courseParts parts) x y) (hP : Joint k o s t)
    (hwrap : ∀ {o' : Owners} {state : σ}, Owners.Grows k o o' → o'.Has k (parts state) →
      o'.Has k ((wrap state).parts o.cwd)) :
    Yields k o s t (courseParts (Routine.parts o.cwd)) (Supervisor.within wrap x)
      (Supervisor.within wrap y) :=
  h.andThen hP hwrap fun _ _ hout => .pure hout

lemma Owners.of_slot_eq {key : Text} (h : o.of (.slot key) = some k) : key = k := Option.some.inj h

namespace Joint

lemma proceed (h : Joint k o s t) (htask : o.of (.future task) = some k)
    (hr : o.Has k (r.parts o.cwd)) (hinput : o.Has k (outcomeParts input))
    (hlines : LinesOwned k o s t) :
    Yields k o s t (courseParts (Routine.parts o.cwd)) (s.proceed task r input)
      (t.proceed task r input) := by
  cases r with
  | startup project =>
    have hkey := (Owners.has_cons.1 hr).1
    exact (h.beginStartup (Owners.of_slot_eq hkey)).within h fun hg hstate =>
      Owners.has_cons.2 ⟨hkey, hstate⟩
  | startingUp project state =>
    obtain ⟨hkey, hstate⟩ := Owners.has_cons.1 hr
    exact (h.resumeStartup (Owners.of_slot_eq hkey) hstate input hlines).within h fun hg hstate =>
      Owners.has_cons.2 ⟨hkey, hstate⟩
  | readLine pid => exact h.readLine (Owners.has_cons.1 hr).1 hinput
  | reap pid => exact h.reap (Owners.has_cons.1 hr).1 hinput
  | drain key pid output => exact h.drain key (Owners.has_cons.1 hr).1 output hinput
  | watch n => exact h.watch (Owners.has_cons.1 hr).1 hinput
  | listen n => exact h.resumeListening (Owners.has_cons.1 hr).1 input
  | acquire project =>
    have hkey := (Owners.has_cons.1 hr).1
    exact (h.beginAcquiring (Owners.of_slot_eq hkey)).within h fun _ hstate => hstate
  | acquiring key u =>
    exact (h.resumeAcquiring htask (Owners.has_cons.1 hr).1 key hinput).within h
      fun _ hstate => hstate
  | call n method args =>
    have hn := (Owners.has_cons.1 hr).1
    exact (h.beginCall hn method args).within h fun hg hstate =>
      Owners.has_cons.2 ⟨hg.old hn, hstate⟩
  | calling n state =>
    obtain ⟨hn, hstate⟩ := Owners.has_cons.1 hr
    exact (h.resumeCall hn hstate input).within h fun hg hstate =>
      Owners.has_cons.2 ⟨hg.old hn, hstate⟩
  | close key =>
    obtain rfl := Owners.of_slot_eq (Owners.has_cons.1 hr).1
    exact h.beginClosing.within h fun _ hstate => hstate
  | closing c => exact (h.resumeClosing hr hinput).within h fun _ hstate => hstate
  | _ => cases (Owners.has_cons.1 hr).1

lemma follow (h : Joint k o s t) (htask : o.of (.future task) = some k) {progress : Course Routine}
    (hprogress : o.Has k (courseParts (Routine.parts o.cwd) progress)) :
    Parallel k o s t (s.follow task progress) (t.follow task progress) := by
  cases progress with
  | waits r future =>
    obtain ⟨hfuture, hr⟩ := Owners.has_cons.1 hprogress
    exact .kernel (h.machine.suspend htask hr hfuture)
  | ends out => exact .kernel (h.machine.finish htask hprogress)

/-- A task goes on with what it was given. -/
lemma followYields (h : Joint k o s t) (htask : o.of (.future task) = some k)
    {x y : Supervisor × Course Routine}
    (hxy : Yields k o s t (courseParts (Routine.parts o.cwd)) x y) :
    Parallel k o s t (x.1.follow task x.2) (y.1.follow task y.2) := by
  obtain ⟨o', s', t', progress, hx, hy, hacts, h', hparts⟩ := hxy.split h
  rw [hx, hy]
  refine hacts.andThen (h'.follow (hacts.grows.old htask) ?_)
  rw [hacts.grows.cwd]
  exact hparts

lemma resume (h : Joint k o s t) (htask : o.of (.future task) = some k)
    (hr : o.Has k (r.parts o.cwd)) (hinput : o.Has k (outcomeParts input))
    (hlines : LinesOwned k o s t) :
    Parallel k o s t (s.resume task r input) (t.resume task r input) :=
  h.followYields htask (h.proceed htask hr hinput hlines)

lemma begin (h : Joint k o s t) (htask : o.of (.future task) = some k)
    (hr : o.Has k (r.parts o.cwd)) (hlines : LinesOwned k o s t) :
    Parallel k o s t (s.begin task r) (t.begin task r) := by
  have hunit : o.Has k (outcomeParts (.value .unit)) := Owners.has_nil
  cases r with
  | listen n => exact h.followYields htask (h.beginListening (Owners.has_cons.1 hr).1)
  | _ => exact h.followYields htask (h.proceed htask hr hunit hlines)

lemma onHook (h : Joint k o s t) {hook : Hook} {source : Option Id}
    (hhook : o.Has k (activationParts o.cwd (.hook hook source))) :
    Parallel k o s t (s.onHook hook source) (t.onHook hook source) := by
  obtain ⟨hpart, hsource⟩ := Owners.has_cons.1 hhook
  unfold Supervisor.onHook
  split
  · obtain rfl := Owners.of_slot_eq hpart
    exact h.onStartupEnded (Owners.has_cons.1 hsource).1
  · exact .refl
  · exact h.act hpart
  · exact h.exit hpart _
  · exact h.receiveMessage hpart _

end Joint

end SuggestBridge.Supervisor
