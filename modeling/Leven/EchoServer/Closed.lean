import Leven.EchoServer.Timeout

/-!
# The closed connections of the echo server

A sweep closes a connection behind the closures that are queued already.  When it comes before the
events of the connection are dispatched, a write that is complete queues its closure behind the
close, and `onWriteComplete` starts the reader of a closed connection.

* `Timely`: a sweep does not come before the dispatch of a connection that has output;
* `Ordered`: the closures that wait behind the one of a close;
* `Down`: the parts of a closed connection that no step changes any more;
* `closed_for_good`: the law;
* `sweep_revives`: without the condition a closed connection is registered again.
-/

namespace Leven.EchoServer

open Transition

variable {timeout : ℤ} {threadId : Pid} {s s' : Hosted EchoServer} {r r' : Connection.Run}
  {lab : Application.Label Answer} {x : Answer} {e : Event} {l : List Event} {bound : ℕ} {due : Prop}
  {D : Hosted EchoServer → Application.Label Answer → Prop}

instance (x : Answer) (a : EchoServer) : Decidable (Due x a) :=
  match h : a.deadline with
  | some d => decidable_of_iff (d ≤ x.now) (by simp [Due, h])
  | none => isFalse (by simp [Due, h])

/-- A connection with output is not found due before its events are dispatched in the iteration. -/
def Timely (s : Hosted EchoServer) : Application.Label Answer → Prop
  | .onTimer x =>
    s.run.phase = .dispatch (some .close) → Due x s.app → s.run.conn.outputBuffer = []
  | .poll _ | .handle .. | .swap | .runJob .. | .endJobs => True

instance (s : Hosted EchoServer) : DecidablePred (Timely s) := fun lab =>
  match lab with
  | .onTimer _ => inferInstanceAs (Decidable (_ → _))
  | .poll _ | .handle .. | .swap | .runJob .. | .endJobs => isTrue trivial

/-- Nothing but closes waits behind a close, and a close that waits before the last stage of a
dispatch finds nothing to write. -/
structure Ordered (r : Connection.Run) : Prop where
  early : ∀ st, r.phase = .dispatch (some st) → .forceCloseInLoop ∈ r.queue →
    r.conn.state ≠ .kConnected ∧ r.conn.outputBuffer = []
  last : ∀ js ks, r.queue = js ++ .forceCloseInLoop :: ks → ∀ j ∈ ks, j = .forceCloseInLoop

theorem Ordered.of_notMem (h : .forceCloseInLoop ∉ r.queue) : Ordered r where
  early _ _ hm := absurd hm h
  last js ks he := by
    rw [he] at h
    simp at h

theorem Echoes.ordered (hq : Queued r) (ho : Ordered r) (h : Echoes bound due r r')
    (hdue : due → r.phase = .dispatch (some .close) → r.conn.outputBuffer = []) : Ordered r' := by
  cases h with
  | poll hp hp' hb =>
    refine .of_notMem ?_
    rw [hb.queue, hq.idle hp]
    simp
  | @stage st hp hp' hb =>
    refine ⟨fun st' _ hm => ?_, fun js ks he => ?_⟩
    · rw [hb.queue] at hm
      rw [hb.state, hb.outputBuffer]
      exact ho.early st hp hm
    · rw [hb.queue] at he
      exact ho.last js ks he
  | relay hp hp' hc hout hb =>
    refine .of_notMem fun hm => ?_
    rw [hb.queue, List.mem_append] at hm
    exact (ho.early _ hp (hm.resolve_right (by simp))).1 hc
  | @receive rest hp hp' hr hc hne hlen hb =>
    refine .of_notMem fun hm => ?_
    rw [hb.queue, List.mem_append] at hm
    refine (ho.early _ hp (hm.resolve_right fun hm => ?_)).1 hc
    rcases TcpConnection.highWater_cases rest r.conn with he | ⟨len, he⟩ <;> simp [he] at hm
  | write hp hp' hm hb | swap hp hp' hpend hb | endJobs hp hp' hj hb =>
    refine ⟨fun st hst => by simp [hp'] at hst, fun js ks he => ?_⟩
    rw [hb.queue] at he
    exact ho.last js ks he
  | drain hp hp' hne hb =>
    refine .of_notMem fun hm => ?_
    rw [hb.queue, List.mem_append] at hm
    exact hne (ho.early _ hp (hm.resolve_right (by simp))).2
  | highWater hp hp' hpend hj hb | writeComplete hp hp' hpend hj hb =>
    refine ⟨fun st hst => by simp [hp'] at hst, fun js ks he => ?_⟩
    rw [hb.queue] at he
    exact ho.last (_ :: js) ks (by rw [hj, he]; rfl)
  | timer hp hp' hb =>
    refine ⟨fun st hst hm => ?_, fun js ks he => ?_⟩
    · rw [hb.queue] at hm
      rw [hb.state, hb.outputBuffer]
      exact ho.early st (hp' ▸ hst) hm
    · rw [hb.queue] at he
      exact ho.last js ks he
  | forceClose hd hp hp' hb =>
    refine ⟨fun st hst _ => ?_, fun js ks he => ?_⟩
    · have hclose : r.phase = .dispatch (some .close) := by
        rcases hp with hp | hp
        · exact hp
        · simp [hp', hp] at hst
      rw [hb.state, hb.outputBuffer]
      exact ⟨by simp, hdue hd hclose⟩
    · rw [hb.queue] at he
      obtain ⟨g, hg, rfl⟩ | ⟨g, -, hg⟩ := append_eq_append_cons he
      · intro j hj
        rcases List.mem_append.1 hj with hj | hj
        · exact ho.last js g hg j hj
        · exact List.mem_singleton.1 hj
      · have hnil : g ++ .forceCloseInLoop :: ks = [] ++ [.forceCloseInLoop] := hg.symm
        obtain rfl : ks = [] := by
          have hlen := congrArg List.length hnil
          simp only [List.length_append, List.length_cons, List.length_nil] at hlen
          exact List.eq_nil_of_length_eq_zero (by omega)
        simp

/-- The next labels close what is due in time. -/
theorem Timely.output (ht : Timely s lab) :
    (∃ x, lab = .onTimer x ∧ Due x s.app) → s.run.phase = .dispatch (some .close) →
      s.run.conn.outputBuffer = [] := by
  rintro ⟨x, rfl, hdue⟩ hp
  exact ht hp hdue

theorem Ordered.of_reachable (hr : (system timeout threadId).ReachableIf Timely s)
    (hd : s.run.conn.state ≠ .kDisconnected) : Ordered s.run := by
  refine hr.invariant_of (I := fun s => s.run.conn.state ≠ .kDisconnected → Ordered s.run)
    (fun _ h => h) ?_ ?_ hd
  · rintro s ⟨k, fd, b, x, -, -, h⟩ -
    obtain rfl := notify_up h
    exact .of_notMem (by simp [Connection.Run.start, Connection.Run.queue])
  · intro s lab s' hreach hs ht h hd
    have hd₀ := Connection.ne_disconnected_of_run (Application.run_of_step h) hd
    have hi : Connection.Inv s.run := .of_reachable (Application.reachable_run hreach)
    have hq : Queued s.run := (Flowing.of_reachable hreach hd₀).queued
    have hecho := Echoes.of_step hi hq.writeComplete hq.mine (.of_step h) hd₀ hd
    exact hecho.ordered hq (hs hd₀) ht.output

/-! ### What stays -/

/-- The channel is registered for nothing, there is no entry, and only closes are left. -/
structure Down (s : Hosted EchoServer) : Prop where
  events : s.run.conn.channel.events = ∅
  deadline : s.app.deadline = none
  queue : ∀ j ∈ s.run.queue, j = .forceCloseInLoop

/-- The close of a connection behind which only closes wait. -/
theorem Down.of_handleClose {c c' : TcpConnection} {u : Hosted EchoServer} {m : List Event}
    (hc : c.handleClose = .ok (c', l)) (hu : u.run.conn = c')
    (hq : ∀ j ∈ u.run.queue, j = .forceCloseInLoop)
    (h : (application timeout).notifyLast threadId (m ++ l) x u = .next s') : Down s' := by
  obtain ⟨-, rfl, rfl⟩ := TcpConnection.handleClose_cases hc
  have hne : u.run.conn.state ≠ .kConnected := by simp [hu]
  have hn : (application timeout).notify threadId .closeCallback x u = .next s' := by
    simpa [Application.notifyLast] using h
  obtain rfl := notify_down (.inr rfl) hne hn
  exact ⟨by rw [hu]; rfl, rfl, hq⟩

theorem ne_disconnected_of_notifyLast {u : Hosted EchoServer}
    (h : (application timeout).notifyLast threadId l x u = .next s')
    (hd : u.run.conn.state ≠ .kDisconnected) : s'.run.conn.state ≠ .kDisconnected := by
  obtain ⟨e, -, -, h⟩ | rfl := Application.notifyLast_cases h
  · rw [Application.notify_eq] at h
    exact Hosted.ne_disconnected_of_calls h hd
  · exact hd

/-- The step that closes: the closures that wait are closes, whichever function it is. -/
theorem Down.of_step (hq : Queued s.run) (ho : Ordered s.run)
    (h : Application.Step (application timeout) threadId s lab s')
    (hd₀ : s.run.conn.state ≠ .kDisconnected) (hd : s'.run.conn.state = .kDisconnected) :
    Down s' := by
  cases h with
  | poll h =>
    cases h with
    | idle _ | poll _ _ => exact absurd hd hd₀
  | swap _ | endJobs _ _ => exact absurd hd hd₀
  | @handle extrabuf rd w x st c l u s' hp hf h hn =>
    -- before the last stage no notice waits
    have hearly : st ≠ .write → ∀ j ∈ s.run.queue, j = .forceCloseInLoop := by
      intro hst j hj
      have hnil := hq.early st hp hst
      obtain rfl | rfl | ⟨len, rfl⟩ := hq.mine j hj
      · rfl
      · exact absurd hnil (List.ne_nil_of_mem (List.mem_filterMap.2 ⟨_, hj, rfl⟩))
      · exact absurd hnil (List.ne_nil_of_mem (List.mem_filterMap.2 ⟨_, hj, rfl⟩))
    cases TcpConnection.StageStep.of_handleStage h with
    | idle => exact absurd hd (ne_disconnected_of_notifyLast hn hd₀)
    | close hm hclose =>
      have hqueued : queued l = [] := by
        obtain ⟨-, -, rfl⟩ := TcpConnection.handleClose_cases hclose
        simp
      refine Down.of_handleClose (m := []) hclose rfl ?_ hn
      simpa [Connection.Run.queue, hqueued] using hearly (by simp)
    | read hm hread =>
      obtain ⟨-, ⟨rfl, rfl⟩ | ⟨m, hclose, rfl⟩ | ⟨bytes, rfl, rfl⟩⟩ :=
        TcpConnection.handleRead_cases hread
      · exact absurd hd (ne_disconnected_of_notifyLast hn hd₀)
      · have hqueued : queued m = [] := by
          obtain ⟨-, -, rfl⟩ := TcpConnection.handleClose_cases hclose
          simp
        refine Down.of_handleClose (m := [.readFd]) hclose rfl ?_ hn
        simpa [Connection.Run.queue, hqueued] using hearly (by simp)
      · exact absurd hd (ne_disconnected_of_notifyLast hn hd₀)
    | write hm hwrite =>
      obtain ⟨hc, -, -⟩ | ⟨-, -, ⟨e, -, rfl, rfl⟩ | ⟨i, -, -, rfl, rfl⟩ | ⟨i, -, -, rfl, rfl⟩⟩ :=
        TcpConnection.handleWrite_cases hwrite
      · exact absurd hc hd₀
      all_goals exact absurd hd (ne_disconnected_of_notifyLast hn hd₀)
  | @runJob w x j js c l s' hp hj h hn =>
    have hqueue : s.run.queue = [] ++ j :: (js ++ s.run.pendingJobs) := by
      simp [Connection.Run.queue, hj]
    obtain rfl | rfl | ⟨len, rfl⟩ := hq.mine j (by simp [hqueue])
    · obtain ⟨-, hclose⟩ | ⟨hc, -, -⟩ := TcpConnection.forceCloseInLoop_cases h
      · have hqueued : queued l = [] := by
          obtain ⟨-, -, rfl⟩ := TcpConnection.handleClose_cases hclose
          simp
        refine Down.of_handleClose (m := []) hclose rfl ?_ hn
        simpa [Connection.Run.queue, hqueued] using ho.last _ _ hqueue
      · exact absurd hc hd₀
    · cases h
      exact absurd hd (ne_disconnected_of_notifyLast hn hd₀)
    · cases h
      exact absurd hd (ne_disconnected_of_notifyLast hn hd₀)
  | @onTimer x s' hp h =>
    exact absurd hd (Hosted.ne_disconnected_of_calls h hd₀)

/-- A closed connection stays as it is. -/
theorem Down.step (hi : Connection.Inv s.run) (hs : Down s)
    (h : Application.Step (application timeout) threadId s lab s')
    (hd : s.run.conn.state = .kDisconnected) : Down s' := by
  cases h with
  | poll h =>
    cases h with
    | idle _ => exact ⟨hs.events, hs.deadline, hs.queue⟩
    | poll hp hm => exact ⟨hs.events, hs.deadline, hs.queue⟩
  | swap hp =>
    refine ⟨hs.events, hs.deadline, fun j hj => hs.queue j ?_⟩
    simpa [Connection.Run.queue, hi.batch (by simp [hp])] using hj
  | endJobs hp hj => exact ⟨hs.events, hs.deadline, hs.queue⟩
  | @handle extrabuf rd w x st c l u s' hp hf h hn =>
    have hsame : c.channel.events = s.run.conn.channel.events ∧ l = [] := by
      cases TcpConnection.StageStep.of_handleStage h with
      | idle => exact ⟨rfl, rfl⟩
      | close hm hclose =>
        obtain ⟨hc | hc, -, -⟩ := TcpConnection.handleClose_cases hclose
        · simp [hd] at hc
        · simp [hd] at hc
      | read hm hread => exact absurd hd (TcpConnection.handleRead_cases hread).1
      | write hm hwrite =>
        obtain ⟨-, rfl, rfl⟩ | ⟨hc, -⟩ := TcpConnection.handleWrite_cases hwrite
        · exact ⟨rfl, rfl⟩
        · exact absurd hd hc
    obtain ⟨hevents, rfl⟩ := hsame
    obtain rfl := Application.notifyLast_quiet (by simp) hn
    refine ⟨hevents.trans hs.events, ?_, ?_⟩
    · dsimp only
      rw [(Hosted.fill_run hf).2]
      exact hs.deadline
    · simpa [Connection.Run.queue] using hs.queue
  | @runJob w x j js c l s' hp hj h hn =>
    have hqueue : s.run.queue = j :: (js ++ s.run.pendingJobs) := by
      simp [Connection.Run.queue, hj]
    obtain rfl := hs.queue j (by simp [hqueue])
    obtain ⟨hc, -⟩ | ⟨-, rfl, rfl⟩ := TcpConnection.forceCloseInLoop_cases h
    · exact absurd hd hc
    · obtain rfl := Application.notifyLast_quiet (by simp) hn
      refine ⟨hs.events, hs.deadline, fun j hj => hs.queue j ?_⟩
      rw [hqueue]
      exact List.mem_cons_of_mem _ (by simpa [Connection.Run.queue] using hj)
  | @onTimer x s' hp h =>
    change Hosted.calls threadId (onTimeout x s.app).1 _ = _ at h
    obtain ⟨⟨d, hdue, -⟩, -⟩ | ⟨-, he⟩ := onTimeout_cases x s.app
    · simp [hs.deadline] at hdue
    · have happ := Hosted.calls_app h
      rw [he] at h
      obtain rfl := Hosted.calls_nil.1 h
      refine ⟨hs.events, ?_, hs.queue⟩
      rw [happ]
      exact (congrArg (fun p : List Op × EchoServer => p.2.deadline) he).trans hs.deadline

/-- **Closed for good.**  In every run in which no sweep comes before the dispatch of a connection
that has output and is due: a closed connection is not registered, `connections_` has no entry for
it, and nothing but closes waits for it. -/
theorem closed_for_good (hr : (system timeout threadId).ReachableIf Timely s)
    (hd : s.run.conn.state = .kDisconnected) :
    s.run.conn.channel.polling = false ∧ s.run.conn.channel.events = ∅ ∧
      s.app.deadline = none ∧ ∀ j ∈ s.run.queue, j = .forceCloseInLoop := by
  have hdown : Down s := by
    refine hr.invariant_of (I := fun s => s.run.conn.state = .kDisconnected → Down s)
      (fun _ h => h) ?_ ?_ hd
    · rintro s ⟨k, fd, b, x, -, -, h⟩ hd
      obtain rfl := notify_up h
      simp [Connection.Run.start] at hd
    · intro s lab s' hreach hs ht h hd
      have hi : Connection.Inv s.run := .of_reachable (Application.reachable_run hreach)
      by_cases hd₀ : s.run.conn.state = .kDisconnected
      · exact (hs hd₀).step hi (.of_step h) hd₀
      · exact .of_step (Flowing.of_reachable hreach hd₀).queued (.of_reachable hreach hd₀)
          (.of_step h) hd₀ hd
  have hi : Connection.Inv s.run := .of_reachable (Application.reachable_run hr)
  refine ⟨?_, hdown.events, hdown.deadline, hdown.queue⟩
  by_contra hp
  exact hi.synced.2.1 (by simpa using hp) hdown.events

/-- An idle connection that is swept while its socket is not ready. -/
theorem closed_for_good_idle :
    ∃ s : Hosted EchoServer, (system 5 0).ReachableIf Timely s ∧
      (s.run.phase = .poll ∧ s.run.conn.state = .kDisconnected) ∧
      s.run.conn.channel.polling = false ∧ s.run.conn.channel.events = ∅ ∧
        s.app.deadline = none ∧ ∀ j ∈ s.run.queue, j = .forceCloseInLoop := by
  let x : Answer := ⟨.wrote 0, 6⟩
  obtain ⟨s, hr, hp, hd⟩ := Application.exists_reachableIf (application 5) 0 5
    (x := ⟨.wrote 0, 0⟩) (D := Timely)
    (w := [.swap, .endJobs, .poll none, .onTimer x, .swap, .runJob (.wrote 0) x, .endJobs])
    (P := fun s => s.run.phase = .poll ∧ s.run.conn.state = .kDisconnected) (by decide +kernel)
  exact ⟨s, hr, ⟨hp, hd⟩, closed_for_good hr hd⟩

/-! ### A closed connection that is registered again -/

/-- The iteration in which the sweep comes first, and then all the output is written. -/
def revivingRun (extrabuf : Buffer.ExtraBuf) (m : ℕ) (x : Answer) :
    List (Application.Label Answer) :=
  [.poll (some {.epollout}), .onTimer x, .handle extrabuf (.data []) (.wrote m) x,
    .handle extrabuf (.data []) (.wrote m) x, .handle extrabuf (.data []) (.wrote m) x,
    .handle extrabuf (.data []) (.wrote m) x, .swap, .runJob (.wrote m) x, .runJob (.wrote m) x,
    .endJobs]

/-- The close of a connection that is being closed. -/
theorem exists_runJob_forceClose (timeout : ℤ) (threadId : Pid) (w : WriteResult) (x : Answer)
    {js : List Job} (hi : Connection.Inv s.run) (hc : s.run.conn.state = .kDisconnecting)
    (hp : s.run.phase = .jobs) (hj : s.run.jobs = .forceCloseInLoop :: js) :
    ∃ s', (system timeout threadId).step s (.runJob w x) = .next s' ∧
      s'.run.conn.state = .kDisconnected ∧ s'.run.conn.channel.events = ∅ ∧
      s'.run.phase = .jobs ∧ s'.run.jobs = js ∧ s'.run.pendingJobs = s.run.pendingJobs := by
  have hd : s.run.conn.state ≠ .kDisconnected := by simp [hc]
  cases hclose : s.run.conn.handleClose with
  | error a => exact absurd hc (TcpConnection.handleClose_error hi.sound hclose).2.2
  | ok p =>
    obtain ⟨c, l⟩ := p
    have hjob : s.run.conn.runJob .forceCloseInLoop w = .ok (c, l) := by
      simp [TcpConnection.runJob, TcpConnection.forceCloseInLoop, hd, hclose]
    obtain ⟨-, rfl, rfl⟩ := TcpConnection.handleClose_cases hclose
    refine ⟨_, Application.step_runJob hp hj hjob rfl, rfl, rfl, hp, rfl, ?_⟩
    simp

/-- The sweep of a connection that is due. -/
theorem exists_sweep (timeout : ℤ) (threadId : Pid) (hp : s.run.phase = .dispatch (some .close))
    (hd : s.run.conn.state ≠ .kDisconnected) (hdue : Due x s.app) :
    ∃ s', (system timeout threadId).step s (.onTimer x) = .next s' ∧
      s'.run.phase = .dispatch (some .close) ∧
      s'.run.conn = { s.run.conn with state := .kDisconnecting } ∧
      s'.run.queue = s.run.queue ++ [.forceCloseInLoop] := by
  obtain ⟨-, he⟩ | ⟨hne, -⟩ := onTimeout_cases x s.app
  · have hcall : s.run.conn.call true threadId s.run.calls .forceClose =
        .ok ({ s.run.conn with state := .kDisconnecting }, [.queueInLoop .forceCloseInLoop]) := by
      simp [TcpConnection.call, TcpConnection.forceClose, hd]
    have hcalls : Hosted.calls threadId (onTimeout x s.app).1
        { s with app := (onTimeout x s.app).2 } =
        .next { s with
          run := { s.run with calls := s.run.calls + 1 }.apply
            { s.run.conn with state := .kDisconnecting } [.queueInLoop .forceCloseInLoop]
          app := { s.app with deadline := none, swept := some x.now } } := by
      rw [he]
      exact Hosted.calls_cons.2 ⟨_, Hosted.call_of_ok (by simp [hp]) hcall rfl, rfl⟩
    refine ⟨_, Outcome.guard_eq_next.2 ⟨.inl hp, hcalls⟩, hp, rfl, ?_⟩
    simp [Connection.Run.queue]
  · exact absurd hdue hne

/-- The stages before the one that reads. -/
theorem exists_handle_epollin {t : Hosted EchoServer} {st : Stage} (timeout : ℤ) (threadId : Pid)
    (extrabuf : Buffer.ExtraBuf) (rd : ReadResult) (w : WriteResult) (x : Answer)
    (hm : t.run.conn.channel.revents = {.epollin}) (hd : t.run.conn.state = .kDisconnected)
    (hp : t.run.phase = .dispatch (some st)) (hst : st = .close ∨ st = .error) :
    ∃ u, (system timeout threadId).step t (.handle extrabuf rd w x) = .next u ∧
      u.run.phase = .dispatch st.next ∧ u.run.conn.channel.revents = {.epollin} ∧
      u.run.conn.state = .kDisconnected := by
  have hfills : ¬ t.Fills := fun hf => hf.2 hd
  have hstage : ∃ b, t.run.conn.handleStage st rd w =
      .ok ({ t.run.conn with channel := { t.run.conn.channel with handlingEvents := b } }, []) := by
    rcases hst with rfl | rfl
    · exact ⟨true, if_neg (by simp [hm])⟩
    · exact ⟨t.run.conn.channel.handlingEvents, if_neg (by simp [hm])⟩
  obtain ⟨b, hb⟩ := hstage
  exact ⟨_, Application.step_handle_of_quiet hp hfills hb (by simp), rfl, hm, hd⟩

/-- The next report of a byte trips the assertion of `handleRead`. -/
theorem exec_readable {t : Hosted EchoServer} (timeout : ℤ) (threadId : Pid)
    (extrabuf : Buffer.ExtraBuf) (rd : ReadResult) (w : WriteResult) (x : Answer)
    (hi : Connection.Inv t.run) (hp : t.run.phase = .poll)
    (hd : t.run.conn.state = .kDisconnected) (hr : t.run.conn.channel.isReading) :
    (system timeout threadId).exec t [.poll (some {.epollin}), .handle extrabuf rd w x,
      .handle extrabuf rd w x, .handle extrabuf rd w x] = .failed (.connection .handleRead) := by
  have hpolling : t.run.conn.channel.polling = true :=
    hi.synced.2.2 (Finset.ne_empty_of_mem hr)
  have hrep : Reportable (t.run.interest t.run.conn.channel.fd) {.epollin} := by
    rw [hi.synced.1, if_pos hpolling]
    exact Finset.singleton_subset_iff.2 (Finset.mem_union_left _ hr)
  have h₀ : (system timeout threadId).step t (.poll (some {.epollin})) =
      .next { t with run := t.run.setRevents {.epollin} } :=
    Application.step_poll hp hrep
  obtain ⟨u, h₁, hp₁, hm₁, hd₁⟩ :=
    exists_handle_epollin (t := { t with run := t.run.setRevents {.epollin} }) timeout threadId
      extrabuf rd w x rfl hd rfl (.inl rfl)
  obtain ⟨v, h₂, hp₂, hm₂, hd₂⟩ :=
    exists_handle_epollin timeout threadId extrabuf rd w x hm₁ hd₁ hp₁ (.inr rfl)
  have hread : v.run.conn.handleStage .read rd w = .error .handleRead := by
    simp [TcpConnection.handleStage, hm₂, TcpConnection.handleRead, hd₂]
  have h₃ : (system timeout threadId).step v (.handle extrabuf rd w x) =
      .failed (.connection .handleRead) := by
    have hfills : ¬ v.Fills := fun hf => hf.2 hd₂
    refine Outcome.bind_eq_failed.2 (.inr ⟨v, if_neg hfills, Outcome.bind_eq_failed.2 (.inl ?_)⟩)
    refine Outcome.bind_eq_failed.2 (.inl (Outcome.mapFailed_eq_failed.2 ⟨_, ?_, rfl⟩))
    simp only [Connection.step, hp₂]
    exact Connection.perform_eq_failed.2 hread
  rw [System.exec_cons h₀, System.exec_cons h₁, System.exec_cons h₂, System.exec, h₃]
  rfl

/-- **A sweep that comes first brings a closed connection back.**  From every state of a run in
which the loop is about to wait and a connection has output: when the connection is due, the sweep
comes before its events, and the kernel takes all the output, the iteration ends with the connection
closed and yet registered for reading, and with a new entry in `connections_`; the next byte stops
the server. -/
theorem sweep_revives (hr : (system timeout threadId).ReachableIf D s) (hp : s.run.phase = .poll)
    (hd : s.run.conn.state ≠ .kDisconnected) (ho : s.run.conn.outputBuffer ≠ [])
    (hdue : Due x s.app) (extrabuf : Buffer.ExtraBuf) {m : ℕ}
    (hm : s.run.conn.outputBuffer.length ≤ m) :
    ∃ s', (system timeout threadId).exec s (revivingRun extrabuf m x) = .next s' ∧
      s'.run.phase = .poll ∧ s'.run.conn.state = .kDisconnected ∧
      s'.run.conn.channel.polling = true ∧ s'.run.conn.channel.isReading ∧
      s'.app.deadline = some (x.now + timeout) ∧
      ∀ rd w y, (system timeout threadId).exec s' [.poll (some {.epollin}),
        .handle extrabuf rd w y, .handle extrabuf rd w y, .handle extrabuf rd w y] =
          .failed (.connection .handleRead) := by
  have h₀ := step_poll_epollout hr hp hd ho
  obtain ⟨s₁, h₁, hp₁, hc₁, hq₁⟩ := exists_sweep
    (s := { s with run := s.run.setRevents {.epollout} }) timeout threadId rfl hd hdue
  have hr₁ : (system timeout threadId).Reachable s₁ :=
    ((hr.mono fun _ _ _ => trivial).step trivial h₀).step trivial h₁
  have hst₁ : s₁.run.conn.state = .kDisconnecting := by rw [hc₁]
  have hm₁ : s₁.run.conn.channel.revents = {.epollout} := by
    rw [hc₁]
    rfl
  have hlen : s₁.run.conn.outputBuffer.length ≤ m := by
    rw [hc₁]
    exact hm
  have hw : Waits s₁ s₁ := ⟨hm₁, rfl, rfl, rfl, rfl, rfl, rfl⟩
  obtain ⟨s₂, h₂, hp₂, hst₂, hjobs, ho₂, -⟩ :=
    hw.dispatch hr₁ hp₁ (by simp [hst₁]) extrabuf x hlen
  have hr₂ : (system timeout threadId).Reachable s₂ := hr₁.run (System.runIf_of_exec h₂)
  -- the close comes first, and then the closure of `handleWrite`
  have hidle : (s.run.setRevents {.epollout}).queue = [] :=
    (Flowing.of_reachable hr hd).queued.idle hp
  have h₃ : (system timeout threadId).step s₂ .swap = .next { s₂ with run :=
      { s₂.run with jobs := s₂.run.pendingJobs, pendingJobs := [], phase := .jobs } } :=
    Application.step_swap hp₂
  rw [hjobs, hq₁, hidle, List.nil_append, List.singleton_append] at h₃
  have hr₃ := hr₂.step trivial h₃
  obtain ⟨s₄, h₄, hst₄, hev₄, hp₄, hj₄, hpend₄⟩ := exists_runJob_forceClose timeout threadId
    (.wrote m) x (.of_reachable (Application.reachable_run hr₃)) (hst₂.trans hst₁) rfl rfl
  obtain ⟨s₅, h₅, hb, hp₅, -, hdl⟩ :=
    exists_runJob_writeComplete timeout threadId (.wrote m) x hp₄ hj₄
  have hnot : ¬ s₄.run.conn.channel.isReading := by simp [Channel.isReading, hev₄]
  have h₆ : (system timeout threadId).step s₅ .endJobs =
      .next { s₅ with run := { s₅.run with phase := .poll } } :=
    Application.step_endJobs hp₅ (List.append_eq_nil_iff.1 (hb.queue.trans hpend₄)).1
  have hr₆ := ((hr₃.step trivial h₄).step trivial h₅).step trivial h₆
  have hi := Connection.Inv.of_reachable (Application.reachable_run hr₆)
  have hread : s₅.run.conn.channel.isReading := hb.reading.2 trivial
  have hst₅ : s₅.run.conn.state = .kDisconnected := hb.state.trans hst₄
  refine ⟨{ s₅ with run := { s₅.run with phase := .poll } }, ?_, rfl, hst₅,
    hi.synced.2.2 (Finset.ne_empty_of_mem hread), hread, hdl hnot,
    fun rd w y => exec_readable timeout threadId extrabuf rd w y hi rfl hst₅ hread⟩
  change (system timeout threadId).exec s
    (_ :: _ :: (List.replicate 4 (.handle extrabuf (.data []) (.wrote m) x) ++ [_, _, _, _])) = _
  rw [System.exec_cons h₀, System.exec_cons h₁, System.exec_append_of_exec h₂,
    System.exec_cons h₃, System.exec_cons h₄, System.exec_cons h₅, System.exec_cons h₆]
  rfl

/-- A connection with a byte of output, which the kernel takes after the sweep. -/
theorem sweep_revives_byte :
    ∃ s : Hosted EchoServer, (system 5 0).Reachable s ∧
      (s.run.phase = .poll ∧ s.run.conn.outputBuffer = [1] ∧ s.app.deadline = some 5) ∧
      ∃ extrabuf s', (system 5 0).exec s (revivingRun extrabuf 1 ⟨.wrote 0, 6⟩) = .next s' ∧
        s'.run.phase = .poll ∧ s'.run.conn.state = .kDisconnected ∧
        s'.run.conn.channel.polling = true ∧ s'.run.conn.channel.isReading ∧
        s'.app.deadline = some (6 + 5) ∧
        ∀ rd w y, (system 5 0).exec s' [.poll (some {.epollin}), .handle extrabuf rd w y,
          .handle extrabuf rd w y, .handle extrabuf rd w y] = .failed (.connection .handleRead) := by
  let extrabuf : Buffer.ExtraBuf := ⟨List.replicate Buffer.sizeofExtrabuf 0, List.length_replicate⟩
  let x : Answer := ⟨.wrote 0, 0⟩
  let handle : Application.Label Answer := .handle extrabuf (.data [1]) (.wrote 0) x
  obtain ⟨s, hr, hp, hc, ho, hdl⟩ := Application.exists_reachableIf (application 5) 0 5 (x := x)
    (D := fun _ _ => True)
    (w := [.swap, .endJobs, .poll (some {.epollin}), handle, handle, handle, handle, .swap,
      .endJobs])
    (P := fun s => s.run.phase = .poll ∧ s.run.conn.state = .kConnected ∧
      s.run.conn.outputBuffer = [1] ∧ s.app.deadline = some 5) (by decide +kernel)
  exact ⟨s, hr, ⟨hp, ho, hdl⟩, extrabuf, sweep_revives hr hp (by simp [hc]) (by simp [ho])
    ⟨5, hdl, by decide⟩ extrabuf (by simp [ho])⟩

end Leven.EchoServer
