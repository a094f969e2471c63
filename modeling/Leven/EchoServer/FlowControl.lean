import Leven.EchoServer.Basic
import Leven.Transition.Backpressure

/-!
# The flow control of the echo server

As long as a connection is not closed, the echo server on it is a reader with a high-water mark, as
in `Transition.Backpressure`: the level is the length of the output buffer, and the notices are the
high-water-mark and write-complete closures that wait.

* `Queued`: which closures wait, and when;
* `view`: the reader that a connection is, and `Echoes.refines`, the steps of the one as steps of
  the other;
* `drain_resumes`: the iteration that writes all the output ends with the reader started;
* `flow_resumes`: reading is never stopped for good.
-/

namespace Leven.EchoServer

open Transition

/-- The notices among the closures. -/
def notices (js : List Job) : List Backpressure.Notice :=
  js.filterMap fun
    | .highWaterMark _ => some .high
    | .writeComplete => some .drained
    | _ => none

/-- The reader that a connection is. -/
def view (r : Connection.Run) : Backpressure.State :=
  ⟨decide r.conn.channel.isReading, r.conn.outputBuffer.length, notices r.queue⟩

@[simp] theorem notices_nil : notices [] = [] := rfl

@[simp] theorem notices_append (js ks : List Job) :
    notices (js ++ ks) = notices js ++ notices ks := List.filterMap_append

@[simp] theorem notices_highWaterMark (len : ℕ) (js : List Job) :
    notices (.highWaterMark len :: js) = .high :: notices js := rfl

@[simp] theorem notices_writeComplete (js : List Job) :
    notices (.writeComplete :: js) = .drained :: notices js := rfl

@[simp] theorem notices_forceClose (js : List Job) :
    notices (.forceCloseInLoop :: js) = notices js := rfl

/-- The closures of the server. -/
def Mine (j : Job) : Prop :=
  j = .forceCloseInLoop ∨ j = .writeComplete ∨ ∃ len, j = .highWaterMark len

/-- Both callbacks are set; the closures of the server wait, and only the one of `forceClose` before
the message of an iteration; none is left when the iteration is over. -/
structure Queued (r : Connection.Run) : Prop where
  writeComplete : r.conn.writeCompleteCallback = true
  highWater : r.conn.highWaterMarkCallback = true
  mark : r.conn.highWaterMark = mark
  mine : ∀ j ∈ r.queue, Mine j
  early : ∀ st, r.phase = .dispatch (some st) → st ≠ .write → notices r.queue = []
  idle : r.phase = .poll → r.queue = []
  pending : r.phase = .jobs → r.pendingJobs = []
  closing : r.conn.state = .kDisconnecting → .forceCloseInLoop ∈ r.queue

variable {r r' : Connection.Run} {bound : ℕ} {due : Prop} {state : ConnectionState} {reading : Prop}
  {outputBuffer : Bytes} {queue : List Job}

theorem Becomes.queued (hq : Queued r) (hb : Becomes r r' state reading outputBuffer queue)
    (hmine : ∀ j ∈ queue, Mine j)
    (hearly : ∀ st, r'.phase = .dispatch (some st) → st ≠ .write → notices queue = [])
    (hidle : r'.phase = .poll → queue = []) (hpending : r'.phase = .jobs → r'.pendingJobs = [])
    (hclosing : state = .kDisconnecting → .forceCloseInLoop ∈ queue) : Queued r' where
  writeComplete := hb.writeComplete.trans hq.writeComplete
  highWater := hb.highWater.trans hq.highWater
  mark := hb.mark.trans hq.mark
  mine := by rwa [hb.queue]
  early := by rwa [hb.queue]
  idle := by rwa [hb.queue]
  pending := hpending
  closing := by rwa [hb.queue, hb.state]

theorem mine_append (hq : Queued r) {js : List Job} (hjs : ∀ j ∈ js, Mine j) :
    ∀ j ∈ r.queue ++ js, Mine j := by
  intro j hj
  rcases List.mem_append.1 hj with hj | hj
  · exact hq.mine j hj
  · exact hjs j hj

theorem Echoes.queued (hq : Queued r) (h : Echoes bound due r r') : Queued r' := by
  cases h with
  | poll hp hp' hb =>
    have hnil := hq.idle hp
    refine hb.queued hq hq.mine ?_ ?_ ?_ hq.closing
    · simp [hnil]
    · simp [hnil]
    · rcases hp' with hp' | hp' <;> simp [hp']
  | @stage st hp hp' hb =>
    refine hb.queued hq hq.mine ?_ ?_ ?_ hq.closing
    · intro st' hst' hne
      refine hq.early st hp ?_
      rintro rfl
      simp [hp', Stage.next] at hst'
    · simp [hp']
    · simp [hp']
  | relay hp hp' hc ho hb =>
    refine hb.queued hq ?_ ?_ ?_ ?_ fun hc => List.mem_append_left _ (hq.closing hc)
    · exact mine_append hq (by simp [Mine])
    · simp [hp']
    · simp [hp']
    · simp [hp']
  | @receive rest hp hp' hr hc hne hlen hb =>
    refine hb.queued hq ?_ ?_ ?_ ?_ fun hc => List.mem_append_left _ (hq.closing hc)
    · refine mine_append hq fun j hj => ?_
      rcases TcpConnection.highWater_cases rest r.conn with he | ⟨len, he⟩
      · simp [he] at hj
      · exact .inr (.inr ⟨len, by simpa [he] using hj⟩)
    · simp [hp']
    · simp [hp']
    · simp [hp']
  | write hp hp' hm hb =>
    refine hb.queued hq hq.mine ?_ ?_ ?_ hq.closing
    · simp [hp']
    · simp [hp']
    · simp [hp']
  | drain hp hp' ho hb =>
    refine hb.queued hq ?_ ?_ ?_ ?_ fun hc => List.mem_append_left _ (hq.closing hc)
    · exact mine_append hq (by simp [Mine])
    · simp [hp']
    · simp [hp']
    · simp [hp']
  | swap hp hp' hpend hb =>
    refine hb.queued hq hq.mine ?_ ?_ (fun _ => hpend) hq.closing
    · simp [hp']
    · simp [hp']
  | highWater hp hp' hpend hj hb | writeComplete hp hp' hpend hj hb =>
    refine hb.queued hq (fun j hm => hq.mine j (by simp [hj, hm])) ?_ ?_ ?_ fun hc => ?_
    · simp [hp']
    · simp [hp']
    · exact fun _ => hpend.trans (hq.pending hp)
    · simpa [hj] using hq.closing hc
  | endJobs hp hp' hj hb =>
    refine hb.queued hq hq.mine ?_ ?_ ?_ hq.closing
    · simp [hp']
    · simp [Connection.Run.queue, hj, hq.pending hp]
    · simp [hp']
  | timer hp hp' hb =>
    refine hb.queued hq hq.mine ?_ ?_ ?_ hq.closing
    · exact fun st hst => hq.early st (hp' ▸ hst)
    · exact fun hpoll => hq.idle (hp' ▸ hpoll)
    · rcases hp with hp | hp <;> simp [hp', hp]
  | forceClose hdue hp hp' hb =>
    refine hb.queued hq (mine_append hq (by simp [Mine])) ?_ ?_ ?_ (by simp)
    · intro st hst hne
      simp [hq.early st (hp' ▸ hst) hne]
    · rcases hp with hp | hp <;> simp [hp', hp]
    · rcases hp with hp | hp <;> simp [hp', hp]

/-! ### The reader that a connection is -/

theorem Becomes.view [Decidable reading] (hb : Becomes r r' state reading outputBuffer queue) :
    view r' = ⟨decide reading, outputBuffer.length, notices queue⟩ := by
  simp only [EchoServer.view, hb.reading, hb.outputBuffer, hb.queue]

theorem Rests.view (hb : Rests r r') : view r' = view r := Becomes.view hb

/-- The closure of `sendInLoop` is queued with the step across the mark. -/
theorem notices_highWater (hq : Queued r) (rest : Bytes) :
    notices (Leven.queued (r.conn.highWater rest)) =
      Backpressure.crossing mark r.conn.outputBuffer.length
        (r.conn.outputBuffer.length + rest.length) := by
  simp only [TcpConnection.highWater, Backpressure.crossing, hq.highWater, hq.mark, true_and,
    ge_iff_le]
  split_ifs <;> rfl

variable {C : Backpressure.State → Backpressure.Label → Prop}

/-- **A step of the connection is none or one of the reader.** -/
theorem Echoes.refines (hq : Queued r) (h : Echoes bound due r r')
    (hreceive : ∀ n, r.EntersHandleRead → n ≤ bound → C (view r) (.receive n))
    (hother : ∀ v lab, (∀ n, lab ≠ .receive n) → C v lab) :
    (Backpressure.system mark).RunIf C (view r) (view r') := by
  cases h with
  | poll hp hp' hb | stage hp hp' hb | swap hp hp' hpend hb | endJobs hp hp' hj hb
  | timer hp hp' hb =>
    rw [hb.view]
    exact .refl
  | relay hp hp' hc ho hb =>
    refine .single ⟨.relay, hother _ _ (by simp), ?_⟩
    have hnil := hq.early _ hp (by simp)
    rw [hb.view, notices_append, hnil]
    refine Outcome.guard_eq_next.2 ⟨⟨?_, hnil⟩, ?_⟩
    · simp [view, ho]
    · simp [view, ho]
  | @receive rest hp hp' hr hc hne hlen hb =>
    refine .single ⟨.receive rest.length, hreceive _ hr hlen, ?_⟩
    have hnil := hq.early _ hp (by simp)
    rw [hb.view, notices_append, hnil, notices_highWater hq, List.nil_append, List.length_append]
    exact Outcome.guard_eq_next.2 ⟨⟨List.length_pos_of_ne_nil hne, hnil⟩, rfl⟩
  | @write m hp hp' hm hb =>
    refine .single ⟨.write m, hother _ _ (by simp), ?_⟩
    rw [hb.view, List.length_drop]
    exact Outcome.guard_eq_next.2 ⟨hm, rfl⟩
  | drain hp hp' ho hb =>
    refine .single ⟨.drain, hother _ _ (by simp), ?_⟩
    rw [hb.view, notices_append]
    exact Outcome.guard_eq_next.2 ⟨List.length_pos_of_ne_nil ho, rfl⟩
  | highWater hp hp' hpend hj hb =>
    refine .single ⟨.notice, hother _ _ (by simp), ?_⟩
    rw [hb.view]
    simp [Backpressure.system, Backpressure.step, view, hj]
  | writeComplete hp hp' hpend hj hb =>
    refine .single ⟨.notice, hother _ _ (by simp), ?_⟩
    rw [hb.view]
    simp [Backpressure.system, Backpressure.step, view, hj]
  | forceClose hdue hp hp' hb =>
    have hv : view r' = view r := by
      rw [hb.view, notices_append]
      simp [view]
    rw [hv]
    exact .refl

/-! ### The runs -/

variable {timeout : ℤ} {threadId : Pid} {s s' : Hosted EchoServer} {x : Answer}
  {D : Hosted EchoServer → Application.Label Answer → Prop}

/-- The closures of the server wait, and the connection has come here as a reader does. -/
structure Flowing (C : Backpressure.State → Backpressure.Label → Prop) (r : Connection.Run) :
    Prop where
  queued : Queued r
  reader : (Backpressure.system mark).ReachableIf C (view r)

/-- The up callback. -/
theorem notify_up {k : Interest} {fd : Fd} {b : Buffer}
    (h : (application timeout).notify threadId .up x ((application timeout).accept k fd b) =
      .next s) :
    s = { run := { Connection.Run.start k fd true true mark with calls := 1 }, inputBuffer := b
          delivered := [], app := expireAfter timeout x.now ⟨none, 0, none⟩ } := by
  rw [Application.notify_eq] at h
  have hc : ((application timeout).accept k fd b).run.conn.state = .kConnected := rfl
  simp only [application, onConnection] at h
  rw [if_pos (by exact hc)] at h
  simp only [Hosted.calls_cons, Hosted.calls_nil] at h
  obtain ⟨_, h, rfl⟩ := h
  obtain ⟨b', c, l, hb, hset, rfl⟩ := Hosted.call_cases h
  cases hb
  cases hset
  rfl

theorem Flowing.of_init (h : (system timeout threadId).init s) : Flowing C s.run := by
  obtain ⟨k, fd, b, x, -, -, h⟩ := h
  obtain rfl := notify_up h
  constructor
  · constructor <;> simp [Connection.Run.start, Connection.Run.queue, TcpConnection.new, mark]
  · refine .of_init ?_
    change view _ = _
    simp [view, Connection.Run.start, Connection.Run.queue, Channel.isReading,
      Connection.startEvents, TcpConnection.new]

/-- The flow control of the connection, along the runs that meet `D`. -/
theorem flowing_of_reachable
    (hreceive : ∀ s n, (system timeout threadId).ReachableIf D s →
      s.run.conn.state ≠ .kDisconnected → s.run.EntersHandleRead →
      n ≤ s.run.conn.inputBuffer.length + s.inputBuffer.offered → C (view s.run) (.receive n))
    (hother : ∀ v lab, (∀ n, lab ≠ .receive n) → C v lab)
    (hr : (system timeout threadId).ReachableIf D s) (hd : s.run.conn.state ≠ .kDisconnected) :
    Flowing C s.run := by
  refine hr.invariant_of (I := fun s => s.run.conn.state ≠ .kDisconnected → Flowing C s.run)
    (fun _ h => h) (fun s h _ => Flowing.of_init h) ?_ hd
  intro s lab s' hreach hs hc h hd
  have hd₀ := Connection.ne_disconnected_of_run (Application.run_of_step h) hd
  obtain ⟨hq, hv⟩ := hs hd₀
  have hecho := Echoes.of_step (.of_reachable (Application.reachable_run hreach)) hq.writeComplete
    hq.mine (.of_step h) hd₀ hd
  exact ⟨hecho.queued hq, hv.run (hecho.refines hq (hreceive s · hreach hd₀) hother)⟩

theorem Flowing.of_reachable (hr : (system timeout threadId).ReachableIf D s)
    (hd : s.run.conn.state ≠ .kDisconnected) : Flowing (fun _ _ => True) s.run :=
  flowing_of_reachable (fun _ _ _ _ _ _ => trivial) (fun _ _ _ => trivial) hr hd

theorem balanced_of_reachable (hr : (system timeout threadId).ReachableIf D s)
    (hd : s.run.conn.state ≠ .kDisconnected) : Backpressure.Balanced mark (view s.run) :=
  .of_reachable (by decide) (Flowing.of_reachable hr hd).reader

/-- In `epoll_wait` no closure is left that closes the connection. -/
theorem connected_of_poll (hi : Connection.Inv r) (hq : Queued r)
    (hd : r.conn.state ≠ .kDisconnected) (hp : r.phase = .poll) : r.conn.state = .kConnected := by
  have hne := hi.ne_connecting
  cases hs : r.conn.state with
  | kConnected => rfl
  | kDisconnecting =>
    have := hq.closing hs
    simp [hq.idle hp] at this
  | kConnecting => exact absurd hs hne
  | kDisconnected => exact absurd hs hd

/-! ### The reader is started again -/

/-- The write-complete callback comes back. -/
theorem exists_notify_writeComplete (timeout : ℤ) (threadId : Pid) (x : Answer)
    (hp : s.run.phase = .jobs) :
    ∃ s', (application timeout).notify threadId .writeCompleteCallback x s = .next s' := by
  rw [Application.notify_eq]
  by_cases hr : s.run.conn.channel.isReading
  · simp only [application, onWriteComplete, hr, not_true_eq_false, if_false]
    exact ⟨_, rfl⟩
  · simp only [application, onWriteComplete, hr, not_false_eq_true, if_true]
    have hstart : ∃ c l, s.run.conn.call true threadId s.run.calls .startRead = .ok (c, l) := by
      simp only [TcpConnection.call, TcpConnection.startRead, TcpConnection.startReadInLoop, hr,
        not_false_eq_true, if_true, TcpConnection.onChannel, Channel.enableRead_eq]
      exact ⟨_, _, rfl⟩
    obtain ⟨c, l, hc⟩ := hstart
    exact ⟨_, Hosted.calls_cons.2 ⟨_, Hosted.call_of_ok (by simp [hp]) hc rfl, rfl⟩⟩

/-- The closure of a write that is complete starts the reader, also that of a closed connection. -/
theorem exists_runJob_writeComplete (timeout : ℤ) (threadId : Pid) (w : WriteResult) (x : Answer)
    {js : List Job} (hp : s.run.phase = .jobs) (hj : s.run.jobs = .writeComplete :: js) :
    ∃ s', (system timeout threadId).step s (.runJob w x) = .next s' ∧
      Becomes s.run s'.run s.run.conn.state True s.run.conn.outputBuffer
        (js ++ s.run.pendingJobs) ∧
      s'.run.phase = .jobs ∧ accepted s'.run.history = accepted s.run.history ∧
      (¬ s.run.conn.channel.isReading → s'.app.deadline = some (x.now + timeout)) := by
  obtain ⟨s', hn⟩ := exists_notify_writeComplete timeout threadId x
    (s := ⟨Connection.Run.apply { s.run with jobs := js } s.run.conn [.writeCompleteCallback],
      s.inputBuffer, s.delivered, s.app⟩) hp
  obtain ⟨hb, hphase, -⟩ := notify_writeComplete hn
  obtain ⟨app, hkeeps⟩ := keeps_of_notify (by simp) hn
  refine ⟨s', Application.step_runJob hp hj rfl hn, ?_, hphase.trans hp, ?_, fun hr => ?_⟩
  · exact ⟨hb.state, hb.reading, hb.outputBuffer, by simpa [Connection.Run.queue] using hb.queue,
      hb.writeComplete, hb.highWater, hb.mark, fun _ => hb.revents (by simp [hp])⟩
  · simpa using hkeeps.accepted
  · rw [Application.notify_eq] at hn
    rw [Hosted.calls_app hn]
    simp [application, onWriteComplete, hr, expireAfter]

/-- The iteration that writes all the output, which is reported to be possible. -/
def drainingRun (extrabuf : Buffer.ExtraBuf) (m : ℕ) (x : Answer) :
    List (Application.Label Answer) :=
  [.poll (some {.epollout}), .handle extrabuf (.data []) (.wrote m) x,
    .handle extrabuf (.data []) (.wrote m) x, .handle extrabuf (.data []) (.wrote m) x,
    .handle extrabuf (.data []) (.wrote m) x, .swap, .runJob (.wrote m) x, .endJobs]

/-- Only the write bit is reported, so the stages before the last one do nothing. -/
theorem handleStage_epollout {c : TcpConnection} {st : Stage} {r : ReadResult} {w : WriteResult}
    (hm : c.channel.revents = {.epollout}) (hst : st ≠ .write) :
    ∃ b, c.handleStage st r w =
      .ok ({ c with channel := { c.channel with handlingEvents := b } }, []) := by
  cases st with
  | close =>
    refine ⟨true, ?_⟩
    simp [TcpConnection.handleStage, hm]
  | error => exact ⟨c.channel.handlingEvents, if_neg (by simp [hm])⟩
  | read =>
    have hnil : ({.epollout} : Mask) ∩ {.epollin, .epollpri, .epollrdhup} = ∅ := by decide
    exact ⟨c.channel.handlingEvents, if_neg (by simp [hm, hnil])⟩
  | write => exact absurd rfl hst

/-- The connection after the stages that do nothing, with nothing changed but the mask that is
reported and the flag. -/
structure Waits (s t : Hosted EchoServer) : Prop where
  revents : t.run.conn.channel.revents = {.epollout}
  events : t.run.conn.channel.events = s.run.conn.channel.events
  polling : t.run.conn.channel.polling = s.run.conn.channel.polling
  state : t.run.conn.state = s.run.conn.state
  outputBuffer : t.run.conn.outputBuffer = s.run.conn.outputBuffer
  queue : t.run.queue = s.run.queue
  written : accepted t.run.history = accepted s.run.history

theorem Waits.handle {t : Hosted EchoServer} {st : Stage} (hw : Waits s t) (timeout : ℤ)
    (threadId : Pid) (extrabuf : Buffer.ExtraBuf) (r : ReadResult) (w : WriteResult) (x : Answer)
    (hp : t.run.phase = .dispatch (some st)) (hst : st ≠ .write) :
    ∃ u, (system timeout threadId).step t (.handle extrabuf r w x) = .next u ∧
      u.run.phase = .dispatch st.next ∧ Waits s u := by
  obtain ⟨b, hb⟩ := handleStage_epollout (r := r) (w := w) hw.revents hst
  have hfills : ¬ t.Fills := by
    rintro ⟨⟨-, hne⟩, -⟩
    rw [hw.revents] at hne
    exact hne (by decide)
  refine ⟨_, Application.step_handle_of_quiet hp hfills hb (by simp), rfl, ?_⟩
  exact ⟨hw.revents, hw.events, hw.polling, hw.state, hw.outputBuffer,
    by simpa [Connection.Run.queue] using hw.queue, by simpa using hw.written⟩

/-- The last stage writes all the output. -/
theorem Waits.write {t : Hosted EchoServer} (hw : Waits s t) (hi : Connection.Inv t.run)
    (hcb : t.run.conn.writeCompleteCallback = true) (timeout : ℤ) (threadId : Pid)
    (extrabuf : Buffer.ExtraBuf) (x : Answer) {m : ℕ}
    (hp : t.run.phase = .dispatch (some .write)) (hd : s.run.conn.state ≠ .kDisconnected)
    (hm : s.run.conn.outputBuffer.length ≤ m) :
    ∃ u, (system timeout threadId).step t (.handle extrabuf (.data []) (.wrote m) x) = .next u ∧
      u.run.phase = .dispatch none ∧ u.run.conn.state = s.run.conn.state ∧
      u.run.queue = s.run.queue ++ [.writeComplete] ∧ u.run.conn.outputBuffer = [] ∧
      accepted u.run.history = accepted s.run.history ++ s.run.conn.outputBuffer := by
  have hfills : ¬ t.Fills := by
    rintro ⟨⟨-, hne⟩, -⟩
    rw [hw.revents] at hne
    exact hne (by decide)
  have hd' : t.run.conn.state ≠ .kDisconnected := hw.state ▸ hd
  have hout : .epollout ∈ t.run.conn.channel.revents := by simp [hw.revents]
  have hwriting : t.run.conn.channel.isWriting := hi.ready _ hp hout hd'
  cases h : t.run.conn.handleWrite (.wrote m) with
  | error a =>
    exact absurd h (TcpConnection.handleWrite_ne_error hi.sound fun _ => hwriting)
  | ok p =>
    obtain ⟨c, l⟩ := p
    have hstage : t.run.conn.handleStage .write (.data []) (.wrote m) =
        .ok ({ c with channel := { c.channel with handlingEvents := false } }, l) := by
      simp [TcpConnection.handleStage, hout, h]
    obtain ⟨hc, -⟩ | ⟨-, -, ⟨e, he, -⟩ | ⟨i, hi', hlt, -⟩ | ⟨i, -, -, rfl, rfl⟩⟩ :=
      TcpConnection.handleWrite_cases h
    · exact absurd hc hd'
    · cases he
    · cases hi'
      rw [hw.outputBuffer] at hlt
      omega
    · refine ⟨_, Application.step_handle_of_quiet hp hfills hstage ?_, rfl, hw.state, ?_, rfl, ?_⟩
      · rw [hcb]
        split_ifs <;> simp
      · rw [hcb, ← hw.queue]
        by_cases hs : t.run.conn.state = .kDisconnecting <;> simp [Connection.Run.queue, hs]
      · rw [hcb]
        by_cases hs : t.run.conn.state = .kDisconnecting <;> simp [hs, hw.written, hw.outputBuffer]

/-- The four stages of a dispatch, of which the last one writes all the output. -/
theorem Waits.dispatch {t : Hosted EchoServer} (hw : Waits s t)
    (hr : (system timeout threadId).Reachable t) (hp : t.run.phase = .dispatch (some .close))
    (hd : s.run.conn.state ≠ .kDisconnected) (extrabuf : Buffer.ExtraBuf) (x : Answer) {m : ℕ}
    (hm : s.run.conn.outputBuffer.length ≤ m) :
    ∃ u, (system timeout threadId).exec t
        (List.replicate 4 (.handle extrabuf (.data []) (.wrote m) x)) = .next u ∧
      u.run.phase = .dispatch none ∧ u.run.conn.state = s.run.conn.state ∧
      u.run.pendingJobs = s.run.queue ++ [.writeComplete] ∧ u.run.conn.outputBuffer = [] ∧
      accepted u.run.history = accepted s.run.history ++ s.run.conn.outputBuffer := by
  obtain ⟨t₁, h₁, hp₁, hw₁⟩ :=
    hw.handle timeout threadId extrabuf (.data []) (.wrote m) x hp (by simp)
  obtain ⟨t₂, h₂, hp₂, hw₂⟩ :=
    hw₁.handle timeout threadId extrabuf (.data []) (.wrote m) x hp₁ (by simp)
  obtain ⟨t₃, h₃, hp₃, hw₃⟩ :=
    hw₂.handle timeout threadId extrabuf (.data []) (.wrote m) x hp₂ (by simp)
  have hr₃ := ((hr.step trivial h₁).step trivial h₂).step trivial h₃
  have hcb : t₃.run.conn.writeCompleteCallback = true :=
    (Flowing.of_reachable hr₃ (hw₃.state ▸ hd)).queued.writeComplete
  obtain ⟨u, h₄, hp₄, hst, hq, ho, ha⟩ :=
    hw₃.write (.of_reachable (Application.reachable_run hr₃)) hcb timeout threadId extrabuf x hp₃
      hd hm
  refine ⟨u, ?_, hp₄, hst, ?_, ho, ha⟩
  · change (system timeout threadId).exec t [_, _, _, _] = .next u
    rw [System.exec_cons h₁, System.exec_cons h₂, System.exec_cons h₃, System.exec_cons h₄]
    rfl
  · -- in a dispatch no closure is left of the batch before
    have hi : Connection.Inv u.run :=
      .of_reachable (Application.reachable_run (hr₃.step trivial h₄))
    rw [Connection.Run.queue, hi.batch (by simp [hp₄])] at hq
    exact hq

/-- Where output is left, the kernel may report that it takes some. -/
theorem step_poll_epollout (hr : (system timeout threadId).ReachableIf D s)
    (hp : s.run.phase = .poll) (hd : s.run.conn.state ≠ .kDisconnected)
    (ho : s.run.conn.outputBuffer ≠ []) :
    (system timeout threadId).step s (.poll (some {.epollout})) =
      .next { s with run := s.run.setRevents {.epollout} } := by
  have hi : Connection.Inv s.run := .of_reachable (Application.reachable_run hr)
  refine Application.step_poll hp ?_
  rw [hi.synced.1, if_pos (hi.sound hd).1]
  have hout : .epollout ∈ s.run.conn.channel.events := (hi.sound hd).2.2.2 ho
  exact Finset.singleton_subset_iff.2 (Finset.mem_union_left _ hout)

/-- **Reading is resumed.** -/
theorem drain_resumes (hr : (system timeout threadId).ReachableIf D s)
    (hp : s.run.phase = .poll) (hd : s.run.conn.state ≠ .kDisconnected)
    (ho : s.run.conn.outputBuffer ≠ []) (extrabuf : Buffer.ExtraBuf) (x : Answer) {m : ℕ}
    (hm : s.run.conn.outputBuffer.length ≤ m) :
    ∃ s', (system timeout threadId).exec s (drainingRun extrabuf m x) = .next s' ∧
      s'.run.phase = .poll ∧ s'.run.conn.state = s.run.conn.state ∧
      s'.run.conn.channel.isReading ∧ s'.run.conn.outputBuffer = [] ∧
      accepted s'.run.history = accepted s.run.history ++ s.run.conn.outputBuffer := by
  have h₀ := step_poll_epollout hr hp hd ho
  have hw : Waits s { s with run := s.run.setRevents {.epollout} } :=
    ⟨rfl, rfl, rfl, rfl, rfl, rfl, by simp [Connection.Run.setRevents]⟩
  have hr₀ : (system timeout threadId).Reachable { s with run := s.run.setRevents {.epollout} } :=
    (hr.mono fun _ _ _ => trivial).step trivial h₀
  obtain ⟨s₁, h₁, hp₁, hst₁, hjobs, ho₁, ha₁⟩ := hw.dispatch hr₀ rfl hd extrabuf x hm
  -- the closure of `handleWrite` is alone in the batch
  have hidle : s.run.queue = [] := (Flowing.of_reachable hr hd).queued.idle hp
  have h₂ : (system timeout threadId).step s₁ .swap = .next { s₁ with run :=
      { s₁.run with jobs := s₁.run.pendingJobs, pendingJobs := [], phase := .jobs } } :=
    Application.step_swap hp₁
  rw [hjobs, hidle, List.nil_append] at h₂
  obtain ⟨s₃, h₃, hb, hp₃, ha₃, -⟩ := exists_runJob_writeComplete timeout threadId
    (s := { s₁ with
      run := { s₁.run with jobs := [.writeComplete], pendingJobs := [], phase := .jobs } })
    (.wrote m) x rfl rfl
  have h₄ : (system timeout threadId).step s₃ .endJobs =
      .next { s₃ with run := { s₃.run with phase := .poll } } :=
    Application.step_endJobs hp₃ (List.append_eq_nil_iff.1 hb.queue).1
  refine ⟨{ s₃ with run := { s₃.run with phase := .poll } }, ?_, rfl, hb.state.trans hst₁,
    hb.reading.2 trivial, hb.outputBuffer.trans ho₁, ha₃.trans ha₁⟩
  change (system timeout threadId).exec s
    (_ :: (List.replicate 4 (.handle extrabuf (.data []) (.wrote m) x) ++ [_, _, _])) = _
  rw [System.exec_cons h₀, System.exec_append_of_exec h₁, System.exec_cons h₂,
    System.exec_cons h₃, System.exec_cons h₄]
  rfl

/-- **Reading is never stopped for good.**  In every state of a run in which the loop is about to
wait and the connection is not closed: it is connected and no closure is left, it is reading with
less than the mark in the output buffer or else it waits for the kernel to take the output, and the
iteration in which the kernel takes all of it ends with the connection reading and the output
written. -/
theorem flow_resumes (hr : (system timeout threadId).ReachableIf D s)
    (hp : s.run.phase = .poll) (hd : s.run.conn.state ≠ .kDisconnected) :
    s.run.conn.state = .kConnected ∧ s.run.queue = [] ∧
      (s.run.conn.channel.isReading ∧ s.run.conn.outputBuffer.length < mark ∨
        s.run.conn.outputBuffer ≠ [] ∧ s.run.conn.channel.isWriting) ∧
      ∀ extrabuf x m, s.run.conn.outputBuffer ≠ [] → s.run.conn.outputBuffer.length ≤ m →
        ∃ s', (system timeout threadId).exec s (drainingRun extrabuf m x) = .next s' ∧
          s'.run.phase = .poll ∧ s'.run.conn.state = .kConnected ∧
          s'.run.conn.channel.isReading ∧ s'.run.conn.outputBuffer = [] ∧
          accepted s'.run.history = accepted s.run.history ++ s.run.conn.outputBuffer := by
  have hi : Connection.Inv s.run := .of_reachable (Application.reachable_run hr)
  have hq : Queued s.run := (Flowing.of_reachable hr hd).queued
  have hbal := balanced_of_reachable hr hd
  have hidle : s.run.queue = [] := hq.idle hp
  have hconn := connected_of_poll hi hq hd hp
  have hnil : (view s.run).notices = [] := by simp [view, hidle]
  refine ⟨hconn, hidle, ?_, fun extrabuf x m ho hm => ?_⟩
  · by_cases hread : s.run.conn.channel.isReading
    · by_cases hlt : s.run.conn.outputBuffer.length < mark
      · exact .inl ⟨hread, hlt⟩
      · -- a reader above the mark has the stop still to come
        have hmem := hbal.marked (decide_eq_true hread) (not_lt.1 hlt)
        simp [hnil] at hmem
    · -- a stopped reader has output, since the notice that it is drained does not wait
      have hstop := hbal.resumes (decide_eq_false hread)
      rw [hnil] at hstop
      have hpos : 0 < s.run.conn.outputBuffer.length := hstop.resolve_right (by simp)
      have hne := List.ne_nil_of_length_pos hpos
      exact .inr ⟨hne, (hi.sound hd).2.2.2 hne⟩
  · rw [← hconn]
    exact drain_resumes hr hp hd ho extrabuf x hm

/-- A message of 1024 bytes of which nothing can be written stops the reader. -/
theorem flow_resumes_stopped :
    ∃ s : Hosted EchoServer, (system 5 0).Reachable s ∧
      (s.run.phase = .poll ∧ s.run.conn.state ≠ .kDisconnected ∧
        ¬ s.run.conn.channel.isReading) ∧
      (s.run.conn.state = .kConnected ∧ s.run.queue = [] ∧
        (s.run.conn.channel.isReading ∧ s.run.conn.outputBuffer.length < mark ∨
          s.run.conn.outputBuffer ≠ [] ∧ s.run.conn.channel.isWriting) ∧
        ∀ extrabuf x m, s.run.conn.outputBuffer ≠ [] → s.run.conn.outputBuffer.length ≤ m →
          ∃ s', (system 5 0).exec s (drainingRun extrabuf m x) = .next s' ∧
            s'.run.phase = .poll ∧ s'.run.conn.state = .kConnected ∧
            s'.run.conn.channel.isReading ∧ s'.run.conn.outputBuffer = [] ∧
            accepted s'.run.history = accepted s.run.history ++ s.run.conn.outputBuffer) := by
  let extrabuf : Buffer.ExtraBuf := ⟨List.replicate Buffer.sizeofExtrabuf 0, List.length_replicate⟩
  let x : Answer := ⟨.error .eagain, 0⟩
  let handle : Application.Label Answer :=
    .handle extrabuf (.data (List.replicate 1024 7)) (.wrote 0) x
  obtain ⟨s, hr, hp, hd, hread⟩ := Application.exists_reachableIf (application 5) 0 5 (x := x)
    (D := fun _ _ => True)
    (w := [.swap, .endJobs, .poll (some {.epollin}), handle, handle, handle, handle, .swap,
      .runJob (.wrote 0) x, .endJobs])
    (P := fun s => s.run.phase = .poll ∧ s.run.conn.state ≠ .kDisconnected ∧
      ¬ s.run.conn.channel.isReading) (by decide +kernel)
  exact ⟨s, hr, ⟨hp, hd, hread⟩, flow_resumes hr hp hd⟩

end Leven.EchoServer
