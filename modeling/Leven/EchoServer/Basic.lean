import Leven.TcpConnection.Application

/-!
# EchoServer

The echo server of the examples, as far as one of its connections is concerned: it sends back what
it receives, stops reading at the high water mark, reads on when the output is written, and closes
the connections that have been idle for too long.

* `EchoServer`: the entry of the connection in `connections_`;
* `onConnection`, `onMessage`, `onWriteComplete`, `onHighWaterMark`, `onTimeout`: the callbacks;
* `Becomes`: the parts of the connection that the invariants of the server are about;
* `Echoes`: what a step does to them as long as the connection is not closed, one constructor for
  each kind; `Echoes.of_step` derives it from the step function.

As in `main`, the server has one thread.  The times are integers, as if the clock did not overflow.
-/

namespace Leven

open Transition

/-- `highWaterMark` of `onConnection`. -/
def EchoServer.mark : ℕ := 1024

/-- What the environment answers to a callback: the result of a write, and `clock::now()`. -/
structure EchoServer.Answer where
  write : WriteResult
  now : ℤ

/-- What the server knows of one connection. -/
structure EchoServer where
  /-- the entry in `connections_` -/
  deadline : Option ℤ
  /-- the time of the last call of `expireAfter` -/
  touched : ℤ
  /-- the time of the last call of `onTimeout` -/
  swept : Option ℤ

namespace EchoServer

variable (timeout : ℤ)

def expireAfter (interval now : ℤ) (s : EchoServer) : EchoServer :=
  { s with deadline := some (now + interval), touched := now }

def onConnection (x : Answer) (c : TcpConnection) (s : EchoServer) : List Op × EchoServer :=
  if c.state = .kConnected then ([.setHighWaterMarkCallback mark], expireAfter timeout x.now s)
  else ([], { s with deadline := none })

/-- `send` takes the bytes out of the buffer that it is given, unless it gives up. -/
def onMessage (x : Answer) (c : TcpConnection) (s : EchoServer) : List Op × EchoServer :=
  (if c.state = .kConnected then
      [.send c.inputBuffer x.write, .retrieveInput c.inputBuffer.length]
    else [.send c.inputBuffer x.write],
    expireAfter timeout x.now s)

def onWriteComplete (x : Answer) (c : TcpConnection) (s : EchoServer) : List Op × EchoServer :=
  if ¬ c.channel.isReading then ([.startRead], expireAfter timeout x.now s) else ([], s)

def onHighWaterMark (x : Answer) (s : EchoServer) : List Op × EchoServer :=
  ([.stopRead], expireAfter (2 * timeout) x.now s)

/-- `onTimeout`, for one entry of `connections_`. -/
def onTimeout (x : Answer) (s : EchoServer) : List Op × EchoServer :=
  let swept := { s with swept := some x.now }
  match s.deadline with
  | some when =>
    if when ≤ x.now then ([.forceClose], { swept with deadline := none }) else ([], swept)
  | none => ([], swept)

/-- The callbacks of the server. -/
def application : Application EchoServer Answer where
  init := ⟨none, 0, none⟩
  callback e x c s :=
    match e with
    | .up | .closeCallback => onConnection timeout x c s
    | .messageCallback => onMessage timeout x c s
    | .writeCompleteCallback => onWriteComplete timeout x c s
    | .highWaterMarkCallback _ => onHighWaterMark timeout x s
    | _ => ([], s)
  onTimer x _ s := onTimeout x s

/-- The runs of one connection of the server. -/
abbrev system (threadId : Pid) :
    System (Hosted EchoServer) (Application.Label Answer) ReceiveFault :=
  (application timeout).system threadId

/-! ### The steps -/

variable {timeout} {threadId : Pid} {s s' : Hosted EchoServer} {r r' : Connection.Run}
  {lab : Application.Label Answer} {x : Answer} {e : Event} {k : ℕ} {c c' : TcpConnection}
  {l : List Event}

/-- What the invariants look at: the state, the reader, the output and the closures; the rest of
what they rely on stays as it is. -/
structure Becomes (r r' : Connection.Run) (state : ConnectionState) (reading : Prop)
    (outputBuffer : Bytes) (queue : List Job) : Prop where
  state : r'.conn.state = state
  reading : r'.conn.channel.isReading ↔ reading
  outputBuffer : r'.conn.outputBuffer = outputBuffer
  queue : r'.queue = queue
  writeComplete : r'.conn.writeCompleteCallback = r.conn.writeCompleteCallback
  highWater : r'.conn.highWaterMarkCallback = r.conn.highWaterMarkCallback
  mark : r'.conn.highWaterMark = r.conn.highWaterMark
  revents : r.phase ≠ .poll → r'.conn.channel.revents = r.conn.channel.revents

/-- Nothing changes but the phase. -/
abbrev Rests (r r' : Connection.Run) : Prop :=
  Becomes r r' r.conn.state r.conn.channel.isReading r.conn.outputBuffer r.queue

/-- The sweep at `x.now` finds the entry due. -/
def Due (x : Answer) (s : EchoServer) : Prop := ∃ d, s.deadline = some d ∧ d ≤ x.now

/-- A step to a state in which the connection is not closed, one constructor for each kind; at most
`bound` bytes are received, and `due` holds of a step that closes. -/
inductive Echoes (bound : ℕ) (due : Prop) (r r' : Connection.Run) : Prop
  | poll (hp : r.phase = .poll)
      (hp' : r'.phase = .dispatch (some .close) ∨ r'.phase = .dispatch none) (hb : Rests r r')
  | stage {st : Stage} (hp : r.phase = .dispatch (some st)) (hp' : r'.phase = .dispatch st.next)
      (hb : Rests r r')
  /-- the message is written at once -/
  | relay (hp : r.phase = .dispatch (some .read)) (hp' : r'.phase = .dispatch (some .write))
      (hc : r.conn.state = .kConnected) (ho : r.conn.outputBuffer = [])
      (hb : Becomes r r' r.conn.state r.conn.channel.isReading [] (r.queue ++ [.writeComplete]))
  /-- a rest of the message is buffered -/
  | receive {rest : Bytes} (hp : r.phase = .dispatch (some .read))
      (hp' : r'.phase = .dispatch (some .write)) (hr : r.EntersHandleRead)
      (hc : r.conn.state = .kConnected) (hne : rest ≠ []) (hlen : rest.length ≤ bound)
      (hb : Becomes r r' r.conn.state r.conn.channel.isReading (r.conn.outputBuffer ++ rest)
        (r.queue ++ queued (r.conn.highWater rest)))
  | write {m : ℕ} (hp : r.phase = .dispatch (some .write)) (hp' : r'.phase = .dispatch none)
      (hm : m < r.conn.outputBuffer.length)
      (hb : Becomes r r' r.conn.state r.conn.channel.isReading (r.conn.outputBuffer.drop m) r.queue)
  | drain (hp : r.phase = .dispatch (some .write)) (hp' : r'.phase = .dispatch none)
      (ho : r.conn.outputBuffer ≠ [])
      (hb : Becomes r r' r.conn.state r.conn.channel.isReading [] (r.queue ++ [.writeComplete]))
  | swap (hp : r.phase = .dispatch none) (hp' : r'.phase = .jobs) (hpend : r'.pendingJobs = [])
      (hb : Rests r r')
  | highWater {len : ℕ} {q : List Job} (hp : r.phase = .jobs) (hp' : r'.phase = .jobs)
      (hpend : r'.pendingJobs = r.pendingJobs) (hq : r.queue = .highWaterMark len :: q)
      (hb : Becomes r r' r.conn.state False r.conn.outputBuffer q)
  | writeComplete {q : List Job} (hp : r.phase = .jobs) (hp' : r'.phase = .jobs)
      (hpend : r'.pendingJobs = r.pendingJobs) (hq : r.queue = .writeComplete :: q)
      (hb : Becomes r r' r.conn.state True r.conn.outputBuffer q)
  | endJobs (hp : r.phase = .jobs) (hp' : r'.phase = .poll) (hj : r.jobs = []) (hb : Rests r r')
  | timer (hp : r.phase = .dispatch (some .close) ∨ r.phase = .dispatch none)
      (hp' : r'.phase = r.phase) (hb : Rests r r')
  | forceClose (hdue : due) (hp : r.phase = .dispatch (some .close) ∨ r.phase = .dispatch none)
      (hp' : r'.phase = r.phase)
      (hb : Becomes r r' .kDisconnecting r.conn.channel.isReading r.conn.outputBuffer
        (r.queue ++ [.forceCloseInLoop]))

/-- No step connects. -/
theorem Echoes.connected {bound : ℕ} {due : Prop} (h : Echoes bound due r r')
    (hc : r'.conn.state = .kConnected) : r.conn.state = .kConnected := by
  cases h with
  | forceClose _ _ _ hb =>
    rw [hb.state] at hc
    cases hc
  | poll _ _ hb | stage _ _ hb | relay _ _ _ _ hb | receive _ _ _ _ _ _ hb | write _ _ _ hb
  | drain _ _ _ hb | timer _ _ hb | highWater _ _ _ _ hb | writeComplete _ _ _ _ hb
  | swap _ _ _ hb | endJobs _ _ _ hb => exact hb.state ▸ hc

/-! ### The callbacks -/

/-- `onConnection`, when the connection is not connected. -/
theorem notify_down (he : e = .up ∨ e = .closeCallback) (hc : s.run.conn.state ≠ .kConnected)
    (h : (application timeout).notify threadId e x s = .next s') :
    s' = { s with app := { s.app with deadline := none } } := by
  rw [Application.notify_eq] at h
  rcases he with rfl | rfl
  · simp only [application, onConnection, if_neg hc, Hosted.calls_nil] at h
    exact h
  · simp only [application, onConnection, if_neg hc, Hosted.calls_nil] at h
    exact h

theorem notify_writeComplete
    (h : (application timeout).notify threadId .writeCompleteCallback x s = .next s') :
    Becomes s.run s'.run s.run.conn.state True s.run.conn.outputBuffer s.run.queue ∧
      s'.run.phase = s.run.phase ∧ s'.run.pendingJobs = s.run.pendingJobs := by
  rw [Application.notify_eq] at h
  by_cases hr : s.run.conn.channel.isReading
  · simp only [application, onWriteComplete, hr, not_true_eq_false, if_false,
      Hosted.calls_nil] at h
    subst h
    exact ⟨⟨rfl, iff_of_true hr trivial, rfl, rfl, rfl, rfl, rfl, fun _ => rfl⟩, rfl, rfl⟩
  · simp only [application, onWriteComplete, hr, not_false_eq_true, if_true, Hosted.calls_cons,
      Hosted.calls_nil] at h
    obtain ⟨_, h, rfl⟩ := h
    obtain ⟨b, c, l, -, hc, rfl⟩ := Hosted.call_cases h
    obtain ⟨-, hc⟩ | ⟨hb, -, -⟩ := TcpConnection.startRead_cases hc
    · obtain ⟨-, rfl, rfl⟩ | ⟨hr', -, -⟩ := TcpConnection.startReadInLoop_cases hc
      · refine ⟨⟨rfl, ?_, rfl, ?_, rfl, rfl, rfl, fun _ => rfl⟩, rfl, ?_⟩
        · simp [Channel.isReading]
        · simp [Connection.Run.queue]
        · simp
      · exact absurd hr' hr
    · cases hb

theorem notify_highWater (len : ℕ)
    (h : (application timeout).notify threadId (.highWaterMarkCallback len) x s = .next s') :
    Becomes s.run s'.run s.run.conn.state False s.run.conn.outputBuffer s.run.queue ∧
      s'.run.phase = s.run.phase ∧ s'.run.pendingJobs = s.run.pendingJobs := by
  rw [Application.notify_eq] at h
  simp only [application, onHighWaterMark, Hosted.calls_cons, Hosted.calls_nil] at h
  obtain ⟨_, h, rfl⟩ := h
  obtain ⟨b, c, l, -, hc, rfl⟩ := Hosted.call_cases h
  obtain ⟨-, hc⟩ | ⟨hb, -, -⟩ := TcpConnection.stopRead_cases hc
  · obtain ⟨hr, rfl, rfl⟩ | ⟨hr, rfl, rfl⟩ := TcpConnection.stopReadInLoop_cases hc
    · refine ⟨⟨rfl, ?_, rfl, ?_, rfl, rfl, rfl, fun _ => rfl⟩, rfl, ?_⟩
      · simp [Channel.isReading]
      · simp [Connection.Run.queue]
      · simp
    · refine ⟨⟨rfl, iff_of_false hr id, rfl, ?_, rfl, rfl, rfl, fun _ => rfl⟩, rfl, ?_⟩
      · simp [Connection.Run.queue]
      · simp
  · cases hb

/-- The other callbacks do not touch the stream. -/
theorem keeps_of_notify (he : e ≠ .messageCallback)
    (h : (application timeout).notify threadId e x s = .next s') :
    ∃ app, Hosted.Keeps { s with app := app } s' := by
  rw [Application.notify_eq] at h
  refine ⟨_, Hosted.Keeps.calls (fun op hop => ?_) h⟩
  have hplain : op = .setHighWaterMarkCallback mark ∨ op = .startRead ∨ op = .stopRead := by
    cases e with
    | messageCallback => exact absurd rfl he
    | up | closeCallback =>
      simp only [application, onConnection] at hop
      split_ifs at hop <;> simp_all
    | writeCompleteCallback =>
      simp only [application, onWriteComplete] at hop
      split_ifs at hop <;> simp_all
    | highWaterMarkCallback len => simp_all [application, onHighWaterMark]
    | _ => simp [application] at hop
  rcases hplain with rfl | rfl | rfl <;> simp [Hosted.Plain]

theorem onTimeout_cases (x : Answer) (st : EchoServer) :
    (Due x st ∧ onTimeout x st =
      ([.forceClose], { st with deadline := none, swept := some x.now })) ∨
    (¬ Due x st ∧ onTimeout x st = ([], { st with swept := some x.now })) := by
  unfold Due onTimeout
  cases hd : st.deadline with
  | none => simp
  | some d =>
    by_cases hle : d ≤ x.now
    · simp [hle]
    · simp [hle]

/-- The timer of the server only closes. -/
theorem plain_of_onTimeout {st : EchoServer} {op : Op} (hop : op ∈ (onTimeout x st).1) :
    Hosted.Plain op := by
  obtain ⟨-, he⟩ | ⟨-, he⟩ := onTimeout_cases x st
  · obtain rfl : op = .forceClose := by simpa [he] using hop
    simp [Hosted.Plain]
  · simp [he] at hop

/-- What a message does to a connected connection. -/
structure Sent (timeout : ℤ) (threadId : Pid) (x : Answer) (s s' : Hosted EchoServer)
    (c : TcpConnection) (l : List Event) : Prop where
  sendInLoop : s.run.conn.sendInLoop threadId s.run.calls s.run.conn.inputBuffer x.write = .ok (c, l)
  conn : s'.run.conn = { c with inputBuffer := [] }
  history : s'.run.history =
    s.run.history ++ .send threadId s.run.calls s.run.conn.inputBuffer :: l
  queue : s'.run.queue = s.run.queue ++ queued l
  phase : s'.run.phase = s.run.phase
  retrieve : s.inputBuffer.retrieve s.run.conn.inputBuffer.length = .ok s'.inputBuffer
  delivered : s'.delivered = s.delivered
  app : s'.app = expireAfter timeout x.now s.app

theorem notify_message (hc : s.run.conn.state = .kConnected)
    (h : (application timeout).notify threadId .messageCallback x s = .next s') :
    ∃ c l, Sent timeout threadId x s s' c l := by
  rw [Application.notify_eq] at h
  simp only [application, onMessage, if_pos hc, Hosted.calls_cons, Hosted.calls_nil] at h
  obtain ⟨_, h₁, _, h₂, rfl⟩ := h
  obtain ⟨c, l, hm, rfl⟩ := Hosted.call_send h₁ hc
  obtain ⟨b', c', l', hb', hretr, rfl⟩ := Hosted.call_cases h₂
  cases hretr
  refine ⟨c, l, hm, ?_, ?_, ?_, rfl, hb', rfl, rfl⟩
  · simp [TcpConnection.sendInLoop_inputBuffer hm]
  · simp
  · simp [Connection.Run.queue, Connection.Run.apply]

/-- On a connection that is being closed `send` gives up. -/
theorem notify_message_closing (hc : s.run.conn.state ≠ .kConnected)
    (h : (application timeout).notify threadId .messageCallback x s = .next s') :
    s' = { s with
      run := { s.run with calls := s.run.calls + 1 }, app := expireAfter timeout x.now s.app } := by
  rw [Application.notify_eq] at h
  simp only [application, onMessage, if_neg hc, Hosted.calls_cons, Hosted.calls_nil] at h
  obtain ⟨_, h, rfl⟩ := h
  obtain ⟨b, c, l, hb, hsend, rfl⟩ := Hosted.call_cases h
  cases hb
  obtain ⟨-, rfl, rfl⟩ | ⟨hc', -, -⟩ | ⟨hc', -, -⟩ := TcpConnection.send_cases hsend
  · simp [Connection.Run.apply]
  · exact absurd hc' hc
  · exact absurd hc' hc

/-- What is received, and what becomes of it. -/
theorem echoes_of_message {bound : ℕ} {due : Prop} {d : Bytes} (hs : r.conn.Sound)
    (hcb : r.conn.writeCompleteCallback = true) (hd : r.conn.state ≠ .kDisconnected)
    (hr : r.EntersHandleRead) (hlen : d.length ≤ bound)
    (hrun : s.run = { r with phase := .dispatch (some .write) }.apply
      { r.conn with inputBuffer := d } [.readFd, .messageCallback])
    (h : (application timeout).notify threadId .messageCallback x s = .next s') :
    Echoes bound due r s'.run := by
  have hconn : s.run.conn = { r.conn with inputBuffer := d } := by rw [hrun]; rfl
  have hphase : s.run.phase = .dispatch (some .write) := by rw [hrun]; rfl
  have hqueue : s.run.queue = r.queue := by rw [hrun]; simp [Connection.Run.queue]
  by_cases hcon : r.conn.state = .kConnected
  · obtain ⟨c, l, hsent⟩ := notify_message (by rwa [hconn]) h
    have hsend := hsent.sendInLoop
    rw [hconn] at hsend
    have hphase' := hsent.phase.trans hphase
    have hqueue' := hsent.queue
    rw [hqueue] at hqueue'
    obtain ⟨rfl, hq, -⟩ | ⟨rfl, hq, ho⟩ | ⟨n, hn, rfl, hq⟩ :=
      TcpConnection.sendInLoop_outcome (c := { r.conn with inputBuffer := d }) hs hd hcb hsend
    · rw [hq, List.append_nil] at hqueue'
      refine .stage hr.1 hphase' ⟨?_, ?_, ?_, hqueue', ?_, ?_, ?_, fun _ => ?_⟩ <;> rw [hsent.conn]
    · rw [hq] at hqueue'
      refine .relay hr.1 hphase' hcon ho ⟨?_, ?_, ?_, hqueue', ?_, ?_, ?_, fun _ => ?_⟩ <;>
        rw [hsent.conn]
      exact ho
    · rw [hq] at hqueue'
      have hne : d.drop n ≠ [] := by simpa using hn
      refine .receive hr.1 hphase' hr hcon hne ?_ ⟨?_, ?_, ?_, hqueue', ?_, ?_, ?_, fun _ => ?_⟩
      · rw [List.length_drop]
        omega
      all_goals rw [hsent.conn]
      · simp [Channel.isReading]
      · rfl
  · obtain rfl := notify_message_closing (by rwa [hconn]) h
    refine .stage hr.1 hphase ⟨?_, ?_, ?_, ?_, ?_, ?_, ?_, fun _ => ?_⟩ <;> try rw [hconn]
    exact hqueue

/-- A step that closes the connection leaves it closed. -/
theorem closed_of_handleClose (hc : c.handleClose = .ok (c', l)) {m : List Event}
    (hs : s.run.conn = c')
    (h : (application timeout).notifyLast threadId (m ++ l) x s = .next s') :
    s'.run.conn.state = .kDisconnected := by
  obtain ⟨-, rfl, rfl⟩ := TcpConnection.handleClose_cases hc
  have hclosed : s.run.conn.state = .kDisconnected := by rw [hs]
  have hn : (application timeout).notify threadId .closeCallback x s = .next s' := by
    simpa [Application.notifyLast] using h
  rw [notify_down (.inr rfl) (by simp [hclosed]) hn, hclosed]

theorem Echoes.of_handle {due : Prop} {extrabuf : Buffer.ExtraBuf} {rd : ReadResult} {w : WriteResult}
    {st : Stage} {u : Hosted EchoServer} (hi : Connection.Inv s.run)
    (hcb : s.run.conn.writeCompleteCallback = true) (hd₀ : s.run.conn.state ≠ .kDisconnected)
    (hp : s.run.phase = .dispatch (some st)) (hf : s.fill extrabuf rd = .next u)
    (h : s.run.conn.handleStage st rd w = .ok (c, l))
    (hn : (application timeout).notifyLast threadId l x
      { u with run := { s.run with phase := .dispatch st.next }.apply c l } = .next s')
    (hd : s'.run.conn.state ≠ .kDisconnected) :
    Echoes (s.run.conn.inputBuffer.length + s.inputBuffer.offered) due s.run s'.run := by
  cases TcpConnection.StageStep.of_handleStage h with
  | idle =>
    obtain rfl := Application.notifyLast_quiet (by simp) hn
    refine .stage hp rfl ⟨rfl, .rfl, rfl, ?_, rfl, rfl, rfl, fun _ => rfl⟩
    simp [Connection.Run.queue]
  | close hm h => exact absurd (closed_of_handleClose (m := []) h rfl hn) hd
  | read hm h =>
    obtain ⟨-, ⟨rfl, rfl⟩ | ⟨m, hclose, rfl⟩ | ⟨bytes, rfl, rfl⟩⟩ :=
      TcpConnection.handleRead_cases h
    · obtain rfl := Application.notifyLast_quiet (by simp) hn
      refine .stage hp rfl ⟨rfl, .rfl, rfl, ?_, rfl, rfl, rfl, fun _ => rfl⟩
      simp [Connection.Run.queue]
    · exact absurd (closed_of_handleClose (m := [.readFd]) hclose rfl hn) hd
    · have hfills : s.Fills := ⟨⟨hp, hm⟩, hd₀⟩
      obtain ⟨-, hoff, -⟩ | ⟨hno, -⟩ := Hosted.fill_cases hf
      · obtain ⟨-, hbytes⟩ := TcpConnection.handleRead_inputBuffer h
        dsimp only at hbytes
        rw [List.append_cancel_left_eq] at hbytes
        refine echoes_of_message (d := s.run.conn.inputBuffer ++ bytes) hi.sound hcb hd₀
          ⟨hp, hm⟩ ?_ rfl hn
        rw [hbytes, List.length_append]
        omega
      · exact absurd hfills hno
  | write hm h =>
    obtain ⟨hc, -, -⟩ | ⟨-, hw, ⟨e, -, rfl, rfl⟩ | ⟨m, -, hlt, rfl, rfl⟩ | ⟨m, -, -, rfl, rfl⟩⟩ :=
      TcpConnection.handleWrite_cases h
    · exact absurd hc hd₀
    · obtain rfl := Application.notifyLast_quiet (by simp) hn
      refine .stage hp rfl ⟨rfl, .rfl, rfl, ?_, rfl, rfl, rfl, fun _ => rfl⟩
      simp [Connection.Run.queue]
    · obtain rfl := Application.notifyLast_quiet (by simp) hn
      refine .write hp rfl hlt ⟨rfl, .rfl, rfl, ?_, rfl, rfl, rfl, fun _ => rfl⟩
      simp [Connection.Run.queue]
    · obtain rfl := Application.notifyLast_quiet (by rw [hcb]; split_ifs <;> simp) hn
      refine .drain hp rfl ((hi.sound hd₀).2.2.1 hw) ⟨rfl, ?_, rfl, ?_, rfl, rfl, rfl, fun _ => rfl⟩
      · simp [Channel.isReading]
      · rw [hcb]
        by_cases hc : s.run.conn.state = .kDisconnecting <;> simp [Connection.Run.queue, hc]

theorem Echoes.of_step (hi : Connection.Inv s.run)
    (hcb : s.run.conn.writeCompleteCallback = true)
    (hjobs : ∀ j ∈ s.run.queue,
      j = .forceCloseInLoop ∨ j = .writeComplete ∨ ∃ len, j = .highWaterMark len)
    (h : Application.Step (application timeout) threadId s lab s')
    (hd₀ : s.run.conn.state ≠ .kDisconnected) (hd : s'.run.conn.state ≠ .kDisconnected) :
    Echoes (s.run.conn.inputBuffer.length + s.inputBuffer.offered)
      (∃ x, lab = .onTimer x ∧ Due x s.app) s.run s'.run := by
  cases h with
  | poll h =>
    cases h with
    | idle hp => exact .poll hp (.inr rfl) ⟨rfl, .rfl, rfl, rfl, rfl, rfl, rfl, fun _ => rfl⟩
    | poll hp hm =>
      exact .poll hp (.inl rfl) ⟨rfl, .rfl, rfl, rfl, rfl, rfl, rfl, fun hne => absurd hp hne⟩
  | handle hp hf h hn => exact .of_handle hi hcb hd₀ hp hf h hn hd
  | swap hp =>
    refine .swap hp rfl rfl ⟨rfl, .rfl, rfl, ?_, rfl, rfl, rfl, fun _ => rfl⟩
    simp [Connection.Run.queue, hi.batch (by simp [hp])]
  | @runJob w x j js c l s' hp hj h hn =>
    have hq : s.run.queue = j :: (js ++ s.run.pendingJobs) := by simp [Connection.Run.queue, hj]
    obtain rfl | rfl | ⟨len, rfl⟩ := hjobs j (by simp [hq])
    · obtain ⟨-, hc⟩ | ⟨hc, -, -⟩ := TcpConnection.forceCloseInLoop_cases h
      · exact absurd (closed_of_handleClose (m := []) hc rfl hn) hd
      · exact absurd hc hd₀
    · cases h
      obtain ⟨hb, hphase, hpend⟩ := notify_writeComplete hn
      refine .writeComplete hp (hphase.trans hp) ?_ hq ?_
      · simpa using hpend
      · exact ⟨hb.state, hb.reading, hb.outputBuffer, by simpa [Connection.Run.queue] using hb.queue,
          hb.writeComplete, hb.highWater, hb.mark, fun _ => hb.revents (by simp [hp])⟩
    · cases h
      obtain ⟨hb, hphase, hpend⟩ := notify_highWater len hn
      refine .highWater hp (hphase.trans hp) ?_ hq ?_
      · simpa using hpend
      · exact ⟨hb.state, hb.reading, hb.outputBuffer, by simpa [Connection.Run.queue] using hb.queue,
          hb.writeComplete, hb.highWater, hb.mark, fun _ => hb.revents (by simp [hp])⟩
  | endJobs hp hj => exact .endJobs hp rfl hj ⟨rfl, .rfl, rfl, rfl, rfl, rfl, rfl, fun _ => rfl⟩
  | @onTimer x s' hp h =>
    change Hosted.calls threadId (onTimeout x s.app).1 _ = _ at h
    rcases onTimeout_cases x s.app with ⟨hdue, he⟩ | ⟨-, he⟩
    · rw [he] at h
      simp only [Hosted.calls_cons, Hosted.calls_nil] at h
      obtain ⟨_, h, rfl⟩ := h
      obtain ⟨b, c, l, -, hc, rfl⟩ := Hosted.call_cases h
      obtain ⟨-, rfl, rfl⟩ | ⟨hc', -, -⟩ := TcpConnection.forceClose_cases hc
      · refine .forceClose ⟨x, rfl, hdue⟩ hp rfl ⟨rfl, .rfl, rfl, ?_, rfl, rfl, rfl, fun _ => rfl⟩
        simp [Connection.Run.queue]
      · exact absurd hc' hd₀
    · rw [he] at h
      obtain rfl := Hosted.calls_nil.1 h
      exact .timer hp rfl ⟨rfl, .rfl, rfl, rfl, rfl, rfl, rfl, fun _ => rfl⟩

end EchoServer
end Leven
