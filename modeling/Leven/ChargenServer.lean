import Leven.TcpConnection.Application

/-!
# ChargenServer

The character generator of the examples, as far as one of its connections is concerned: it sends a
greeting and a message when the connection is up, and the message again whenever a write is
complete.  What it receives is thrown away by the default message callback.

The greeting and the first message can both complete at once, so there are up to two chains of
write-complete callbacks, which become one when they meet in the output buffer.

The counter `transferred_` is one for the whole server, and the callbacks of the other connections
add to it at any moment between two callbacks of this one.  All of them run in one thread.

* `message`, `greeting`: what is sent;
* `application`: the callbacks;
* `Counted`: what `transferred_` counts;
* `Chains`: the closures that wait, and the output buffer as one more;
* `Generating`: the invariant;
* `chargen_generates`: the stream, and that it goes on.
-/

namespace Leven

open Transition

/-- What the server knows.  The number `others` only records what has happened. -/
structure ChargenServer where
  transferred : UInt64
  /-- how often `onWriteComplete` has been called for another connection -/
  others : ℕ

namespace ChargenServer

/-- `line` of the constructor: the characters from 33 to 126, twice. -/
def line : Bytes :=
  let line := (List.range' 33 (127 - 33)).map UInt8.ofNat
  line ++ line

def message : Bytes := (List.range (127 - 33)).flatMap fun i => (line.drop i).take 72 ++ [10]

def greeting : Bytes := "Leven chargen server\n".toUTF8.toList

/-- What a callback finds: the answers to its writes, and how often `onWriteComplete` has been
called for another connection since the last callback. -/
structure Answer where
  first : WriteResult
  second : WriteResult
  others : ℕ
  deriving DecidableEq

def onConnection (x : Answer) (c : TcpConnection) : List Op :=
  if c.state = .kConnected then [.send greeting x.first, .send message x.second] else []

def onWriteComplete (x : Answer) (s : ChargenServer) : List Op × ChargenServer :=
  ([.send message x.first], { s with transferred := s.transferred + .ofNat message.length })

/-- The other connections have called `onWriteComplete` `k` times. -/
def elsewhere (k : ℕ) (s : ChargenServer) : ChargenServer where
  transferred := s.transferred + .ofNat (k * message.length)
  others := s.others + k

/-- The callbacks of the server, with `defaultMessageCallback`. -/
def application : Application ChargenServer Answer where
  init := ⟨.ofNat message.length, 0⟩
  callback e x c s :=
    let s := s.elsewhere x.others
    match e with
    | .up | .closeCallback => (onConnection x c, s)
    | .messageCallback => ([.retrieveInput c.inputBuffer.length], s)
    | .writeCompleteCallback => onWriteComplete x s
    | _ => ([], s)
  onTimer _ _ s := ([], s)

/-- The runs of one connection of the server. -/
abbrev system (threadId : Pid) :
    System (Hosted ChargenServer) (Application.Label Answer) ReceiveFault :=
  application.system threadId

/-! ### What is sent -/

theorem length_line : line.length = 188 := by simp [line]

/-- Each line of the message has 72 characters. -/
theorem length_take_drop_line {i : ℕ} (hi : i < 94) : ((line.drop i).take 72).length = 72 := by
  rw [List.length_take, List.length_drop, length_line]
  omega

theorem length_message : message.length = 94 * 73 := by
  have hline : ∀ i ∈ List.range 94, ((line.drop i).take 72 ++ [10]).length = 73 := by
    intro i hi
    rw [List.length_append, length_take_drop_line (List.mem_range.1 hi)]
    rfl
  rw [message, List.length_flatMap, List.map_congr_left hline]
  simp

theorem length_greeting : greeting.length = 21 := by decide +kernel

theorem message_ne_nil : message ≠ [] := List.ne_nil_of_length_pos (by rw [length_message]; omega)

theorem greeting_ne_nil : greeting ≠ [] :=
  List.ne_nil_of_length_pos (by rw [length_greeting]; omega)

-- a length is not to be computed where it is compared
attribute [irreducible] message greeting

/-! ### The counter -/

section Counter

variable {a : ChargenServer} {n k : ℕ}

/-- `transferred_` has wrapped around the bytes of one message, of those of this connection, for
which `onWriteComplete` has been called `n` times, and of those of the others. -/
def Counted (n : ℕ) (a : ChargenServer) : Prop :=
  a.transferred = .ofNat ((1 + n + a.others) * message.length)

theorem elsewhere_zero : a.elsewhere 0 = a := by simp [elsewhere]

theorem Counted.elsewhere (h : a.Counted n) : (a.elsewhere k).Counted n := by
  have hsum : (1 + n + (a.others + k)) * message.length =
      (1 + n + a.others) * message.length + k * message.length := by ring
  rw [Counted, ChargenServer.elsewhere, hsum, UInt64.ofNat_add, h]

theorem Counted.onWriteComplete {x : Answer} (h : a.Counted n) :
    (onWriteComplete x a).2.Counted (n + 1) := by
  have hsum : (1 + (n + 1) + a.others) * message.length =
      (1 + n + a.others) * message.length + message.length := by ring
  rw [Counted, ChargenServer.onWriteComplete, hsum, UInt64.ofNat_add, h]

end Counter

/-! ### The chains -/

/-- One or two chains: a closure that waits is one, and so is the output buffer unless it is empty;
each has at most one message. -/
structure Chains (outputBuffer : Bytes) (queue : ℕ) : Prop where
  goesOn : outputBuffer ≠ [] ∨ 0 < queue
  bound : queue + (if outputBuffer = [] then 0 else 1) ≤ 2
  room : outputBuffer.length + queue * message.length ≤ 2 * message.length

variable {b rest : Bytes} {q m : ℕ}

theorem Chains.write (h : Chains b q) (hm : m < b.length) : Chains (b.drop m) q := by
  have hne : b.drop m ≠ [] := by simpa using hm
  have hb : b ≠ [] := List.ne_nil_of_length_pos (by omega)
  have hbound := h.bound
  have hroom := h.room
  rw [if_neg hb] at hbound
  refine ⟨.inl hne, by rwa [if_neg hne], ?_⟩
  rw [List.length_drop]
  omega

/-- The output buffer becomes a closure. -/
theorem Chains.drain (h : Chains b q) (hb : b ≠ []) : Chains [] (q + 1) := by
  have hbound := h.bound
  rw [if_neg hb] at hbound
  refine ⟨.inr (Nat.succ_pos q), by simpa using hbound, ?_⟩
  rw [List.length_nil, Nat.zero_add]
  exact Nat.mul_le_mul_right _ hbound

/-- A closure goes into the output buffer, where it may meet another one. -/
theorem Chains.receive (h : Chains b (q + 1)) (hne : rest ≠ [])
    (hlen : rest.length ≤ message.length) : Chains (b ++ rest) q := by
  have hbound := h.bound
  have hroom := h.room
  have happend : b ++ rest ≠ [] := by simp [hne]
  refine ⟨.inl happend, ?_, ?_⟩
  · rw [if_neg happend]
    split_ifs at hbound <;> omega
  · rw [List.length_append]
    rw [Nat.add_one_mul] at hroom
    omega

/-! ### One call of `send` -/

variable {threadId : Pid} {s s' : Hosted ChargenServer} {d : Bytes} {w : WriteResult}
  {lab : Application.Label Answer} {x : Answer} {e : Event} {l : List Event}

/-- The connection is connected, its write-complete callback is set and the other one is not, and no
closure but those of write-complete callbacks waits. -/
structure Established (r : Connection.Run) : Prop where
  connected : r.conn.state = .kConnected
  sound : r.conn.Sound
  writeComplete : r.conn.writeCompleteCallback = true
  highWater : r.conn.highWaterMarkCallback = false
  mine : ∀ j ∈ r.queue, j = .writeComplete

/-- How often the write-complete callback has been called. -/
def completed (r : Connection.Run) : ℕ := r.history.count .writeCompleteCallback

/-- What `send` does. -/
structure Sends (d : Bytes) (r r' : Connection.Run) : Prop where
  established : Established r'
  phase : r'.phase = r.phase
  sent : sent r'.history = sent r.history ++ d
  count : completed r' = completed r
  fault : .faultError ∈ r.history → .faultError ∈ r'.history
  /-- a fault, all of it written at once, or a rest in the output buffer -/
  outcome : .faultError ∈ r'.history ∨
    (r.conn.outputBuffer = [] ∧ r'.conn.outputBuffer = [] ∧
      r'.queue.length = r.queue.length + 1) ∨
    ∃ rest, rest ≠ [] ∧ rest.length ≤ d.length ∧
      r'.conn.outputBuffer = r.conn.outputBuffer ++ rest ∧ r'.queue.length = r.queue.length

theorem sent_eq_nil {m : List Event} (hl : ∀ e ∈ m, e.ofSend = true) : Leven.sent m = [] := by
  refine List.flatMap_eq_nil_iff.2 fun e he => ?_
  cases e <;> first | rfl | simpa using hl _ he

theorem Sends.of_call (h : s.call threadId (.send d w) = .next s') (hs : Established s.run)
    (hd : d ≠ []) : Sends d s.run s'.run := by
  obtain ⟨c, l, hm, rfl⟩ := Hosted.call_send h hs.connected
  have hne : s.run.conn.state ≠ .kDisconnected := by simp [hs.connected]
  obtain ⟨m, rfl, hl⟩ := TcpConnection.sendInLoop_events hm
  have hcount : m.count .writeCompleteCallback = 0 :=
    List.count_eq_zero.2 fun he => by simpa using hl _ he
  have hqueue : ({ s.run with calls := s.run.calls + 1 }.apply c
      (.send threadId s.run.calls d :: .sendInLoop threadId s.run.calls d :: m)).queue =
        s.run.queue ++ queued m := by
    simp [Connection.Run.queue]
  -- what the three outcomes leave to show
  have hsends : c.writeCompleteCallback = true → c.highWaterMarkCallback = false →
      (∀ j ∈ queued m, j = .writeComplete) →
      (.faultError ∈ m ∨
        (s.run.conn.outputBuffer = [] ∧ c.outputBuffer = [] ∧ (queued m).length = 1) ∨
        ∃ rest, rest ≠ [] ∧ rest.length ≤ d.length ∧
          c.outputBuffer = s.run.conn.outputBuffer ++ rest ∧ (queued m).length = 0) →
      Sends d s.run ({ s.run with calls := s.run.calls + 1 }.apply c
        (.send threadId s.run.calls d :: .sendInLoop threadId s.run.calls d :: m)) := by
    intro hcb hhw hmine hout
    refine ⟨⟨(TcpConnection.sendInLoop_state hm).1.trans hs.connected,
      (TcpConnection.sendInLoop_growth hm).sound hs.sound, hcb, hhw, fun j hj => ?_⟩, rfl, ?_, ?_,
      fun hf => ?_, ?_⟩
    · rw [hqueue] at hj
      exact (List.mem_append.1 hj).elim (hs.mine j) (hmine j)
    · simp [sent_eq_nil hl]
    · simp [completed, hcount]
    · simp [hf]
    · rw [hqueue, List.length_append, Connection.apply_conn]
      refine hout.imp (fun hf => ?_) (Or.imp (fun h => ?_) fun h => ?_)
      · simp [hf]
      · exact ⟨h.1, h.2.1, by rw [h.2.2]⟩
      · obtain ⟨rest, h1, h2, h3, h4⟩ := h
        exact ⟨rest, h1, h2, h3, by rw [h4, Nat.add_zero]⟩
  obtain ⟨rfl, hq, hnil | hf⟩ | ⟨rfl, hq, ho⟩ | ⟨n, hn, rfl, hq⟩ :=
    TcpConnection.sendInLoop_outcome hs.sound hne hs.writeComplete hm
  · exact absurd hnil hd
  · have hq' : queued m = [] := by simpa using hq
    refine hsends hs.writeComplete hs.highWater (by simp [hq']) (.inl (by simpa using hf))
  · have hq' : queued m = [.writeComplete] := by simpa using hq
    exact hsends hs.writeComplete hs.highWater (by simp [hq']) (.inr (.inl ⟨ho, ho, by simp [hq']⟩))
  · have hq' : queued m = [] := by simpa [TcpConnection.highWater, hs.highWater] using hq
    refine hsends hs.writeComplete hs.highWater (by simp [hq'])
      (.inr (.inr ⟨d.drop n, by simpa using hn, ?_, rfl, by simp [hq']⟩))
    rw [List.length_drop]
    omega

/-! ### The callbacks -/

/-- The default message callback retrieves everything. -/
theorem notify_message (h : application.notify threadId .messageCallback x s = .next s') :
    s'.run = { s.run with
      conn := { s.run.conn with inputBuffer := [] }, calls := s.run.calls + 1 } ∧
      s'.app = s.app.elsewhere x.others := by
  obtain ⟨b, c, l, -, hc, rfl⟩ := Hosted.call_cases (Hosted.calls_singleton.1 h)
  cases hc
  refine ⟨?_, rfl⟩
  simp [Connection.Run.apply]

theorem notify_writeComplete
    (h : application.notify threadId .writeCompleteCallback x s = .next s')
    (hs : Established s.run) :
    Sends message s.run s'.run ∧ s'.app = (onWriteComplete x (s.app.elsewhere x.others)).2 := by
  have hcall := Hosted.calls_singleton.1 h
  have hsends := Sends.of_call hcall hs message_ne_nil
  exact ⟨hsends, Hosted.calls_app h⟩

/-- The greeting and the first message. -/
theorem notify_up {k : Interest} {fd : Fd} {b : Buffer}
    (h : application.notify threadId .up x (application.accept k fd b) = .next s) :
    ∃ u : Hosted ChargenServer, Sends greeting (.start k fd true false 0) u.run ∧
      Sends message u.run s.run ∧ s.app = application.init.elsewhere x.others := by
  have hs : Established (application.accept k fd b).run :=
    ⟨rfl, (Connection.Inv.of_init (Connection.start_init fd true false 0)).sound, rfl, rfl,
      by simp [Application.accept, Connection.Run.start, Connection.Run.queue]⟩
  have hops : (application.callback .up x (application.accept k fd b).run.conn
      (application.accept k fd b).app).1 = [.send greeting x.first, .send message x.second] := by
    simp only [application, onConnection]
    exact if_pos hs.connected
  have happ := Hosted.calls_app h
  rw [Application.notify_eq, hops] at h
  obtain ⟨u, h₁, h₂⟩ := Hosted.calls_cons.1 h
  have hfirst := Sends.of_call h₁ hs greeting_ne_nil
  exact ⟨u, hfirst, Sends.of_call (Hosted.calls_singleton.1 h₂) hfirst.established message_ne_nil,
    happ⟩

/-! ### The steps -/

/-- The stream and the counter after `n` write-complete callbacks, and the chains, unless a payload
has been given up. -/
structure Generating (s : Hosted ChargenServer) : Prop where
  established : Established s.run
  sent : sent s.run.history =
    greeting ++ (List.replicate (completed s.run + 1) message).flatten
  counted : s.app.Counted (completed s.run)
  chains : .faultError ∉ s.run.history → Chains s.run.conn.outputBuffer s.run.queue.length

/-- A step with the events `l` in which the server does not send: nothing becomes of the output, or
some of it is written, or all. -/
structure Rests (s s' : Hosted ChargenServer) (l : List Event) : Prop where
  connected : s'.run.conn.state = .kConnected
  writeComplete : s'.run.conn.writeCompleteCallback = true
  highWater : s'.run.conn.highWaterMarkCallback = false
  history : s'.run.history = s.run.history ++ l
  queue : s'.run.queue = s.run.queue ++ queued l
  app : ∃ k, s'.app = s.app.elsewhere k
  sent : Leven.sent l = []
  quiet : .writeCompleteCallback ∉ l
  outcome :
    (queued l = [] ∧ s'.run.conn.outputBuffer = s.run.conn.outputBuffer) ∨
    (queued l = [] ∧ ∃ m < s.run.conn.outputBuffer.length,
      s'.run.conn.outputBuffer = s.run.conn.outputBuffer.drop m) ∨
    (queued l = [.writeComplete] ∧ s.run.conn.outputBuffer ≠ [] ∧ s'.run.conn.outputBuffer = [])

theorem Generating.rests (hs : Generating s) (hi' : Connection.Inv s'.run) (h : Rests s s' l) :
    Generating s' := by
  have hcount : completed s'.run = completed s.run := by
    rw [completed, h.history, List.count_append, List.count_eq_zero.2 h.quiet, Nat.add_zero,
      completed]
  refine ⟨⟨h.connected, hi'.sound, h.writeComplete, h.highWater, fun j hj => ?_⟩, ?_, ?_,
    fun hf => ?_⟩
  · rw [h.queue] at hj
    refine (List.mem_append.1 hj).elim (hs.established.mine j) fun hj => ?_
    obtain ⟨hq, -⟩ | ⟨hq, -⟩ | ⟨hq, -⟩ := h.outcome <;> simp [hq] at hj
    exact hj
  · rw [h.history, sent_append, h.sent, List.append_nil, hcount, hs.sent]
  · obtain ⟨k, hk⟩ := h.app
    rw [hk, hcount]
    exact hs.counted.elsewhere
  · rw [h.history, List.mem_append, not_or] at hf
    have hc := hs.chains hf.1
    rw [h.queue, List.length_append]
    obtain ⟨hq, ho⟩ | ⟨hq, m, hm, ho⟩ | ⟨hq, hne, ho⟩ := h.outcome
    · rwa [ho, hq]
    · rw [ho, hq]
      exact hc.write hm
    · rw [ho, hq]
      exact hc.drain hne

/-- The message is sent again, from a connection whose closure has been taken out of the queue. -/
theorem Generating.sends {u : Hosted ChargenServer} (hs : Generating s)
    (hsends : Sends message u.run s'.run) (hout : u.run.conn.outputBuffer = s.run.conn.outputBuffer)
    (hqueue : s.run.queue.length = u.run.queue.length + 1)
    (hsent : Leven.sent u.run.history = Leven.sent s.run.history)
    (hcount : completed u.run = completed s.run + 1)
    (hfault : .faultError ∈ s.run.history → .faultError ∈ u.run.history)
    (happ : s'.app.Counted (completed s.run + 1)) : Generating s' where
  established := hsends.established
  sent := by
    rw [hsends.sent, hsends.count, hsent, hcount, hs.sent,
      List.replicate_succ' (n := ChargenServer.completed s.run + 1)]
    simp
  counted := by
    rw [hsends.count, hcount]
    exact happ
  chains hf := by
    have hc := hs.chains fun hf' => hf (hsends.fault (hfault hf'))
    rw [← hout, hqueue] at hc
    obtain hf' | ⟨ho, ho', hq⟩ | ⟨rest, hne, hlen, ho, hq⟩ := hsends.outcome
    · exact absurd hf' hf
    · rw [ho] at hc
      rwa [ho', hq]
    · rw [ho, hq]
      exact hc.receive hne hlen

/-- The stages of a dispatch, with what the message callback retrieves. -/
theorem Rests.of_handle {extrabuf : Buffer.ExtraBuf} {r : ReadResult} {st : Stage}
    {c : TcpConnection} {u : Hosted ChargenServer} (hs : Established s.run)
    (hi : Connection.Inv s.run) (hf : s.fill extrabuf r = .next u)
    (h : s.run.conn.handleStage st r w = .ok (c, l))
    (hn : application.notifyLast threadId l x
      { u with run := { s.run with phase := .dispatch st.next }.apply c l } = .next s')
    (hd : s'.run.conn.state ≠ .kDisconnected) : Rests s s' l := by
  have hd₀ : c.state ≠ .kDisconnected :=
    (Connection.ne_disconnected_of_run (Application.notifyLast_run hn) hd :)
  have happ := (Hosted.fill_run hf).2
  have happ₀ : ∃ k, u.app = s.app.elsewhere k := ⟨0, happ.trans elsewhere_zero.symm⟩
  have hqueue : ({ s.run with phase := .dispatch st.next }.apply c l).queue =
      s.run.queue ++ queued l := by
    simp [Connection.Run.queue]
  cases TcpConnection.StageStep.of_handleStage h with
  | idle =>
    obtain rfl := Application.notifyLast_quiet (by simp) hn
    exact ⟨hs.connected, hs.writeComplete, hs.highWater, by simp, hqueue, happ₀, by simp, by simp,
      .inl ⟨by simp, rfl⟩⟩
  | close hm hclose =>
    obtain ⟨-, rfl, -⟩ := TcpConnection.handleClose_cases hclose
    exact absurd rfl hd₀
  | read hm hread =>
    obtain ⟨-, ⟨rfl, rfl⟩ | ⟨m, hclose, rfl⟩ | ⟨bytes, rfl, rfl⟩⟩ :=
      TcpConnection.handleRead_cases hread
    · obtain rfl := Application.notifyLast_quiet (by simp) hn
      exact ⟨hs.connected, hs.writeComplete, hs.highWater, by simp, hqueue, happ₀, by simp, by simp,
        .inl ⟨by simp, rfl⟩⟩
    · obtain ⟨-, rfl, -⟩ := TcpConnection.handleClose_cases hclose
      exact absurd rfl hd₀
    · obtain ⟨hrun, happ'⟩ := notify_message (x := x) hn
      have happ₁ : ∃ k, s'.app = s.app.elsewhere k := ⟨x.others, happ'.trans (congrArg _ happ)⟩
      refine ⟨?_, ?_, ?_, ?_, ?_, happ₁, by simp, by simp, .inl ⟨by simp, ?_⟩⟩ <;> rw [hrun]
      · exact hs.connected
      · exact hs.writeComplete
      · exact hs.highWater
      · simp
      · exact hqueue
      · rfl
  | write hm hwrite =>
    obtain ⟨hc, -, -⟩ | ⟨-, hw, ⟨e, -, rfl, rfl⟩ | ⟨m, -, hlt, rfl, rfl⟩ | ⟨m, -, -, rfl, rfl⟩⟩ :=
      TcpConnection.handleWrite_cases hwrite
    · simp [hs.connected] at hc
    · obtain rfl := Application.notifyLast_quiet (by simp) hn
      exact ⟨hs.connected, hs.writeComplete, hs.highWater, by simp, hqueue, happ₀, by simp, by simp,
        .inl ⟨by simp, rfl⟩⟩
    · obtain rfl := Application.notifyLast_quiet (by simp) hn
      exact ⟨hs.connected, hs.writeComplete, hs.highWater, by simp, hqueue, happ₀, by simp, by simp,
        .inr (.inl ⟨by simp, m, hlt, rfl⟩)⟩
    · rw [if_neg (by simp [hs.connected]), if_pos hs.writeComplete] at hn hqueue ⊢
      obtain rfl := Application.notifyLast_quiet (by simp) hn
      have hne : s.run.conn.outputBuffer ≠ [] := (hi.sound hd₀).2.2.1 hw
      exact ⟨hs.connected, hs.writeComplete, hs.highWater, by simp, hqueue, happ₀, by simp, by simp,
        .inr (.inr ⟨by simp, hne, rfl⟩)⟩

theorem Generating.step (hs : Generating s) (hi : Connection.Inv s.run)
    (hi' : Connection.Inv s'.run) (h : Application.Step application threadId s lab s')
    (hd : s'.run.conn.state ≠ .kDisconnected) : Generating s' := by
  obtain ⟨hc, -, hwc, hhw, hmine⟩ := hs.established
  have hsame : ∃ k, s.app = s.app.elsewhere k := ⟨0, elsewhere_zero.symm⟩
  cases h with
  | poll h =>
    cases h with
    | idle hp =>
      exact hs.rests (l := [.poll]) hi' ⟨hc, hwc, hhw, rfl, by simp [Connection.Run.queue], hsame,
        by simp, by simp, .inl ⟨by simp, rfl⟩⟩
    | poll hp hm =>
      exact hs.rests (l := [.poll]) hi' ⟨hc, hwc, hhw, rfl,
        by simp [Connection.Run.queue, Connection.Run.setRevents], hsame, by simp, by simp,
        .inl ⟨by simp, rfl⟩⟩
  | swap hp =>
    exact hs.rests (l := []) hi' ⟨hc, hwc, hhw, by simp,
      by simp [Connection.Run.queue, hi.batch (by simp [hp])], hsame, by simp, by simp,
      .inl ⟨by simp, rfl⟩⟩
  | endJobs hp hj =>
    exact hs.rests (l := []) hi' ⟨hc, hwc, hhw, by simp, by simp [Connection.Run.queue], hsame,
      by simp, by simp, .inl ⟨by simp, rfl⟩⟩
  | handle hp hf h hn => exact hs.rests hi' (.of_handle hs.established hi hf h hn hd)
  | @runJob w x j js c l s' hp hj h hn =>
    have hqueue : s.run.queue = j :: (js ++ s.run.pendingJobs) := by
      simp [Connection.Run.queue, hj]
    obtain rfl := hmine j (by simp [hqueue])
    cases h
    have hu : Established ({ s.run with jobs := js }.apply s.run.conn [.writeCompleteCallback]) := by
      refine ⟨hc, hs.established.sound, hwc, hhw, fun j hj => hmine j ?_⟩
      rw [hqueue]
      exact List.mem_cons_of_mem _ (by simpa [Connection.Run.queue] using hj)
    obtain ⟨hsends, happ⟩ := notify_writeComplete hn hu
    refine hs.sends hsends rfl ?_ ?_ ?_ ?_ (happ ▸ hs.counted.elsewhere.onWriteComplete)
    · rw [hqueue]
      simp [Connection.Run.queue]
    · simp
    · simp [ChargenServer.completed]
    · simp
  | onTimer hp h =>
    obtain rfl := Hosted.calls_nil.1 h
    exact hs.rests (l := []) hi' ⟨hc, hwc, hhw, by simp, by simp, hsame, by simp, by simp,
      .inl ⟨by simp, rfl⟩⟩

theorem Generating.of_init (h : (system threadId).init s) : Generating s := by
  obtain ⟨k, fd, b, x, -, -, h⟩ := h
  obtain ⟨u, h₁, h₂, happ⟩ := notify_up h
  have hcount : completed s.run = 0 := by
    rw [h₂.count, h₁.count]
    simp [completed, Connection.Run.start]
  refine ⟨h₂.established, ?_, ?_, fun hf => ?_⟩
  · rw [h₂.sent, h₁.sent, hcount]
    simp [Connection.Run.start]
  · have hinit : application.init.Counted 0 := by simp [Counted, application]
    rw [happ, hcount]
    exact hinit.elsewhere
  · have hlen : greeting.length ≤ message.length := by
      rw [length_greeting, length_message]
      omega
    have hfirst := h₁.outcome.resolve_left fun hf' => hf (h₂.fault hf')
    have hsecond := h₂.outcome.resolve_left hf
    have hnil : (Connection.Run.start k fd true false 0).conn.outputBuffer = [] := rfl
    have hzero : (Connection.Run.start k fd true false 0).queue.length = 0 := rfl
    rw [hnil, hzero] at hfirst
    obtain ⟨-, ho₁, hq₁⟩ | ⟨a, hne₁, hlen₁, ho₁, hq₁⟩ := hfirst
    · obtain ⟨-, ho₂, hq₂⟩ | ⟨c, hne₂, hlen₂, ho₂, hq₂⟩ := hsecond
      · rw [ho₂, hq₂, hq₁]
        exact ⟨.inr (by omega), by simp, by simp⟩
      · rw [ho₂, hq₂, hq₁, ho₁, List.nil_append]
        exact ⟨.inl hne₂, by simp [hne₂], by omega⟩
    · obtain ⟨ho, -, -⟩ | ⟨c, hne₂, hlen₂, ho₂, hq₂⟩ := hsecond
      · simp [ho₁, hne₁] at ho
      · rw [ho₂, hq₂, hq₁, ho₁, List.nil_append]
        refine ⟨.inl (by simp [hne₁]), by simp [hne₁], ?_⟩
        rw [List.length_append]
        omega

variable {D : Hosted ChargenServer → Application.Label Answer → Prop}

theorem Generating.of_reachable (hr : (system threadId).ReachableIf D s)
    (hd : s.run.conn.state ≠ .kDisconnected) : Generating s := by
  refine hr.invariant_of (I := fun s => s.run.conn.state ≠ .kDisconnected → Generating s)
    (fun _ h => h) (fun s h _ => Generating.of_init h) ?_ hd
  intro s lab s' hreach hs hc h hd
  have hd₀ := Connection.ne_disconnected_of_run (Application.run_of_step h) hd
  exact (hs hd₀).step (.of_reachable (Application.reachable_run hreach))
    (.of_reachable (Application.reachable_run (hreach.step hc h))) (.of_step h) hd

/-- **The generator goes on, and never runs ahead by more than two messages.**  In every run, as
long as the connection is not closed and no payload has been given up: it is connected; what the
kernel has accepted, followed by the output buffer, is the greeting and as many whole messages as
the server has started to send; either the connection waits for the kernel to take output, or a
write-complete callback waits; the output buffer has two messages at most; and `transferred_` is the
bytes of the messages of all connections, modulo `2 ^ 64`. -/
theorem chargen_generates (hr : (system threadId).ReachableIf D s)
    (hd : s.run.conn.state ≠ .kDisconnected) (hf : .faultError ∉ s.run.history) :
    s.run.conn.state = .kConnected ∧
      accepted s.run.history ++ s.run.conn.outputBuffer =
        greeting ++ (List.replicate (completed s.run + 1) message).flatten ∧
      (s.run.conn.outputBuffer ≠ [] ∧ s.run.conn.channel.isWriting ∨ .writeComplete ∈ s.run.queue) ∧
      s.run.conn.outputBuffer.length ≤ 2 * message.length ∧
      s.app.transferred = .ofNat ((1 + completed s.run + s.app.others) * message.length) := by
  have hi : Connection.Inv s.run := .of_reachable (Application.reachable_run hr)
  have hg := Generating.of_reachable hr hd
  have hstream : accepted s.run.history ++ s.run.conn.outputBuffer =
      greeting ++ (List.replicate (completed s.run + 1) message).flatten :=
    (hi.stream hd hf).trans hg.sent
  have hc := hg.chains hf
  refine ⟨hg.established.connected, hstream, ?_, (Nat.le_add_right _ _).trans hc.room, hg.counted⟩
  refine hc.goesOn.imp (fun ho => ⟨ho, (hi.sound hd).2.2.2 ho⟩) fun hq => ?_
  obtain ⟨j, hj⟩ := List.exists_mem_of_length_pos hq
  exact hg.established.mine j hj ▸ hj

/-- The greeting is written at once and the first message in part, so the two chains meet in the
output buffer; another connection is served three times meanwhile. -/
theorem chargen_generates_meeting :
    ∃ s : Hosted ChargenServer, (system 0).Reachable s ∧
      (s.run.conn.state ≠ .kDisconnected ∧ .faultError ∉ s.run.history ∧ completed s.run = 1 ∧
        s.app.others = 3) ∧
      s.run.conn.state = .kConnected ∧
      accepted s.run.history ++ s.run.conn.outputBuffer =
        greeting ++ (List.replicate (completed s.run + 1) message).flatten ∧
      (s.run.conn.outputBuffer ≠ [] ∧ s.run.conn.channel.isWriting ∨ .writeComplete ∈ s.run.queue) ∧
      s.run.conn.outputBuffer.length ≤ 2 * message.length ∧
      s.app.transferred = .ofNat ((1 + completed s.run + s.app.others) * message.length) := by
  obtain ⟨s, hr, hd, hf, hc, ho⟩ := Application.exists_reachableIf application 0 5
    (x := ⟨.wrote 21, .wrote 1000, 0⟩) (D := fun _ _ => True)
    (w := [.swap, .runJob (.wrote 0) ⟨.wrote 0, .wrote 0, 3⟩, .endJobs])
    (P := fun s => s.run.conn.state ≠ .kDisconnected ∧ .faultError ∉ s.run.history ∧
      completed s.run = 1 ∧ s.app.others = 3) (by decide +kernel)
  exact ⟨s, hr, ⟨hd, hf, hc, ho⟩, chargen_generates hr hd hf⟩

end ChargenServer
end Leven
