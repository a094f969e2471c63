import Leven.EchoServer.FlowControl
import Leven.TcpConnection.StopRead

/-!
# The memory of the echo server

What one read can bring is bounded by the areas that `readFd` offers, and these by the storage of
the input buffer, which is empty before each read: a message is echoed as a whole.  So the storage
stops growing, and with it the output buffer of a reader that heeds the stop.

* `Filled`: what a step does to the storage of the input buffer;
* `Bounded`: the invariant;
* `memory_bounded`: the law.
-/

namespace Leven.EchoServer

open Transition

variable {timeout : ℤ} {threadId : Pid} {s s' : Hosted EchoServer}
  {lab : Application.Label Answer} {x : Answer}

/-- The most that one call of `readFd` can bring, when the storage has grown as far as it does. -/
def maxRead : ℕ := 2 * Buffer.sizeofExtrabuf - 1

/-- What a step does to the storage: nothing, or it is filled, and emptied unless the connection is
being closed. -/
inductive Filled (s s' : Hosted EchoServer) : Prop
  | same (h : s'.inputBuffer = s.inputBuffer)
  | read {extrabuf : Buffer.ExtraBuf} {bytes : Bytes} {b : Buffer} {n : ℤ} (hf : s.Fills)
      (hlen : bytes.length ≤ s.inputBuffer.offered)
      (hr : s.inputBuffer.readFd extrabuf (.data bytes) = .ok (b, n))
      (h : s'.inputBuffer = b.retrieveAll ∨
        s'.inputBuffer = b ∧ s'.run.conn.state ≠ .kConnected ∧
          s'.run.phase = .dispatch (some .write))

theorem message_of_handleStage {c c' : TcpConnection} {l : List Event} {st : Stage}
    {r : ReadResult} {w : WriteResult} (h : c.handleStage st r w = .ok (c', l))
    (hm : .messageCallback ∈ l) :
    st = .read ∧ c.channel.revents ∩ {.epollin, .epollpri, .epollrdhup} ≠ ∅ := by
  cases TcpConnection.StageStep.of_handleStage h with
  | idle => cases hm
  | close _ h =>
    obtain ⟨-, -, rfl⟩ := TcpConnection.handleClose_cases h
    simp at hm
  | read hmask h => exact ⟨rfl, hmask⟩
  | write _ h =>
    obtain ⟨-, -, rfl⟩ | ⟨-, -, ⟨e, -, -, rfl⟩ | ⟨n, -, -, -, rfl⟩ | ⟨n, -, -, -, rfl⟩⟩ :=
      TcpConnection.handleWrite_cases h
    · cases hm
    · simp at hm
    · simp at hm
    · split_ifs at hm <;> simp at hm

/-- The message is echoed as a whole, so the storage is empty again. -/
theorem Filled.of_message {u : Hosted EchoServer}
    (h : (application timeout).notify threadId .messageCallback x u = .next s') (hs : u.Stored) :
    s'.inputBuffer = u.inputBuffer.retrieveAll ∨
      s'.inputBuffer = u.inputBuffer ∧ s'.run.conn.state ≠ .kConnected ∧
        s'.run.phase = u.run.phase := by
  by_cases hc : u.run.conn.state = .kConnected
  · obtain ⟨c, l, hsent⟩ := notify_message hc h
    left
    have hlen : u.run.conn.inputBuffer.length = u.inputBuffer.readableBytes := by
      rw [← hs.content, hs.wellFormed.length_content]
    have hretr := hsent.retrieve
    rw [hlen, Buffer.retrieve, if_pos le_rfl, if_neg (lt_irrefl _)] at hretr
    exact (Except.ok.inj hretr).symm
  · obtain rfl := notify_message_closing hc h
    exact .inr ⟨rfl, hc, rfl⟩

theorem Filled.of_notifyLast {u : Hosted EchoServer} {l : List Event}
    (hl : .messageCallback ∉ l)
    (h : (application timeout).notifyLast threadId l x u = .next s') :
    s'.inputBuffer = u.inputBuffer := by
  obtain ⟨e, he, -, h⟩ | rfl := Application.notifyLast_cases h
  · obtain ⟨app, hk⟩ := keeps_of_notify (fun hm => hl (hm ▸ List.mem_of_getLast? he)) h
    exact hk.inputBuffer
  · rfl

theorem Filled.of_step (hs : s.Stored) (hmine : ∀ j ∈ s.run.queue, Mine j)
    (h : Application.Step (application timeout) threadId s lab s')
    (hd₀ : s.run.conn.state ≠ .kDisconnected) (hd : s'.run.conn.state ≠ .kDisconnected) :
    Filled s s' := by
  cases h with
  | poll h | swap hp | endJobs hp hj => exact .same rfl
  | @handle extrabuf r w x st c l u s' hp hf h hn =>
    obtain ⟨hfills, hlen, b, n, hb, rfl⟩ | ⟨hfills, rfl⟩ := Hosted.fill_cases hf
    · -- `handleRead` reads
      obtain ⟨⟨hp', hm⟩, -⟩ := hfills
      cases hp.symm.trans hp'
      have hread : s.run.conn.handleRead r = .ok (c, l) := by
        simpa [TcpConnection.handleStage, hm] using h
      unfold TcpConnection.handleRead at hread
      rw [if_neg hd₀] at hread
      cases r with
      | error e =>
        cases hb
        cases hread
        exact .same ((Filled.of_notifyLast (by simp) hn).trans rfl)
      | data bytes =>
        cases bytes with
        | nil =>
          obtain ⟨m, hclose, rfl⟩ := TcpConnection.Result.after_eq_ok.1 hread
          exact absurd (closed_of_handleClose hclose rfl hn) hd
        | cons a as =>
          cases hread
          obtain ⟨b', hb', hw, hc⟩ := hs.wellFormed.readFd hlen extrabuf
          cases hb'.symm.trans hb
          have hmessage := Filled.of_message hn ⟨hw, hc.trans (by rw [hs.content]; rfl)⟩
          exact .read ⟨⟨hp, hm⟩, hd₀⟩ hlen hb hmessage
    · refine .same ((Filled.of_notifyLast (fun hm => hfills ?_) hn).trans rfl)
      obtain ⟨rfl, hmask⟩ := message_of_handleStage h hm
      exact ⟨⟨hp, hmask⟩, hd₀⟩
  | @runJob w x j js c l s' hp hj h hn =>
    refine .same ((Filled.of_notifyLast (fun hm => ?_) hn).trans rfl)
    have hj' : ∀ u i d, j ≠ .sendInLoop u i d := by
      rintro u i d rfl
      have := hmine (.sendInLoop u i d) (by simp [Connection.Run.queue, hj])
      simp [Mine] at this
    simpa using TcpConnection.runJob_events hj' h _ hm
  | @onTimer x s' hp h =>
    exact .same (Hosted.Keeps.calls (fun op hop => plain_of_onTimeout hop) h).inputBuffer

/-! ### The invariant -/

/-- No urgent data is reported while the connection is not reading. -/
def Calm (s : Hosted EchoServer) : Application.Label Answer → Prop
  | .poll (some m) => .epollpri ∈ m → s.run.conn.channel.isReading
  | _ => True

instance (s : Hosted EchoServer) : DecidablePred (Calm s) := fun lab =>
  match lab with
  | .poll (some _) => inferInstanceAs (Decidable (_ → _))
  | .poll none | .handle .. | .swap | .runJob .. | .endJobs | .onTimer _ => isTrue trivial

/-- The dispatch is before its last stage. -/
def Ahead (r : Connection.Run) : Prop := ∃ st, r.phase = .dispatch (some st) ∧ st ≠ .write

/-- A dispatch calls for reading only while the connection is reading. -/
def Heeds (r : Connection.Run) : Prop :=
  Ahead r → r.conn.channel.revents ∩ {.epollin, .epollpri, .epollrdhup} ≠ ∅ →
    r.conn.channel.isReading

variable {r r' : Connection.Run} {bound : ℕ} {due : Prop}
  {D : Hosted EchoServer → Application.Label Answer → Prop}

/-- Before the last stage there was another one. -/
theorem Echoes.ahead (h : Echoes bound due r r') (ha : Ahead r') : r.phase = .poll ∨ Ahead r := by
  obtain ⟨st', hst', hne⟩ := ha
  cases h with
  | poll hp hp' hb => exact .inl hp
  | @stage st hp hp' hb =>
    refine .inr ⟨st, hp, ?_⟩
    rintro rfl
    simp [hp', Stage.next] at hst'
  | timer hp hp' hb | forceClose hdue hp hp' hb => exact .inr ⟨st', hp' ▸ hst', hne⟩
  | relay hp hp' hc ho hb | receive hp hp' hr hc hn hlen hb =>
    simp only [hp', Phase.dispatch.injEq, Option.some.injEq] at hst'
    exact absurd hst'.symm hne
  | write hp hp' hm hb | drain hp hp' ho hb | swap hp hp' hpend hb | endJobs hp hp' hj hb
  | highWater hp hp' hpend hj hb | writeComplete hp hp' hpend hj hb => simp [hp'] at hst'

theorem Echoes.heeds (hr : Heeds r) (h : Echoes bound due r r') (hp : r.phase ≠ .poll) :
    Heeds r' := by
  intro ha hm
  have ha₀ := (h.ahead ha).resolve_left hp
  obtain ⟨st', hst', -⟩ := ha
  cases h with
  | poll hp' => exact absurd hp' hp
  | highWater _ hp' | writeComplete _ hp' | swap _ hp' | endJobs _ hp' => simp [hp'] at hst'
  | stage _ _ hb | relay _ _ _ _ hb | receive _ _ _ _ _ _ hb | write _ _ _ hb | drain _ _ _ hb
  | timer _ _ hb | forceClose _ _ _ hb =>
    rw [hb.revents hp] at hm
    exact hb.reading.2 (hr ha₀ hm)

/-- The storage of the input buffer is bounded, and empty when a read can come. -/
structure Bounded (s : Hosted EchoServer) : Prop where
  size : s.inputBuffer.buffer.length ≤ Buffer.kCheapPrepend + maxRead
  fresh : s.run.conn.state = .kConnected ∨ Ahead s.run →
    s.inputBuffer.readerIndex = Buffer.kCheapPrepend ∧
      s.inputBuffer.writerIndex = Buffer.kCheapPrepend

theorem offered_le {b : Buffer} (hsize : b.buffer.length ≤ Buffer.kCheapPrepend + maxRead)
    (hw : b.writerIndex = Buffer.kCheapPrepend) : b.offered ≤ maxRead := by
  have hle : b.writableBytes ≤ maxRead := by
    unfold Buffer.writableBytes
    omega
  by_cases hlt : b.writableBytes < Buffer.sizeofExtrabuf
  · simp only [Buffer.offered, Buffer.iovcnt, hlt, if_true]
    simp only [maxRead, Buffer.sizeofExtrabuf] at *
    omega
  · simpa [Buffer.offered, Buffer.iovcnt, hlt] using hle

/-- What is ahead of the last stage was so before, or the connection was in `epoll_wait`. -/
theorem Echoes.fresh (hi : Connection.Inv r) (hq : Queued r) (hd : r.conn.state ≠ .kDisconnected)
    (h : Echoes bound due r r') (hf : r'.conn.state = .kConnected ∨ Ahead r') :
    r.conn.state = .kConnected ∨ Ahead r := by
  rcases hf with hc | ha
  · exact .inl (h.connected hc)
  · exact (h.ahead ha).imp_left (connected_of_poll hi hq hd)

theorem Bounded.of_init (h : (system timeout threadId).init s) : Bounded s := by
  obtain ⟨k, fd, b, x, -, hb, h⟩ := h
  obtain rfl := notify_up h
  cases Buffer.new_eq.symm.trans hb
  exact ⟨List.length_replicate.trans_le (by decide), fun _ => ⟨rfl, rfl⟩⟩

theorem Bounded.filled (hs : Bounded s) (hst : s.Stored) (h : Filled s s')
    (hf : s'.run.conn.state = .kConnected ∨ Ahead s'.run →
      s.run.conn.state = .kConnected ∨ Ahead s.run) : Bounded s' := by
  cases h with
  | same h =>
    exact ⟨by rw [h]; exact hs.size, fun hc => by rw [h]; exact hs.fresh (hf hc)⟩
  | @read extrabuf bytes b n hfills hlen hr h =>
    obtain ⟨-, hw⟩ := hs.fresh (.inr ⟨.read, hfills.1.1, by simp⟩)
    have hsize : b.buffer.length ≤ Buffer.kCheapPrepend + maxRead := by
      have hgrow := Buffer.length_readFd hst.wellFormed.writer_le hr
      have hoff := offered_le hs.size hw
      have := hs.size
      rw [hw] at hgrow
      omega
    obtain h | ⟨h, hne, hphase⟩ := h
    · exact ⟨by rw [h]; exact hsize, fun _ => by rw [h]; exact ⟨rfl, rfl⟩⟩
    · refine ⟨by rw [h]; exact hsize, ?_⟩
      rintro (hc | ⟨st, hst, hwrite⟩)
      · exact absurd hc hne
      · simp only [hphase, Phase.dispatch.injEq, Option.some.injEq] at hst
        exact absurd hst.symm hwrite

theorem Bounded.of_reachable (hr : (system timeout threadId).ReachableIf D s)
    (hd : s.run.conn.state ≠ .kDisconnected) : Bounded s := by
  refine hr.invariant_of (I := fun s => s.run.conn.state ≠ .kDisconnected → Bounded s)
    (fun _ h => h) (fun s h _ => Bounded.of_init h) ?_ hd
  intro s lab s' hreach hs _ h hd
  have hd₀ := Connection.ne_disconnected_of_run (Application.run_of_step h) hd
  have hi : Connection.Inv s.run := .of_reachable (Application.reachable_run hreach)
  have hq : Queued s.run := (Flowing.of_reachable hreach hd₀).queued
  have hst := Application.stored_of_reachable hreach
  have hecho := Echoes.of_step hi hq.writeComplete hq.mine (.of_step h) hd₀ hd
  exact (hs hd₀).filled hst (.of_step hst hq.mine (.of_step h) hd₀ hd) (hecho.fresh hi hq hd₀)

theorem Heeds.of_reachable (hr : (system timeout threadId).ReachableIf Calm s)
    (hd : s.run.conn.state ≠ .kDisconnected) : Heeds s.run := by
  refine hr.invariant_of (I := fun s => s.run.conn.state ≠ .kDisconnected → Heeds s.run)
    (fun _ h => h) ?_ ?_ hd
  · rintro s ⟨k, fd, b, x, -, -, h⟩ - ⟨st, hst, -⟩
    obtain rfl := notify_up h
    cases hst
  · intro s lab s' hreach hs hc h hd
    have hd₀ := Connection.ne_disconnected_of_run (Application.run_of_step h) hd
    have hrun := Application.reachable_run hreach
    have hi : Connection.Inv s.run := .of_reachable hrun
    have hq : Queued s.run := (Flowing.of_reachable hreach hd₀).queued
    by_cases hp : s.run.phase = .poll
    · have hstep := Application.Step.of_step h
      cases hstep with
      | poll h' =>
        cases h' with
        | idle _ =>
          rintro ⟨st, hst, -⟩
          simp at hst
        | @poll m _ hm =>
          rintro - hmask
          by_contra hread
          have hrep : Reportable (some s.run.conn.channel.events) m := by
            rwa [hi.synced.1, if_pos (hi.sound hd₀).1] at hm
          exact hmask ((Connection.Masked.of_reachable hrun).inter_eq_empty hrep hread
            fun hpri => hread (hc hpri))
      | handle hp' | swap hp' | runJob hp' | endJobs hp' => simp [hp] at hp'
      | onTimer hp' => simp [hp] at hp'
    · exact (Echoes.of_step hi hq.writeComplete hq.mine (.of_step h) hd₀ hd).heeds (hs hd₀) hp

/-- **Bounded memory.**  In every run in which no urgent data is reported while the connection is
not reading, whatever the peer sends and however little the kernel takes: as long as the connection
is not closed, the storage of the input buffer and the output buffer are bounded. -/
theorem memory_bounded (hr : (system timeout threadId).ReachableIf Calm s)
    (hd : s.run.conn.state ≠ .kDisconnected) :
    s.inputBuffer.buffer.length ≤ Buffer.kCheapPrepend + maxRead ∧
      s.run.conn.outputBuffer.length < mark + maxRead := by
  refine ⟨(Bounded.of_reachable hr hd).size, ?_⟩
  have hflow : Flowing (Backpressure.Heeded maxRead) s.run := by
    refine flowing_of_reachable (D := Calm) ?_ ?_ hr hd
    · intro s n hreach hd hread hn
      have hb := Bounded.of_reachable hreach hd
      have hst := Application.stored_of_reachable hreach
      have ha : Ahead s.run := ⟨.read, hread.1, by simp⟩
      obtain ⟨hri, hwi⟩ := hb.fresh (.inr ha)
      have hnil : s.run.conn.inputBuffer = [] := by
        rw [← hst.content, Buffer.content, hri, hwi]
        exact Container.slice_self
      refine ⟨?_, ?_⟩
      · exact decide_eq_true (Heeds.of_reachable hreach hd ha hread.2)
      · rw [hnil, List.length_nil, Nat.zero_add] at hn
        exact hn.trans (offered_le hb.size hwi)
    · intro v lab hlab
      cases lab with
      | receive n => exact absurd rfl (hlab n)
      | _ => trivial
  exact Backpressure.level_lt (by decide) hflow.reader

/-- A message that is not written fills the output buffer up to the mark. -/
theorem memory_bounded_full :
    ∃ s : Hosted EchoServer, (system 5 0).ReachableIf Calm s ∧
      (s.run.conn.state ≠ .kDisconnected ∧ s.run.conn.outputBuffer.length = mark) ∧
      s.inputBuffer.buffer.length ≤ Buffer.kCheapPrepend + maxRead ∧
        s.run.conn.outputBuffer.length < mark + maxRead := by
  let extrabuf : Buffer.ExtraBuf := ⟨List.replicate Buffer.sizeofExtrabuf 0, List.length_replicate⟩
  let x : Answer := ⟨.error .eagain, 0⟩
  let handle : Application.Label Answer :=
    .handle extrabuf (.data (List.replicate mark 7)) (.wrote 0) x
  obtain ⟨s, hr, hd, ho⟩ := Application.exists_reachableIf (application 5) 0 5 (x := x)
    (D := Calm)
    (w := [.swap, .endJobs, .poll (some {.epollin}), handle, handle, handle])
    (P := fun s => s.run.conn.state ≠ .kDisconnected ∧ s.run.conn.outputBuffer.length = mark)
    (by decide +kernel)
  exact ⟨s, hr, ⟨hd, ho⟩, memory_bounded hr hd⟩

end Leven.EchoServer
