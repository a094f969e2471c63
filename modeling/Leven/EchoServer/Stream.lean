import Leven.EchoServer.Memory

/-!
# The echo

What `readFd` has delivered is what has been handed to `sendInLoop`, followed by the input buffer:
the callbacks of the server neither lose nor reorder a byte.  With the stream of the connection it
is what the kernel has accepted, followed by the two buffers.

* `Echoed`: the invariant, step by step;
* `echo_intact`: the law.
-/

namespace Leven.EchoServer

open Transition

variable {timeout : ℤ} {threadId : Pid} {s s' : Hosted EchoServer}
  {lab : Application.Label Answer} {x : Answer} {e : Event} {l : List Event}
  {D : Hosted EchoServer → Application.Label Answer → Prop}

/-- What has been delivered has been sent, or is in the input buffer. -/
def Echoed (s : Hosted EchoServer) : Prop :=
  sent s.run.history ++ s.run.conn.inputBuffer = s.delivered

theorem sent_eq_nil (hl : ∀ e ∈ l, ∀ t k d, e ≠ .sendInLoop t k d) : sent l = [] := by
  refine List.flatMap_eq_nil_iff.2 fun e he => ?_
  split
  · exact absurd rfl (hl _ he _ _ _)
  · rfl

theorem sent_of_sendInLoop {c c' : TcpConnection} {t : Pid} {k : ℕ} {d : Bytes} {w : WriteResult}
    (h : c.sendInLoop t k d w = .ok (c', l)) : sent l = d := by
  obtain ⟨m, rfl, hm⟩ := TcpConnection.sendInLoop_events h
  have hnil : sent m = [] := sent_eq_nil fun e he t k d hsend => by
    have := hm e he
    simp [hsend] at this
  rw [sent_cons, hnil, List.append_nil]

theorem Echoed.notify (hs : Echoed s)
    (h : (application timeout).notify threadId e x s = .next s') : Echoed s' := by
  unfold Echoed at *
  by_cases he : e = .messageCallback
  · subst he
    by_cases hc : s.run.conn.state = .kConnected
    · obtain ⟨c, l, hsent⟩ := notify_message hc h
      rw [hsent.history, hsent.conn, hsent.delivered, sent_append, sent_cons,
        sent_of_sendInLoop hsent.sendInLoop]
      simpa using hs
    · obtain rfl := notify_message_closing hc h
      exact hs
  · obtain ⟨app, hk⟩ := keeps_of_notify he h
    rw [hk.sent, hk.content, hk.delivered]
    exact hs

theorem Echoed.notifyLast (hs : Echoed s)
    (h : (application timeout).notifyLast threadId l x s = .next s') : Echoed s' := by
  obtain ⟨e, -, -, h⟩ | rfl := Application.notifyLast_cases h
  · exact hs.notify h
  · exact hs

theorem Echoed.step (hs : Echoed s) (hmine : ∀ j ∈ s.run.queue, Mine j)
    (h : Application.Step (application timeout) threadId s lab s') : Echoed s' := by
  cases h with
  | poll h =>
    cases h with
    | idle hp => simpa [Echoed] using hs
    | poll hp hm => simpa [Echoed, Connection.Run.setRevents] using hs
  | swap hp | endJobs hp hj => exact hs
  | @handle extrabuf r w x st c l u s' hp hf h hn =>
    have hsent : sent l = [] := sent_eq_nil fun e he t k d hsend => by
      have := TcpConnection.handleStage_events h e he
      simp [hsend] at this
    have hiff : s.Fills ↔ (st = .read ∧
        s.run.conn.channel.revents ∩ {.epollin, .epollpri, .epollrdhup} ≠ ∅) ∧
        s.run.conn.state ≠ .kDisconnected := by
      simp [Hosted.Fills, Connection.Run.EntersHandleRead, hp]
    have hdelivered : u.delivered = s.delivered ++ if s.Fills then r.bytes else [] := by
      obtain ⟨hfills, -, b, n, -, rfl⟩ | ⟨hfills, rfl⟩ := Hosted.fill_cases hf
      · rw [if_pos hfills]
      · rw [if_neg hfills, List.append_nil]
    refine Echoed.notifyLast ?_ hn
    unfold Echoed at hs ⊢
    rw [Connection.apply_history, Connection.apply_conn, TcpConnection.handleStage_inputBuffer h,
      sent_append, hsent, List.append_nil, hdelivered, ← hs, List.append_assoc]
    simp only [hiff]
  | @runJob w x j js c l s' hp hj h hn =>
    have hj' : ∀ u i d, j ≠ .sendInLoop u i d := by
      rintro u i d rfl
      have := hmine (.sendInLoop u i d) (by simp [Connection.Run.queue, hj])
      simp [Mine] at this
    have hsent : sent l = [] := sent_eq_nil fun e he t k d hsend => by
      have := TcpConnection.runJob_events hj' h e he
      simp [hsend] at this
    refine Echoed.notifyLast ?_ hn
    unfold Echoed at hs ⊢
    rw [Connection.apply_history, Connection.apply_conn, TcpConnection.runJob_inputBuffer h,
      sent_append, hsent, List.append_nil]
    exact hs
  | onTimer hp h =>
    have hk := Hosted.Keeps.calls (fun op hop => plain_of_onTimeout hop) h
    unfold Echoed at *
    rw [hk.sent, hk.content, hk.delivered]
    exact hs

theorem Echoed.of_reachable (hr : (system timeout threadId).ReachableIf D s)
    (hd : s.run.conn.state ≠ .kDisconnected) : Echoed s := by
  refine hr.invariant_of (I := fun s => s.run.conn.state ≠ .kDisconnected → Echoed s)
    (fun _ h => h) ?_ ?_ hd
  · rintro s ⟨k, fd, b, x, -, -, h⟩ -
    obtain rfl := notify_up h
    rfl
  · intro s lab s' hreach hs _ h hd
    have hd₀ := Connection.ne_disconnected_of_run (Application.run_of_step h) hd
    exact (hs hd₀).step (Flowing.of_reachable hreach hd₀).queued.mine (.of_step h)

/-- **The echo is the input.**  In every run, as long as the connection is not closed and no payload
has been given up: what the kernel has accepted, followed by the output buffer and the input buffer,
is what `::readv` has delivered, and the input buffer is empty while the connection is connected. -/
theorem echo_intact (hr : (system timeout threadId).ReachableIf D s)
    (hd : s.run.conn.state ≠ .kDisconnected) (hf : .faultError ∉ s.run.history) :
    accepted s.run.history ++ s.run.conn.outputBuffer ++ s.run.conn.inputBuffer = s.delivered ∧
      (s.run.conn.state = .kConnected → s.run.conn.inputBuffer = []) := by
  have hi : Connection.Inv s.run := .of_reachable (Application.reachable_run hr)
  refine ⟨?_, fun hc => ?_⟩
  · rw [hi.stream hd hf]
    exact Echoed.of_reachable hr hd
  · obtain ⟨hri, hwi⟩ := (Bounded.of_reachable hr hd).fresh (.inl hc)
    rw [← (Application.stored_of_reachable hr).content, Buffer.content, hri, hwi]
    exact Container.slice_self

/-- Of a message of three bytes two are written. -/
theorem echo_intact_half :
    ∃ s : Hosted EchoServer, (system 5 0).Reachable s ∧
      (s.run.conn.state ≠ .kDisconnected ∧ .faultError ∉ s.run.history ∧
        s.delivered = [1, 2, 3] ∧ s.run.conn.outputBuffer = [3]) ∧
      accepted s.run.history ++ s.run.conn.outputBuffer ++ s.run.conn.inputBuffer = s.delivered ∧
        (s.run.conn.state = .kConnected → s.run.conn.inputBuffer = []) := by
  let extrabuf : Buffer.ExtraBuf := ⟨List.replicate Buffer.sizeofExtrabuf 0, List.length_replicate⟩
  let x : Answer := ⟨.wrote 2, 0⟩
  let handle : Application.Label Answer := .handle extrabuf (.data [1, 2, 3]) (.wrote 0) x
  obtain ⟨s, hr, hd, hf, hdel, ho⟩ := Application.exists_reachableIf (application 5) 0 5 (x := x)
    (D := fun _ _ => True)
    (w := [.swap, .endJobs, .poll (some {.epollin}), handle, handle, handle])
    (P := fun s => s.run.conn.state ≠ .kDisconnected ∧ .faultError ∉ s.run.history ∧
      s.delivered = [1, 2, 3] ∧ s.run.conn.outputBuffer = [3]) (by decide +kernel)
  exact ⟨s, hr, ⟨hd, hf, hdel, ho⟩, echo_intact hr hd hf⟩

end Leven.EchoServer
