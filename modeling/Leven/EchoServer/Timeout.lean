import Leven.EchoServer.FlowControl

/-!
# The idle connections of the echo server

The timer of the server closes a connection whose entry in `connections_` is due.  The entry of a
connected connection is at least one and at most two intervals later than the last activity, and it
has not been due at the last sweep.

* `Watched`: what an entry is worth;
* `Forward`: the clock has not gone back behind the last sweep;
* `idle_closed`: which connections a sweep closes.
-/

namespace Leven.EchoServer

open Transition

variable {timeout : ℤ} {threadId : Pid} {s s' : Hosted EchoServer} {a : EchoServer}
  {lab : Application.Label Answer} {x : Answer} {e : Event} {l : List Event}
  {D : Hosted EchoServer → Application.Label Answer → Prop}

/-- The entry of a connection that is watched. -/
structure Watched (timeout : ℤ) (a : EchoServer) (d : ℤ) : Prop where
  entry : a.deadline = some d
  after : a.touched + timeout ≤ d
  before : d ≤ a.touched + 2 * timeout
  /-- the last sweep has left it -/
  left : ∀ t ∈ a.swept, t < d

/-- The clock is not behind the last sweep, when a callback or the timer reads it. -/
def Forward (s : Hosted EchoServer) : Application.Label Answer → Prop
  | .handle _ _ _ x | .runJob _ x | .onTimer x => ∀ t ∈ s.app.swept, t ≤ x.now
  | .poll _ | .swap | .endJobs => True

instance (s : Hosted EchoServer) : DecidablePred (Forward s) := fun lab =>
  match lab with
  | .handle _ _ _ _ | .runJob _ _ | .onTimer _ => inferInstanceAs (Decidable (∀ _, _))
  | .poll _ | .swap | .endJobs => isTrue trivial

theorem Watched.expireAfter {k : ℤ} (ht : 0 < timeout) (hk : 1 ≤ k) (hk' : k ≤ 2)
    (hx : ∀ t ∈ a.swept, t ≤ x.now) :
    Watched timeout (expireAfter (k * timeout) x.now a) (x.now + k * timeout) where
  entry := rfl
  after := by
    change x.now + timeout ≤ _
    nlinarith
  before := by
    change _ ≤ x.now + 2 * timeout
    nlinarith
  left t hmem := by
    have := hx t hmem
    nlinarith

/-- Each callback leaves the entry alone, or makes a new one, or takes it away from a connection
that is not connected. -/
theorem Watched.callback {d : ℤ} {c : TcpConnection} (ht : 0 < timeout)
    (hx : ∀ t ∈ a.swept, t ≤ x.now) (ha : Watched timeout a d)
    (hc : e = .up ∨ e = .closeCallback → c.state = .kConnected) :
    ∃ d', Watched timeout ((application timeout).callback e x c a).2 d' := by
  have hone : ∃ d', Watched timeout (EchoServer.expireAfter timeout x.now a) d' := by
    have h := Watched.expireAfter (k := 1) ht le_rfl (by norm_num) hx
    rw [one_mul] at h
    exact ⟨_, h⟩
  cases e with
  | up | closeCallback =>
    simp only [application, onConnection, if_pos (hc (by simp))]
    exact hone
  | messageCallback => exact hone
  | writeCompleteCallback =>
    simp only [application, onWriteComplete]
    by_cases hr : c.channel.isReading
    · rw [if_neg (not_not.2 hr)]
      exact ⟨d, ha⟩
    · rw [if_pos hr]
      exact hone
  | highWaterMarkCallback len => exact ⟨_, Watched.expireAfter ht (by norm_num) le_rfl hx⟩
  | _ => exact ⟨d, ha⟩

theorem Watched.notifyLast {d : ℤ} {u : Hosted EchoServer} (ht : 0 < timeout)
    (h : (application timeout).notifyLast threadId l x u = .next s')
    (hx : ∀ t ∈ u.app.swept, t ≤ x.now) (ha : Watched timeout u.app d)
    (hc : s'.run.conn.state = .kConnected) : ∃ d', Watched timeout s'.app d' := by
  obtain ⟨e, -, -, h⟩ | rfl := Application.notifyLast_cases h
  · have happ : s'.app = ((application timeout).callback e x u.run.conn u.app).2 := by
      rw [Application.notify_eq] at h
      exact (Hosted.calls_app h :)
    rw [happ]
    refine ha.callback ht hx fun he => ?_
    by_contra hne
    rw [notify_down he hne h] at hc
    exact hne hc
  · exact ⟨d, ha⟩

/-- A sweep leaves the entry, or closes. -/
theorem sweep_cases (hd : s.run.conn.state ≠ .kDisconnected)
    (h : (system timeout threadId).step s (.onTimer x) = .next s') :
    (Due x s.app ∧ s'.run.conn.state = .kDisconnecting ∧ .forceCloseInLoop ∈ s'.run.queue ∧
      s'.app = { s.app with deadline := none, swept := some x.now }) ∨
    (¬ Due x s.app ∧ s' = { s with app := { s.app with swept := some x.now } }) := by
  obtain ⟨-, h⟩ := Outcome.guard_eq_next.1 h
  change Hosted.calls threadId (onTimeout x s.app).1 _ = _ at h
  obtain ⟨hdue, he⟩ | ⟨hdue, he⟩ := onTimeout_cases x s.app
  · left
    have happ := Hosted.calls_app h
    rw [he] at h
    simp only [Hosted.calls_cons, Hosted.calls_nil] at h
    obtain ⟨_, h, rfl⟩ := h
    obtain ⟨b, c, l, -, hc, rfl⟩ := Hosted.call_cases h
    obtain ⟨-, rfl, rfl⟩ | ⟨hc', -, -⟩ := TcpConnection.forceClose_cases hc
    · refine ⟨hdue, rfl, ?_, ?_⟩
      · simp [Connection.Run.queue]
      · rw [happ]
        exact congrArg Prod.snd he
    · exact absurd hc' hd
  · right
    have hs := h
    rw [he] at hs
    refine ⟨hdue, ?_⟩
    rw [Hosted.calls_nil.1 hs]
    exact congrArg (fun p : List Op × EchoServer => { s with app := p.2 }) he

theorem Watched.step {d : ℤ} (ht : 0 < timeout) (hf : Forward s lab)
    (ha : Watched timeout s.app d) (hd : s.run.conn.state ≠ .kDisconnected)
    (h : (system timeout threadId).step s lab = .next s')
    (hc : s'.run.conn.state = .kConnected) : ∃ d', Watched timeout s'.app d' := by
  have hstep := Application.Step.of_step h
  cases hstep with
  | poll _ | swap _ | endJobs _ _ => exact ⟨d, ha⟩
  | handle hp hfill _ hn =>
    have happ := (Hosted.fill_run hfill).2
    refine Watched.notifyLast (d := d) ht hn ?_ ?_ hc
    · dsimp only
      rw [happ]
      exact hf
    · dsimp only
      rwa [happ]
  | runJob hp hj _ hn => exact Watched.notifyLast ht hn hf ha hc
  | onTimer hp _ =>
    obtain ⟨-, hst, -⟩ | ⟨hdue, rfl⟩ := sweep_cases hd h
    · simp [hc] at hst
    · refine ⟨d, ha.entry, ha.after, ha.before, ?_⟩
      intro t hmem
      obtain rfl : _ = t := Option.some.inj hmem
      by_contra hle
      exact hdue ⟨d, ha.entry, not_lt.1 hle⟩

theorem Watched.of_reachable (ht : 0 < timeout)
    (hr : (system timeout threadId).ReachableIf Forward s)
    (hc : s.run.conn.state = .kConnected) : ∃ d, Watched timeout s.app d := by
  refine hr.invariant_of (I := fun s => s.run.conn.state = .kConnected →
    ∃ d, Watched timeout s.app d) (fun _ h => h) ?_ ?_ hc
  · rintro s ⟨k, fd, b, x, -, -, h⟩ -
    obtain rfl := notify_up h
    have hw := Watched.expireAfter (a := ⟨none, 0, none⟩) (x := x) ht le_rfl (by norm_num) (by simp)
    rw [one_mul] at hw
    exact ⟨_, hw⟩
  · intro s lab s' hreach hs hf h hc
    have hd : s'.run.conn.state ≠ .kDisconnected := by simp [hc]
    have hd₀ := Connection.ne_disconnected_of_run (Application.run_of_step h) hd
    have hi : Connection.Inv s.run := .of_reachable (Application.reachable_run hreach)
    have hq : Queued s.run := (Flowing.of_reachable hreach hd₀).queued
    have hecho := Echoes.of_step hi hq.writeComplete hq.mine (.of_step h) hd₀ hd
    obtain ⟨d, ha⟩ := hs (hecho.connected hc)
    exact ha.step ht hf hd₀ h hc

/-- **Idle connections are closed, and no others.**  In every run of a clock that does not go back
behind the last sweep: the entry of a connected connection is at least one and at most two intervals
later than the last activity, and later than the last sweep; the next sweep closes the connection if
its time has come to the entry, and leaves it alone otherwise; and when the loop waits again, a
connection that has been swept is closed. -/
theorem idle_closed (ht : 0 < timeout) (hr : (system timeout threadId).ReachableIf Forward s)
    (hd : s.run.conn.state ≠ .kDisconnected) :
    (s.run.conn.state = .kConnected → ∃ d, Watched timeout s.app d ∧
      ∀ x s', (system timeout threadId).step s (.onTimer x) = .next s' →
        (d ≤ x.now → s'.run.conn.state = .kDisconnecting ∧ .forceCloseInLoop ∈ s'.run.queue ∧
          s'.app.deadline = none) ∧
        (x.now < d → s'.run = s.run ∧ s'.app.deadline = some d)) ∧
    (s.run.phase = .poll → s.run.conn.state = .kConnected) := by
  refine ⟨fun hc => ?_, fun hp => ?_⟩
  · obtain ⟨d, ha⟩ := Watched.of_reachable ht hr hc
    refine ⟨d, ha, fun x s' h => ?_⟩
    obtain ⟨⟨d', hd', hle⟩, hst, hq, happ⟩ | ⟨hdue, rfl⟩ := sweep_cases hd h
    · cases hd'.symm.trans ha.entry
      exact ⟨fun _ => ⟨hst, hq, by rw [happ]⟩, fun hlt => absurd hle (not_le.2 hlt)⟩
    · exact ⟨fun hle => absurd ⟨d, ha.entry, hle⟩ hdue, fun _ => ⟨rfl, ha.entry⟩⟩
  · exact connected_of_poll (.of_reachable (Application.reachable_run hr))
      (Flowing.of_reachable hr hd).queued hd hp

/-- A connection that has been swept at time 3 and has received a byte at time 4. -/
theorem idle_closed_active :
    ∃ s : Hosted EchoServer, (system 5 0).ReachableIf Forward s ∧
      (s.run.conn.state = .kConnected ∧ s.app.deadline = some 9 ∧ s.app.swept = some 3) ∧
      (s.run.conn.state = .kConnected → ∃ d, Watched 5 s.app d ∧
        ∀ x s', (system 5 0).step s (.onTimer x) = .next s' →
          (d ≤ x.now → s'.run.conn.state = .kDisconnecting ∧ .forceCloseInLoop ∈ s'.run.queue ∧
            s'.app.deadline = none) ∧
          (x.now < d → s'.run = s.run ∧ s'.app.deadline = some d)) ∧
      (s.run.phase = .poll → s.run.conn.state = .kConnected) := by
  let extrabuf : Buffer.ExtraBuf := ⟨List.replicate Buffer.sizeofExtrabuf 0, List.length_replicate⟩
  let handle : Application.Label Answer := .handle extrabuf (.data [1]) (.wrote 0) ⟨.wrote 1, 4⟩
  obtain ⟨s, hr, hc, hd, hs⟩ := Application.exists_reachableIf (application 5) 0 5
    (x := ⟨.wrote 0, 0⟩) (D := Forward)
    (w := [.onTimer ⟨.wrote 0, 3⟩, .swap, .endJobs, .poll (some {.epollin}), handle, handle, handle,
      handle])
    (P := fun s => s.run.conn.state = .kConnected ∧ s.app.deadline = some 9 ∧
      s.app.swept = some 3) (by decide +kernel)
  exact ⟨s, hr, ⟨hc, hd, hs⟩, idle_closed (by norm_num) hr (by simp [hc])⟩

end Leven.EchoServer
