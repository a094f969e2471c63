import Leven.TcpConnection.Run

/-!
# A requested half-close

A call of `shutdown` on a connected connection leaves a duty behind: `SHUT_WR`.  It is done at once,
or by the closure of `shutdownInLoop`, or, if output is waiting then, by the `handleWrite` that
drains it.

* `Entrusted`: the duty is done, or left to the bit `EPOLLOUT` or to a closure that has not run;
* `Entrusted.step`: every step hands it on;
* `halfClose_kept`: a requested half-close is not forgotten, and `halfClose_moved`: while the batch
  of `doPendingJobs` runs, the closure need not be in `pendingJobs_`.
-/

namespace Leven

open Transition

namespace TcpConnection

variable {c c' : TcpConnection} {l : List Event} {b : Bool} {t : Pid} {r : ReadResult}
  {w : WriteResult}

/-- `SHUT_WR` has been issued by the call, or `EPOLLOUT` is subscribed behind it. -/
def Handed (c' : TcpConnection) (l : List Event) : Prop :=
  .shutdownWr ∈ l ∨ c'.channel.isWriting

/-- `handleWrite` keeps `EPOLLOUT` until it has drained the output, and then half-closes. -/
theorem handleWrite_handed (h : c.handleWrite w = .ok (c', l)) (hd : c.state = .kDisconnecting)
    (hw : c.channel.isWriting) : Handed c' l := by
  obtain ⟨-, rfl, rfl⟩ | ⟨-, -, ⟨e, -, rfl, rfl⟩ | ⟨m, -, -, rfl, rfl⟩ | ⟨m, -, -, rfl, rfl⟩⟩ :=
    handleWrite_cases h
  · exact .inr hw
  · exact .inr hw
  · exact .inr hw
  · left
    rw [if_pos hd]
    simp

theorem handleStage_handed {st : Stage} (h : c.handleStage st r w = .ok (c', l)) (hs : c.Sound)
    (hd : c.state = .kDisconnecting) (hd' : c'.state = .kDisconnecting)
    (hw : c.channel.isWriting) : Handed c' l := by
  by_cases hst : st = .write
  · subst hst
    cases StageStep.of_handleStage h with
    | idle => exact .inr hw
    | write _ h =>
      have hhanded : Handed _ l := handleWrite_handed h hd hw
      exact hhanded
  · refine .inr (Connection.isWriting_of_growth (handleStage_growth hst h) hs ?_ hw)
    simp [hd']

/-- The body of the closure of `shutdown`. -/
theorem shutdownInLoop_handed (h : c.shutdownInLoop = .ok (c', l)) (hd : c.state ≠ .kDisconnected) :
    Handed c' l := by
  unfold shutdownInLoop at h
  split_ifs at h with hw
  · cases h
    exact .inl List.mem_cons_self
  · cases h
    refine .inr ?_
    by_contra hn
    exact hw ⟨hd, hn⟩

/-- A call of `shutdown` that finds the connection connected. -/
theorem shutdown_handed (h : c.shutdown b t = .ok (c', l)) (hc : c.state = .kConnected) :
    c'.state = .kDisconnecting ∧ (Handed c' l ∨ .queueInLoop .shutdownInLoop ∈ l) := by
  obtain ⟨-, rfl, ⟨hne, -⟩ | ⟨-, -, rfl⟩ | ⟨-, -, hw, rfl⟩ | ⟨-, -, -, rfl⟩⟩ := shutdown_cases h
  · exact absurd hc hne
  · exact ⟨rfl, .inr (by simp)⟩
  · exact ⟨rfl, .inl (.inr hw)⟩
  · exact ⟨rfl, .inl (.inl (by simp))⟩

end TcpConnection

namespace Connection

variable {threadId : Pid} {s s' s₀ s₁ : Run} {lab : Label} {t : Pid}

/-- The connection is not connected any more, and while it is disconnecting its half-close is done,
or left to `handleWrite` or to a closure. -/
structure Entrusted (s : Run) : Prop where
  left : s.conn.state ≠ .kConnected
  handed : s.conn.state = .kDisconnecting →
    .shutdownWr ∈ s.history ∨ s.conn.channel.isWriting ∨ .shutdownInLoop ∈ s.queue

/-- Before a step that ends disconnecting the connection was so already. -/
theorem Entrusted.disconnecting {c : TcpConnection} {l : List Event} (hi : Core s) (hs : Entrusted s)
    (e : Effect s.conn c l) (hd : c.state = .kDisconnecting) :
    s.conn.state = .kDisconnecting := by
  have hmono := e.mono
  have hest := hi.established
  have hne := hs.left
  cases hst : s.conn.state <;> simp_all [ConnectionState.value]

/-- A call, a handler or a closure; `t` differs from `s` in the phase and the queue. -/
theorem Entrusted.apply {r : Run} {c : TcpConnection} {l : List Event} (hi : Core s) (hs : Entrusted s)
    (e : Effect s.conn c l) (hc : r.conn = c) (hh : r.history = s.history ++ l)
    (hwr : s.conn.state = .kDisconnecting → c.state = .kDisconnecting →
      s.conn.channel.isWriting → TcpConnection.Handed c l)
    (hq : s.conn.state = .kDisconnecting → .shutdownInLoop ∈ s.queue →
      .shutdownInLoop ∈ r.queue ∨ TcpConnection.Handed c l) : Entrusted r := by
  subst hc
  have hhanded : TcpConnection.Handed r.conn l →
      .shutdownWr ∈ r.history ∨ r.conn.channel.isWriting ∨ .shutdownInLoop ∈ r.queue := by
    rintro (h | h)
    · exact .inl (hh ▸ List.mem_append_right _ h)
    · exact .inr (.inl h)
  refine ⟨fun h => hs.left (hi.connected e h), fun hd => ?_⟩
  have hd' := hs.disconnecting hi e hd
  rcases hs.handed hd' with h | h | h
  · exact .inl (hh ▸ List.mem_append_left _ h)
  · exact hhanded (hwr hd' hd h)
  · rcases hq hd' h with h | h
    · exact .inr (.inr h)
    · exact hhanded h

theorem Entrusted.step (hi : Inv s) (hs : Entrusted s) (h : Step threadId s lab s') : Entrusted s' := by
  have hkeep : ∀ {c : TcpConnection} {l : List Event}, Growth s.conn c l →
      c.state = .kDisconnecting → s.conn.channel.isWriting → TcpConnection.Handed c l :=
    fun e hd hw => .inr (isWriting_of_growth e hi.sound (by simp [hd]) hw)
  cases h with
  | call ht h =>
    have e := TcpConnection.call_growth h
    refine hs.apply hi.toCore e.toEffect rfl rfl (fun _ hd hw => hkeep e hd hw) fun _ hq => .inl ?_
    rw [apply_queue]
    exact List.mem_append_left _ hq
  | idle hp | poll hp hm =>
    exact ⟨hs.left, fun hd => (hs.handed hd).imp_left (by simp [Run.setRevents])⟩
  | @handle r w st c l hp h =>
    refine hs.apply hi.toCore (TcpConnection.handleStage_effect h) rfl rfl
      (fun hd hd' hw => TcpConnection.handleStage_handed h hi.sound hd hd' hw) fun _ hq => .inl ?_
    rw [apply_queue]
    exact List.mem_append_left _ hq
  | swap hp =>
    have hb : s.jobs = [] := hi.batch (by simp [hp])
    refine ⟨hs.left, fun hd => ?_⟩
    have hq := hs.handed hd
    simp only [Run.queue, hb, List.nil_append] at hq
    simpa [Run.queue] using hq
  | @runJob w j js c l hp hj h =>
    have e := TcpConnection.runJob_growth h
    refine hs.apply hi.toCore e.toEffect rfl rfl (fun _ hd hw => hkeep e hd hw) fun hd hq => ?_
    rw [Run.queue, hj, List.cons_append, List.mem_cons] at hq
    rcases hq with rfl | hq
    · -- the closure takes care of it now
      exact .inr (TcpConnection.shutdownInLoop_handed h (by simp [hd]))
    · left
      rw [apply_queue]
      exact List.mem_append_left _ hq
  | endJobs hp hj => exact ⟨hs.left, hs.handed⟩

/-- The call leaves the duty with the closure or with `EPOLLOUT`, or has done it. -/
theorem Entrusted.of_shutdown (hc : s.conn.state = .kConnected)
    (h : Step threadId s (.call t .shutdown) s') : Entrusted s' := by
  cases h with
  | @call t op c l ht h =>
    obtain ⟨hd, hduty⟩ := TcpConnection.shutdown_handed h hc
    refine ⟨by simp [hd], fun _ => ?_⟩
    rcases hduty with (hw | hw) | hq
    · exact .inl (List.mem_append_right _ hw)
    · exact .inr (.inl hw)
    · right; right
      rw [apply_queue]
      exact List.mem_append_right _ (mem_queued.2 hq)

/-- **A requested half-close is not forgotten.**  After a call of `shutdown` that found the
connection connected, in every state in which it is disconnecting: `SHUT_WR` has been issued, or
`EPOLLOUT` is subscribed, or the closure of `shutdownInLoop` is in `pendingJobs_` or in the rest of
the batch that `doPendingJobs` has swapped out of it. -/
theorem halfClose_kept (hr : (system threadId).Reachable s₀) (hc : s₀.conn.state = .kConnected)
    (h : (system threadId).step s₀ (.call t .shutdown) = .next s₁)
    (hrun : (system threadId).RunIf (fun _ _ => True) s₁ s)
    (hd : s.conn.state = .kDisconnecting) :
    .shutdownWr ∈ s.history ∨ s.conn.channel.isWriting ∨
      .shutdownInLoop ∈ s.pendingJobs ∨ s.phase = .jobs ∧ .shutdownInLoop ∈ s.jobs := by
  have h1 : Inv s₁ ∧ Entrusted s₁ :=
    ⟨.of_reachable (hr.step trivial h), .of_shutdown hc (.of_step h)⟩
  obtain ⟨hi, ho⟩ := hrun.invariant (I := fun s => Inv s ∧ Entrusted s)
    (fun s lab s' hs _ hstep => ⟨hs.1.step (.of_step hstep), hs.2.step hs.1 (.of_step hstep)⟩) h1
  refine (ho.handed hd).imp_right (Or.imp_right fun hq => ?_)
  rcases List.mem_append.1 hq with hq | hq
  · refine .inr ⟨?_, hq⟩
    by_contra hp
    rw [hi.batch hp] at hq
    cases hq
  · exact .inl hq

/-- Thread 2 sends and shuts down; both closures have run. -/
theorem halfClose_kept_queued :
    ∃ s₀ s₁ s : Run, (system 1).Reachable s₀ ∧ s₀.conn.state = .kConnected ∧
      (system 1).step s₀ (.call 2 .shutdown) = .next s₁ ∧ s.conn.state = .kDisconnecting ∧
      (.shutdownWr ∈ s.history ∨ s.conn.channel.isWriting ∨
        .shutdownInLoop ∈ s.pendingJobs ∨ s.phase = .jobs ∧ .shutdownInLoop ∈ s.jobs) := by
  have hrun : ((system 1).exec (.start (fun _ => none) 5 false false 0)
      [.call 2 (.send [3] (.wrote 0))]).Leads fun s₀ => s₀.conn.state = .kConnected ∧
        ((system 1).step s₀ (.call 2 .shutdown)).Leads fun s₁ =>
          ((system 1).exec s₁ [.swap, .runJob (.wrote 1), .runJob (.wrote 0)]).Leads fun s =>
            s.conn.state = .kDisconnecting := by
    decide +kernel
  obtain ⟨s₀, h₀, hc, s₁, h₁, s, h, hd⟩ := hrun
  have hr : (system 1).Reachable s₀ := System.reachable_of_exec (start_init 5 false false 0) h₀
  exact ⟨s₀, s₁, s, hr, hc, h₁, hd, halfClose_kept hr hc h₁ (System.runIf_of_exec h) hd⟩

/-- The same run before the closure of `shutdownInLoop`: that of `sendInLoop` has written everything,
and nothing is in `pendingJobs_`. -/
theorem halfClose_moved :
    ∃ s₀ s₁ s : Run, (system 1).Reachable s₀ ∧ s₀.conn.state = .kConnected ∧
      (system 1).step s₀ (.call 2 .shutdown) = .next s₁ ∧
      (system 1).RunIf (fun _ _ => True) s₁ s ∧ s.conn.state = .kDisconnecting ∧
      ¬ (.shutdownWr ∈ s.history ∨ s.conn.channel.isWriting ∨ .shutdownInLoop ∈ s.pendingJobs) := by
  have hrun : ((system 1).exec (.start (fun _ => none) 5 false false 0)
      [.call 2 (.send [3] (.wrote 0))]).Leads fun s₀ => s₀.conn.state = .kConnected ∧
        ((system 1).step s₀ (.call 2 .shutdown)).Leads fun s₁ =>
          ((system 1).exec s₁ [.swap, .runJob (.wrote 1)]).Leads fun s =>
            s.conn.state = .kDisconnecting ∧ ¬ (.shutdownWr ∈ s.history ∨
              s.conn.channel.isWriting ∨ .shutdownInLoop ∈ s.pendingJobs) := by
    decide +kernel
  obtain ⟨s₀, h₀, hc, s₁, h₁, s, h, hd, hnone⟩ := hrun
  exact ⟨s₀, s₁, s, System.reachable_of_exec (start_init 5 false false 0) h₀, hc, h₁,
    System.runIf_of_exec h, hd, hnone⟩

end Connection
end Leven
