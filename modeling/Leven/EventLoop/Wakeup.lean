import Leven.EventLoop.Basic

/-!
# Wakeups

`queueInLoop` wakes the loop when the caller is another thread or a job of the running batch.  A
handler needs no wakeup, since the batch is swapped behind the handlers; but before it enters
`loop()` the loop thread runs user code as well, and what it queues there wakes nobody.

* `Prompt`: `loop()` is not entered with an own job pending and `wakeupfd_` not readable;
* `no_lost_wakeup`: in the runs whose steps meet the condition the loop does not block over a
  pending job;
* `lost_wakeup`: a run in which it does.
-/

namespace Leven.EventLoop

open Transition

variable {threadId t u : Pid} {s s' : EventLoop} {lab : Label} {p : CallerPc}

/-- `loop()` is entered only if `wakeupfd_` is readable or no pending job comes from the loop
thread itself. -/
def Prompt (threadId : Pid) (s : EventLoop) : Label → Prop
  | .enter => ∀ j ∈ s.pendingJobs, j.caller = threadId → 0 < s.wakeups
  | _ => True

instance (threadId : Pid) (s : EventLoop) : DecidablePred (Prompt threadId s) := fun lab =>
  match lab with
  | .enter => inferInstanceAs (Decidable (∀ j ∈ s.pendingJobs, _ → _))
  | .runInLoop .. | .queueInLoop .. | .testWakeup _ | .wakeup _ | .quit _ | .storeQuit _
  | .checkThread _ | .test | .poll _ | .handleRead | .swap | .setDoing | .runJob | .clearDoing =>
    isTrue trivial

/-- Thread `t` is going to write to `wakeupfd_`. -/
def WillWake (threadId t : Pid) (s : EventLoop) : Prop :=
  s.callers t = .waking ∨
    s.callers t = .pushed ∧ (t ≠ threadId ∨ s.doingPendingJobs = true)

/-- `wakeupfd_` is readable, or going to be. -/
def Awake (threadId : Pid) (s : EventLoop) : Prop :=
  0 < s.wakeups ∨ ∃ t, s.WillWake threadId t

/-- The job needs no wakeup yet: it is swapped before the next `epoll_wait`, or it was queued by
the loop thread outside of `loop()`. -/
def Deferred (threadId : Pid) (s : EventLoop) (j : Pending) : Prop :=
  (∃ b, s.pc = .dispatching b) ∨ s.pc = .outside ∧ j.caller = threadId

/-- The invariant of the prompt runs. -/
structure Inv (threadId : Pid) (s : EventLoop) : Prop where
  idle : s.pc.isUserCode = false → s.callers threadId = .idle
  doing : s.doingPendingJobs = true ↔ s.pc = .running
  awake : ∀ j ∈ s.pendingJobs, s.Deferred threadId j ∨ s.Awake threadId

/-- A thread that stays awake as it moves on keeps the loop awake. -/
theorem Awake.goto {s₁ : EventLoop} (h : s.Awake threadId) (hw : s.wakeups ≤ s₁.wakeups)
    (hd : s₁.doingPendingJobs = s.doingPendingJobs) (hc : s₁.callers = (s.goto t p).callers)
    (ht : s.WillWake threadId t → s₁.Awake threadId) : s₁.Awake threadId := by
  rcases h with h | ⟨u, hu⟩
  · exact .inl (h.trans_le hw)
  · by_cases hut : u = t
    · subst hut; exact ht hu
    · refine .inr ⟨u, ?_⟩
      simpa [WillWake, hd, hc, goto_callers_of_ne hut] using hu

/-- A call changes the program point of one thread, which is not the loop thread inside `loop()`. -/
theorem idle_goto {s₁ : EventLoop} (hs : s.pc.isUserCode = false → s.callers threadId = .idle)
    (hp : s₁.pc = s.pc) (hc : s₁.callers = (s.goto t p).callers)
    (ht : t = threadId → s.callers t = .idle → s.pc.isUserCode = true ∨ p = .idle) :
    s₁.pc.isUserCode = false → s₁.callers threadId = .idle := by
  intro hu
  rw [hp] at hu
  by_cases h : threadId = t
  · subst h
    rcases ht rfl (hs hu) with h | h
    · rw [h] at hu; cases hu
    · simp [hc, h]
  · rw [hc, goto_callers_of_ne h]
    exact hs hu

/-- Outside of the dispatch, a job that waits inside `loop()` keeps the loop awake. -/
theorem Inv.awake_of_pc {j : Pending} (hs : Inv threadId s) (hj : j ∈ s.pendingJobs)
    (hd : ∀ b, s.pc ≠ .dispatching b) (ho : s.pc ≠ .outside) : s.Awake threadId := by
  rcases hs.awake j hj with (⟨b, h⟩ | ⟨h, -⟩) | h
  · exact absurd h (hd b)
  · exact absurd h ho
  · exact h

/-- A call of `queueInLoop`. -/
theorem Inv.queueInLoop {o : Overload} {task : ℕ} (hs : Inv threadId s)
    (hc : s.MayCall threadId t) : Inv threadId (s.queueInLoop o t task) where
  idle := idle_goto (t := t) (p := .pushed) hs.idle rfl rfl fun ht _ => .inl (hc.2 ht)
  doing := hs.doing
  awake j hj := by
    simp only [EventLoop.queueInLoop, List.mem_append, List.mem_singleton] at hj
    rcases hj with hj | rfl
    · refine (hs.awake j hj).imp_right fun h => ?_
      refine h.goto (t := t) (p := .pushed) le_rfl rfl rfl fun hw => ?_
      simp [WillWake, hc.1] at hw
    · -- the new job: its caller is about to wake the loop unless it is the loop thread
      by_cases ht : t = threadId
      · subst ht
        have hu := hc.2 rfl
        cases hp : s.pc with
        | outside => exact .inl (.inr ⟨hp, rfl⟩)
        | dispatching b => exact .inl (.inl ⟨b, hp⟩)
        | running =>
          exact .inr (.inr ⟨t, .inr ⟨by simp [EventLoop.queueInLoop], .inr (hs.doing.2 hp)⟩⟩)
        | testing | polling | swapped => rw [hp] at hu; cases hu
      · exact .inr (.inr ⟨t, .inr ⟨by simp [EventLoop.queueInLoop], .inl ht⟩⟩)

theorem Inv.step (hs : Inv threadId s) (hc : Prompt threadId s lab)
    (h : Step threadId s lab s') : Inv threadId s' := by
  cases h with
  | runSync hm h => exact ⟨hs.idle, hs.doing, hs.awake⟩
  | @runQueue o t task hm h =>
    have hs' : Inv threadId (s.noteCall o t) := ⟨hs.idle, hs.doing, hs.awake⟩
    exact hs'.queueInLoop hm
  | queue hm => exact hs.queueInLoop hm
  | @testWakeup t hcall =>
    refine ⟨idle_goto hs.idle rfl rfl fun _ h => ?_, hs.doing, fun j hj => ?_⟩
    · rw [hcall] at h; cases h
    · refine (hs.awake j hj).imp_right fun h => h.goto le_rfl rfl rfl fun hw => ?_
      have hcond : t ≠ threadId ∨ s.doingPendingJobs = true := by
        simpa [WillWake, hcall] using hw
      exact .inr ⟨t, .inl (by simp [hcond])⟩
  | @wakeup t hcall =>
    refine ⟨idle_goto (t := t) (p := .idle) hs.idle rfl rfl fun _ _ => .inr rfl, hs.doing,
      fun j hj => .inr (.inl (Nat.succ_pos _))⟩
  | @quit t hm hq =>
    refine ⟨idle_goto hs.idle rfl rfl fun ht _ => .inl (hm.2 ht), hs.doing, fun j hj => ?_⟩
    refine (hs.awake j hj).imp_right fun h => h.goto le_rfl rfl rfl fun hw => ?_
    simp [WillWake, hm.1] at hw
  | @storeQuit t hcall | @checkThread t hcall =>
    refine ⟨idle_goto hs.idle rfl rfl fun _ h => ?_, hs.doing, fun j hj => ?_⟩
    · rw [hcall] at h; cases h
    · refine (hs.awake j hj).imp_right fun h => h.goto le_rfl rfl rfl fun hw => ?_
      simp [WillWake, hcall] at hw
  | enter hi hp =>
    refine ⟨fun _ => hi, ?_, fun j hj => .inr ?_⟩
    · simpa [hp] using hs.doing
    · -- a job that the loop thread queued outside of `loop()` relies on the condition
      by_cases hj' : j.caller = threadId
      · exact .inl (hc j hj hj')
      · rcases hs.awake j hj with (⟨b, h⟩ | ⟨-, h⟩) | h
        · rw [hp] at h; cases h
        · exact absurd h hj'
        · exact h
  | leave hp hq =>
    exact ⟨fun h => (by cases h), by simpa [hp] using hs.doing,
      fun j hj => .inr (hs.awake_of_pc hj (by simp [hp]) (by simp [hp]))⟩
  | stay hp hq =>
    exact ⟨fun _ => hs.idle (by rw [hp]; rfl), by simpa [hp] using hs.doing,
      fun j hj => .inr (hs.awake_of_pc hj (by simp [hp]) (by simp [hp]))⟩
  | @poll woken hp hw =>
    exact ⟨fun h => (by cases h), by simpa [hp] using hs.doing, fun j _ => .inl (.inl ⟨woken, rfl⟩)⟩
  | handleRead hi hp =>
    exact ⟨fun h => (by cases h), by simpa [hp] using hs.doing, fun j _ => .inl (.inl ⟨false, rfl⟩)⟩
  | swap hi hp =>
    exact ⟨fun _ => hi, by simpa [hp] using hs.doing, fun j hj => by simp at hj⟩
  | setDoing hp =>
    refine ⟨fun h => (by cases h), by simp, fun j hj => .inr ?_⟩
    rcases hs.awake_of_pc hj (by simp [hp]) (by simp [hp]) with h | ⟨u, hu⟩
    · exact .inl h
    · exact .inr ⟨u, hu.imp_right fun h => ⟨h.1, .inr rfl⟩⟩
  | runJob hi hp hj => exact ⟨hs.idle, hs.doing, hs.awake⟩
  | clearDoing hi hp hj =>
    refine ⟨fun _ => hi, by simp, fun j hj => .inr ?_⟩
    rcases hs.awake_of_pc hj (by simp [hp]) (by simp [hp]) with h | ⟨u, hu⟩
    · exact .inl h
    · -- the loop thread is in no call, so it is another thread that is going to wake
      refine .inr ⟨u, hu.imp_right fun ⟨h, _⟩ => ⟨h, .inl fun hut => ?_⟩⟩
      rw [hut, hi] at h; cases h

theorem Inv.of_reachable (hr : (system threadId).ReachableIf (Prompt threadId) s) :
    Inv threadId s := by
  refine hr.invariant (fun s (h : s = new) => ?_) fun _ _ _ hs hc h => hs.step hc (.of_step h)
  subst h
  exact ⟨fun _ => rfl, by simp [new], by simp [new]⟩

/-- **No lost wakeup.**  In every prompt run, when the loop thread is about to block in
`epoll_wait` and every `queueInLoop` that has pushed its task has returned, `pendingJobs_` is empty
or `wakeupfd_` is readable. -/
theorem no_lost_wakeup (hr : (system threadId).ReachableIf (Prompt threadId) s)
    (hp : s.pc = .polling) (hc : ∀ t, s.callers t ≠ .pushed ∧ s.callers t ≠ .waking) :
    s.pendingJobs = [] ∨ 0 < s.wakeups := by
  have hs : Inv threadId s := .of_reachable hr
  refine or_iff_not_imp_left.2 fun hne => ?_
  obtain ⟨j, hj⟩ := List.exists_mem_of_ne_nil _ hne
  rcases hs.awake j hj with (⟨b, h⟩ | ⟨h, -⟩) | h | ⟨t, h⟩
  · rw [hp] at h; cases h
  · rw [hp] at h; cases h
  · exact h
  · rcases h with h | ⟨h, -⟩
    · exact absurd h (hc t).2
    · exact absurd h (hc t).1

/-- Thread 2 has queued a job while the loop thread 1 is about to block, and thread 3 is in
`quit`. -/
theorem no_lost_wakeup_other :
    ∃ s, (system 1).ReachableIf (Prompt 1) s ∧ s.pc = .polling ∧
      (∀ t, s.callers t ≠ .pushed ∧ s.callers t ≠ .waking) ∧ s.callers 3 = .quitWaking ∧
      s.pendingJobs = [⟨7, 2⟩] ∧ (s.pendingJobs = [] ∨ 0 < s.wakeups) := by
  have hrun := System.runIf_of_execIf (S := system 1) (C := Prompt 1) (s := new)
    (w := [.enter, .test, .quit 3, .storeQuit 3, .checkThread 3, .queueInLoop .copy 2 7,
      .testWakeup 2, .wakeup 2]) rfl
  let callers : Pid → CallerPc := Function.update (Function.update (Function.update
    (Function.update (Function.update (Function.update new.callers 3 .quitting) 3 .checking) 3
      .quitWaking) 2 .pushed) 2 .waking) 2 .idle
  have hback : ∀ t, callers t ≠ .pushed ∧ callers t ≠ .waking := by
    intro t
    by_cases h2 : t = 2
    · simp [callers, h2]
    · by_cases h3 : t = 3 <;> simp [callers, h2, h3, new]
  have hr : (system 1).ReachableIf (Prompt 1) _ := ⟨new, rfl, hrun⟩
  exact ⟨_, hr, rfl, hback, rfl, rfl, no_lost_wakeup hr rfl hback⟩

/-- The loop thread 1 queues a job before it enters `loop()`. -/
def queueThenLoop : List Label := [.queueInLoop .move 1 7, .testWakeup 1, .enter, .test]

/-- The loop is about to block over the job. -/
theorem lost_wakeup :
    ∃ s, (system 1).exec new queueThenLoop = .next s ∧ (system 1).Reachable s ∧ s.pc = .polling ∧
      (∀ t, s.callers t = .idle) ∧ ¬ (s.pendingJobs = [] ∨ 0 < s.wakeups) := by
  refine ⟨_, rfl, System.reachable_of_exec (w := queueThenLoop) rfl rfl, rfl, fun t => ?_,
    by decide⟩
  change Function.update (Function.update new.callers 1 .pushed) 1 CallerPc.idle t = .idle
  by_cases h : t = 1 <;> simp [h, new]

end Leven.EventLoop
