import Leven.EventLoop.Basic

/-!
# Who runs the tasks

`runInLoop(Task&&)` runs a task at once in the loop thread and queues it in the others;
`runInLoop(const Task&)` has the test the other way round.

* `confined_iff`: the task bodies run in the loop thread only in exactly those runs in which no
  other thread calls `runInLoop(const Task&)`, and there is no task, thread and state for which
  the two overloads do the same;
* `confined_fails`: a body that runs in another thread.
-/

namespace Leven.EventLoop

open Transition

variable {threadId : Pid} {s s' : EventLoop} {lab : Label}

/-- Every task body has been executed by the loop thread. -/
def Confined (threadId : Pid) (s : EventLoop) : Prop := ∀ b ∈ s.bodies, b.2 = threadId

instance (threadId : Pid) (s : EventLoop) : Decidable (s.Confined threadId) :=
  inferInstanceAs (Decidable (∀ b ∈ s.bodies, _))

/-- Only the loop thread has called `runInLoop(const Task&)`. -/
def CopyCallsInLoop (threadId : Pid) (s : EventLoop) : Prop := ∀ t ∈ s.copyCalls, t = threadId

instance (threadId : Pid) (s : EventLoop) : Decidable (s.CopyCallsInLoop threadId) :=
  inferInstanceAs (Decidable (∀ t ∈ s.copyCalls, _))

theorem confined_step (hs : s.Confined threadId ↔ s.CopyCallsInLoop threadId)
    (h : Step threadId s lab s') : s'.Confined threadId ↔ s'.CopyCallsInLoop threadId := by
  cases h with
  | @runSync o t task hc h =>
    rcases h with ⟨rfl, ht⟩ | ⟨rfl, rfl⟩
    · -- the body and the call are recorded with the same thread
      have h1 : ¬ ((s.noteCall .copy t).execute t task).Confined threadId := fun hf =>
        ht (hf (task, t) (by simp [execute]))
      have h2 : ¬ ((s.noteCall .copy t).execute t task).CopyCallsInLoop threadId := fun hf =>
        ht (hf t (by simp [execute, noteCall]))
      exact iff_of_false h1 h2
    · simpa [Confined, CopyCallsInLoop, execute, noteCall, or_imp, forall_and] using hs
  | @runQueue o t task hc h =>
    cases o with
    | copy =>
      obtain rfl : t = threadId := by
        by_contra ht
        exact h (.inl ⟨rfl, ht⟩)
      simpa [Confined, CopyCallsInLoop, queueInLoop, goto, noteCall, or_imp, forall_and] using hs
    | move => exact hs
  | runJob hc hp hj =>
    simpa [Confined, CopyCallsInLoop, execute, or_imp, forall_and] using hs
  | _ => exact hs

/-- **Loop-thread confinement.**  In every run the task bodies are executed by the loop thread only
if and only if no other thread has called `runInLoop(const Task&)`; and for no state, thread and
task do the two overloads of `runInLoop` do the same. -/
theorem confined_iff (threadId : Pid) :
    (∀ s, (system threadId).Reachable s →
      (s.Confined threadId ↔ s.CopyCallsInLoop threadId)) ∧
    ∀ (s : EventLoop) (t : Pid) (task : ℕ),
      s.runInLoop .copy threadId t task ≠ s.runInLoop .move threadId t task := by
  refine ⟨fun s hr => ?_, fun s t task => runInLoop_ne⟩
  refine hr.invariant (I := fun s => s.Confined threadId ↔ s.CopyCallsInLoop threadId)
    (fun s (h : s = new) => ?_) fun _ _ _ hs _ h => confined_step hs (.of_step h)
  subst h
  simp [Confined, CopyCallsInLoop, new]

/-- Thread 2 calls `runInLoop(const Task&)` and executes the body itself; the loop thread 1, in
user code before `loop()`, has its task deferred by one overload and run at once by the other. -/
theorem confined_fails :
    (∃ s, (system 1).Reachable s ∧ s.bodies = [(7, 2)] ∧ ¬ s.Confined 1) ∧
      new.runInLoop .copy 1 1 7 ≠ new.runInLoop .move 1 1 7 := by
  refine ⟨?_, fun h => ?_⟩
  · have hrun : ((system 1).exec new [.runInLoop .copy 2 7]).Leads
        fun s => s.bodies = [(7, 2)] ∧ ¬ s.Confined 1 := by decide
    obtain ⟨s, hs, hb⟩ := hrun
    exact ⟨s, System.reachable_of_exec rfl hs, hb⟩
  · have := congrArg (fun s => s.bodies) h
    exact absurd this (by decide)

/-- A run in which thread 2 hands a task to the loop by the other overload. -/
theorem confined_move :
    ∃ s, (system 1).Reachable s ∧ s.bodies = [(7, 1)] ∧ s.Confined 1 := by
  have hrun : ((system 1).exec new
      [.runInLoop .move 2 7, .testWakeup 2, .wakeup 2, .enter, .test, .poll true, .handleRead, .swap,
        .setDoing, .runJob]).Leads fun s => s.bodies = [(7, 1)] ∧ s.CopyCallsInLoop 1 := by decide
  obtain ⟨s, hs, hb, hc⟩ := hrun
  have hr := System.reachable_of_exec (S := system 1) rfl hs
  exact ⟨s, hr, hb, ((confined_iff 1).1 s hr).2 hc⟩

end Leven.EventLoop
