import Leven.ThreadPool.Queue

/-!
# The notifications

`runTask` and `takeTask` notify one thread for each task pushed and each slot freed.  What carries
the argument is a count: while a worker is parked, every queued task has a woken worker of its own,
and the holder of `mutex_` accounts for one task that it is about to take or to notify for; the same
holds of the free slots and the threads in `runTask`.

* `Counted`: the invariant;
* `no_lost_notify`: the law over all runs.
-/

namespace Leven.ThreadPool

open Transition

variable {numThread maxQueueSize i : ℕ} {t : Pid} {o : Option ℕ} {s s' : ThreadPool} {lab : Label}
  {c : Section}

/-- The holder of `mutex_` is about to look at the queue as a worker, or to notify one. -/
def Section.owesWorker : Section → ℕ
  | .takeCheck _ | .takeWait _ | .takePop _ | .runNotify .. => 1
  | .takeNotify .. | .runCheck .. | .runWait .. | .runPush .. | .stopNotify => 0

/-- The holder of `mutex_` is about to look at the queue in `runTask`, or to notify a thread
there. -/
def Section.owesProducer : Section → ℕ
  | .runCheck .. | .runWait .. | .runPush .. | .takeNotify .. => 1
  | .takeCheck _ | .takeWait _ | .takePop _ | .runNotify .. | .stopNotify => 0

/-- The `notify_all` of `stop()` is over. -/
def StopperPc.hasNotified : StopperPc → Bool
  | .joining _ | .returned => true
  | _ => false

/-- `running_ = false` has been executed. -/
def StopperPc.hasStored : StopperPc → Bool
  | .notStarted | .storing => false
  | _ => true

/-- The counting invariant. -/
structure Counted (maxQueueSize : ℕ) (s : ThreadPool) : Prop where
  nonEmpty : s.nonEmpty.Covers (s.taskQueue.length - (s.mutex.elim 0 Section.owesWorker))
  nonFull :
    s.nonFull.Covers (maxQueueSize - s.taskQueue.length - (s.mutex.elim 0 Section.owesProducer))
  empty : ∀ i, s.mutex = some (.takeWait i) → s.taskQueue = []
  full : ∀ t task, s.mutex = some (.runWait t task) → maxQueueSize ≤ s.taskQueue.length
  stored : s.stopper.hasStored = true → s.running = false
  stopping : s.mutex = some .stopNotify → s.running = false
  notified : s.stopper.hasNotified = true →
    s.nonEmpty.parked = ∅ ∧ ∀ i, s.mutex ≠ some (.takeWait i)

theorem hasStored_of_hasNotified {p : StopperPc} (h : p.hasNotified = true) :
    p.hasStored = true := by
  cases p <;> first | rfl | cases h

/-- A step outside of the critical sections that leaves the mutex. -/
theorem Counted.of_eq (hs : Counted maxQueueSize s) (hm : s'.mutex = s.mutex)
    (hq : s'.taskQueue = s.taskQueue) (hr : s.running = false → s'.running = false)
    (he : s'.nonEmpty = s.nonEmpty) (hf : s'.nonFull = s.nonFull)
    (hst : s'.stopper.hasStored = true → s'.running = false ∨ s.stopper.hasStored = true)
    (hn : s'.stopper.hasNotified = true → s.stopper.hasNotified = true) :
    Counted maxQueueSize s' where
  nonEmpty := by rw [he, hq, hm]; exact hs.nonEmpty
  nonFull := by rw [hf, hq, hm]; exact hs.nonFull
  empty := by rw [hm, hq]; exact hs.empty
  full := by rw [hm, hq]; exact hs.full
  stored h := (hst h).elim id fun h => hr (hs.stored h)
  stopping h := hr (hs.stopping (hm ▸ h))
  notified h := by rw [he, hm]; exact hs.notified (hn h)

theorem Counted.critical (hs : Counted maxQueueSize s) (hfifo : Fifo maxQueueSize s)
    (h : CriticalStep maxQueueSize s o s') : Counted maxQueueSize s' := by
  have he := hs.nonEmpty
  have hf := hs.nonFull
  cases h with
  | takeEmpty hm hq hr =>
    rw [hm] at he hf
    refine ⟨he, hf, fun _ _ => hq, by simp, hs.stored, by simp, fun h => ?_⟩
    have hstop := hs.stored (hasStored_of_hasNotified h)
    rw [hr] at hstop; cases hstop
  | takeReady hm hq =>
    rw [hm] at he hf
    exact ⟨he, hf, by simp, by simp, hs.stored, by simp, fun h => ⟨(hs.notified h).1, by simp⟩⟩
  | takeWait hm =>
    rw [hm] at hf
    have hq := hs.empty _ hm
    refine ⟨?_, hf, by simp, by simp, hs.stored, by simp, fun h => ?_⟩
    · -- the worker parks over an empty queue
      exact CondVar.covers_of_eq_zero (by show s.taskQueue.length - 0 = 0; rw [hq]; rfl)
    · exact absurd hm ((hs.notified h).2 _)
  | takeNone hm hq =>
    rw [hm] at he hf
    refine ⟨?_, hf, by simp, by simp, hs.stored, by simp, fun h => ⟨(hs.notified h).1, by simp⟩⟩
    exact CondVar.covers_of_eq_zero (by show s.taskQueue.length - 0 = 0; rw [hq]; rfl)
  | @takePop i task tasks hm hq =>
    rw [hm] at he hf
    have hb := hfifo.bounded
    rw [hq, List.length_cons] at he hf hb
    refine ⟨?_, ?_, by simp, by simp, hs.stored, by simp, fun h => ⟨(hs.notified h).1, by simp⟩⟩
    · exact he
    · exact hf.mono (by show maxQueueSize - tasks.length - 1 ≤ _ - 0; omega)
  | takeNotify hm ho =>
    rw [hm] at he hf
    refine ⟨he, ?_, by simp, by simp, hs.stored, by simp, fun h => ⟨(hs.notified h).1, by simp⟩⟩
    exact (hf.notifyOne ho).mono (by
      show maxQueueSize - s.taskQueue.length - 0 ≤ maxQueueSize - s.taskQueue.length - 1 + 1; omega)
  | runFull hm hq =>
    rw [hm] at he hf
    exact ⟨he, hf, by simp, fun _ _ _ => hq, hs.stored, by simp,
      fun h => ⟨(hs.notified h).1, by simp⟩⟩
  | runRoom hm hq =>
    rw [hm] at he hf
    exact ⟨he, hf, by simp, by simp, hs.stored, by simp, fun h => ⟨(hs.notified h).1, by simp⟩⟩
  | runWait hm =>
    rw [hm] at he
    have hq := hs.full _ _ hm
    refine ⟨he, ?_, by simp, by simp, hs.stored, by simp, fun h => ⟨(hs.notified h).1, by simp⟩⟩
    -- the thread parks over a full queue
    exact CondVar.covers_of_eq_zero (by
      show maxQueueSize - s.taskQueue.length - 0 = 0; omega)
  | @runPush t task hm =>
    rw [hm] at he hf
    have hroom := hfifo.room _ _ hm
    refine ⟨?_, ?_, by simp, by simp, hs.stored, by simp, fun h => ⟨(hs.notified h).1, by simp⟩⟩
    · refine he.mono ?_
      show (s.taskQueue ++ [task]).length - 1 ≤ s.taskQueue.length - 0
      rw [List.length_append, List.length_singleton]; omega
    · refine hf.mono ?_
      show maxQueueSize - (s.taskQueue ++ [task]).length - 0 ≤ maxQueueSize - s.taskQueue.length - 1
      rw [List.length_append, List.length_singleton]; omega
  | runNotify hm ho =>
    rw [hm] at he hf
    refine ⟨?_, hf, by simp, by simp, hs.stored, by simp, fun h => ⟨?_, by simp⟩⟩
    · exact (he.notifyOne ho).mono (by
        show s.taskQueue.length - 0 ≤ s.taskQueue.length - 1 + 1; omega)
    · exact CondVar.parked_notifyOne_of_eq_empty (hs.notified h).1
  | stopNotify hm =>
    rw [hm] at hf
    exact ⟨CondVar.covers_notifyAll, hf, by simp, by simp, fun _ => hs.stopping hm, by simp,
      fun _ => ⟨rfl, by simp⟩⟩

theorem Counted.step (hs : Counted maxQueueSize s) (hfifo : Fifo maxQueueSize s)
    (h : Step numThread maxQueueSize s lab s') : Counted maxQueueSize s' := by
  have he := hs.nonEmpty
  have hf := hs.nonFull
  cases h with
  | critical h => exact hs.critical hfifo h
  | lockProducer hp hm =>
    rw [hm] at he hf
    exact ⟨he, hf.mono (Nat.sub_le _ _), by simp, by simp, hs.stored, by simp,
      fun h => ⟨(hs.notified h).1, by simp⟩⟩
  | resumeProducer hp hm ht =>
    rw [hm] at he hf
    exact ⟨he, hf.resume, by simp, by simp, hs.stored, by simp,
      fun h => ⟨(hs.notified h).1, by simp⟩⟩
  | lockWorker hw hm =>
    rw [hm] at he hf
    exact ⟨he.mono (Nat.sub_le _ _), hf, by simp, by simp, hs.stored, by simp,
      fun h => ⟨(hs.notified h).1, by simp⟩⟩
  | resumeWorker hw hm hi =>
    rw [hm] at he hf
    exact ⟨he.resume, hf, by simp, by simp, hs.stored, by simp,
      fun h => ⟨(hs.notified h).1, by simp⟩⟩
  | wakeProducer ht =>
    exact ⟨he, (hf.wake ht).mono (Nat.le_succ _), hs.empty, hs.full, hs.stored, hs.stopping,
      hs.notified⟩
  | wakeWorker hi =>
    refine ⟨(he.wake hi).mono (Nat.le_succ _), hf, hs.empty, hs.full, hs.stored, hs.stopping,
      fun h => ⟨?_, (hs.notified h).2⟩⟩
    exact CondVar.parked_wake_of_eq_empty (hs.notified h).1
  | stop | store hst =>
    exact hs.of_eq rfl rfl (by simp) rfl rfl (by simp [StopperPc.hasStored])
      (by simp [StopperPc.hasNotified])
  | lockStopper hst hm =>
    rw [hm] at he hf
    have hr := hs.stored (by rw [hst]; rfl)
    exact ⟨he, hf, by simp, by simp, fun _ => hr, fun _ => hr, fun h => by cases h⟩
  | join hst | joined hst =>
    refine hs.of_eq rfl rfl id rfl rfl (fun _ => .inr ?_) fun _ => ?_ <;> rw [hst] <;> rfl
  | runInline | runTask | initCallback | goOn | leave | run | stopped =>
    exact hs.of_eq rfl rfl id rfl rfl .inr id

theorem Counted.of_reachable {C : ThreadPool → Label → Prop}
    (hr : (system numThread maxQueueSize).ReachableIf C s) : Counted maxQueueSize s := by
  refine hr.invariant_of (fun _ hr => Fifo.of_reachable hr) (fun s (h : s = new numThread) => ?_)
    fun _ _ _ hfifo hs _ h => Counted.step hs hfifo (.of_step h)
  subst h
  exact ⟨CondVar.covers_of_parked_eq_empty rfl, CondVar.covers_of_parked_eq_empty rfl,
    by simp [new],
    by simp [new], fun h => (by cases h), by simp [new], fun h => (by cases h)⟩

/-- **The pool loses no wakeup.**  In every reachable state in which `mutex_` is free: while a worker
is parked on `nonEmpty_` the queued tasks are no more than the workers woken from it, and while a
thread is parked on `nonFull_` the free slots are no more than the threads woken from it, that have
not taken the mutex again.  When `stop()` has executed its `notify_all`, no worker is parked. -/
theorem no_lost_notify (hr : (system numThread maxQueueSize).Reachable s) :
    (s.mutex = none →
      (∀ i ∈ s.nonEmpty.parked, s.taskQueue.length ≤ s.nonEmpty.woken.card) ∧
      ∀ t ∈ s.nonFull.parked, maxQueueSize - s.taskQueue.length ≤ s.nonFull.woken.card) ∧
    (s.stopper.hasNotified = true → s.nonEmpty.parked = ∅) := by
  have hs : Counted maxQueueSize s := .of_reachable hr
  refine ⟨fun hm => ⟨fun i hi => ?_, fun t ht => ?_⟩, fun h => (hs.notified h).1⟩
  · have he := hs.nonEmpty
    rw [hm] at he
    exact he ⟨i, hi⟩
  · have hf := hs.nonFull
    rw [hm] at hf
    exact hf ⟨t, ht⟩

/-- Two workers park; the notification for a task wakes worker 1, and worker 0 stays parked. -/
theorem no_lost_notify_two :
    ∃ s, (system 2 3).Reachable s ∧ s.mutex = none ∧ s.nonEmpty.parked = {0} ∧
      s.taskQueue = [some 7] ∧ s.taskQueue.length ≤ s.nonEmpty.woken.card := by
  have hrun : ((system 2 3).exec (new 2) [.initCallback 0, .test 0, .lockWorker 0, .critical none,
      .critical none, .initCallback 1, .test 1, .lockWorker 1, .critical none, .critical none,
      .runTask .move 5 (some 7), .lockProducer 5, .critical none, .critical none,
      .critical (some 1)]).Leads fun s =>
        s.mutex = none ∧ s.nonEmpty.parked = {0} ∧ s.taskQueue = [some 7] := by
    decide +kernel
  obtain ⟨s, hs, hm, hp, hq⟩ := hrun
  have hr : (system 2 3).Reachable s := System.reachable_of_exec rfl hs
  exact ⟨s, hr, hm, hp, hq,
    ((no_lost_notify hr).1 hm).1 0 (by rw [hp]; exact Finset.mem_singleton_self 0)⟩

end Leven.ThreadPool
