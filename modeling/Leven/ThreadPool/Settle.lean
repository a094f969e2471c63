import Leven.Transition.Progress
import Leven.ThreadPool.Placed

/-!
# What is left to do

When requests stop, the pool comes to rest.  Every step that is no request and no spurious wakeup
uses up work, and a state in which no such step is possible is one in which nothing is left to do.

* `work`: the measure, in which a task pays for the notifications it causes and for the worker that
  takes it; `Placed.work_step`: every step of the pool makes it smaller;
* `Quiet`, `Placed.drained`, `Placed.returned`: where the pool can stop;
* `settles`: the law, over all runs.
-/

namespace Leven.ThreadPool

open Transition

variable {numThread maxQueueSize i : ℕ} {t : Pid} {o : Option ℕ} {s s' : ThreadPool} {lab : Label}

/-! ### The work -/

/-- The steps that a worker has before it, up to the next wait or to its end. -/
def WorkerPc.work (running : Bool) : WorkerPc → ℕ
  | .initializing | .running _ => if running then 7 else 2
  | .testing => if running then 6 else 1
  | .locking => 5
  | .inside | .waiting | .exited => 0

/-- A call of `runTask` pays for the notifications and for the worker that takes the task. -/
def ProducerPc.work : ProducerPc → ℕ
  | .locking _ => 18
  | .waiting _ => 15
  | .idle | .inside => 0

/-- What the holder of `mutex_` has before it; `notify_all` may wake every worker. -/
def Section.work (numThread : ℕ) : Section → ℕ
  | .takeCheck _ => 4
  | .takeWait _ => 1
  | .takePop _ => 3
  | .takeNotify .. => 11
  | .runCheck .. => 17
  | .runWait .. | .runPush .. => 16
  | .runNotify .. => 6
  | .stopNotify => 6 * numThread + 2

def StopperPc.work (numThread : ℕ) : StopperPc → ℕ
  | .storing => 6 * numThread + 4
  | .locking => 6 * numThread + 3
  | .joining i => numThread - i + 1
  | .notStarted | .inside | .returned => 0

/-- A bound for the steps that are still possible without a new request. -/
def work (numThread : ℕ) (s : ThreadPool) : ℕ :=
  ∑ i ∈ Finset.range numThread, (s.worker i).work s.running +
    ∑ t ∈ s.callers, (s.producer t).work +
    5 * s.nonEmpty.woken.card + 3 * s.nonFull.woken.card + 9 * s.taskQueue.length +
    s.mutex.elim 0 (Section.work numThread) + s.stopper.work numThread

/-- The steps of the pool that are no request and no spurious wakeup. -/
def Label.isInternal : Label → Bool
  | .runTask .. | .stop _ | .wakeProducer _ | .wakeWorker _ => false
  | _ => true

/-- Worker `i` moves. -/
theorem Placed.sum_worker_le {w w' : WorkerPc} {a b : ℕ} (hs : Placed numThread maxQueueSize s)
    (hi : s.worker i = w) (hw : w ≠ .exited) (ha : a ≤ w.work s.running)
    (hb : w'.work s.running ≤ b) :
    ∑ j ∈ Finset.range numThread, (Function.update s.worker i w' j).work s.running + a ≤
      ∑ j ∈ Finset.range numThread, (s.worker j).work s.running + b := by
  have hlt : i < numThread := by
    by_contra hlt
    exact hw (hi.symm.trans (hs.ended.absent i (not_lt.1 hlt)))
  have hsum := sum_move_add (g := s.worker) (fun w : WorkerPc => w.work s.running) w'
    (Finset.mem_range.2 hlt)
  rw [hi] at hsum
  omega

/-- A thread in `runTask` moves. -/
theorem sum_producer_le {p p' : ProducerPc} {a b : ℕ} (ht : t ∈ s.callers)
    (hp : s.producer t = p) (ha : a ≤ p.work) (hb : p'.work ≤ b) :
    ∑ u ∈ s.callers, (Function.update s.producer t p' u).work + a ≤
      ∑ u ∈ s.callers, (s.producer u).work + b := by
  have hsum := sum_move_add (g := s.producer) ProducerPc.work p' ht
  rw [hp] at hsum
  omega

theorem Placed.waiters_subset (hs : Placed numThread maxQueueSize s) :
    s.nonEmpty.waiters ⊆ Finset.range numThread := by
  intro i hi
  rw [Finset.mem_range]
  by_contra hlt
  have hw := (hs.workers.waiting i).1 hi
  rw [hs.ended.absent i (not_lt.1 hlt)] at hw
  cases hw

/-- The work is at most linear in the threads, the calls of `runTask` and the queue. -/
theorem Placed.work_le (hs : Placed numThread maxQueueSize s) :
    s.work numThread ≤ 24 * numThread + 21 * s.callers.card + 9 * s.taskQueue.length + 21 := by
  have hworkers : ∑ i ∈ Finset.range numThread, (s.worker i).work s.running ≤ numThread * 7 := by
    have h := Finset.sum_le_card_nsmul (Finset.range numThread)
      (fun i => (s.worker i).work s.running) 7 fun i _ => by
        cases s.worker i <;> cases s.running <;> simp [WorkerPc.work]
    rwa [Finset.card_range, smul_eq_mul] at h
  have hcallers : ∑ t ∈ s.callers, (s.producer t).work ≤ s.callers.card * 18 :=
    Finset.sum_le_card_nsmul s.callers (fun t => (s.producer t).work) 18 fun t _ => by
      cases s.producer t <;> simp [ProducerPc.work]
  have hnonEmpty : s.nonEmpty.woken.card ≤ numThread := by
    calc s.nonEmpty.woken.card
        ≤ (Finset.range numThread).card :=
          Finset.card_le_card (Finset.subset_union_right.trans hs.waiters_subset)
      _ = numThread := Finset.card_range numThread
  have hnonFull : s.nonFull.woken.card ≤ s.callers.card := by
    refine Finset.card_le_card fun t ht => ?_
    obtain ⟨task, hp⟩ := hs.calls.waiters t (CondVar.mem_waiters.2 (.inr ht))
    exact hs.calls.waiting t task hp
  have hmutex : s.mutex.elim 0 (Section.work numThread) ≤ 6 * numThread + 17 := by
    cases s.mutex with
    | none => exact Nat.zero_le _
    | some c => cases c <;> simp only [Option.elim_some, Section.work] <;> omega
  have hstopper : s.stopper.work numThread ≤ 6 * numThread + 4 := by
    cases s.stopper <;> simp only [StopperPc.work] <;> omega
  unfold work
  omega

theorem Placed.work_critical (hs : Placed numThread maxQueueSize s)
    (h : CriticalStep maxQueueSize s o s') : s'.work numThread < s.work numThread := by
  cases h with
  | takeEmpty hm hq hr | takeReady hm hq | runFull hm hq | runRoom hm hq =>
    simp only [work, hm, Option.elim_some, Section.work]
    omega
  | @takeWait i hm =>
    have hin : s.worker i = .inside := hs.owned.worker _ _ hm rfl
    have hw := hs.sum_worker_le (a := 0) hin (by simp) le_rfl
      (show WorkerPc.work s.running .waiting ≤ 0 from le_rfl)
    have hcard : (s.nonEmpty.wait i).woken.card ≤ s.nonEmpty.woken.card :=
      CondVar.card_woken_wait_le
    simp only [work, gotoWorker, hm, Option.elim_some, Option.elim_none, Section.work]
    omega
  | @takeNone i hm hq =>
    have hin : s.worker i = .inside := hs.owned.worker _ _ hm rfl
    have hr := hs.fifo.popping i hm hq
    have hw := hs.sum_worker_le (a := 0) hin (by simp) le_rfl
      (show WorkerPc.work s.running (.running none) ≤ 2 by rw [hr]; exact le_rfl)
    simp only [work, gotoWorker, hm, Option.elim_some, Option.elim_none, Section.work]
    omega
  | takePop hm hq =>
    simp only [work, hm, hq, Option.elim_some, Section.work, List.length_cons]
    omega
  | @takeNotify i task hm ho =>
    have hin : s.worker i = .inside := hs.owned.worker _ _ hm rfl
    have hseven : WorkerPc.work s.running (.running task) ≤ 7 := by
      cases s.running <;> simp [WorkerPc.work]
    have hw := hs.sum_worker_le (a := 0) hin (by simp) le_rfl hseven
    have hcard : (s.nonFull.notifyOne o).woken.card ≤ s.nonFull.woken.card + 1 :=
      CondVar.card_woken_notifyOne_le
    simp only [work, gotoWorker, hm, Option.elim_some, Option.elim_none, Section.work]
    omega
  | @runWait t task hm =>
    have hin : s.producer t = .inside := hs.owned.producer _ _ hm rfl
    have hp := sum_producer_le (a := 0) (hs.calls.pusher _ t hm rfl) hin le_rfl
      (show ProducerPc.work (.waiting task) ≤ 15 from le_rfl)
    have hcard : (s.nonFull.wait t).woken.card ≤ s.nonFull.woken.card :=
      CondVar.card_woken_wait_le
    simp only [work, gotoProducer, hm, Option.elim_some, Option.elim_none, Section.work]
    omega
  | @runPush t task hm =>
    have hin : s.producer t = .inside := hs.owned.producer _ _ hm rfl
    have hp : ∑ u ∈ s.callers.erase t, (s.producer u).work = ∑ u ∈ s.callers, (s.producer u).work :=
      Finset.sum_erase _ (by rw [hin]; rfl)
    simp only [work, hm, hp, Option.elim_some, Section.work, List.length_append,
      List.length_singleton]
    omega
  | @runNotify t task hm ho =>
    have hin : s.producer t = .inside := hs.owned.producer _ _ hm rfl
    have hp : ∑ u ∈ s.callers, (Function.update s.producer t .idle u).work =
        ∑ u ∈ s.callers, (s.producer u).work := by
      refine Finset.sum_congr rfl fun u _ => ?_
      by_cases hut : u = t
      · subst hut
        rw [Function.update_self, hin]
        rfl
      · rw [Function.update_of_ne hut]
    have hcard : (s.nonEmpty.notifyOne o).woken.card ≤ s.nonEmpty.woken.card + 1 :=
      CondVar.card_woken_notifyOne_le
    simp only [work, gotoProducer, hm, hp, Option.elim_some, Option.elim_none, Section.work]
    omega
  | stopNotify hm =>
    have hcard : s.nonEmpty.notifyAll.woken.card ≤ numThread := by
      calc s.nonEmpty.waiters.card
          ≤ (Finset.range numThread).card := Finset.card_le_card hs.waiters_subset
        _ = numThread := Finset.card_range numThread
    simp only [work, hm, Option.elim_some, Option.elim_none, Section.work, StopperPc.work]
    omega

theorem Placed.work_step (hs : Placed numThread maxQueueSize s) (hl : lab.isInternal = true)
    (h : Step numThread maxQueueSize s lab s') : s'.work numThread < s.work numThread := by
  cases h with
  | critical h => exact hs.work_critical h
  | runInline | runTask | wakeProducer | wakeWorker | stop | stopped => cases hl
  | @lockProducer t task hp hm =>
    have hsum := sum_producer_le (a := 18) (hs.calls.locking t task hp) hp le_rfl
      (show ProducerPc.work .inside ≤ 0 from le_rfl)
    simp only [work, gotoProducer, hm, Option.elim_some, Option.elim_none, Section.work]
    omega
  | @resumeProducer t task hp hm ht =>
    have hsum := sum_producer_le (a := 15) (hs.calls.waiting t task hp) hp le_rfl
      (show ProducerPc.work .inside ≤ 0 from le_rfl)
    have hcard := CondVar.card_woken_resume ht
    simp only [work, gotoProducer, hm, Option.elim_some, Option.elim_none, Section.work]
    omega
  | @initCallback i hw | @run i _ hw =>
    have hsum := hs.sum_worker_le hw (by simp) le_rfl (le_refl (WorkerPc.work s.running .testing))
    have hlt : WorkerPc.work s.running .testing < WorkerPc.work s.running .initializing := by
      cases s.running <;> simp [WorkerPc.work]
    change _ + WorkerPc.work s.running .initializing ≤ _ at hsum
    simp only [work, gotoWorker, execute]
    omega
  | @goOn i hw hr =>
    have hsum := hs.sum_worker_le (a := 6) hw (by simp) (by rw [hr]; exact le_rfl)
      (show WorkerPc.work s.running .locking ≤ 5 from le_rfl)
    simp only [work, gotoWorker]
    omega
  | @leave i hw hr =>
    have hsum := hs.sum_worker_le (a := 1) hw (by simp) (by rw [hr]; exact le_rfl)
      (show WorkerPc.work s.running .exited ≤ 0 from le_rfl)
    simp only [work, gotoWorker]
    omega
  | @lockWorker i hw hm =>
    have hsum := hs.sum_worker_le (a := 5) hw (by simp) le_rfl
      (show WorkerPc.work s.running .inside ≤ 0 from le_rfl)
    simp only [work, gotoWorker, hm, Option.elim_some, Option.elim_none, Section.work]
    omega
  | @resumeWorker i hw hm hi =>
    have hsum := hs.sum_worker_le (a := 0) hw (by simp) le_rfl
      (show WorkerPc.work s.running .inside ≤ 0 from le_rfl)
    have hcard := CondVar.card_woken_resume hi
    simp only [work, gotoWorker, hm, Option.elim_some, Option.elim_none, Section.work]
    omega
  | store hst =>
    have hle : ∑ i ∈ Finset.range numThread, (s.worker i).work false ≤
        ∑ i ∈ Finset.range numThread, (s.worker i).work s.running := by
      refine Finset.sum_le_sum fun i _ => ?_
      cases s.worker i <;> cases s.running <;> simp [WorkerPc.work]
    simp only [work, hst, StopperPc.work]
    omega
  | lockStopper hst hm =>
    simp only [work, hst, hm, Option.elim_some, Option.elim_none, Section.work, StopperPc.work]
    omega
  | join hst hi hw | joined hst hi =>
    simp only [work, hst, StopperPc.work]
    omega

/-! ### When nothing is left to do -/

/-- No step of the pool is possible. -/
def Quiet (numThread maxQueueSize : ℕ) (s : ThreadPool) : Prop :=
  (system numThread maxQueueSize).Quiet (fun lab => lab.isInternal = true) s

/-- The holder of `mutex_` can always go on. -/
theorem Quiet.mutex_eq_none (hq : Quiet numThread maxQueueSize s) : s.mutex = none := by
  by_contra hne
  obtain ⟨c, hm⟩ := Option.ne_none_iff_exists'.1 hne
  have hblocked : ∀ o, s.critical maxQueueSize o = .blocked := fun o => hq (.critical o) rfl
  cases c with
  | takeNotify i task =>
    obtain ⟨o, ho⟩ := s.nonFull.exists_mayNotify
    have h := hblocked o
    simp only [critical, hm] at h
    exact Outcome.not_of_guard_eq_blocked h ho
  | runNotify t task =>
    obtain ⟨o, ho⟩ := s.nonEmpty.exists_mayNotify
    have h := hblocked o
    simp only [critical, hm] at h
    exact Outcome.not_of_guard_eq_blocked h ho
  | takePop i =>
    have h := hblocked none
    cases hq : s.taskQueue <;> simp [critical, hm, hq] at h
  | takeCheck | takeWait | runCheck | runWait | runPush | stopNotify =>
    have h := hblocked none
    simp [critical, hm] at h

/-- A worker has left, or it is parked. -/
theorem Placed.worker_of_quiet (hs : Placed numThread maxQueueSize s)
    (hq : Quiet numThread maxQueueSize s) (i : ℕ) :
    s.worker i = .exited ∨ i ∈ s.nonEmpty.parked ∧ s.worker i = .waiting := by
  have hm := hq.mutex_eq_none
  cases hw : s.worker i with
  | initializing => exact absurd hw (Outcome.not_of_guard_eq_blocked (hq (.initCallback i) rfl))
  | testing => exact absurd hw (Outcome.not_of_guard_eq_blocked (hq (.test i) rfl))
  | locking => exact absurd ⟨hw, hm⟩ (Outcome.not_of_guard_eq_blocked (hq (.lockWorker i) rfl))
  | inside =>
    have hin := hs.workers.inside i hw
    rw [hm] at hin
    cases hin
  | waiting =>
    refine .inr ⟨?_, rfl⟩
    refine (CondVar.mem_waiters.1 ((hs.workers.waiting i).2 hw)).resolve_right fun hi => ?_
    exact Outcome.not_of_guard_eq_blocked (hq (.resumeWorker i) rfl) ⟨hw, hm, hi⟩
  | running task =>
    have h : ThreadPool.step numThread maxQueueSize s (.run i) = .blocked := hq (.run i) rfl
    simp [ThreadPool.step, hw] at h
  | exited => exact .inl rfl

theorem Placed.woken_eq_empty (hs : Placed numThread maxQueueSize s)
    (hq : Quiet numThread maxQueueSize s) : s.nonEmpty.woken = ∅ := by
  refine Finset.eq_empty_of_forall_notMem fun i hi => ?_
  have hw := (hs.workers.waiting i).1 (CondVar.mem_waiters.2 (.inr hi))
  obtain he | ⟨hp, -⟩ := hs.worker_of_quiet hq i
  · rw [hw] at he
    cases he
  · exact CondVar.notMem_parked_of_woken hi hp

/-- A thread in `runTask` is parked, and nobody is about to return from `nonFull_.wait`. -/
theorem Placed.caller_of_quiet (hs : Placed numThread maxQueueSize s)
    (hq : Quiet numThread maxQueueSize s) :
    (∀ t ∈ s.callers, t ∈ s.nonFull.parked) ∧ s.nonFull.woken = ∅ := by
  have hm := hq.mutex_eq_none
  have hwoken : ∀ t task, s.producer t = .waiting task → t ∉ s.nonFull.woken := by
    intro t task hp ht
    have h : ThreadPool.step numThread maxQueueSize s (.resumeProducer t) = .blocked :=
      hq (.resumeProducer t) rfl
    simp only [ThreadPool.step, hp] at h
    exact Outcome.not_of_guard_eq_blocked h ⟨hm, ht⟩
  refine ⟨fun t ht => ?_, Finset.eq_empty_of_forall_notMem fun t ht => ?_⟩
  · obtain ⟨task, hp | hp⟩ | hpush := hs.callers.callers t ht
    · have h : ThreadPool.step numThread maxQueueSize s (.lockProducer t) = .blocked :=
        hq (.lockProducer t) rfl
      simp only [ThreadPool.step, hp] at h
      exact absurd hm (Outcome.not_of_guard_eq_blocked h)
    · exact (CondVar.mem_waiters.1 (hs.callers.waiting t task hp)).resolve_right (hwoken t task hp)
    · rw [hm] at hpush
      cases hpush
  · obtain ⟨task, hp⟩ := hs.calls.waiters t (CondVar.mem_waiters.2 (.inr ht))
    exact hwoken t task hp ht

/-- As long as `stop()` has not been called, a pool that is quiet has nothing in its queue and
nobody in `runTask`. -/
theorem Placed.drained (hs : Placed numThread maxQueueSize s) (hn : 1 ≤ numThread)
    (hmax : 1 ≤ maxQueueSize) (hq : Quiet numThread maxQueueSize s)
    (hst : s.stopper = .notStarted) : s.taskQueue = [] ∧ s.callers = ∅ := by
  have hm := hq.mutex_eq_none
  have hr : s.running ≠ false := by
    intro hr
    have hstored := hs.stopper.running hr
    rw [hst] at hstored
    cases hstored
  have hpark : 0 ∈ s.nonEmpty.parked := by
    obtain he | ⟨hp, -⟩ := hs.worker_of_quiet hq 0
    · exact absurd (hs.ended.stopped 0 hn he) hr
    · exact hp
  have hqueue : s.taskQueue = [] := by
    have hcovers := hs.counted.nonEmpty ⟨0, hpark⟩
    rw [hs.woken_eq_empty hq, hm, Finset.card_empty] at hcovers
    exact List.eq_nil_of_length_eq_zero (Nat.le_zero.1 hcovers)
  refine ⟨hqueue, Finset.eq_empty_of_forall_notMem fun t ht => ?_⟩
  obtain ⟨hparked, hwoken⟩ := hs.caller_of_quiet hq
  have hcovers := hs.counted.nonFull ⟨t, hparked t ht⟩
  rw [hwoken, hm, hqueue, Finset.card_empty] at hcovers
  change maxQueueSize - 0 - 0 ≤ 0 at hcovers
  omega

/-- Once `stop()` has been called, a pool that is quiet has returned from it. -/
theorem Placed.returned (hs : Placed numThread maxQueueSize s)
    (hq : Quiet numThread maxQueueSize s) (hst : s.stopper ≠ .notStarted) :
    s.stopper = .returned := by
  have hm := hq.mutex_eq_none
  cases h : s.stopper with
  | notStarted => exact absurd h hst
  | storing => exact absurd h (Outcome.not_of_guard_eq_blocked (hq .store rfl))
  | locking => exact absurd ⟨h, hm⟩ (Outcome.not_of_guard_eq_blocked (hq .lockStopper rfl))
  | inside =>
    have hin := hs.stopper.inside h
    rw [hm] at hin
    cases hin
  | joining i =>
    have hjoin : ThreadPool.step numThread maxQueueSize s .join = .blocked := hq .join rfl
    simp only [ThreadPool.step, h] at hjoin
    split_ifs at hjoin with hi
    · -- every worker has been woken, so the one to be joined has left
      have hnot := Outcome.not_of_guard_eq_blocked hjoin
      obtain he | ⟨hp, -⟩ := hs.worker_of_quiet hq i
      · exact absurd he hnot
      · rw [(hs.counted.notified (by rw [h]; rfl)).1] at hp
        exact absurd hp (Finset.notMem_empty i)
  | returned => rfl

/-- The tasks accepted have been executed. -/
theorem Placed.executed (hs : Placed numThread maxQueueSize s)
    (hr : (system numThread maxQueueSize).Reachable s) (hn : 1 ≤ numThread)
    (hq : Quiet numThread maxQueueSize s) (hqueue : s.taskQueue = []) :
    (s.ran.map Prod.snd).Perm (s.accepted.filterMap id) := by
  have hm := hq.mutex_eq_none
  have hhands : ∀ i, s.inHand i = [] := by
    intro i
    rw [inHand, hm]
    obtain he | ⟨-, hw⟩ := hs.worker_of_quiet hq i
    · rw [he]; rfl
    · rw [hw]; rfl
  have hacc : s.pushed = s.accepted := by
    have horder := (Accepted.of_reachable hn hr).order
    rw [hm] at horder
    exact horder.trans (List.append_nil _)
  have hhanded : s.handed.map Prod.snd = s.accepted := by
    have horder := hs.fifo.order
    rw [hqueue, List.append_nil] at horder
    exact horder.symm.trans hacc
  rw [← hhanded, ← handedTasks_snd]
  exact ((ran_perm_of_inHand hn hr hhands).map Prod.snd).symm

/-- The pool does not call `stop()` by itself. -/
theorem Placed.stopper_iff (hs : Placed numThread maxQueueSize s) (hl : lab.isInternal = true)
    (h : Step numThread maxQueueSize s lab s') :
    s'.stopper = .notStarted ↔ s.stopper = .notStarted := by
  cases h with
  | critical h =>
    cases h with
    | stopNotify hm =>
      refine iff_of_false (by simp) fun hst => ?_
      have hstored := hs.stopper.running (hs.counted.stopping hm)
      rw [hst] at hstored
      cases hstored
    | _ => rfl
  | runInline | runTask | wakeProducer | wakeWorker | stop | stopped => cases hl
  | store hst | lockStopper hst | join hst | joined hst => simp [hst]
  | _ => rfl

theorem critical_ne_failed (a : Assertion) : s.critical maxQueueSize o ≠ .failed a := by
  unfold critical
  split <;> simp
  split <;> simp

/-- An assertion can only fail in a request. -/
theorem step_ne_failed (a : Assertion) (hl : lab.isInternal = true) :
    (system numThread maxQueueSize).step s lab ≠ .failed a := by
  change ThreadPool.step numThread maxQueueSize s lab ≠ .failed a
  cases lab with
  | runTask | wakeProducer | wakeWorker | stop => cases hl
  | critical o => exact critical_ne_failed a
  | lockProducer t | resumeProducer t | run i =>
    simp only [ThreadPool.step]
    split <;> simp
  | join =>
    simp only [ThreadPool.step]
    split
    · split_ifs <;> simp
    · simp
  | initCallback | test | lockWorker | resumeWorker | store | lockStopper => simp [ThreadPool.step]

/-- **The pool settles.**  When no more tasks and no call of `stop()` come, and no thread is woken
spuriously, the pool makes a number of steps that is at most linear in what it has to do, in
whichever order, and can always go on until it is quiet.  Then, if `stop()` has not been called, the
queue is empty, every `runTask` has returned and every accepted task has been executed; if it has,
it has returned and every worker has left. -/
theorem settles (hn : 1 ≤ numThread) (hmax : 1 ≤ maxQueueSize)
    (hr : (system numThread maxQueueSize).Reachable s) :
    (∀ w u, (∀ lab ∈ w, lab.isInternal = true) →
      (system numThread maxQueueSize).exec s w = .next u →
      w.length ≤ 24 * numThread + 21 * s.callers.card + 9 * s.taskQueue.length + 21 ∧
        (Quiet numThread maxQueueSize u →
          (s.stopper = .notStarted → u.taskQueue = [] ∧ u.callers = ∅ ∧
            (u.ran.map Prod.snd).Perm (u.accepted.filterMap id)) ∧
          (s.stopper ≠ .notStarted → u.stopper = .returned ∧ u.AllExited numThread))) ∧
      ∃ w u, (∀ lab ∈ w, lab.isInternal = true) ∧
        (system numThread maxQueueSize).exec s w = .next u ∧ Quiet numThread maxQueueSize u := by
  have hs : Placed numThread maxQueueSize s := .of_reachable hr
  constructor
  · intro w u hw h
    have hlength := System.exec_length_add_le (I := Placed numThread maxQueueSize)
      (P := fun lab => lab.isInternal = true) (f := work numThread)
      (fun _ _ _ hs _ h => hs.step (.of_step h)) (fun _ _ _ hs hl h => hs.work_step hl (.of_step h))
      hw hs h
    have hru := hr.run (System.runIf_of_exec h)
    have hu : Placed numThread maxQueueSize u := .of_reachable hru
    have hstopper : u.stopper = .notStarted ↔ s.stopper = .notStarted := by
      have hrun := System.exec_invariant (S := system numThread maxQueueSize)
        (K := fun w u => Placed numThread maxQueueSize u ∧ ((∀ lab ∈ w, lab.isInternal = true) →
          (u.stopper = .notStarted ↔ s.stopper = .notStarted)))
        ⟨hs, fun _ => Iff.rfl⟩ ?_ h
      · exact hrun.2 hw
      · rintro w lab t t' ⟨ht, hiff⟩ hstep
        refine ⟨ht.step (.of_step hstep), fun hw => ?_⟩
        rw [List.forall_mem_append, List.forall_mem_singleton] at hw
        exact (ht.stopper_iff hw.2 (.of_step hstep)).trans (hiff hw.1)
    refine ⟨by have := hs.work_le; omega, fun hq => ⟨fun hst => ?_, fun hst => ?_⟩⟩
    · obtain ⟨hqueue, hcallers⟩ := hu.drained hn hmax hq (hstopper.2 hst)
      exact ⟨hqueue, hcallers, hu.executed hru hn hq hqueue⟩
    · have hret := hu.returned hq fun h => hst (hstopper.1 h)
      exact ⟨hret, hu.ended.joined hret⟩
  · exact System.exists_exec_quiet (I := Placed numThread maxQueueSize) (f := work numThread)
      (fun _ _ _ hs _ h => hs.step (.of_step h)) (fun _ _ _ hs hl h => hs.work_step hl (.of_step h))
      (fun _ _ a hl => step_ne_failed a hl) hs

/-- Two tasks for one worker and a queue with room for one. -/
theorem settles_two : ∃ s u, (system 1 1).Reachable s ∧ s.callers = {5, 6} ∧
    (system 1 1).Reachable u ∧ u.taskQueue = [] ∧ u.callers = ∅ ∧
      (u.ran.map Prod.snd).Perm (u.accepted.filterMap id) := by
  have hrun : ((system 1 1).exec (new 1) [.runTask .move 5 (some 7),
      .runTask .copy 6 (some 8)]).Leads fun s => s.callers = {5, 6} ∧ s.stopper = .notStarted := by
    decide +kernel
  obtain ⟨s, hs, hcallers, hst⟩ := hrun
  have hr : (system 1 1).Reachable s := System.reachable_of_exec rfl hs
  obtain ⟨hall, w, u, hw, hu, hq⟩ := settles le_rfl le_rfl hr
  obtain ⟨hqueue, hnone, hperm⟩ := ((hall w u hw hu).2 hq).1 hst
  exact ⟨s, u, hr, hcallers, hr.run (System.runIf_of_exec hu), hqueue, hnone, hperm⟩

end Leven.ThreadPool
