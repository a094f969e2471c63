import Leven.ThreadPool.Notify

/-!
# Stopping the pool

`stop()` clears `running_` and wakes the workers, each of which leaves at its next test of
`running_`; it does not wake the threads that wait on `nonFull_`.

* `Ended`: what the workers that have left tell about the pool;
* `Calls`: the threads in `runTask`, and that those that wait on `nonFull_` are among them;
* `LeftBehind`, `Roomy`: a thread in `runTask` that nobody will wake, and the condition that the
  queue has a slot for each of these threads when the last worker leaves;
* `none_left_behind`, `left_behind`: the runs whose steps meet the condition, and a run with such a
  thread.
-/

namespace Leven.ThreadPool

open Transition

variable {numThread maxQueueSize i : ℕ} {t : Pid} {o : Option ℕ} {s s' : ThreadPool} {lab : Label}
  {c : Section}

/-- All workers have left. -/
def AllExited (numThread : ℕ) (s : ThreadPool) : Prop := ∀ i < numThread, s.worker i = .exited

instance : Decidable (s.AllExited numThread) :=
  inferInstanceAs (Decidable (∀ i < numThread, s.worker i = .exited))

/-- What the workers that have left tell about the pool. -/
structure Ended (numThread : ℕ) (s : ThreadPool) : Prop where
  absent : ∀ i, numThread ≤ i → s.worker i = .exited
  stopped : ∀ i < numThread, s.worker i = .exited → s.running = false
  joining : ∀ i, s.stopper = .joining i → ∀ j < i, s.worker j = .exited
  joined : s.stopper = .returned → s.AllExited numThread

/-- The worker that tests `running_`. -/
def Label.tested : Label → Option ℕ
  | .test i => some i
  | _ => none

/-- A worker that has left stays away. -/
theorem Step.exited (h : Step numThread maxQueueSize s lab s') (ho : Owned s)
    (hi : s.worker i = .exited) : s'.worker i = .exited := by
  have goto_worker : ∀ {j : ℕ} {w : WorkerPc}, s.worker j ≠ .exited →
      (s.gotoWorker j w).worker i = .exited := by
    intro j w hj
    rw [gotoWorker_worker, if_neg]
    · exact hi
    · rintro rfl; exact hj hi
  cases h with
  | initCallback hw | goOn hw | leave hw | lockWorker hw | resumeWorker hw | run hw =>
    exact goto_worker (by simp [hw])
  | critical h =>
    cases h with
    | takeWait hm | takeNone hm | takeNotify hm =>
      exact goto_worker (by rw [ho.worker _ _ hm rfl]; simp)
    | _ => exact hi
  | _ => exact hi

/-- A worker leaves by its test of `running_`. -/
theorem Step.leaves (h : Step numThread maxQueueSize s lab s') (hi : s'.worker i = .exited) :
    s.worker i = .exited ∨ lab = .test i ∧ s.running = false := by
  have goto_worker : ∀ {j : ℕ} {w : WorkerPc}, w ≠ .exited →
      (s.gotoWorker j w).worker i = .exited → s.worker i = .exited := by
    intro j w hw h
    rw [gotoWorker_worker] at h
    split_ifs at h
    · exact absurd h hw
    · exact h
  cases h with
  | @leave j hw hr =>
    rw [gotoWorker_worker] at hi
    split_ifs at hi with hj
    · exact .inr ⟨by rw [hj], hr⟩
    · exact .inl hi
  | initCallback | goOn | lockWorker | resumeWorker | run =>
    exact .inl (goto_worker (by simp) hi)
  | critical h =>
    cases h with
    | takeWait | takeNone | takeNotify => exact .inl (goto_worker (by simp) hi)
    | _ => exact .inl hi
  | _ => exact .inl hi

theorem Step.running (h : Step numThread maxQueueSize s lab s') (hr : s.running = false) :
    s'.running = false := by
  cases h with
  | critical h => cases h <;> exact hr
  | store => rfl
  | _ => exact hr

/-- How `stop()` comes to the join of thread `i`. -/
theorem Step.of_joining (h : Step numThread maxQueueSize s lab s') (hst : s'.stopper = .joining i) :
    s.stopper = .joining i ∨ i = 0 ∨
      ∃ j, i = j + 1 ∧ s.stopper = .joining j ∧ s.worker j = .exited := by
  cases h with
  | @join j hs hj hw => cases hst; exact .inr (.inr ⟨j, rfl, hs, hw⟩)
  | critical h =>
    cases h with
    | stopNotify => cases hst; exact .inr (.inl rfl)
    | _ => exact .inl hst
  | stop | store | lockStopper | joined => cases hst
  | _ => exact .inl hst

/-- How `stop()` returns. -/
theorem Step.of_returned (h : Step numThread maxQueueSize s lab s') (hst : s'.stopper = .returned) :
    s.stopper = .returned ∨ ∃ i, numThread ≤ i ∧ s.stopper = .joining i := by
  cases h with
  | joined hs hi => exact .inr ⟨_, hi, hs⟩
  | critical h =>
    cases h with
    | stopNotify => cases hst
    | _ => exact .inl hst
  | stop | store | lockStopper | join => cases hst
  | _ => exact .inl hst

theorem Ended.step (hs : Ended numThread s) (ho : Owned s)
    (h : Step numThread maxQueueSize s lab s') : Ended numThread s' where
  absent i hi := h.exited ho (hs.absent i hi)
  stopped i hi he := by
    rcases h.leaves he with he | ⟨-, hr⟩
    · exact h.running (hs.stopped i hi he)
    · exact h.running hr
  joining i hst j hj := by
    refine h.exited ho ?_
    rcases h.of_joining hst with hst | rfl | ⟨k, rfl, hst, hw⟩
    · exact hs.joining i hst j hj
    · omega
    · rcases Nat.lt_succ_iff_lt_or_eq.1 hj with hj | rfl
      · exact hs.joining k hst j hj
      · exact hw
  joined hst i hi := by
    refine h.exited ho ?_
    rcases h.of_returned hst with hst | ⟨k, hk, hst⟩
    · exact hs.joined hst i hi
    · exact hs.joining k hst i (hi.trans_le hk)

theorem Ended.of_reachable {C : ThreadPool → Label → Prop}
    (hr : (system numThread maxQueueSize).ReachableIf C s) : Ended numThread s := by
  refine hr.invariant_of (fun _ hr => Owned.of_reachable hr) (fun s (h : s = new numThread) => ?_)
    fun _ _ _ ho hs _ h => Ended.step hs ho (.of_step h)
  subst h
  refine ⟨fun i hi => if_neg (not_lt.2 hi), fun i hi he => ?_, fun i h => ?_, fun h => ?_⟩
  · have he' : (if i < numThread then WorkerPc.initializing else .exited) = .exited := he
    rw [if_pos hi] at he'
    cases he'
  · cases h
  · cases h

/-- The last worker to leave does so by its test of `running_`. -/
theorem allExited_of_step (h : Step numThread maxQueueSize s lab s')
    (he : s'.AllExited numThread) :
    s.AllExited numThread ∨
      ∃ i < numThread, lab = .test i ∧ s.running = false ∧
        ∀ j < numThread, j ≠ i → s.worker j = .exited := by
  by_cases hl : ∃ i < numThread, lab = .test i ∧ s.running = false
  · obtain ⟨i, hi, rfl, hr⟩ := hl
    refine .inr ⟨i, hi, rfl, hr, fun j hj hji => ?_⟩
    rcases h.leaves (he j hj) with hj' | ⟨hlab, -⟩
    · exact hj'
    · cases hlab; exact absurd rfl hji
  · refine .inl fun j hj => (h.leaves (he j hj)).resolve_right ?_
    rintro ⟨hlab, hr⟩
    exact hl ⟨j, hj, hlab, hr⟩

/-! ### The threads in `runTask` -/

/-- The thread in `runTask` that holds `mutex_` and has not pushed its task. -/
def Section.pusher : Section → Option Pid
  | .runCheck t _ | .runWait t _ | .runPush t _ => some t
  | .runNotify .. | .takeCheck _ | .takeWait _ | .takePop _ | .takeNotify .. | .stopNotify => none

/-- The threads in `runTask`. -/
structure Calls (s : ThreadPool) : Prop where
  waiters : ∀ t ∈ s.nonFull.waiters, ∃ task, s.producer t = .waiting task
  locking : ∀ t task, s.producer t = .locking task → t ∈ s.callers
  waiting : ∀ t task, s.producer t = .waiting task → t ∈ s.callers
  pusher : ∀ c t, s.mutex = some c → c.pusher = some t → t ∈ s.callers

theorem Calls.notMem_waiters (hs : Calls s) (h : ∀ task, s.producer t ≠ .waiting task) :
    t ∉ s.nonFull.waiters := fun ht => by
  obtain ⟨task, hp⟩ := hs.waiters t ht
  exact h task hp

/-- Thread `t`, which does not wait on `nonFull_` any more, moves on. -/
theorem Calls.gotoProducer {p : ProducerPc} (hs : Calls s)
    (hw : s'.nonFull.waiters ⊆ s.nonFull.waiters) (ht : t ∉ s'.nonFull.waiters)
    (hp : s'.producer = (s.gotoProducer t p).producer)
    (hc : ∀ u, u ≠ t → u ∈ s.callers → u ∈ s'.callers)
    (hlock : ∀ task, p ≠ .waiting task) (hcall : ∀ task, p = .locking task → t ∈ s'.callers)
    (hm : ∀ c u, s'.mutex = some c → c.pusher = some u → u ∈ s'.callers) : Calls s' := by
  have hsame : ∀ u, s'.producer u = if u = t then p else s.producer u := fun u => by
    rw [hp, gotoProducer_producer]
  refine ⟨fun u hu => ?_, fun u task hu => ?_, fun u task hu => ?_, hm⟩
  · obtain ⟨task, h⟩ := hs.waiters u (hw hu)
    have hne : u ≠ t := by rintro rfl; exact ht hu
    exact ⟨task, by rw [hsame, if_neg hne, h]⟩
  · rw [hsame] at hu
    split_ifs at hu with hut
    · subst hut; exact hcall task hu
    · exact hc u hut (hs.locking u task hu)
  · rw [hsame] at hu
    split_ifs at hu with hut
    · exact absurd hu (hlock task)
    · exact hc u hut (hs.waiting u task hu)

theorem Calls.critical (hs : Calls s) (ho : Owned s) (h : CriticalStep maxQueueSize s o s') :
    Calls s' := by
  cases h with
  | takeEmpty hm | takeReady hm | takePop hm =>
    refine ⟨hs.waiters, hs.locking, hs.waiting, ?_⟩
    rintro c t ⟨⟩ ⟨⟩
  | takeWait hm | takeNone hm | stopNotify hm =>
    refine ⟨hs.waiters, hs.locking, hs.waiting, ?_⟩
    rintro c t ⟨⟩
  | takeNotify hm hn =>
    refine ⟨fun t ht => hs.waiters t ?_, hs.locking, hs.waiting, ?_⟩
    · rwa [CondVar.waiters_notifyOne] at ht
    · rintro c t ⟨⟩
  | runFull hm | runRoom hm =>
    refine ⟨hs.waiters, hs.locking, hs.waiting, ?_⟩
    rintro c t ⟨⟩ ⟨⟩
    exact hs.pusher _ _ hm rfl
  | @runWait t task hm =>
    refine ⟨fun u hu => ?_, fun u task hu => ?_, fun u task hu => ?_, by simp⟩
    · rw [CondVar.waiters_wait, Finset.mem_insert] at hu
      show ∃ task, (s.gotoProducer t _).producer u = _
      rw [gotoProducer_producer]
      split_ifs with hut
      · exact ⟨_, rfl⟩
      · exact hs.waiters u (hu.resolve_left hut)
    · change (s.gotoProducer t _).producer u = _ at hu
      rw [gotoProducer_producer] at hu
      split_ifs at hu
      exact hs.locking u task hu
    · change (s.gotoProducer t _).producer u = _ at hu
      rw [gotoProducer_producer] at hu
      split_ifs at hu with hut
      · subst hut; exact hs.pusher _ _ hm rfl
      · exact hs.waiting u task hu
  | @runPush t task hm =>
    have ht := ho.producer _ _ hm rfl
    refine ⟨hs.waiters, fun u task hu => ?_, fun u task hu => ?_, by rintro c u ⟨⟩ ⟨⟩⟩
    · refine Finset.mem_erase.2 ⟨?_, hs.locking u task hu⟩
      rintro rfl; rw [ht] at hu; cases hu
    · refine Finset.mem_erase.2 ⟨?_, hs.waiting u task hu⟩
      rintro rfl; rw [ht] at hu; cases hu
  | @runNotify t task hm hn =>
    have ht := ho.producer _ _ hm rfl
    exact hs.gotoProducer (t := t) (p := .idle) subset_rfl (hs.notMem_waiters (by simp [ht])) rfl
      (fun _ _ => id) (by simp) (by simp) (by simp)

theorem Calls.step (hs : Calls s) (ho : Owned s) (h : Step numThread maxQueueSize s lab s') :
    Calls s' := by
  cases h with
  | critical h => exact hs.critical ho h
  | @runTask _ t task hp =>
    exact hs.gotoProducer (t := t) subset_rfl (hs.notMem_waiters (by simp [hp])) rfl
      (fun _ _ => Finset.mem_insert_of_mem) (by simp) (fun _ _ => Finset.mem_insert_self _ _)
      fun c u hm hc => Finset.mem_insert_of_mem (hs.pusher c u hm hc)
  | @lockProducer t task hp hm =>
    refine hs.gotoProducer (t := t) (p := .inside) subset_rfl (hs.notMem_waiters (by simp [hp])) rfl
      (fun _ _ => id) (by simp) (by simp) ?_
    rintro c u ⟨⟩ ⟨⟩
    exact hs.locking t task hp
  | @wakeProducer t ht =>
    exact ⟨fun u hu => hs.waiters u (by rwa [CondVar.waiters_wake] at hu), hs.locking, hs.waiting,
      hs.pusher⟩
  | @resumeProducer t task hp hm ht =>
    have hw := CondVar.waiters_resume (CondVar.notMem_parked_of_woken ht)
    refine hs.gotoProducer (t := t) (p := .inside) ?_ ?_ rfl (fun _ _ => id) (by simp) (by simp) ?_
    · show (s.nonFull.resume t).waiters ⊆ s.nonFull.waiters
      rw [hw]; exact Finset.erase_subset t _
    · show t ∉ (s.nonFull.resume t).waiters
      rw [hw]; exact Finset.notMem_erase t _
    · rintro c u ⟨⟩ ⟨⟩
      exact hs.waiting t task hp
  | lockWorker hw hm | resumeWorker hw hm | lockStopper hst hm =>
    refine ⟨hs.waiters, hs.locking, hs.waiting, ?_⟩
    rintro c t ⟨⟩ ⟨⟩
  | runInline | wakeWorker | initCallback | goOn | leave | run | stop | stopped | store | join
  | joined => exact ⟨hs.waiters, hs.locking, hs.waiting, hs.pusher⟩

theorem Calls.of_reachable {C : ThreadPool → Label → Prop}
    (hr : (system numThread maxQueueSize).ReachableIf C s) : Calls s := by
  refine hr.invariant_of (fun _ hr => Owned.of_reachable hr) (fun s (h : s = new numThread) => ?_)
    fun _ _ _ ho hs _ h => Calls.step hs ho (.of_step h)
  subst h
  refine ⟨fun t ht => ?_, fun t task h => ?_, fun t task h => ?_, fun c t h => ?_⟩
  · rw [show (new numThread).nonFull = .idle from rfl, CondVar.waiters_idle] at ht
    cases ht
  · cases h
  · cases h
  · cases h

/-- The threads in `runTask` are at least those that wait, and the holder of `mutex_`. -/
theorem Calls.card_le (hs : Calls s) (ho : Owned s)
    (hm : ∀ c, s.mutex = some c → c.worker = none) :
    s.nonFull.parked.card + s.nonFull.woken.card + s.mutex.elim 0 Section.owesProducer ≤
      s.callers.card := by
  rw [← CondVar.card_waiters]
  have hsub : s.nonFull.waiters ⊆ s.callers := fun t ht => by
    obtain ⟨task, hp⟩ := hs.waiters t ht
    exact hs.waiting t task hp
  have hholder : ∀ c t, s.mutex = some c → c.pusher = some t → c.producer = some t →
      s.nonFull.waiters.card + 1 ≤ s.callers.card := by
    intro c t hc hpush hprod
    -- the holder is in its critical section, so it does not wait
    have ht : t ∉ s.nonFull.waiters := hs.notMem_waiters (by simp [ho.producer c t hc hprod])
    rw [← Finset.card_insert_of_notMem ht]
    exact Finset.card_le_card (Finset.insert_subset (hs.pusher c t hc hpush) hsub)
  cases hc : s.mutex with
  | none => exact Finset.card_le_card hsub
  | some c =>
    cases c with
    | runCheck t task | runWait t task | runPush t task => exact hholder _ t hc rfl rfl
    | takeNotify i task => exact absurd (hm _ hc) (by simp [Section.worker])
    | takeCheck | takeWait | takePop | runNotify | stopNotify => exact Finset.card_le_card hsub

/-! ### The threads that `stop()` leaves behind -/

/-- All workers have left, `stop()` has returned, and a thread is parked in `runTask`. -/
def LeftBehind (numThread : ℕ) (s : ThreadPool) : Prop :=
  s.stopper = .returned ∧ s.AllExited numThread ∧ s.nonFull.parked.Nonempty

/-- When the last worker leaves, the queue has room for the tasks of the threads in `runTask`. -/
def Roomy (numThread maxQueueSize : ℕ) (s : ThreadPool) (lab : Label) : Prop :=
  ∀ i ∈ lab.tested, s.running = false → (∀ j < numThread, j ≠ i → s.worker j = .exited) →
    s.taskQueue.length + s.callers.card ≤ maxQueueSize

instance (s : ThreadPool) : DecidablePred (Roomy numThread maxQueueSize s) := fun lab =>
  inferInstanceAs (Decidable (∀ i ∈ lab.tested, _ → _ → _ ≤ _))

/-- When no worker is left, the queue has room for the tasks to come. -/
def Room (numThread maxQueueSize : ℕ) (s : ThreadPool) : Prop :=
  s.AllExited numThread → s.taskQueue.length + s.callers.card ≤ maxQueueSize

/-- When all have left no worker holds `mutex_`. -/
theorem Ended.worker_eq_none (hs : Ended numThread s) (ho : Owned s) (he : s.AllExited numThread)
    (hm : s.mutex = some c) : c.worker = none := by
  by_contra hc
  obtain ⟨i, hi⟩ := Option.ne_none_iff_exists'.1 hc
  have hin := ho.worker c i hm hi
  rcases lt_or_ge i numThread with h | h
  · rw [he i h] at hin; cases hin
  · rw [hs.absent i h] at hin; cases hin

theorem Room.step (hn : 1 ≤ numThread) (hs : Room numThread maxQueueSize s) (ho : Owned s)
    (hcalls : Calls s) (hend : Ended numThread s) (hc : Roomy numThread maxQueueSize s lab)
    (h : Step numThread maxQueueSize s lab s') : Room numThread maxQueueSize s' := by
  intro he
  rcases allExited_of_step h he with he | ⟨i, hi, rfl, hr, hj⟩
  · have hroom := hs he
    cases h with
    | runTask hp hr => rw [hend.stopped 0 hn (he 0 hn)] at hr; cases hr
    | critical h =>
      cases h with
      | takePop hm => exact absurd (hend.worker_eq_none ho he hm) (by simp [Section.worker])
      | @runPush t task hm =>
        have ht := hcalls.pusher _ _ hm rfl
        have hcard := Finset.card_erase_add_one ht
        show (s.taskQueue ++ [task]).length + (s.callers.erase t).card ≤ maxQueueSize
        rw [List.length_append, List.length_singleton]
        omega
      | _ => exact hroom
    | _ => exact hroom
  · have hroom := hc i rfl hr hj
    cases h with
    | goOn | leave => exact hroom

theorem Room.of_reachable (hn : 1 ≤ numThread)
    (hr : (system numThread maxQueueSize).ReachableIf (Roomy numThread maxQueueSize) s) :
    Room numThread maxQueueSize s := by
  refine hr.invariant_of (J := fun s => Owned s ∧ Calls s ∧ Ended numThread s)
    (fun _ hr => ⟨.of_reachable hr, .of_reachable hr, .of_reachable hr⟩)
    (fun s (h : s = new numThread) he => ?_)
    fun _ _ _ ⟨ho, hcalls, hend⟩ hs hc h => Room.step hn hs ho hcalls hend hc (.of_step h)
  subst h
  have he' : (if 0 < numThread then WorkerPc.initializing else .exited) = .exited := he 0 hn
  rw [if_pos (by omega)] at he'
  cases he'

/-- **No thread is left behind by `stop()`.**  In every run in which the queue has room for the
tasks of all threads in `runTask` when the last worker leaves, no thread is parked on `nonFull_` when
all workers have left and `stop()` has returned. -/
theorem none_left_behind (hn : 1 ≤ numThread)
    (hr : (system numThread maxQueueSize).ReachableIf (Roomy numThread maxQueueSize) s) :
    ¬ s.LeftBehind numThread := by
  rintro ⟨-, he, hne⟩
  have hend : Ended numThread s := .of_reachable hr
  have ho : Owned s := .of_reachable hr
  have hroom := Room.of_reachable hn hr he
  -- the free slots are covered by woken threads, so that none is left for a parked one
  have hcover := (Counted.of_reachable hr).nonFull hne
  have hcard := (Calls.of_reachable hr).card_le ho fun c hm => hend.worker_eq_none ho he hm
  have hpos := Finset.card_pos.2 hne
  omega

/-- Thread `t` pushes a task to a queue with room while no worker is parked. -/
def pushRun (t : Pid) (k : ℕ) : List Label :=
  [.runTask .move t (some k), .lockProducer t, .critical none, .critical none, .critical none]

/-- Thread `t` parks over a full queue. -/
def parkRun (t : Pid) (k : ℕ) : List Label :=
  [.runTask .move t (some k), .lockProducer t, .critical none, .critical none]

/-- `stop()` up to the joins. -/
def stopRun : List Label := [.stop false, .store, .lockStopper, .critical none]

/-- The worker takes a task and wakes thread 6, which pushes its own before the worker leaves. -/
theorem none_left_behind_one :
    ∃ s, (system 1 1).ReachableIf (Roomy 1 1) s ∧ s.stopper = .returned ∧ s.AllExited 1 ∧
      s.taskQueue = [some 8] ∧ ¬ s.LeftBehind 1 := by
  obtain ⟨s, hr, hst, he, hq⟩ := System.exists_reachableIf (S := system 1 1) (C := Roomy 1 1)
    (s := new 1) (P := fun s => s.stopper = .returned ∧ s.AllExited 1 ∧ s.taskQueue = [some 8])
    (w := pushRun 5 7 ++ parkRun 6 8 ++ [.initCallback 0, .test 0, .lockWorker 0, .critical none,
      .critical none, .critical (some 6)] ++ stopRun ++ [.resumeProducer 6, .critical none,
      .critical none, .critical none, .run 0, .test 0, .join, .join]) rfl (by decide +kernel)
  exact ⟨s, hr, hst, he, hq, none_left_behind le_rfl hr⟩

/-- The worker finds `running_` cleared at its first test, while thread 6 is parked. -/
theorem left_behind : ∃ s, (system 1 1).Reachable s ∧ s.LeftBehind 1 := by
  have hrun : ((system 1 1).exec (new 1) (pushRun 5 7 ++ parkRun 6 8 ++ stopRun ++
      [.initCallback 0, .test 0, .join, .join])).Leads fun s =>
        s.stopper = .returned ∧ s.AllExited 1 ∧ 6 ∈ s.nonFull.parked := by
    decide +kernel
  obtain ⟨s, hs, hst, he, hp⟩ := hrun
  exact ⟨s, System.reachable_of_exec rfl hs, hst, he, 6, hp⟩

end Leven.ThreadPool
