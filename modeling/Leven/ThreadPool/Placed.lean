import Leven.ThreadPool.Complete

/-!
# Where the threads are

Who waits is registered with its condition variable, and who is inside holds `mutex_`.

* `WorkersPlaced`, `CallersPlaced`, `StopperPlaced`: the workers, the threads in `runTask`, and the
  thread in `stop()`;
* `Placed`: these and the invariants before, of every reachable state.
-/

namespace Leven.ThreadPool

open Transition

variable {numThread maxQueueSize i : ℕ} {t : Pid} {o : Option ℕ} {s s' : ThreadPool} {lab : Label}
  {w : WorkerPc}

/-! ### Where the workers are -/

/-- The workers that wait on `nonEmpty_` are those that say so, and who is inside holds `mutex_`. -/
structure WorkersPlaced (s : ThreadPool) : Prop where
  waiting : ∀ i, i ∈ s.nonEmpty.waiters ↔ s.worker i = .waiting
  inside : ∀ i, s.worker i = .inside → s.mutex.bind Section.worker = some i

theorem WorkersPlaced.of_eq (hs : WorkersPlaced s) (hw : s'.worker = s.worker)
    (he : s'.nonEmpty.waiters = s.nonEmpty.waiters)
    (hm : s'.mutex.bind Section.worker = s.mutex.bind Section.worker) : WorkersPlaced s' where
  waiting j := by rw [he, hw]; exact hs.waiting j
  inside j hj := by rw [hm]; exact hs.inside j (hw ▸ hj)

/-- Worker `i` moves, outside of the critical sections or into or out of its own. -/
theorem WorkersPlaced.move (hs : WorkersPlaced s) (hw : s'.worker = (s.gotoWorker i w).worker)
    (he : ∀ j, j ≠ i → (j ∈ s'.nonEmpty.waiters ↔ j ∈ s.nonEmpty.waiters))
    (hi : i ∈ s'.nonEmpty.waiters ↔ w = .waiting)
    (hm : w = .inside → s'.mutex.bind Section.worker = some i)
    (hne : ∀ j, j ≠ i → s.mutex.bind Section.worker = some j →
      s'.mutex.bind Section.worker = some j) : WorkersPlaced s' where
  waiting j := by
    rw [hw, gotoWorker_worker]
    split_ifs with hj
    · subst hj; exact hi
    · exact (he j hj).trans (hs.waiting j)
  inside j hj := by
    rw [hw, gotoWorker_worker] at hj
    split_ifs at hj with hji
    · subst hji; exact hm hj
    · exact hne j hji (hs.inside j hj)

theorem WorkersPlaced.notMem (hs : WorkersPlaced s) (hi : s.worker i ≠ .waiting) :
    i ∉ s.nonEmpty.waiters := fun h => hi ((hs.waiting i).1 h)

theorem WorkersPlaced.critical (hs : WorkersPlaced s) (ho : Owned s)
    (h : CriticalStep maxQueueSize s o s') : WorkersPlaced s' := by
  cases h with
  | takeEmpty hm | takeReady hm | takePop hm | runFull hm | runRoom hm | runPush hm | runWait hm =>
    exact hs.of_eq rfl rfl (by rw [hm]; rfl)
  | runNotify hm => exact hs.of_eq rfl CondVar.waiters_notifyOne (by rw [hm]; rfl)
  | stopNotify hm => exact hs.of_eq rfl CondVar.waiters_notifyAll (by rw [hm]; rfl)
  | @takeWait i hm =>
    have hj : ∀ j, j ≠ i → s.mutex.bind Section.worker ≠ some j := by
      rw [hm]; rintro j hj ⟨⟩; exact hj rfl
    refine hs.move (i := i) rfl (fun j hji => ?_) ?_ (by simp) fun j hji h => absurd h (hj j hji)
    · show j ∈ (s.nonEmpty.wait i).waiters ↔ _
      rw [CondVar.waiters_wait, Finset.mem_insert]
      simp [hji]
    · show i ∈ (s.nonEmpty.wait i).waiters ↔ _
      rw [CondVar.waiters_wait]
      simp
  | @takeNone i hm | @takeNotify i _ hm =>
    have hj : ∀ j, j ≠ i → s.mutex.bind Section.worker ≠ some j := by
      rw [hm]; rintro j hj ⟨⟩; exact hj rfl
    have hi := hs.notMem (i := i) (by rw [ho.worker _ _ hm rfl]; simp)
    exact hs.move (i := i) rfl (fun _ _ => Iff.rfl) (iff_of_false hi (by simp)) (by simp)
      fun j hji h => absurd h (hj j hji)

theorem WorkersPlaced.step (hs : WorkersPlaced s) (ho : Owned s)
    (h : Step numThread maxQueueSize s lab s') : WorkersPlaced s' := by
  cases h with
  | critical h => exact hs.critical ho h
  | @initCallback i hw | @goOn i hw | @leave i hw | @run i _ hw =>
    exact hs.move (i := i) rfl (fun _ _ => Iff.rfl)
      (iff_of_false (hs.notMem (by simp [hw])) (by simp)) (by simp) fun _ _ => id
  | @lockWorker i hw hm =>
    exact hs.move (i := i) rfl (fun _ _ => Iff.rfl)
      (iff_of_false (hs.notMem (by simp [hw])) (by simp)) (fun _ => rfl) (by simp [hm])
  | @resumeWorker i hw hm hi =>
    have hwaiters := CondVar.waiters_resume (CondVar.notMem_parked_of_woken hi)
    refine hs.move (i := i) rfl (fun j hji => ?_) ?_ (fun _ => rfl) (by simp [hm])
    · show j ∈ (s.nonEmpty.resume i).waiters ↔ _
      rw [hwaiters, Finset.mem_erase]
      simp [hji]
    · show i ∈ (s.nonEmpty.resume i).waiters ↔ _
      rw [hwaiters]
      simp
  | wakeWorker => exact hs.of_eq rfl CondVar.waiters_wake rfl
  | lockProducer _ hm | resumeProducer _ hm | lockStopper _ hm =>
    exact hs.of_eq rfl rfl (by rw [hm]; rfl)
  | runInline | runTask | wakeProducer | stop | stopped | store | join | joined =>
    exact hs.of_eq rfl rfl rfl

/-! ### Where the callers of `runTask` are -/

/-- Who waits says so, and a thread in `runTask` that has not pushed its task is on its way. -/
structure CallersPlaced (s : ThreadPool) : Prop where
  waiting : ∀ t task, s.producer t = .waiting task → t ∈ s.nonFull.waiters
  callers : ∀ t ∈ s.callers, (∃ task, s.producer t = .locking task ∨ s.producer t = .waiting task) ∨
    s.mutex.bind Section.pusher = some t

theorem CallersPlaced.of_eq (hs : CallersPlaced s) (hp : s'.producer = s.producer)
    (hf : s'.nonFull.waiters = s.nonFull.waiters) (hc : s'.callers = s.callers)
    (hm : s'.mutex.bind Section.pusher = s.mutex.bind Section.pusher) : CallersPlaced s' where
  waiting t task ht := by rw [hf]; exact hs.waiting t task (hp ▸ ht)
  callers t ht := by rw [hp, hm]; exact hs.callers t (hc ▸ ht)

/-- Thread `t` moves. -/
theorem CallersPlaced.move {p : ProducerPc} (hs : CallersPlaced s)
    (hp : s'.producer = (s.gotoProducer t p).producer)
    (hf : ∀ u, u ≠ t → u ∈ s.nonFull.waiters → u ∈ s'.nonFull.waiters)
    (ht : ∀ task, p = .waiting task → t ∈ s'.nonFull.waiters)
    (hc : ∀ u, u ≠ t → u ∈ s'.callers → u ∈ s.callers)
    (hcall : t ∈ s'.callers → (∃ task, p = .locking task ∨ p = .waiting task) ∨
      s'.mutex.bind Section.pusher = some t)
    (hm : ∀ u, u ≠ t → s.mutex.bind Section.pusher = some u →
      s'.mutex.bind Section.pusher = some u) : CallersPlaced s' where
  waiting u task hu := by
    rw [hp, gotoProducer_producer] at hu
    split_ifs at hu with hut
    · subst hut; exact ht task hu
    · exact hf u hut (hs.waiting u task hu)
  callers u hu := by
    rw [hp, gotoProducer_producer]
    split_ifs with hut
    · subst hut; exact hcall hu
    · exact (hs.callers u (hc u hut hu)).imp_right (hm u hut)

theorem CallersPlaced.critical (hs : CallersPlaced s) (ho : Owned s)
    (h : CriticalStep maxQueueSize s o s') : CallersPlaced s' := by
  cases h with
  | takeEmpty hm | takeReady hm | takePop hm | takeWait hm | takeNone hm | runFull hm | runRoom hm
  | stopNotify hm => exact hs.of_eq rfl rfl rfl (by rw [hm]; rfl)
  | takeNotify hm => exact hs.of_eq rfl CondVar.waiters_notifyOne rfl (by rw [hm]; rfl)
  | @runWait t task hm =>
    have hwaiters : (s.nonFull.wait t).waiters = insert t s.nonFull.waiters := CondVar.waiters_wait
    refine hs.move (t := t) rfl (fun u _ hu => ?_) (fun _ _ => ?_) (fun _ _ => id)
      (fun _ => .inl ⟨task, .inr rfl⟩) fun u hut hu => ?_
    · show u ∈ (s.nonFull.wait t).waiters
      rw [hwaiters]
      exact Finset.mem_insert_of_mem hu
    · show t ∈ (s.nonFull.wait t).waiters
      rw [hwaiters]
      exact Finset.mem_insert_self t _
    · rw [hm] at hu
      cases hu
      exact absurd rfl hut
  | @runPush t task hm =>
    refine ⟨hs.waiting, fun u hu => ?_⟩
    obtain ⟨hut, hu⟩ := Finset.mem_erase.1 hu
    refine (hs.callers u hu).imp_right fun h => ?_
    rw [hm] at h
    cases h
    exact absurd rfl hut
  | @runNotify t task hm =>
    have hin := ho.producer _ _ hm rfl
    refine hs.move (t := t) (p := .idle) rfl (fun _ _ => id) (by simp) (fun _ _ => id)
      (fun ht => ?_) fun u _ hu => ?_
    · obtain ⟨task, hp | hp⟩ | hpush := hs.callers t ht
      · rw [hin] at hp; cases hp
      · rw [hin] at hp; cases hp
      · rw [hm] at hpush; cases hpush
    · rw [hm] at hu
      cases hu

theorem CallersPlaced.step (hs : CallersPlaced s) (ho : Owned s)
    (h : Step numThread maxQueueSize s lab s') : CallersPlaced s' := by
  cases h with
  | critical h => exact hs.critical ho h
  | @runTask _ t task hp =>
    exact hs.move (t := t) rfl (fun _ _ => id) (by simp)
      (fun u hut hu => (Finset.mem_insert.1 hu).resolve_left hut) (fun _ => .inl ⟨task, .inl rfl⟩)
      fun _ _ => id
  | @lockProducer t task hp hm =>
    exact hs.move (t := t) rfl (fun _ _ => id) (by simp) (fun _ _ => id) (fun _ => .inr rfl)
      (by simp [hm])
  | @resumeProducer t task hp hm ht =>
    refine hs.move (t := t) rfl (fun u hut hu => ?_) (by simp) (fun _ _ => id) (fun _ => .inr rfl)
      (by simp [hm])
    show u ∈ (s.nonFull.resume t).waiters
    rw [CondVar.waiters_resume (CondVar.notMem_parked_of_woken ht)]
    exact Finset.mem_erase.2 ⟨hut, hu⟩
  | wakeProducer => exact hs.of_eq rfl CondVar.waiters_wake rfl rfl
  | lockWorker _ hm | resumeWorker _ hm | lockStopper _ hm =>
    exact hs.of_eq rfl rfl rfl (by rw [hm]; rfl)
  | runInline | initCallback | goOn | leave | run | wakeWorker | stop | stopped | store | join
  | joined => exact hs.of_eq rfl rfl rfl rfl

/-- The thread in `stop()` that is inside holds `mutex_`, and only that thread sets `running_`. -/
structure StopperPlaced (s : ThreadPool) : Prop where
  inside : s.stopper = .inside → s.mutex = some .stopNotify
  running : s.running = false → s.stopper.hasStored = true

theorem StopperPlaced.of_ne (hne : s'.stopper ≠ .inside)
    (hr : s'.running = false → s'.stopper.hasStored = true) : StopperPlaced s' :=
  ⟨fun h => absurd h hne, hr⟩

/-- The holder of `mutex_` is somebody else, or nobody. -/
theorem StopperPlaced.of_eq (hs : StopperPlaced s) (hm : s.mutex ≠ some .stopNotify)
    (hst : s'.stopper = s.stopper) (hr : s'.running = s.running) : StopperPlaced s' where
  inside h := absurd (hs.inside (hst ▸ h)) hm
  running h := by rw [hst]; exact hs.running (hr ▸ h)

theorem StopperPlaced.step (hs : StopperPlaced s) (h : Step numThread maxQueueSize s lab s') :
    StopperPlaced s' := by
  cases h with
  | critical h =>
    cases h with
    | stopNotify => exact .of_ne (by simp) fun _ => rfl
    | takeEmpty hm | takeReady hm | takeWait hm | takeNone hm | takePop hm | takeNotify hm
    | runFull hm | runRoom hm | runWait hm | runPush hm | runNotify hm =>
      exact hs.of_eq (by simp [hm]) rfl rfl
  | lockProducer _ hm | resumeProducer _ hm | lockWorker _ hm | resumeWorker _ hm =>
    exact hs.of_eq (by simp [hm]) rfl rfl
  | stop _ hr => exact .of_ne (by simp) (by simp [hr])
  | store | join | joined => exact .of_ne (by simp) fun _ => rfl
  | lockStopper => exact ⟨fun _ => rfl, fun _ => rfl⟩
  | runInline | runTask | wakeProducer | initCallback | goOn | leave | wakeWorker | run
  | stopped => exact ⟨hs.inside, hs.running⟩

/-- What is known of every reachable state. -/
structure Placed (numThread maxQueueSize : ℕ) (s : ThreadPool) : Prop where
  owned : Owned s
  fifo : Fifo maxQueueSize s
  counted : Counted maxQueueSize s
  ended : Ended numThread s
  calls : Calls s
  workers : WorkersPlaced s
  callers : CallersPlaced s
  stopper : StopperPlaced s

theorem Placed.step (hs : Placed numThread maxQueueSize s)
    (h : Step numThread maxQueueSize s lab s') : Placed numThread maxQueueSize s' where
  owned := hs.owned.step h
  fifo := hs.fifo.step h
  counted := hs.counted.step hs.fifo h
  ended := hs.ended.step hs.owned h
  calls := hs.calls.step hs.owned h
  workers := hs.workers.step hs.owned h
  callers := hs.callers.step hs.owned h
  stopper := hs.stopper.step h

theorem Placed.of_reachable (hr : (system numThread maxQueueSize).Reachable s) :
    Placed numThread maxQueueSize s := by
  refine ⟨.of_reachable hr, .of_reachable hr, .of_reachable hr, .of_reachable hr, .of_reachable hr,
    ?_, ?_, ?_⟩
  · refine hr.invariant_of (fun _ hr => Owned.of_reachable hr)
      (fun s (h : s = new numThread) => ?_)
      fun _ _ _ ho hs _ h => WorkersPlaced.step hs ho (.of_step h)
    subst h
    refine ⟨fun i => iff_of_false (Finset.notMem_empty i) ?_, fun i h => ?_⟩
    · show (if i < numThread then WorkerPc.initializing else .exited) ≠ .waiting
      split_ifs <;> simp
    · change (if i < numThread then WorkerPc.initializing else .exited) = .inside at h
      split_ifs at h
  · refine hr.invariant_of (fun _ hr => Owned.of_reachable hr)
      (fun s (h : s = new numThread) => ?_)
      fun _ _ _ ho hs _ h => CallersPlaced.step hs ho (.of_step h)
    subst h
    exact ⟨fun t task h => (by cases h), fun t ht => absurd ht (Finset.notMem_empty t)⟩
  · refine hr.invariant (fun s (h : s = new numThread) => ?_)
      fun _ _ _ hs _ h => StopperPlaced.step hs (.of_step h)
    subst h
    exact ⟨fun h => (by cases h), fun h => (by cases h)⟩

end Leven.ThreadPool
