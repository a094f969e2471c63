import Leven.ThreadPool.Basic

/-!
# The task queue

The tasks go through `taskQueue_` in the order of the pushes, each to one worker, which runs it.

* `Owned`: the thread that holds `mutex_` is at no other program point;
* `Fifo`: the queue is what has been pushed and not handed out, and never too long;
* `Hands`: a worker has run what it was handed, but for the task it has in its hands;
* `Took`: what one call of `takeTask` has popped;
* `bounded_fifo`: the law over all runs.
-/

namespace Leven.ThreadPool

open Transition

variable {numThread maxQueueSize i j : ℕ} {t u : Pid} {o : Option ℕ} {s s' : ThreadPool}
  {lab : Label} {task : Option ℕ} {c : Section}

/-- The worker that holds `mutex_`. -/
def Section.worker : Section → Option ℕ
  | .takeCheck i | .takeWait i | .takePop i | .takeNotify i _ => some i
  | .runCheck .. | .runWait .. | .runPush .. | .runNotify .. | .stopNotify => none

/-- The thread in `runTask` that holds `mutex_`. -/
def Section.producer : Section → Option Pid
  | .runCheck t _ | .runWait t _ | .runPush t _ | .runNotify t _ => some t
  | .takeCheck _ | .takeWait _ | .takePop _ | .takeNotify .. | .stopNotify => none

/-- The holder of `mutex_` is in its critical section. -/
structure Owned (s : ThreadPool) : Prop where
  worker : ∀ c i, s.mutex = some c → c.worker = some i → s.worker i = .inside
  producer : ∀ c t, s.mutex = some c → c.producer = some t → s.producer t = .inside

/-- A worker that is not inside its critical section moves. -/
theorem Owned.gotoWorker {w : WorkerPc} (hs : Owned s) (hi : s.worker i ≠ .inside) :
    Owned (s.gotoWorker i w) where
  worker c j hm hj := by
    rw [gotoWorker_worker, if_neg]
    · exact hs.worker c j hm hj
    · rintro rfl; exact hi (hs.worker c j hm hj)
  producer := hs.producer

theorem Owned.gotoProducer {p : ProducerPc} (hs : Owned s) (ht : s.producer t ≠ .inside) :
    Owned (s.gotoProducer t p) where
  worker := hs.worker
  producer c u hm hu := by
    rw [gotoProducer_producer, if_neg]
    · exact hs.producer c u hm hu
    · rintro rfl; exact ht (hs.producer c u hm hu)

/-- The mutex is released. -/
theorem Owned.of_mutex_eq_none (h : s.mutex = none) : Owned s where
  worker c i hm := by rw [h] at hm; cases hm
  producer c t hm := by rw [h] at hm; cases hm

theorem Owned.critical (hs : Owned s) (h : CriticalStep maxQueueSize s o s') : Owned s' := by
  cases h with
  | takeWait | takeNone | takeNotify | runWait | runNotify | stopNotify =>
    exact .of_mutex_eq_none rfl
  | takeEmpty hm | takeReady hm | takePop hm =>
    refine ⟨?_, ?_⟩
    · rintro c j ⟨⟩ ⟨⟩; exact hs.worker _ _ hm rfl
    · rintro c j ⟨⟩ ⟨⟩
  | runFull hm | runRoom hm | runPush hm =>
    refine ⟨?_, ?_⟩
    · rintro c j ⟨⟩ ⟨⟩
    · rintro c j ⟨⟩ ⟨⟩; exact hs.producer _ _ hm rfl

theorem Owned.step (hs : Owned s) (h : Step numThread maxQueueSize s lab s') : Owned s' := by
  cases h with
  | critical h => exact hs.critical h
  | runTask hp => exact ⟨hs.worker, (hs.gotoProducer (by simp [hp])).producer⟩
  | initCallback hw | goOn hw | leave hw => exact hs.gotoWorker (by simp [hw])
  | run hw => exact ⟨(hs.gotoWorker (by simp [hw])).worker, hs.producer⟩
  | lockProducer | resumeProducer =>
    refine ⟨?_, ?_⟩
    · rintro c j ⟨⟩ ⟨⟩
    · rintro c j ⟨⟩ ⟨⟩; exact Function.update_self ..
  | lockWorker | resumeWorker =>
    refine ⟨?_, ?_⟩
    · rintro c j ⟨⟩ ⟨⟩; exact Function.update_self ..
    · rintro c j ⟨⟩ ⟨⟩
  | lockStopper =>
    refine ⟨?_, ?_⟩ <;> rintro c j ⟨⟩ ⟨⟩
  | runInline | wakeProducer | wakeWorker | stop | stopped | store | join | joined =>
    exact ⟨hs.worker, hs.producer⟩

theorem Owned.of_reachable {C : ThreadPool → Label → Prop}
    (hr : (system numThread maxQueueSize).ReachableIf C s) : Owned s :=
  hr.invariant (fun s (h : s = new numThread) => by subst h; exact .of_mutex_eq_none rfl)
    fun _ _ _ hs _ h => hs.step (.of_step h)

/-! ### The queue -/

/-- The tasks are handed out in the order of the pushes, and the queue is never too long. -/
structure Fifo (maxQueueSize : ℕ) (s : ThreadPool) : Prop where
  order : s.pushed = s.handed.map Prod.snd ++ s.taskQueue
  bounded : s.taskQueue.length ≤ maxQueueSize
  room : ∀ t task, s.mutex = some (.runPush t task) → s.taskQueue.length < maxQueueSize
  popping : ∀ i, s.mutex = some (.takePop i) → s.taskQueue = [] → s.running = false

/-- Outside of the critical sections the queue is as it is. -/
theorem Fifo.of_eq (hs : Fifo maxQueueSize s) (hq : s'.taskQueue = s.taskQueue)
    (hp : s'.pushed = s.pushed) (hh : s'.handed = s.handed)
    (hroom : ∀ t task, s'.mutex = some (.runPush t task) → s.mutex = some (.runPush t task))
    (hpop : ∀ i, s'.mutex = some (.takePop i) → s.mutex = some (.takePop i))
    (hr : s.running = false → s'.running = false) : Fifo maxQueueSize s' where
  order := by rw [hp, hh, hq]; exact hs.order
  bounded := by rw [hq]; exact hs.bounded
  room t task hm := by rw [hq]; exact hs.room t task (hroom t task hm)
  popping i hm h := hr (hs.popping i (hpop i hm) (hq ▸ h))

theorem Fifo.critical (hs : Fifo maxQueueSize s) (h : CriticalStep maxQueueSize s o s') :
    Fifo maxQueueSize s' := by
  cases h with
  | takeReady hm hq =>
    refine ⟨hs.order, hs.bounded, by simp, fun _ _ h => ?_⟩
    by_contra hr
    exact hq ⟨h, by simpa using hr⟩
  | @takePop i task tasks hm hq =>
    refine ⟨?_, ?_, by simp, by simp⟩
    · show s.pushed = (s.handed ++ [(i, task)]).map Prod.snd ++ tasks
      rw [hs.order, hq, List.map_append, List.append_assoc]
      rfl
    · have hlen := hs.bounded
      rw [hq, List.length_cons] at hlen
      exact (Nat.le_succ _).trans hlen
  | runRoom hm hq => exact ⟨hs.order, hs.bounded, fun _ _ _ => hq, by simp⟩
  | @runPush t task hm =>
    refine ⟨?_, ?_, by simp, by simp⟩
    · show s.pushed ++ [task] = s.handed.map Prod.snd ++ (s.taskQueue ++ [task])
      rw [hs.order, List.append_assoc]
    · rw [List.length_append]
      exact hs.room t task hm
  | takeEmpty | takeWait | takeNone | takeNotify | runFull | runWait | runNotify | stopNotify =>
    exact hs.of_eq rfl rfl rfl (by simp) (by simp) id

theorem Fifo.step (hs : Fifo maxQueueSize s) (h : Step numThread maxQueueSize s lab s') :
    Fifo maxQueueSize s' := by
  cases h with
  | critical h => exact hs.critical h
  | store => exact hs.of_eq rfl rfl rfl (fun _ _ => id) (fun _ => id) fun _ => rfl
  | lockProducer | resumeProducer | lockWorker | resumeWorker | lockStopper =>
    exact hs.of_eq rfl rfl rfl (by simp) (by simp) id
  | _ => exact hs.of_eq rfl rfl rfl (fun _ _ => id) (fun _ => id) id

theorem Fifo.of_reachable {C : ThreadPool → Label → Prop}
    (hr : (system numThread maxQueueSize).ReachableIf C s) : Fifo maxQueueSize s := by
  refine hr.invariant (fun s (h : s = new numThread) => ?_) fun _ _ _ hs _ h => hs.step (.of_step h)
  subst h
  exact ⟨rfl, Nat.zero_le _, by simp [new], by simp [new]⟩

/-! ### The tasks handed out -/

/-- The tasks that are not empty among those handed to worker `i`. -/
def handedTo (i : ℕ) (s : ThreadPool) : List ℕ :=
  (s.handed.filter (·.1 = i)).filterMap Prod.snd

/-- The tasks that thread `th` has executed. -/
def ranBy (th : PoolThread) (s : ThreadPool) : List ℕ :=
  (s.ran.filter (·.1 = th)).map Prod.snd

/-- The task that worker `i` has popped and is about to notify for. -/
def Section.taken (i : ℕ) : Section → Option ℕ
  | .takeNotify j task => if j = i then task else none
  | _ => none

/-- The task that `takeTask` has returned. -/
def WorkerPc.result : WorkerPc → Option ℕ
  | .running task => task
  | _ => none

/-- The task that worker `i` has been handed and has not executed. -/
def inHand (i : ℕ) (s : ThreadPool) : List ℕ :=
  (s.mutex.bind (Section.taken i)).toList ++ (s.worker i).result.toList

/-- A worker executes what it is handed. -/
def Hands (s : ThreadPool) : Prop := ∀ i, s.handedTo i = s.ranBy (.worker i) ++ s.inHand i

theorem handedTo_concat {task : Option ℕ} (h : s'.handed = s.handed ++ [(j, task)]) :
    s'.handedTo i = s.handedTo i ++ (if j = i then task.toList else []) := by
  unfold handedTo
  rw [h, List.filter_append, List.filterMap_append]
  congr 1
  by_cases hj : j = i
  · subst hj; cases task <;> simp
  · simp [hj]

theorem ranBy_execute {th th' : PoolThread} :
    (s.execute th' task).ranBy th = s.ranBy th ++ (if th' = th then task.toList else []) := by
  unfold ranBy execute
  rw [List.filter_append, List.map_append]
  congr 1
  by_cases h : th' = th
  · subst h; cases task <;> simp
  · cases task <;> simp [h]

/-- Outside of the critical section a worker takes nothing. -/
theorem Owned.taken_eq_none (ho : Owned s) (hi : s.worker i ≠ .inside) :
    s.mutex.bind (Section.taken i) = none := by
  cases hm : s.mutex with
  | none => rfl
  | some c =>
    cases c with
    | takeNotify j task =>
      have hj : j ≠ i := by rintro rfl; exact hi (ho.worker _ _ hm rfl)
      simp [Section.taken, hj]
    | _ => rfl

/-- A worker with nothing in its hands goes on with nothing. -/
theorem inHand_eq (hm : s'.mutex.bind (Section.taken i) = s.mutex.bind (Section.taken i))
    (hw : (s'.worker i).result = (s.worker i).result) : s'.inHand i = s.inHand i := by
  rw [inHand, inHand, hm, hw]

theorem result_gotoWorker {w : WorkerPc} (h : w.result = (s.worker j).result) :
    ((s.gotoWorker j w).worker i).result = (s.worker i).result := by
  rw [gotoWorker_worker]
  split_ifs with hi
  · subst hi; exact h
  · rfl

/-- A step that hands out and executes nothing. -/
theorem Hands.of_eq (hs : Hands s) (hh : s'.handed = s.handed) (hr : s'.ran = s.ran)
    (hm : ∀ i, s'.mutex.bind (Section.taken i) = s.mutex.bind (Section.taken i))
    (hw : ∀ i, (s'.worker i).result = (s.worker i).result) : Hands s' := fun i => by
  rw [inHand_eq (hm i) (hw i), handedTo, ranBy, hh, hr]
  exact hs i

theorem Hands.critical (hs : Hands s) (ho : Owned s)
    (h : CriticalStep maxQueueSize s o s') : Hands s' := by
  cases h with
  | takeWait hm =>
    refine hs.of_eq rfl rfl (fun i => by rw [hm]; rfl) fun i => result_gotoWorker ?_
    rw [ho.worker _ _ hm rfl]; rfl
  | takeNone hm hq =>
    refine hs.of_eq rfl rfl (fun i => by rw [hm]; rfl) fun i => result_gotoWorker ?_
    rw [ho.worker _ _ hm rfl]; rfl
  | @takePop j task tasks hm hq =>
    intro i
    -- the task moves from the queue to the hands of the worker, which are empty
    have hi := hs i
    rw [handedTo_concat rfl, hi]
    by_cases hj : j = i
    · subst hj
      simp [inHand, hm, Section.taken, ho.worker _ _ hm rfl, WorkerPc.result, ranBy]
    · simp [inHand, hm, Section.taken, hj, ranBy]
  | @takeNotify j task hm hn =>
    intro i
    have hi := hs i
    have hw := ho.worker _ _ hm rfl
    show s.handedTo i = s.ranBy (.worker i) ++ _
    rw [hi]
    by_cases hj : j = i
    · subst hj
      simp [inHand, hm, Section.taken, hw, WorkerPc.result, gotoWorker_worker]
    · simp [inHand, hm, Section.taken, hj, gotoWorker_worker, Ne.symm hj]
  | takeEmpty hm | takeReady hm | runFull hm | runRoom hm | runWait hm | runPush hm | runNotify hm
  | stopNotify hm => exact hs.of_eq rfl rfl (fun i => by rw [hm]; rfl) fun _ => rfl

theorem Hands.step (hs : Hands s) (ho : Owned s) (h : Step numThread maxQueueSize s lab s') :
    Hands s' := by
  cases h with
  | critical h => exact hs.critical ho h
  | @runInline _ t task hp hr hn =>
    intro i
    show s.handedTo i = (s.execute (.producer t) task).ranBy (.worker i) ++ s.inHand i
    rw [ranBy_execute, if_neg (by simp), List.append_nil]
    exact hs i
  | @run j task hw =>
    intro i
    have hi := hs i
    show s.handedTo i = (s.execute (.worker j) task).ranBy (.worker i) ++ _
    rw [ranBy_execute, hi]
    by_cases hj : j = i
    · subst hj
      -- the worker is outside of the critical section, with the task as its result
      have ht : s.mutex.bind (Section.taken j) = none := by
        refine ho.taken_eq_none ?_
        rw [hw]; simp
      simp [inHand, execute, gotoWorker_worker, ht, hw, WorkerPc.result]
    · simp [inHand, execute, gotoWorker_worker, hj, Ne.symm hj]
  | initCallback hw | goOn hw | leave hw =>
    exact hs.of_eq rfl rfl (fun _ => rfl) fun i => result_gotoWorker (by rw [hw]; rfl)
  | lockWorker hw hm | resumeWorker hw hm =>
    exact hs.of_eq rfl rfl (fun i => by rw [hm]; rfl) fun i => result_gotoWorker (by rw [hw]; rfl)
  | lockProducer hp hm | resumeProducer hp hm | lockStopper hp hm =>
    exact hs.of_eq rfl rfl (fun i => by rw [hm]; rfl) fun _ => rfl
  | runTask | wakeProducer | wakeWorker | stop | stopped | store | join | joined =>
    exact hs.of_eq rfl rfl (fun _ => rfl) fun _ => rfl

theorem Hands.of_reachable {C : ThreadPool → Label → Prop}
    (hr : (system numThread maxQueueSize).ReachableIf C s) : Hands s := by
  refine hr.invariant_of (fun _ hr => Owned.of_reachable hr) (fun s (h : s = new numThread) => ?_)
    fun _ _ _ ho hs _ h => Hands.step hs ho (.of_step h)
  subst h
  intro i
  show [] = [] ++ ([] ++ (if i < numThread then WorkerPc.initializing else .exited).result.toList)
  split_ifs <;> rfl

/-- With threads in the pool the callers of `runTask` execute nothing. -/
theorem ran_of_reachable {C : ThreadPool → Label → Prop} (hn : 1 ≤ numThread)
    (hr : (system numThread maxQueueSize).ReachableIf C s) :
    ∀ e ∈ s.ran, ∃ i, e.1 = .worker i := by
  refine hr.invariant (I := fun s => ∀ e ∈ s.ran, ∃ i, e.1 = .worker i)
    (fun s (h : s = new numThread) => ?_) fun s lab s' hs _ h => ?_
  · subst h
    intro e he
    cases he
  · cases Step.of_step h with
    | runInline _ _ h0 => omega
    | @run i task hw =>
      intro e he
      rcases List.mem_append.1 he with he | he
      · exact hs e he
      · cases task with
        | none => cases he
        | some k => exact ⟨i, by rw [List.mem_singleton.1 he]⟩
    | critical h => cases h <;> exact hs
    | _ => exact hs

/-! ### One call of `takeTask` -/

/-- The worker is in `takeTask`. -/
def WorkerPc.inTakeTask : WorkerPc → Bool
  | .locking | .inside | .waiting => true
  | .initializing | .testing | .running _ | .exited => false

/-- The tasks, empty or not, that `takeTask` has popped for worker `i`. -/
def poppedBy (i : ℕ) (s : ThreadPool) : List (Option ℕ) :=
  (s.handed.filter (·.1 = i)).map Prod.snd

/-- In a call of `takeTask` in which `l` has been popped before, worker `i` has popped nothing yet,
or a task that it is about to notify for. -/
def Took (l : List (Option ℕ)) (i : ℕ) (s : ThreadPool) : Prop :=
  (∀ task, s.mutex ≠ some (.takeNotify i task)) ∧ s.poppedBy i = l ∨
    ∃ task, s.mutex = some (.takeNotify i task) ∧ s.poppedBy i = l ++ [task]

theorem poppedBy_concat {task : Option ℕ} (h : s'.handed = s.handed ++ [(j, task)]) :
    s'.poppedBy i = s.poppedBy i ++ (if j = i then [task] else []) := by
  unfold poppedBy
  rw [h, List.filter_append, List.map_append]
  congr 1
  by_cases hj : j = i <;> simp [hj]

variable {l : List (Option ℕ)}

/-- A worker that begins with `takeTask` has popped nothing. -/
theorem Took.of_locking (ho : Owned s) (hi : s.worker i = .locking) : Took (s.poppedBy i) i s := by
  refine .inl ⟨fun task hm => ?_, rfl⟩
  have hinside := ho.worker _ i hm rfl
  rw [hi] at hinside
  cases hinside

/-- A step that pops nothing, from a state in which worker `i` does not notify. -/
theorem Took.of_eq (ht : Took l i s) (hm : ∀ task, s.mutex ≠ some (.takeNotify i task))
    (hm' : ∀ task, s'.mutex ≠ some (.takeNotify i task)) (hh : s'.handed = s.handed) :
    Took l i s' := by
  obtain ⟨-, hp⟩ | ⟨task, h, -⟩ := ht
  · refine .inl ⟨hm', ?_⟩
    rw [poppedBy, hh]
    exact hp
  · exact absurd h (hm task)

theorem Took.critical (ht : Took l i s) (h : CriticalStep maxQueueSize s o s')
    (hi : (s'.worker i).inTakeTask = true) : Took l i s' := by
  cases h with
  | @takePop j task tasks hm hq =>
    have hp : s.poppedBy i = l := by
      obtain ⟨-, hp⟩ | ⟨task, h, -⟩ := ht
      · exact hp
      · rw [hm] at h
        cases h
    have hp' : ({ s with
        taskQueue := tasks
        mutex := some (.takeNotify j task)
        handed := s.handed ++ [(j, task)] } : ThreadPool).poppedBy i =
          l ++ (if j = i then [task] else []) := hp ▸ poppedBy_concat rfl
    by_cases hj : j = i
    · subst hj
      exact .inr ⟨task, rfl, by simpa using hp'⟩
    · exact .inl ⟨by simp [hj], by simpa [hj] using hp'⟩
  | @takeNotify j task hm hn =>
    refine ht.of_eq (fun task' h => ?_) (by simp) rfl
    -- worker `i` would be behind `takeTask`
    rw [hm] at h
    cases h
    simp [gotoWorker_worker, WorkerPc.inTakeTask] at hi
  | takeEmpty hm | takeReady hm | takeWait hm | takeNone hm | runFull hm | runRoom hm | runWait hm
  | runPush hm | runNotify hm | stopNotify hm =>
    exact ht.of_eq (by simp [hm]) (by simp) rfl

theorem Took.step (ht : Took l i s) (h : Step numThread maxQueueSize s lab s')
    (hi : (s'.worker i).inTakeTask = true) : Took l i s' := by
  cases h with
  | critical h => exact ht.critical h hi
  | lockProducer hp hm | resumeProducer hp hm | lockWorker hp hm | resumeWorker hp hm
  | lockStopper hp hm => exact ht.of_eq (by simp [hm]) (by simp) rfl
  | _ => exact ht

/-- A call of `takeTask`, from its lock on. -/
theorem took_of_run (hr : (system numThread maxQueueSize).Reachable s)
    (hi : s.worker i = .locking)
    (hrun : (system numThread maxQueueSize).RunIf
      (fun s _ => (s.worker i).inTakeTask = true) s s')
    (hi' : (s'.worker i).inTakeTask = true) : Took (s.poppedBy i) i s' := by
  refine hrun.invariant (I := fun t => (t.worker i).inTakeTask = true → Took (s.poppedBy i) i t)
    (fun t lab t' ht hc h hin => (ht hc).step (.of_step h) hin) (fun _ => ?_) hi'
  exact .of_locking (.of_reachable hr) hi

/-- The step in which worker `i` leaves `takeTask` with an empty task that it has not popped. -/
theorem Took.stopped (ht : Took l i s) (hs : Fifo maxQueueSize s)
    (h : Step numThread maxQueueSize s lab s') (hi : (s.worker i).inTakeTask = true)
    (hi' : s'.worker i = .running none) (hp : s'.poppedBy i = l) :
    s'.running = false ∧ s'.taskQueue = [] := by
  have hmoves : ∀ {j : ℕ} {w : WorkerPc}, (s.gotoWorker j w).worker i = .running none →
      w ≠ .running none → False := by
    intro j w hw hne
    rw [gotoWorker_worker] at hw
    split_ifs at hw
    · exact hne hw
    · rw [hw] at hi
      cases hi
  have hstays : s.worker i ≠ .running none := by
    intro hw
    rw [hw] at hi
    cases hi
  cases h with
  | critical h =>
    cases h with
    | @takeNone j hm hq => exact ⟨hs.popping j hm hq, hq⟩
    | @takeNotify j task hm hn =>
      by_cases hj : j = i
      · subst hj
        obtain ⟨hno, -⟩ | ⟨task', -, hpop⟩ := ht
        · exact absurd hm (hno task)
        · rw [show s.poppedBy j = l from hp] at hpop
          simp at hpop
      · refine absurd hi' ?_
        show (s.gotoWorker j _).worker i ≠ _
        rw [gotoWorker_worker, if_neg (Ne.symm hj)]
        exact hstays
    | takeWait hm => exact (hmoves hi' (by simp)).elim
    | _ => exact absurd hi' hstays
  | run hw => exact (hmoves hi' (by simp)).elim
  | initCallback hw | goOn hw | leave hw | lockWorker hw | resumeWorker hw =>
    exact (hmoves hi' (by simp)).elim
  | _ => exact absurd hi' hstays

/-- **The queue is a bounded FIFO without duplication.**  In every reachable state the tasks pushed
are the tasks handed out by `takeTask` and the queue, in this order; the queue is no longer than
`maxQueueSize_`; every worker has executed the tasks handed to it, but for the one in its hands, and
nobody else executes tasks; and whenever a worker that has begun with `takeTask` leaves it with an
empty task and without having popped one, the pool has been stopped and the queue is empty. -/
theorem bounded_fifo (hn : 1 ≤ numThread)
    (hr : (system numThread maxQueueSize).Reachable s) :
    s.pushed = s.handed.map Prod.snd ++ s.taskQueue ∧ s.taskQueue.length ≤ maxQueueSize ∧
      (∀ i, s.handedTo i = s.ranBy (.worker i) ++ s.inHand i) ∧
      (∀ e ∈ s.ran, ∃ i, e.1 = .worker i) ∧
      ∀ i s₁ lab s₂, s.worker i = .locking →
        (system numThread maxQueueSize).RunIf
          (fun s _ => (s.worker i).inTakeTask = true) s s₁ →
        (s₁.worker i).inTakeTask = true →
        (system numThread maxQueueSize).step s₁ lab = .next s₂ →
        s₂.worker i = .running none → s₂.poppedBy i = s.poppedBy i →
        s₂.running = false ∧ s₂.taskQueue = [] := by
  have hs : Fifo maxQueueSize s := .of_reachable hr
  refine ⟨hs.order, hs.bounded, Hands.of_reachable hr, ran_of_reachable hn hr, ?_⟩
  intro i s₁ lab s₂ hi hrun hi₁ h hi₂ hp
  have hs₁ : Fifo maxQueueSize s₁ := .of_reachable (hr.run (hrun.mono fun _ _ _ => trivial))
  exact (took_of_run hr hi hrun hi₁).stopped hs₁ (.of_step h) hi₁ hi₂ hp

/-- Two threads push a task each to a pool of one worker and one slot.  The worker executes both,
waits for another one in `takeTask`, and is woken by `stop()`. -/
theorem bounded_fifo_one :
    ∃ s s₁ s₂, (system 1 1).Reachable s ∧ s.ran = [(.worker 0, 7), (.worker 0, 8)] ∧
      s.pushed = s.handed.map Prod.snd ++ s.taskQueue ∧ s.worker 0 = .locking ∧
      (system 1 1).RunIf (fun s _ => (s.worker 0).inTakeTask = true) s s₁ ∧
      (system 1 1).step s₁ (.critical none) = .next s₂ ∧ s₂.worker 0 = .running none ∧
      s₂.running = false ∧ s₂.taskQueue = [] := by
  obtain ⟨s, hs, hran, hw, s₁, hs₁, hw₁, s₂, hs₂, hw₂, hp⟩ : ((system 1 1).exec (new 1)
      [.runTask .copy 5 (some 7), .lockProducer 5, .critical none, .runTask .move 6 (some 8),
        .critical none, .critical none, .lockProducer 6, .critical none, .critical none,
        .initCallback 0, .test 0, .lockWorker 0, .critical none, .critical none,
        .critical (some 6), .resumeProducer 6, .critical none, .critical none, .run 0,
        .critical none, .test 0, .lockWorker 0, .critical none, .critical none, .critical none,
        .run 0, .test 0]).Leads fun s =>
      s.ran = [(.worker 0, 7), (.worker 0, 8)] ∧ s.worker 0 = .locking ∧
        ((system 1 1).execIf (fun s _ => (s.worker 0).inTakeTask = true) s [.lockWorker 0,
          .critical none, .critical none, .stop false, .store, .lockStopper, .critical none,
          .resumeWorker 0, .critical none]).Leads fun s₁ =>
            (s₁.worker 0).inTakeTask = true ∧
              ((system 1 1).step s₁ (.critical none)).Leads fun s₂ =>
                s₂.worker 0 = .running none ∧ s₂.poppedBy 0 = s.poppedBy 0 := by
    decide +kernel
  have hr : (system 1 1).Reachable s := System.reachable_of_exec rfl hs
  have hrun := System.runIf_of_execIf hs₁
  obtain ⟨horder, -, -, -, hstopped⟩ := bounded_fifo le_rfl hr
  obtain ⟨hfalse, hempty⟩ := hstopped 0 s₁ _ s₂ hw hrun hw₁ hs₂ hw₂ hp
  exact ⟨s, s₁, s₂, hr, hran, horder, hw, hrun, hs₂, hw₂, hfalse, hempty⟩

end Leven.ThreadPool
