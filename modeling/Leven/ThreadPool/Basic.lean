import Leven.Transition.System
import Leven.Transition.CondVar
import Leven.Basic

/-!
# ThreadPool

The pool with its workers, the threads that call `runTask` and the thread that calls `stop()`, as a
transition system.

* `Section`: who holds `mutex_`, and where in its critical section it stands;
* `WorkerPc`, `ProducerPc`, `StopperPc`: where the threads are outside of the critical sections;
* `critical`: the steps under the mutex; `step`, `system`: all steps;
* the inversions `CriticalStep.of_critical` and `Step.of_step`.

A task is its number, and `none` is an empty `std::function`.  A thread that calls `wait` releases
the mutex and parks in one step, and a notified thread has to take the mutex again; it may be woken
spuriously.  The lists `pushed`, `handed`, `ran`, `accepted` and `due` only record what has happened.
-/

namespace Leven

open Transition

/-- The workers of a pool, the threads that call `runTask`, and the one that calls `stop()`. -/
inductive PoolThread
  | worker (i : ℕ)
  | producer (t : Pid)
  | stopper
  deriving DecidableEq

namespace ThreadPool

/-- The holder of `mutex_`, by its next step. -/
inductive Section
  /-- `takeTask`: `taskQueue_.empty() && running_` -/
  | takeCheck (i : ℕ)
  /-- `takeTask`: `nonEmpty_.wait` -/
  | takeWait (i : ℕ)
  /-- `takeTask`: `!taskQueue_.empty()` -/
  | takePop (i : ℕ)
  /-- `takeTask`: `nonFull_.notify_one` -/
  | takeNotify (i : ℕ) (task : Option ℕ)
  /-- `runTask`: `taskQueue_.size() >= maxQueueSize_` -/
  | runCheck (t : Pid) (task : Option ℕ)
  /-- `runTask`: `nonFull_.wait` -/
  | runWait (t : Pid) (task : Option ℕ)
  /-- `runTask`: `taskQueue_.push_back` -/
  | runPush (t : Pid) (task : Option ℕ)
  /-- `runTask`: `nonEmpty_.notify_one` -/
  | runNotify (t : Pid) (task : Option ℕ)
  /-- `stop`: `nonEmpty_.notify_all` -/
  | stopNotify
  deriving DecidableEq

/-- Where a worker is. -/
inductive WorkerPc
  /-- in `threadInitCallback_` -/
  | initializing
  /-- before `while (running_)` -/
  | testing
  /-- before the lock of `takeTask` -/
  | locking
  /-- holding `mutex_` -/
  | inside
  /-- in `nonEmpty_.wait` -/
  | waiting
  /-- behind `takeTask` -/
  | running (task : Option ℕ)
  | exited
  deriving DecidableEq

/-- Where a thread that calls `runTask` is. -/
inductive ProducerPc
  | idle
  /-- before the lock -/
  | locking (task : Option ℕ)
  /-- holding `mutex_` -/
  | inside
  /-- in `nonFull_.wait` -/
  | waiting (task : Option ℕ)
  deriving DecidableEq

/-- Where the thread that calls `stop()` is. -/
inductive StopperPc
  | notStarted
  /-- before `running_ = false` -/
  | storing
  /-- before the lock -/
  | locking
  /-- holding `mutex_` -/
  | inside
  /-- in the loop of `join`, at index `i` -/
  | joining (i : ℕ)
  | returned
  deriving DecidableEq

/-- The steps. -/
inductive Label
  /-- `runTask`: `assert(running_)`, and the task itself when there are no threads -/
  | runTask (o : Overload) (t : Pid) (task : Option ℕ)
  | lockProducer (t : Pid)
  /-- a spurious wakeup on `nonFull_` -/
  | wakeProducer (t : Pid)
  /-- the return from `nonFull_.wait` -/
  | resumeProducer (t : Pid)
  | initCallback (i : ℕ)
  /-- `while (running_)` -/
  | test (i : ℕ)
  | lockWorker (i : ℕ)
  /-- a spurious wakeup on `nonEmpty_` -/
  | wakeWorker (i : ℕ)
  /-- the return from `nonEmpty_.wait` -/
  | resumeWorker (i : ℕ)
  /-- `if (Task task = takeTask()) task();` -/
  | run (i : ℕ)
  /-- `stop()`, called directly or by the destructor, up to the assertion -/
  | stop (destructor : Bool)
  /-- `running_ = false` -/
  | store
  | lockStopper
  | join
  /-- a step of the holder of `mutex_`, and the thread that its `notify_one` wakes -/
  | critical (notified : Option ℕ)
  deriving DecidableEq

end ThreadPool

/-- The pool and the threads that use it. -/
structure ThreadPool where
  taskQueue : List (Option ℕ)
  running : Bool
  mutex : Option ThreadPool.Section
  /-- on `nonEmpty_` wait workers -/
  nonEmpty : CondVar ℕ
  /-- on `nonFull_` wait threads in `runTask` -/
  nonFull : CondVar Pid
  worker : ℕ → ThreadPool.WorkerPc
  producer : Pid → ThreadPool.ProducerPc
  stopper : ThreadPool.StopperPc
  /-- the tasks pushed to `taskQueue_` -/
  pushed : List (Option ℕ)
  /-- the tasks `takeTask` has popped, each with its worker -/
  handed : List (ℕ × Option ℕ)
  /-- the tasks executed, each with the thread -/
  ran : List (PoolThread × ℕ)
  /-- the tasks whose `runTask` has returned -/
  accepted : List (Option ℕ)
  /-- `accepted` at the beginning of `stop()` -/
  due : List (Option ℕ)
  /-- the threads in `runTask` that have not pushed their task -/
  callers : Finset Pid

namespace ThreadPool

/-- Worker `i` moves to `pc`. -/
def gotoWorker (i : ℕ) (pc : WorkerPc) (s : ThreadPool) : ThreadPool :=
  { s with worker := Function.update s.worker i pc }

/-- Thread `t` moves to `pc`. -/
def gotoProducer (t : Pid) (pc : ProducerPc) (s : ThreadPool) : ThreadPool :=
  { s with producer := Function.update s.producer t pc }

/-- The execution of a task that is not empty. -/
def execute (th : PoolThread) (task : Option ℕ) (s : ThreadPool) : ThreadPool :=
  { s with ran := s.ran ++ (task.map (th, ·)).toList }

/-- The step of the holder of `mutex_`.  A `notify_one` wakes the thread `notified`. -/
def critical (maxQueueSize : ℕ) (notified : Option ℕ) (s : ThreadPool) :
    Outcome Assertion ThreadPool :=
  match s.mutex with
  | none => .blocked
  | some (.takeCheck i) =>
    .next { s with
      mutex := some (if s.taskQueue = [] ∧ s.running = true then .takeWait i else .takePop i) }
  | some (.takeWait i) =>
    .next { s.gotoWorker i .waiting with mutex := none, nonEmpty := s.nonEmpty.wait i }
  | some (.takePop i) =>
    match s.taskQueue with
    -- woken by `stop()`: `takeTask` returns an empty function
    | [] => .next { s.gotoWorker i (.running none) with mutex := none }
    | task :: tasks =>
      .next { s with
        taskQueue := tasks
        mutex := some (.takeNotify i task)
        handed := s.handed ++ [(i, task)] }
  | some (.takeNotify i task) =>
    .guard (s.nonFull.MayNotify notified) <|
      .next { s.gotoWorker i (.running task) with
        mutex := none
        nonFull := s.nonFull.notifyOne notified }
  | some (.runCheck t task) =>
    .next { s with
      mutex := some (if maxQueueSize ≤ s.taskQueue.length then .runWait t task
        else .runPush t task) }
  | some (.runWait t task) =>
    .next { s.gotoProducer t (.waiting task) with mutex := none, nonFull := s.nonFull.wait t }
  | some (.runPush t task) =>
    .next { s with
      taskQueue := s.taskQueue ++ [task]
      mutex := some (.runNotify t task)
      pushed := s.pushed ++ [task]
      callers := s.callers.erase t }
  | some (.runNotify t task) =>
    .guard (s.nonEmpty.MayNotify notified) <|
      .next { s.gotoProducer t .idle with
        mutex := none
        nonEmpty := s.nonEmpty.notifyOne notified
        accepted := s.accepted ++ [task] }
  | some .stopNotify =>
    .next { s with mutex := none, nonEmpty := s.nonEmpty.notifyAll, stopper := .joining 0 }

/-- The step function of a pool with `numThread` threads. -/
def step (numThread maxQueueSize : ℕ) (s : ThreadPool) : Label → Outcome Assertion ThreadPool
  | .runTask _ t task =>
    .guard (s.producer t = .idle) <|
      if s.running = true then
        if numThread = 0 then
          -- the call of an empty function throws
          .guard (task ≠ none) <|
            .next { s.execute (.producer t) task with accepted := s.accepted ++ [task] }
        else .next { s.gotoProducer t (.locking task) with callers := insert t s.callers }
      else .failed .runTask
  | .lockProducer t =>
    match s.producer t with
    | .locking task =>
      .guard (s.mutex = none) <|
        .next { s.gotoProducer t .inside with mutex := some (.runCheck t task) }
    | _ => .blocked
  | .wakeProducer t =>
    .guard (t ∈ s.nonFull.parked) <| .next { s with nonFull := s.nonFull.wake t }
  | .resumeProducer t =>
    match s.producer t with
    | .waiting task =>
      .guard (s.mutex = none ∧ t ∈ s.nonFull.woken) <|
        .next { s.gotoProducer t .inside with
          mutex := some (.runCheck t task)
          nonFull := s.nonFull.resume t }
    | _ => .blocked
  | .initCallback i =>
    .guard (s.worker i = .initializing) <| .next (s.gotoWorker i .testing)
  -- `running_` is read outside of the mutex
  | .test i =>
    .guard (s.worker i = .testing) <|
      .next (s.gotoWorker i (if s.running then .locking else .exited))
  | .lockWorker i =>
    .guard (s.worker i = .locking ∧ s.mutex = none) <|
      .next { s.gotoWorker i .inside with mutex := some (.takeCheck i) }
  | .wakeWorker i =>
    .guard (i ∈ s.nonEmpty.parked) <| .next { s with nonEmpty := s.nonEmpty.wake i }
  | .resumeWorker i =>
    .guard (s.worker i = .waiting ∧ s.mutex = none ∧ i ∈ s.nonEmpty.woken) <|
      .next { s.gotoWorker i .inside with
        mutex := some (.takeCheck i)
        nonEmpty := s.nonEmpty.resume i }
  | .run i =>
    match s.worker i with
    | .running task => .next ((s.execute (.worker i) task).gotoWorker i .testing)
    | _ => .blocked
  | .stop destructor =>
    .guard (s.stopper = .notStarted ∨ s.stopper = .returned) <|
      if s.running = true then .next { s with stopper := .storing, due := s.accepted }
      -- `~ThreadPool` tests `running_` before it calls `stop()`, a user does not
      else if destructor = true then .next s else .failed .stop
  | .store =>
    .guard (s.stopper = .storing) <| .next { s with running := false, stopper := .locking }
  | .lockStopper =>
    .guard (s.stopper = .locking ∧ s.mutex = none) <|
      .next { s with mutex := some .stopNotify, stopper := .inside }
  | .join =>
    match s.stopper with
    | .joining i =>
      if i < numThread then
        .guard (s.worker i = .exited) <| .next { s with stopper := .joining (i + 1) }
      else .next { s with stopper := .returned }
    | _ => .blocked
  | .critical notified => s.critical maxQueueSize notified

/-- A new pool. -/
def new (numThread : ℕ) : ThreadPool where
  taskQueue := []
  running := true
  mutex := none
  nonEmpty := .idle
  nonFull := .idle
  worker i := if i < numThread then .initializing else .exited
  producer _ := .idle
  stopper := .notStarted
  pushed := []
  handed := []
  ran := []
  accepted := []
  due := []
  callers := ∅

/-- The pool with `numThread` threads. -/
def system (numThread maxQueueSize : ℕ) : System ThreadPool Label Assertion where
  init s := s = new numThread
  step := step numThread maxQueueSize

variable {numThread maxQueueSize i j : ℕ} {t u : Pid} {notified : Option ℕ} {s s' : ThreadPool}
  {lab : Label} {task : Option ℕ} {w : WorkerPc} {p : ProducerPc}

theorem gotoWorker_worker :
    (s.gotoWorker i w).worker j = if j = i then w else s.worker j := by
  simp [gotoWorker, Function.update_apply]

theorem gotoProducer_producer :
    (s.gotoProducer t p).producer u = if u = t then p else s.producer u := by
  simp [gotoProducer, Function.update_apply]

@[simp] theorem gotoWorker_mutex : (s.gotoWorker i w).mutex = s.mutex := rfl

/-! ### The steps, one constructor for each kind -/

/-- The steps of the holder of `mutex_`. -/
inductive CriticalStep (maxQueueSize : ℕ) (s : ThreadPool) : Option ℕ → ThreadPool → Prop
  | takeEmpty {o : Option ℕ} {i : ℕ} (hm : s.mutex = some (.takeCheck i)) (hq : s.taskQueue = [])
      (hr : s.running = true) :
      CriticalStep maxQueueSize s o { s with mutex := some (.takeWait i) }
  | takeReady {o : Option ℕ} {i : ℕ} (hm : s.mutex = some (.takeCheck i))
      (hq : ¬ (s.taskQueue = [] ∧ s.running = true)) :
      CriticalStep maxQueueSize s o { s with mutex := some (.takePop i) }
  | takeWait {o : Option ℕ} {i : ℕ} (hm : s.mutex = some (.takeWait i)) :
      CriticalStep maxQueueSize s o
        { s.gotoWorker i .waiting with mutex := none, nonEmpty := s.nonEmpty.wait i }
  | takeNone {o : Option ℕ} {i : ℕ} (hm : s.mutex = some (.takePop i)) (hq : s.taskQueue = []) :
      CriticalStep maxQueueSize s o { s.gotoWorker i (.running none) with mutex := none }
  | takePop {o : Option ℕ} {i : ℕ} {task : Option ℕ} {tasks : List (Option ℕ)}
      (hm : s.mutex = some (.takePop i)) (hq : s.taskQueue = task :: tasks) :
      CriticalStep maxQueueSize s o
        { s with
          taskQueue := tasks
          mutex := some (.takeNotify i task)
          handed := s.handed ++ [(i, task)] }
  | takeNotify {o : Option ℕ} {i : ℕ} {task : Option ℕ}
      (hm : s.mutex = some (.takeNotify i task)) (ho : s.nonFull.MayNotify o) :
      CriticalStep maxQueueSize s o
        { s.gotoWorker i (.running task) with mutex := none, nonFull := s.nonFull.notifyOne o }
  | runFull {o : Option ℕ} {t : Pid} {task : Option ℕ} (hm : s.mutex = some (.runCheck t task))
      (hq : maxQueueSize ≤ s.taskQueue.length) :
      CriticalStep maxQueueSize s o { s with mutex := some (.runWait t task) }
  | runRoom {o : Option ℕ} {t : Pid} {task : Option ℕ} (hm : s.mutex = some (.runCheck t task))
      (hq : s.taskQueue.length < maxQueueSize) :
      CriticalStep maxQueueSize s o { s with mutex := some (.runPush t task) }
  | runWait {o : Option ℕ} {t : Pid} {task : Option ℕ} (hm : s.mutex = some (.runWait t task)) :
      CriticalStep maxQueueSize s o
        { s.gotoProducer t (.waiting task) with mutex := none, nonFull := s.nonFull.wait t }
  | runPush {o : Option ℕ} {t : Pid} {task : Option ℕ} (hm : s.mutex = some (.runPush t task)) :
      CriticalStep maxQueueSize s o
        { s with
          taskQueue := s.taskQueue ++ [task]
          mutex := some (.runNotify t task)
          pushed := s.pushed ++ [task]
          callers := s.callers.erase t }
  | runNotify {o : Option ℕ} {t : Pid} {task : Option ℕ}
      (hm : s.mutex = some (.runNotify t task)) (ho : s.nonEmpty.MayNotify o) :
      CriticalStep maxQueueSize s o
        { s.gotoProducer t .idle with
          mutex := none
          nonEmpty := s.nonEmpty.notifyOne o
          accepted := s.accepted ++ [task] }
  | stopNotify {o : Option ℕ} (hm : s.mutex = some .stopNotify) :
      CriticalStep maxQueueSize s o
        { s with mutex := none, nonEmpty := s.nonEmpty.notifyAll, stopper := .joining 0 }

theorem CriticalStep.of_critical (h : s.critical maxQueueSize notified = .next s') :
    CriticalStep maxQueueSize s notified s' := by
  unfold critical at h
  cases hm : s.mutex with
  | none => rw [hm] at h; cases h
  | some c =>
    rw [hm] at h
    cases c with
    | takeCheck i =>
      cases h
      split_ifs with hq
      · exact .takeEmpty hm hq.1 hq.2
      · exact .takeReady hm hq
    | takeWait i => cases h; exact .takeWait hm
    | takePop i =>
      simp only at h
      split at h
      · cases h; exact .takeNone hm ‹_›
      · cases h; exact .takePop hm ‹_›
    | takeNotify i task =>
      simp only [Outcome.guard_eq_next, Outcome.next.injEq] at h
      obtain ⟨ho, rfl⟩ := h
      exact .takeNotify hm ho
    | runCheck t task =>
      cases h
      split_ifs with hq
      · exact .runFull hm hq
      · exact .runRoom hm (not_le.1 hq)
    | runWait t task => cases h; exact .runWait hm
    | runPush t task => cases h; exact .runPush hm
    | runNotify t task =>
      simp only [Outcome.guard_eq_next, Outcome.next.injEq] at h
      obtain ⟨ho, rfl⟩ := h
      exact .runNotify hm ho
    | stopNotify => cases h; exact .stopNotify hm

/-- The steps. -/
inductive Step (numThread maxQueueSize : ℕ) (s : ThreadPool) : Label → ThreadPool → Prop
  | runInline {o : Overload} {t : Pid} {task : Option ℕ} (hp : s.producer t = .idle)
      (hr : s.running = true) (hn : numThread = 0) :
      Step numThread maxQueueSize s (.runTask o t task)
        { s.execute (.producer t) task with accepted := s.accepted ++ [task] }
  | runTask {o : Overload} {t : Pid} {task : Option ℕ} (hp : s.producer t = .idle)
      (hr : s.running = true) (hn : numThread ≠ 0) :
      Step numThread maxQueueSize s (.runTask o t task)
        { s.gotoProducer t (.locking task) with callers := insert t s.callers }
  | lockProducer {t : Pid} {task : Option ℕ} (hp : s.producer t = .locking task)
      (hm : s.mutex = none) :
      Step numThread maxQueueSize s (.lockProducer t)
        { s.gotoProducer t .inside with mutex := some (.runCheck t task) }
  | wakeProducer {t : Pid} (ht : t ∈ s.nonFull.parked) :
      Step numThread maxQueueSize s (.wakeProducer t) { s with nonFull := s.nonFull.wake t }
  | resumeProducer {t : Pid} {task : Option ℕ} (hp : s.producer t = .waiting task)
      (hm : s.mutex = none) (ht : t ∈ s.nonFull.woken) :
      Step numThread maxQueueSize s (.resumeProducer t)
        { s.gotoProducer t .inside with
          mutex := some (.runCheck t task)
          nonFull := s.nonFull.resume t }
  | initCallback {i : ℕ} (hw : s.worker i = .initializing) :
      Step numThread maxQueueSize s (.initCallback i) (s.gotoWorker i .testing)
  | goOn {i : ℕ} (hw : s.worker i = .testing) (hr : s.running = true) :
      Step numThread maxQueueSize s (.test i) (s.gotoWorker i .locking)
  | leave {i : ℕ} (hw : s.worker i = .testing) (hr : s.running = false) :
      Step numThread maxQueueSize s (.test i) (s.gotoWorker i .exited)
  | lockWorker {i : ℕ} (hw : s.worker i = .locking) (hm : s.mutex = none) :
      Step numThread maxQueueSize s (.lockWorker i)
        { s.gotoWorker i .inside with mutex := some (.takeCheck i) }
  | wakeWorker {i : ℕ} (hi : i ∈ s.nonEmpty.parked) :
      Step numThread maxQueueSize s (.wakeWorker i) { s with nonEmpty := s.nonEmpty.wake i }
  | resumeWorker {i : ℕ} (hw : s.worker i = .waiting) (hm : s.mutex = none)
      (hi : i ∈ s.nonEmpty.woken) :
      Step numThread maxQueueSize s (.resumeWorker i)
        { s.gotoWorker i .inside with
          mutex := some (.takeCheck i)
          nonEmpty := s.nonEmpty.resume i }
  | run {i : ℕ} {task : Option ℕ} (hw : s.worker i = .running task) :
      Step numThread maxQueueSize s (.run i) ((s.execute (.worker i) task).gotoWorker i .testing)
  | stop {d : Bool} (hs : s.stopper = .notStarted ∨ s.stopper = .returned)
      (hr : s.running = true) :
      Step numThread maxQueueSize s (.stop d) { s with stopper := .storing, due := s.accepted }
  | stopped {d : Bool} (hs : s.stopper = .notStarted ∨ s.stopper = .returned)
      (hr : s.running = false) : Step numThread maxQueueSize s (.stop d) s
  | store (hs : s.stopper = .storing) :
      Step numThread maxQueueSize s .store { s with running := false, stopper := .locking }
  | lockStopper (hs : s.stopper = .locking) (hm : s.mutex = none) :
      Step numThread maxQueueSize s .lockStopper
        { s with mutex := some .stopNotify, stopper := .inside }
  | join {i : ℕ} (hs : s.stopper = .joining i) (hi : i < numThread) (hw : s.worker i = .exited) :
      Step numThread maxQueueSize s .join { s with stopper := .joining (i + 1) }
  | joined {i : ℕ} (hs : s.stopper = .joining i) (hi : numThread ≤ i) :
      Step numThread maxQueueSize s .join { s with stopper := .returned }
  | critical {o : Option ℕ} {s' : ThreadPool} (h : CriticalStep maxQueueSize s o s') :
      Step numThread maxQueueSize s (.critical o) s'

theorem Step.of_step (h : (system numThread maxQueueSize).step s lab = .next s') :
    Step numThread maxQueueSize s lab s' := by
  change ThreadPool.step numThread maxQueueSize s lab = .next s' at h
  cases lab with
  | runTask o t task =>
    simp only [ThreadPool.step, Outcome.guard_eq_next] at h
    obtain ⟨hp, h⟩ := h
    split_ifs at h with hr hn
    · simp only [Outcome.guard_eq_next, Outcome.next.injEq] at h
      obtain ⟨-, rfl⟩ := h
      exact .runInline hp hr hn
    · cases h; exact .runTask hp hr hn
  | lockProducer t | resumeProducer t =>
    simp only [ThreadPool.step] at h
    split at h
    · simp only [Outcome.guard_eq_next, Outcome.next.injEq] at h
      obtain ⟨hm, rfl⟩ := h
      constructor <;> simp_all
    · cases h
  | wakeProducer t | wakeWorker i | initCallback i | store =>
    simp only [ThreadPool.step, Outcome.guard_eq_next, Outcome.next.injEq] at h
    obtain ⟨hm, rfl⟩ := h
    constructor
    exact hm
  | lockWorker i | resumeWorker i | lockStopper =>
    simp only [ThreadPool.step, Outcome.guard_eq_next, Outcome.next.injEq] at h
    obtain ⟨hm, rfl⟩ := h
    constructor <;> simp [hm]
  | test i =>
    simp only [ThreadPool.step, Outcome.guard_eq_next, Outcome.next.injEq] at h
    obtain ⟨hw, rfl⟩ := h
    cases hr : s.running
    · exact .leave hw hr
    · exact .goOn hw hr
  | run i =>
    simp only [ThreadPool.step] at h
    split at h
    · cases h; exact .run ‹_›
    · cases h
  | stop d =>
    simp only [ThreadPool.step, Outcome.guard_eq_next] at h
    obtain ⟨hs, h⟩ := h
    split_ifs at h with hr hd
    · cases h; exact .stop hs hr
    · cases h; exact .stopped hs (by simpa using hr)
  | join =>
    simp only [ThreadPool.step] at h
    split at h
    · split_ifs at h with hi
      · simp only [Outcome.guard_eq_next, Outcome.next.injEq] at h
        obtain ⟨hw, rfl⟩ := h
        exact .join ‹_› hi hw
      · cases h; exact .joined ‹_› (not_lt.1 hi)
    · cases h
  | critical o => exact .critical (.of_critical h)

end ThreadPool
end Leven
