import Leven.Transition.System
import Leven.Basic

/-!
# EventLoop

The loop of thread `threadId` and the threads that hand tasks to it, as a transition system whose
steps are the critical sections, the accesses of `quit_` and `doingPendingJobs_`, the reads and
writes of `wakeupfd_`, and the steps of `loop()` and `doPendingJobs()`.

* `LoopPc`, `CallerPc`: where the loop thread is in `loop()`, and where a thread is in
  `queueInLoop` or `quit`;
* `runInLoop`, `queueInLoop`: both overloads of each;
* `step`, `system`, and the inversion `Step.of_step`.

`wakeupfd_` is its counter: a write adds one, a read takes it to zero, and it is readable while it
is positive.  A task body is the event that it starts; what it calls are later steps of the thread
that runs it.  The lists `pushed`, `ran`, `bodies` and `copyCalls` only record what has happened.
-/

namespace Leven

open Transition

/-- Where the loop thread is. -/
inductive LoopPc
  /-- not in `loop()` -/
  | outside
  /-- before the test of `quit_` -/
  | testing
  /-- about to block in `epoll_wait` -/
  | polling
  /-- running the handlers; `handleRead` of the loop is or is not among those to come -/
  | dispatching (handleRead : Bool)
  /-- behind the swap of `doPendingJobs`, before `doingPendingJobs_ = true` -/
  | swapped
  /-- running the jobs of the batch -/
  | running
  deriving DecidableEq

/-- User code runs in the loop thread outside of `loop()`, in a handler or in a job. -/
def LoopPc.isUserCode : LoopPc → Bool
  | .outside | .dispatching _ | .running => true
  | _ => false

/-- Where a thread is in a call of the loop. -/
inductive CallerPc
  | idle
  /-- `queueInLoop`: behind the critical section, before the test for the wakeup -/
  | pushed
  /-- `queueInLoop`: before the write to `wakeupfd_` -/
  | waking
  /-- `quit`: behind the assertion -/
  | quitting
  /-- `quit`: before `!isInLoopThread()` -/
  | checking
  /-- `quit`: before the write to `wakeupfd_` -/
  | quitWaking
  deriving DecidableEq

/-- A task in `pendingJobs_`, with the thread that pushed it. -/
structure Pending where
  task : ℕ
  caller : Pid
  deriving DecidableEq

/-- The loop and the threads that use it. -/
structure EventLoop where
  pendingJobs : List Pending
  /-- the rest of the batch of `doPendingJobs` -/
  jobs : List Pending
  doingPendingJobs : Bool
  quit : Bool
  /-- the counter of `wakeupfd_` -/
  wakeups : ℕ
  pc : LoopPc
  callers : Pid → CallerPc
  pushed : List Pending
  /-- the jobs run by `doPendingJobs` -/
  ran : List Pending
  /-- the task bodies, each with the thread that executes it -/
  bodies : List (ℕ × Pid)
  /-- the callers of `runInLoop(const Task&)` -/
  copyCalls : List Pid

namespace EventLoop

/-- The steps. -/
inductive Label
  | runInLoop (o : Overload) (t : Pid) (task : ℕ)
  | queueInLoop (o : Overload) (t : Pid) (task : ℕ)
  /-- the test behind the critical section of `queueInLoop` -/
  | testWakeup (t : Pid)
  | wakeup (t : Pid)
  /-- `quit`: `assert(!quit_)` -/
  | quit (t : Pid)
  /-- `quit`: `quit_ = true` -/
  | storeQuit (t : Pid)
  /-- `quit`: `!isInLoopThread()` -/
  | checkThread (t : Pid)
  /-- the call of `loop()`, up to `quit_ = false` -/
  | enter
  /-- `while (!quit_)` -/
  | test
  /-- `epoll_wait` returns, with `wakeupfd_` among the active channels or not -/
  | poll (woken : Bool)
  | handleRead
  /-- the critical section of `doPendingJobs` -/
  | swap
  | setDoing
  | runJob
  /-- the end of `doPendingJobs` -/
  | clearDoing
  deriving DecidableEq

/-- Thread `t` moves to `pc`. -/
def goto (t : Pid) (pc : CallerPc) (s : EventLoop) : EventLoop :=
  { s with callers := Function.update s.callers t pc }

/-- Thread `t` executes the body of a task. -/
def execute (t : Pid) (task : ℕ) (s : EventLoop) : EventLoop :=
  { s with bodies := s.bodies ++ [(task, t)] }

/-- The critical section of `queueInLoop`. -/
def queueInLoop (_ : Overload) (t : Pid) (task : ℕ) (s : EventLoop) : EventLoop :=
  { s.goto t .pushed with
    pendingJobs := s.pendingJobs ++ [⟨task, t⟩]
    pushed := s.pushed ++ [⟨task, t⟩] }

/-- `runInLoop`: the two overloads have opposite tests. -/
def runInLoop (o : Overload) (threadId t : Pid) (task : ℕ) (s : EventLoop) : EventLoop :=
  match o with
  | .copy => if t ≠ threadId then s.execute t task else s.queueInLoop .copy t task
  | .move => if t = threadId then s.execute t task else s.queueInLoop .move t task

/-- Thread `t` may call the loop: it is in no other call, and the loop thread runs user code. -/
def MayCall (threadId t : Pid) (s : EventLoop) : Prop :=
  s.callers t = .idle ∧ (t = threadId → s.pc.isUserCode = true)

instance (threadId t : Pid) (s : EventLoop) : Decidable (s.MayCall threadId t) :=
  inferInstanceAs (Decidable (_ ∧ (t = threadId → _)))

/-- The step function.  The loop thread goes on in `loop()` when it is in no call of its own. -/
def step (threadId : Pid) (s : EventLoop) : Label → Outcome Assertion EventLoop
  | .runInLoop o t task =>
    .guard (s.MayCall threadId t) <|
      .next (runInLoop o threadId t task
        { s with copyCalls := if o = .copy then s.copyCalls ++ [t] else s.copyCalls })
  | .queueInLoop o t task => .guard (s.MayCall threadId t) <| .next (s.queueInLoop o t task)
  -- behind the mutex: `doingPendingJobs_` may have changed since the push
  | .testWakeup t =>
    .guard (s.callers t = .pushed) <|
      .next (s.goto t (if t ≠ threadId ∨ s.doingPendingJobs then .waking else .idle))
  | .wakeup t =>
    .guard (s.callers t = .waking ∨ s.callers t = .quitWaking) <|
      .next { s.goto t .idle with wakeups := s.wakeups + 1 }
  | .quit t =>
    .guard (s.MayCall threadId t) <|
      if s.quit then .failed .quit else .next (s.goto t .quitting)
  | .storeQuit t =>
    .guard (s.callers t = .quitting) <| .next { s.goto t .checking with quit := true }
  | .checkThread t =>
    .guard (s.callers t = .checking) <|
      .next (s.goto t (if t ≠ threadId then .quitWaking else .idle))
  -- a request to quit made before the call of `loop()` is forgotten
  | .enter =>
    .guard (s.callers threadId = .idle ∧ s.pc = .outside) <|
      .next { s with quit := false, pc := .testing }
  | .test =>
    .guard (s.pc = .testing) <| .next { s with pc := if s.quit then .outside else .polling }
  -- `epoll_wait` may also return for another channel
  | .poll woken =>
    .guard (s.pc = .polling ∧ (woken = true → 0 < s.wakeups)) <|
      .next { s with pc := .dispatching woken }
  | .handleRead =>
    .guard (s.callers threadId = .idle ∧ s.pc = .dispatching true) <|
      .next { s with wakeups := 0, pc := .dispatching false }
  | .swap =>
    .guard (s.callers threadId = .idle ∧ s.pc = .dispatching false) <|
      .next { s with jobs := s.pendingJobs, pendingJobs := [], pc := .swapped }
  | .setDoing =>
    .guard (s.pc = .swapped) <| .next { s with doingPendingJobs := true, pc := .running }
  | .runJob =>
    match s.jobs with
    | j :: js =>
      .guard (s.callers threadId = .idle ∧ s.pc = .running) <|
        .next { s.execute threadId j.task with jobs := js, ran := s.ran ++ [j] }
    | [] => .blocked
  -- the batch is over; what its jobs have queued waits for the next round
  | .clearDoing =>
    .guard (s.callers threadId = .idle ∧ s.pc = .running ∧ s.jobs = []) <|
      .next { s with doingPendingJobs := false, pc := .testing }

/-- A new loop. -/
def new : EventLoop where
  pendingJobs := []
  jobs := []
  doingPendingJobs := false
  quit := false
  wakeups := 0
  pc := .outside
  callers _ := .idle
  pushed := []
  ran := []
  bodies := []
  copyCalls := []

/-- The loop of thread `threadId`. -/
def system (threadId : Pid) : System EventLoop Label Assertion where
  init s := s = new
  step := step threadId

variable {threadId t u : Pid} {s s' : EventLoop} {lab : Label} {pc : CallerPc} {task : ℕ}
  {o : Overload}

@[simp] theorem goto_callers_self : (s.goto t pc).callers t = pc := by simp [goto]

theorem goto_callers_of_ne (h : u ≠ t) : (s.goto t pc).callers u = s.callers u := by
  simp [goto, h]

/-! ### The overloads of `runInLoop` -/

theorem execute_ne_queueInLoop : s.execute t task ≠ s.queueInLoop o t task := by
  intro h
  have := congrArg (fun s => s.bodies.length) h
  simp [execute, queueInLoop, goto] at this

/-- For no task, thread and state do the two overloads do the same. -/
theorem runInLoop_ne : s.runInLoop .copy threadId t task ≠ s.runInLoop .move threadId t task := by
  by_cases h : t = threadId
  · simpa [runInLoop, h] using execute_ne_queueInLoop.symm
  · simpa [runInLoop, h] using execute_ne_queueInLoop

/-! ### The steps, one constructor for each kind -/

/-- `runInLoop` runs the task at once. -/
def Sync (o : Overload) (threadId t : Pid) : Prop :=
  o = .copy ∧ t ≠ threadId ∨ o = .move ∧ t = threadId

/-- The record of a call of `runInLoop`. -/
def noteCall (o : Overload) (t : Pid) (s : EventLoop) : EventLoop :=
  { s with copyCalls := if o = .copy then s.copyCalls ++ [t] else s.copyCalls }

theorem runInLoop_of_sync (h : Sync o threadId t) :
    s.runInLoop o threadId t task = s.execute t task := by
  rcases h with ⟨rfl, h⟩ | ⟨rfl, rfl⟩ <;> simp_all [runInLoop]

theorem runInLoop_of_not_sync (h : ¬ Sync o threadId t) :
    s.runInLoop o threadId t task = s.queueInLoop o t task := by
  cases o <;> simp_all [runInLoop, Sync]

/-- The steps. -/
inductive Step (threadId : Pid) (s : EventLoop) : Label → EventLoop → Prop
  | runSync {o : Overload} {t : Pid} {task : ℕ} (hc : s.MayCall threadId t)
      (h : Sync o threadId t) : Step threadId s (.runInLoop o t task) ((s.noteCall o t).execute t task)
  | runQueue {o : Overload} {t : Pid} {task : ℕ} (hc : s.MayCall threadId t)
      (h : ¬ Sync o threadId t) :
      Step threadId s (.runInLoop o t task) ((s.noteCall o t).queueInLoop o t task)
  | queue {o : Overload} {t : Pid} {task : ℕ} (hc : s.MayCall threadId t) :
      Step threadId s (.queueInLoop o t task) (s.queueInLoop o t task)
  | testWakeup {t : Pid} (hc : s.callers t = .pushed) :
      Step threadId s (.testWakeup t)
        (s.goto t (if t ≠ threadId ∨ s.doingPendingJobs then .waking else .idle))
  | wakeup {t : Pid} (hc : s.callers t = .waking ∨ s.callers t = .quitWaking) :
      Step threadId s (.wakeup t) { s.goto t .idle with wakeups := s.wakeups + 1 }
  | quit {t : Pid} (hc : s.MayCall threadId t) (hq : s.quit = false) :
      Step threadId s (.quit t) (s.goto t .quitting)
  | storeQuit {t : Pid} (hc : s.callers t = .quitting) :
      Step threadId s (.storeQuit t) { s.goto t .checking with quit := true }
  | checkThread {t : Pid} (hc : s.callers t = .checking) :
      Step threadId s (.checkThread t) (s.goto t (if t ≠ threadId then .quitWaking else .idle))
  | enter (hc : s.callers threadId = .idle) (hp : s.pc = .outside) :
      Step threadId s .enter { s with quit := false, pc := .testing }
  | leave (hp : s.pc = .testing) (hq : s.quit = true) :
      Step threadId s .test { s with pc := .outside }
  | stay (hp : s.pc = .testing) (hq : s.quit = false) :
      Step threadId s .test { s with pc := .polling }
  | poll {woken : Bool} (hp : s.pc = .polling) (hw : woken = true → 0 < s.wakeups) :
      Step threadId s (.poll woken) { s with pc := .dispatching woken }
  | handleRead (hc : s.callers threadId = .idle) (hp : s.pc = .dispatching true) :
      Step threadId s .handleRead { s with wakeups := 0, pc := .dispatching false }
  | swap (hc : s.callers threadId = .idle) (hp : s.pc = .dispatching false) :
      Step threadId s .swap { s with jobs := s.pendingJobs, pendingJobs := [], pc := .swapped }
  | setDoing (hp : s.pc = .swapped) :
      Step threadId s .setDoing { s with doingPendingJobs := true, pc := .running }
  | runJob {j : Pending} {js : List Pending} (hc : s.callers threadId = .idle)
      (hp : s.pc = .running) (hj : s.jobs = j :: js) :
      Step threadId s .runJob { s.execute threadId j.task with jobs := js, ran := s.ran ++ [j] }
  | clearDoing (hc : s.callers threadId = .idle) (hp : s.pc = .running) (hj : s.jobs = []) :
      Step threadId s .clearDoing { s with doingPendingJobs := false, pc := .testing }

theorem Step.of_step (h : (system threadId).step s lab = .next s') : Step threadId s lab s' := by
  change EventLoop.step threadId s lab = .next s' at h
  cases lab with
  | runInLoop o t task =>
    simp only [EventLoop.step, Outcome.guard_eq_next, Outcome.next.injEq] at h
    obtain ⟨hc, rfl⟩ := h
    by_cases hs : Sync o threadId t
    · rw [runInLoop_of_sync hs]; exact .runSync hc hs
    · rw [runInLoop_of_not_sync hs]; exact .runQueue hc hs
  | quit t =>
    simp only [EventLoop.step, Outcome.guard_eq_next] at h
    obtain ⟨hc, h⟩ := h
    split_ifs at h with hq
    cases h
    exact .quit hc (by simpa using hq)
  | test =>
    simp only [EventLoop.step, Outcome.guard_eq_next, Outcome.next.injEq] at h
    obtain ⟨hp, rfl⟩ := h
    by_cases hq : s.quit = true
    · rw [if_pos hq]; exact .leave hp hq
    · rw [if_neg hq]; exact .stay hp (by simpa using hq)
  | runJob =>
    simp only [EventLoop.step] at h
    split at h
    · simp only [Outcome.guard_eq_next, Outcome.next.injEq] at h
      obtain ⟨⟨hc, hp⟩, rfl⟩ := h
      exact .runJob hc hp ‹_›
    · cases h
  | enter | poll woken | handleRead | swap | clearDoing =>
    simp only [EventLoop.step, Outcome.guard_eq_next, Outcome.next.injEq] at h
    obtain ⟨hc, rfl⟩ := h
    constructor <;> simp_all
  | queueInLoop o t task | testWakeup t | wakeup t | storeQuit t | checkThread t | setDoing =>
    simp only [EventLoop.step, Outcome.guard_eq_next, Outcome.next.injEq] at h
    obtain ⟨hc, rfl⟩ := h
    constructor
    exact hc

/-- `quit_` changes in `quit` and at the start of `loop()` only. -/
theorem Step.quit_eq (h : Step threadId s lab s') (h1 : ∀ t, lab ≠ .storeQuit t)
    (h2 : lab ≠ .enter) : s'.quit = s.quit := by
  cases h with
  | storeQuit hc => exact absurd rfl (h1 _)
  | enter hc hp => exact absurd rfl h2
  | _ => rfl

/-- `loop()` is left by the test of `quit_`, when it is set. -/
theorem Step.of_outside (h : Step threadId s lab s') (hp : s.pc ≠ .outside)
    (hp' : s'.pc = .outside) : lab = .test ∧ s.quit = true := by
  cases h with
  | leave _ hq => exact ⟨rfl, hq⟩
  | enter | stay | poll | handleRead | swap | setDoing | clearDoing => cases hp'
  | _ => exact absurd hp' hp

end EventLoop
end Leven
