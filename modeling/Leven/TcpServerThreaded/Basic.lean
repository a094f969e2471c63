import Leven.EventLoop.Basic

/-!
# TcpServerThreaded

`startInLoop`, the threads of `runInThread` and the destructor, each worker with its own
`EventLoop`.  Worker `i` runs in thread `i`, and the server is started and destroyed by thread 0,
which makes no other call of the workers' loops while it does so.

* `WorkerPc`, `StarterPc`, `DtorPc`: where each of the three is;
* `EventLoop.Label.isUse`: the steps of a loop other than those of `quit()` and the call of
  `loop()`, which are the business of the destructor and of `runInThread`;
* `step`, `system`, and the inversion `Step.of_step`.

A step of the destructor on a loop that is not there fails with `Fault.destroyed`.  The list `quits`
only records the loops whose `quit()` has returned.
-/

namespace Leven

open Transition

/-- The thread that makes a step, where this is not the loop's own matter. -/
def EventLoop.Label.caller : EventLoop.Label → Option Pid
  | .runInLoop _ t _ | .queueInLoop _ t _ | .testWakeup t | .wakeup t | .quit t | .storeQuit t
  | .checkThread t => some t
  | .enter | .test | .poll _ | .handleRead | .swap | .setDoing | .runJob | .clearDoing => none

/-- The steps of a loop that is in use. -/
def EventLoop.Label.isUse : EventLoop.Label → Bool
  | .quit _ | .storeQuit _ | .checkThread _ | .enter => false
  | _ => true

/-- Where a worker is in `runInThread`. -/
inductive WorkerPc
  | notCreated
  /-- before the constructors of `loop` and `server` -/
  | constructing
  /-- before the critical section -/
  | publishing
  /-- in `threadInitCallback_` -/
  | initializing
  /-- in `server.start()` -/
  | starting
  /-- before `quit_ = false` in `loop()` -/
  | entering
  | looping
  /-- before `eventLoops_[index] = nullptr` -/
  | clearing
  /-- before the destructor of `server` -/
  | destroyingServer
  /-- before the destructor of `loop` -/
  | destroyingLoop
  | done
  deriving DecidableEq

/-- The loop exists. -/
def WorkerPc.hasLoop : WorkerPc → Bool
  | .notCreated | .constructing | .done => false
  | _ => true

/-- The critical section is over. -/
def WorkerPc.isPublished : WorkerPc → Bool
  | .notCreated | .constructing | .publishing => false
  | _ => true

/-- The worker's slot of `eventLoops_` is set. -/
def WorkerPc.inSlot : WorkerPc → Bool
  | .initializing | .starting | .entering | .looping | .clearing => true
  | _ => false

/-- `loop()` has returned. -/
def WorkerPc.hasLeft : WorkerPc → Bool
  | .clearing | .destroyingServer | .destroyingLoop | .done => true
  | _ => false

/-- The worker is in user code or in `loop()`. -/
def WorkerPc.isActive : WorkerPc → Bool
  | .initializing | .starting | .looping => true
  | _ => false

/-- A worker thread and the loop on its stack. -/
structure Worker where
  pc : WorkerPc
  loop : EventLoop

/-- Where the starting thread is in `startInLoop`. -/
inductive StarterPc
  /-- before `new std::thread` -/
  | spawning (i : ℕ)
  /-- holding the mutex, before `eventLoops_[i] == nullptr` -/
  | checking (i : ℕ)
  /-- in `cond_.wait` -/
  | parked (i : ℕ)
  /-- before `threads_.emplace_back` -/
  | emplacing (i : ℕ)
  | returned
  deriving DecidableEq

/-- The thread woken by `notify_one` of `cond_`. -/
def StarterPc.notified : StarterPc → StarterPc
  | .parked i => .checking i
  | pc => pc

/-- Where the destructor is. -/
inductive DtorPc
  | notStarted
  /-- before `ele != nullptr` -/
  | testing (i : ℕ)
  /-- `quit`: before the assertion -/
  | quitting (i : ℕ)
  /-- `quit`: before `quit_ = true` -/
  | storing (i : ℕ)
  /-- `quit`: before `!isInLoopThread()` -/
  | checking (i : ℕ)
  /-- `quit`: before the write to `wakeupfd_` -/
  | waking (i : ℕ)
  /-- in `join` of the first of the threads -/
  | joining (threads : List ℕ)
  | finished
  deriving DecidableEq

/-- The index the destructor has come to. -/
def DtorPc.index : DtorPc → Option ℕ
  | .testing i | .quitting i | .storing i | .checking i | .waking i => some i
  | .notStarted | .joining _ | .finished => none

/-- The worker on whose loop the destructor calls `quit()`. -/
def DtorPc.target : DtorPc → Option ℕ
  | .quitting i | .storing i | .checking i | .waking i => some i
  | .notStarted | .testing _ | .joining _ | .finished => none

/-- The server, its workers and the two threads that start and destroy it. -/
structure TcpServerThreaded where
  worker : ℕ → Worker
  /-- `eventLoops_[i] != nullptr` -/
  eventLoops : ℕ → Bool
  threads : List ℕ
  starter : StarterPc
  dtor : DtorPc
  quits : List ℕ

namespace TcpServerThreaded

/-- The steps. -/
inductive Label
  /-- `new std::thread` -/
  | spawn
  /-- `while (eventLoops_[i] == nullptr)` -/
  | check
  /-- a spurious wakeup of the starting thread -/
  | spurious
  | emplace
  | construct (i : ℕ)
  /-- the critical section of `runInThread`, with `notify_one` -/
  | publish (i : ℕ)
  | initCallback (i : ℕ)
  | startServer (i : ℕ)
  | enter (i : ℕ)
  /-- a step of the loop of worker `i` -/
  | use (i : ℕ) (lab : EventLoop.Label)
  /-- `eventLoops_[index] = nullptr` -/
  | clear (i : ℕ)
  | destroyServer (i : ℕ)
  | destroyLoop (i : ℕ)
  | destroy
  | testSlot
  | quit
  | storeQuit
  | checkThread
  | wakeup
  | join
  deriving DecidableEq

/-- Worker `i` moves to `pc`. -/
def goto (i : ℕ) (pc : WorkerPc) (s : TcpServerThreaded) : TcpServerThreaded :=
  { s with worker := Function.update s.worker i { s.worker i with pc := pc } }

/-- The loop of worker `i` becomes `l`. -/
def setLoop (i : ℕ) (l : EventLoop) (s : TcpServerThreaded) : TcpServerThreaded :=
  { s with worker := Function.update s.worker i { s.worker i with loop := l } }

/-- The `for` loop of `startInLoop` at index `i`. -/
def startFrom (n i : ℕ) : StarterPc := if i < n then .spawning i else .returned

/-- The first `for` loop of the destructor at index `i`. -/
def quitFrom (n i : ℕ) (threads : List ℕ) : DtorPc :=
  if i < n then .testing i else .joining threads

/-- Worker `i` after a step of its loop: `loop()` returns when the loop is left. -/
def afterUse (pc : WorkerPc) (l : EventLoop) : WorkerPc :=
  if pc = .looping ∧ l.pc = .outside then .clearing else pc

/-- A step of worker `i` from `pc` to `pc'`. -/
def workerStep (i : ℕ) (pc pc' : WorkerPc) (s : TcpServerThreaded) :
    Outcome Fault TcpServerThreaded :=
  .guard ((s.worker i).pc = pc) <| .next (s.goto i pc')

/-- A step of the destructor on the loop of worker `i`, which takes it to `pc`. -/
def quitStep (i : ℕ) (lab : EventLoop.Label) (pc : DtorPc) (s : TcpServerThreaded) :
    Outcome Fault TcpServerThreaded :=
  if (s.worker i).pc.hasLoop then
    ((EventLoop.step i (s.worker i).loop lab).mapFailed .assertion).bind fun l =>
      .next { s.setLoop i l with dtor := pc }
  else .failed .destroyed

/-- Thread `t` may use the loop of worker `i`. -/
def MayUse (i : ℕ) (t : Pid) (s : TcpServerThreaded) : Prop :=
  (t = 0 → s.starter = .returned ∧ s.dtor = .notStarted) ∧
    (t = i → (s.worker i).pc.isActive = true)

instance (i : ℕ) (t : Pid) (s : TcpServerThreaded) : Decidable (s.MayUse i t) :=
  inferInstanceAs (Decidable ((_ → _ ∧ _) ∧ (_ → _)))

/-- The step function of a server with `numThreads_ = n`. -/
def step (n : ℕ) (s : TcpServerThreaded) : Label → Outcome Fault TcpServerThreaded
  | .spawn =>
    match s.starter with
    | .spawning i =>
      .guard ((s.worker i).pc = .notCreated) <|
        .next { s.goto i .constructing with starter := .checking i }
    | _ => .blocked
  | .check =>
    match s.starter with
    | .checking i => .next { s with starter := if s.eventLoops i then .emplacing i else .parked i }
    | _ => .blocked
  | .spurious =>
    match s.starter with
    | .parked i => .next { s with starter := .checking i }
    | _ => .blocked
  | .emplace =>
    match s.starter with
    | .emplacing i => .next { s with threads := s.threads ++ [i], starter := startFrom n (i + 1) }
    | _ => .blocked
  | .construct i => s.workerStep i .constructing .publishing
  -- the store and the `notify_one` are under the mutex
  | .publish i =>
    (s.workerStep i .publishing .initializing).bind fun s' =>
      .next { s' with
        eventLoops := Function.update s.eventLoops i true
        starter := s.starter.notified }
  | .initCallback i =>
    .guard ((s.worker i).loop.callers i = .idle) <| s.workerStep i .initializing .starting
  | .startServer i =>
    .guard ((s.worker i).loop.callers i = .idle) <| s.workerStep i .starting .entering
  | .enter i =>
    (s.workerStep i .entering .looping).bind fun s' =>
      ((EventLoop.step i (s.worker i).loop .enter).mapFailed .assertion).bind fun l =>
        .next (s'.setLoop i l)
  | .use i lab =>
    .guard (lab.isUse = true ∧ (s.worker i).pc.hasLoop = true ∧
        ∀ t ∈ lab.caller, s.MayUse i t) <|
      ((EventLoop.step i (s.worker i).loop lab).mapFailed .assertion).bind fun l =>
        .next ((s.setLoop i l).goto i (afterUse (s.worker i).pc l))
  -- no mutex is held when the slot is cleared
  | .clear i =>
    (s.workerStep i .clearing .destroyingServer).bind fun s' =>
      .next { s' with eventLoops := Function.update s.eventLoops i false }
  | .destroyServer i => s.workerStep i .destroyingServer .destroyingLoop
  | .destroyLoop i => s.workerStep i .destroyingLoop .done
  | .destroy =>
    .guard (s.starter = .returned ∧ s.dtor = .notStarted ∧
        ∀ i ∈ s.threads, (s.worker i).loop.callers 0 = .idle) <|
      .next { s with dtor := quitFrom n 0 s.threads }
  -- the destructor reads the slot without the mutex
  | .testSlot =>
    match s.dtor with
    | .testing i =>
      .next { s with dtor := if s.eventLoops i then .quitting i else quitFrom n (i + 1) s.threads }
    | _ => .blocked
  | .quit =>
    match s.dtor with
    | .quitting i => s.quitStep i (.quit 0) (.storing i)
    | _ => .blocked
  | .storeQuit =>
    match s.dtor with
    | .storing i => s.quitStep i (.storeQuit 0) (.checking i)
    | _ => .blocked
  | .checkThread =>
    match s.dtor with
    | .checking i => s.quitStep i (.checkThread 0) (.waking i)
    | _ => .blocked
  | .wakeup =>
    match s.dtor with
    | .waking i =>
      (s.quitStep i (.wakeup 0) (quitFrom n (i + 1) s.threads)).bind fun s' =>
        .next { s' with quits := s.quits ++ [i] }
    | _ => .blocked
  | .join =>
    match s.dtor with
    | .joining (i :: is) =>
      .guard ((s.worker i).pc = .done) <| .next { s with dtor := .joining is }
    | .joining [] => .next { s with dtor := .finished }
    | _ => .blocked

/-- The server at the start of the loop of `startInLoop`. -/
def start (n : ℕ) : TcpServerThreaded where
  worker _ := ⟨.notCreated, .new⟩
  eventLoops _ := false
  threads := []
  starter := startFrom n 1
  dtor := .notStarted
  quits := []

/-- The server with `numThreads_ = n`. -/
def system (n : ℕ) : System TcpServerThreaded Label Fault where
  init s := s = start n
  step := step n

variable {n i j : ℕ} {s s' : TcpServerThreaded} {lab : Label} {pc pc' : WorkerPc} {l : EventLoop}

@[simp] theorem goto_worker_self : (s.goto i pc).worker i = { s.worker i with pc := pc } := by
  simp [goto]

theorem goto_worker_of_ne (h : j ≠ i) : (s.goto i pc).worker j = s.worker j := by simp [goto, h]

theorem goto_pc : ((s.goto i pc).worker j).pc = if j = i then pc else (s.worker j).pc := by
  by_cases h : j = i
  · subst h; simp
  · simp [goto_worker_of_ne h, h]

@[simp] theorem goto_loop : ((s.goto i pc).worker j).loop = (s.worker j).loop := by
  by_cases h : j = i
  · subst h; simp
  · simp [goto_worker_of_ne h]

@[simp] theorem setLoop_worker_self : (s.setLoop i l).worker i = { s.worker i with loop := l } := by
  simp [setLoop]

theorem setLoop_worker_of_ne (h : j ≠ i) : (s.setLoop i l).worker j = s.worker j := by
  simp [setLoop, h]

@[simp] theorem setLoop_pc : ((s.setLoop i l).worker j).pc = (s.worker j).pc := by
  by_cases h : j = i
  · subst h; simp
  · simp [setLoop_worker_of_ne h]

/-- A property that the step from one loop to the next keeps. -/
theorem setLoop_loop {P : EventLoop → EventLoop → Prop} (hi : P (s.worker i).loop l)
    (hr : ∀ e, P e e) (j : ℕ) : P (s.worker j).loop ((s.setLoop i l).worker j).loop := by
  by_cases h : j = i
  · subst h; simpa using hi
  · simpa [setLoop_worker_of_ne h] using hr _

/-! ### The steps, one constructor for each kind -/

/-- The moves of a worker that change nothing else. -/
def Moves : Label → ℕ → WorkerPc → WorkerPc → Prop
  | .construct i, j, pc, pc' => i = j ∧ pc = .constructing ∧ pc' = .publishing
  | .initCallback i, j, pc, pc' => i = j ∧ pc = .initializing ∧ pc' = .starting
  | .startServer i, j, pc, pc' => i = j ∧ pc = .starting ∧ pc' = .entering
  | .destroyServer i, j, pc, pc' => i = j ∧ pc = .destroyingServer ∧ pc' = .destroyingLoop
  | .destroyLoop i, j, pc, pc' => i = j ∧ pc = .destroyingLoop ∧ pc' = .done
  | _, _, _, _ => False

/-- The steps. -/
inductive Step (n : ℕ) (s : TcpServerThreaded) : Label → TcpServerThreaded → Prop
  | spawn {i : ℕ} (hs : s.starter = .spawning i) (hw : (s.worker i).pc = .notCreated) :
      Step n s .spawn { s.goto i .constructing with starter := .checking i }
  | found {i : ℕ} (hs : s.starter = .checking i) (hl : s.eventLoops i = true) :
      Step n s .check { s with starter := .emplacing i }
  | park {i : ℕ} (hs : s.starter = .checking i) (hl : s.eventLoops i = false) :
      Step n s .check { s with starter := .parked i }
  | spurious {i : ℕ} (hs : s.starter = .parked i) :
      Step n s .spurious { s with starter := .checking i }
  | emplace {i : ℕ} (hs : s.starter = .emplacing i) :
      Step n s .emplace { s with threads := s.threads ++ [i], starter := startFrom n (i + 1) }
  | move {lab : Label} {i : ℕ} {pc' : WorkerPc} (hm : Moves lab i (s.worker i).pc pc') :
      Step n s lab (s.goto i pc')
  | publish {i : ℕ} (hw : (s.worker i).pc = .publishing) :
      Step n s (.publish i)
        { s.goto i .initializing with
          eventLoops := Function.update s.eventLoops i true
          starter := s.starter.notified }
  | enter {i : ℕ} {l : EventLoop} (hw : (s.worker i).pc = .entering)
      (hl : EventLoop.Step i (s.worker i).loop .enter l) :
      Step n s (.enter i) ((s.goto i .looping).setLoop i l)
  | use {i : ℕ} {lab : EventLoop.Label} {l : EventLoop} (hu : lab.isUse = true)
      (hw : (s.worker i).pc.hasLoop = true) (hl : EventLoop.Step i (s.worker i).loop lab l) :
      Step n s (.use i lab) ((s.setLoop i l).goto i (afterUse (s.worker i).pc l))
  | clear {i : ℕ} (hw : (s.worker i).pc = .clearing) :
      Step n s (.clear i)
        { s.goto i .destroyingServer with eventLoops := Function.update s.eventLoops i false }
  | destroy (hs : s.starter = .returned) (hd : s.dtor = .notStarted) :
      Step n s .destroy { s with dtor := quitFrom n 0 s.threads }
  | hold {i : ℕ} (hd : s.dtor = .testing i) (hl : s.eventLoops i = true) :
      Step n s .testSlot { s with dtor := .quitting i }
  | skip {i : ℕ} (hd : s.dtor = .testing i) (hl : s.eventLoops i = false) :
      Step n s .testSlot { s with dtor := quitFrom n (i + 1) s.threads }
  | quit {i : ℕ} {l : EventLoop} (hd : s.dtor = .quitting i) (hw : (s.worker i).pc.hasLoop = true)
      (hl : EventLoop.Step i (s.worker i).loop (.quit 0) l) :
      Step n s .quit { s.setLoop i l with dtor := .storing i }
  | storeQuit {i : ℕ} {l : EventLoop} (hd : s.dtor = .storing i)
      (hw : (s.worker i).pc.hasLoop = true)
      (hl : EventLoop.Step i (s.worker i).loop (.storeQuit 0) l) :
      Step n s .storeQuit { s.setLoop i l with dtor := .checking i }
  | checkThread {i : ℕ} {l : EventLoop} (hd : s.dtor = .checking i)
      (hw : (s.worker i).pc.hasLoop = true)
      (hl : EventLoop.Step i (s.worker i).loop (.checkThread 0) l) :
      Step n s .checkThread { s.setLoop i l with dtor := .waking i }
  | wakeup {i : ℕ} {l : EventLoop} (hd : s.dtor = .waking i) (hw : (s.worker i).pc.hasLoop = true)
      (hl : EventLoop.Step i (s.worker i).loop (.wakeup 0) l) :
      Step n s .wakeup
        { s.setLoop i l with dtor := quitFrom n (i + 1) s.threads, quits := s.quits ++ [i] }
  | join {i : ℕ} {is : List ℕ} (hd : s.dtor = .joining (i :: is)) (hw : (s.worker i).pc = .done) :
      Step n s .join { s with dtor := .joining is }
  | finish (hd : s.dtor = .joining []) : Step n s .join { s with dtor := .finished }

theorem workerStep_eq_next : s.workerStep i pc pc' = .next s' ↔
    (s.worker i).pc = pc ∧ s.goto i pc' = s' := by
  simp [workerStep]

theorem loop_step_eq_next {lab : EventLoop.Label} {o : Outcome Assertion EventLoop}
    (ho : o = EventLoop.step i (s.worker i).loop lab)
    (h : o.mapFailed Fault.assertion = .next l) : EventLoop.Step i (s.worker i).loop lab l := by
  subst ho
  exact .of_step (Outcome.mapFailed_eq_next.1 h)

theorem quitStep_eq_next {lab : EventLoop.Label} {pc : DtorPc}
    (h : s.quitStep i lab pc = .next s') :
    ∃ l, (s.worker i).pc.hasLoop = true ∧ EventLoop.Step i (s.worker i).loop lab l ∧
      s' = { s.setLoop i l with dtor := pc } := by
  unfold quitStep at h
  split_ifs at h with hw
  simp only [Outcome.bind_eq_next, Outcome.next.injEq] at h
  obtain ⟨l, hl, rfl⟩ := h
  exact ⟨l, hw, loop_step_eq_next rfl hl, rfl⟩

theorem Step.of_step (h : (system n).step s lab = .next s') : Step n s lab s' := by
  change step n s lab = .next s' at h
  cases lab with
  | spawn =>
    simp only [step] at h
    split at h
    · simp only [Outcome.guard_eq_next, Outcome.next.injEq] at h
      obtain ⟨hw, rfl⟩ := h
      exact .spawn ‹_› hw
    · cases h
  | check =>
    simp only [step] at h
    split at h
    · cases h
      cases hl : s.eventLoops _
      · exact .park ‹_› hl
      · exact .found ‹_› hl
    · cases h
  | spurious =>
    simp only [step] at h
    split at h
    · cases h; exact .spurious ‹_›
    · cases h
  | emplace =>
    simp only [step] at h
    split at h
    · cases h; exact .emplace ‹_›
    · cases h
  | construct i | destroyServer i | destroyLoop i =>
    obtain ⟨hw, rfl⟩ := workerStep_eq_next.1 h
    exact .move ⟨rfl, hw, rfl⟩
  | initCallback i | startServer i =>
    simp only [step, Outcome.guard_eq_next, workerStep_eq_next] at h
    obtain ⟨-, hw, rfl⟩ := h
    exact .move ⟨rfl, hw, rfl⟩
  | publish i =>
    simp only [step, Outcome.bind_eq_next, workerStep_eq_next, Outcome.next.injEq] at h
    obtain ⟨_, ⟨hw, rfl⟩, rfl⟩ := h
    exact .publish hw
  | clear i =>
    simp only [step, Outcome.bind_eq_next, workerStep_eq_next, Outcome.next.injEq] at h
    obtain ⟨_, ⟨hw, rfl⟩, rfl⟩ := h
    exact .clear hw
  | enter i =>
    simp only [step, Outcome.bind_eq_next, workerStep_eq_next, Outcome.next.injEq] at h
    obtain ⟨_, ⟨hw, rfl⟩, l, hl, rfl⟩ := h
    exact .enter hw (loop_step_eq_next rfl hl)
  | use i lab =>
    simp only [step, Outcome.guard_eq_next, Outcome.bind_eq_next, Outcome.next.injEq] at h
    obtain ⟨⟨hu, hw, -⟩, l, hl, rfl⟩ := h
    exact .use hu hw (loop_step_eq_next rfl hl)
  | destroy =>
    simp only [step, Outcome.guard_eq_next, Outcome.next.injEq] at h
    obtain ⟨⟨hs, hd, -⟩, rfl⟩ := h
    exact .destroy hs hd
  | testSlot =>
    simp only [step] at h
    split at h
    · cases h
      cases hl : s.eventLoops _
      · exact .skip ‹_› hl
      · exact .hold ‹_› hl
    · cases h
  | quit | storeQuit | checkThread =>
    simp only [step] at h
    split at h
    · obtain ⟨l, hw, hl, rfl⟩ := quitStep_eq_next h
      constructor <;> assumption
    · cases h
  | wakeup =>
    simp only [step] at h
    split at h
    · simp only [Outcome.bind_eq_next, Outcome.next.injEq] at h
      obtain ⟨_, hq, rfl⟩ := h
      obtain ⟨l, hw, hl, rfl⟩ := quitStep_eq_next hq
      exact .wakeup ‹_› hw hl
    · cases h
  | join =>
    simp only [step] at h
    split at h
    · simp only [Outcome.guard_eq_next, Outcome.next.injEq] at h
      obtain ⟨hw, rfl⟩ := h
      exact .join ‹_› hw
    · cases h; exact .finish ‹_›
    · cases h

end TcpServerThreaded
end Leven
