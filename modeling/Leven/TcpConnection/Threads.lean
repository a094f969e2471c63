import Leven.Transition.System
import Leven.TcpConnection.Events

/-!
# The accesses of `state_`

`state_` is a plain `int` that any thread reads and exchanges and the loop thread writes.  Here
each single read, write or exchange of it is a step of its own: a thread stands at a program point
`Pc` between two accesses, and `Pc.access` is what the access there does.  `shutdown` and
`forceClose` test `state_` and then exchange it unconditionally; between the two, or before the
call, the loop thread may have closed the connection.

The channel and whether `outputBuffer_` is empty belong to the loop thread: a step between two
accesses does with them what the member function does there.

* `system`: any number of threads that call `send`, `shutdown` and `forceClose`, and the loop
  thread with its handlers and closures;
* `shutdown_access`, `forceClose_access`, `handleClose_access`: without interference the accesses
  of a member function come to its one-step effect on the state;
* `state_regresses`: a closed connection is marked `kDisconnecting`, and closing it again fails;
* `Timely`: the condition on a step, which says where the threads stand when the connection is
  closed;
* `Inv`, `Once`: the invariants of the runs whose steps meet the condition;
* `state_monotone`: the state in these runs.
-/

namespace Leven

open Transition

namespace SharedState

/-- The public calls that look at `state_`; also the closures they hand to the loop. -/
inductive Request
  | send
  | shutdown
  | forceClose
  deriving DecidableEq

/-- Where a thread stands: before the next access of `state_` in a member function, or before one
of the steps between two accesses. -/
inductive Pc
  | idle
  /-- `send`: `state_ != kConnected` -/
  | send
  /-- `sendInLoop`: `state_ == kDisconnected` -/
  | sendInLoop
  /-- `sendInLoop`: behind the test -/
  | sendWrite
  /-- `shutdown`: `assert(state_ <= kDisconnecting)` -/
  | shutdownAssert
  /-- `shutdown`: `stateAtomicGetAndSet(kDisconnecting)` -/
  | shutdownExchange
  /-- `shutdownInLoop`: `state_ != kDisconnected` -/
  | shutdownInLoop
  /-- `forceClose`: `state_ != kDisconnected` -/
  | forceCloseTest
  /-- `forceClose`: `stateAtomicGetAndSet(kDisconnecting)` -/
  | forceCloseExchange
  /-- before the closure of the request is pushed -/
  | queueInLoop (r : Request)
  /-- `handleRead`: `assert(state_ != kDisconnected)` -/
  | handleRead
  /-- `handleRead`: before `readFd` -/
  | readFd
  /-- `handleWrite`: `state_ == kDisconnected` -/
  | handleWrite
  /-- `handleWrite`: before `::write` -/
  | write
  /-- `handleWrite`: `state_ == kDisconnecting` -/
  | drained
  /-- `forceCloseInLoop`: `state_ != kDisconnected` -/
  | forceCloseInLoop
  /-- `handleClose`: `assert(state_ == kConnected ||` -/
  | closeConnected
  /-- `handleClose`: `state_ == kDisconnecting)` -/
  | closeDisconnecting
  /-- `handleClose`: `state_ = kDisconnected` -/
  | closeStore
  /-- `handleClose`: before `removeChannel` -/
  | closeRemove
  /-- `handleClose`: before `closeCallback_` -/
  | closeCallback
  deriving DecidableEq

/-- The first program point of a call. -/
def Request.call : Request → Pc
  | .send => .send
  | .shutdown => .shutdownAssert
  | .forceClose => .forceCloseTest

/-- The first program point of a closure. -/
def Request.job : Request → Pc
  | .send => .sendInLoop
  | .shutdown => .shutdownInLoop
  | .forceClose => .forceCloseInLoop

/-- One access of `state_`: the next program point and the state afterwards. -/
def Pc.access (isInLoopThread : Bool) (pc : Pc) (state : ConnectionState) :
    Outcome Assertion (Pc × ConnectionState) :=
  match pc with
  | .send =>
    .next (if state ≠ .kConnected then .idle
      else if isInLoopThread then .sendInLoop else .queueInLoop .send, state)
  | .sendInLoop => .next (if state = .kDisconnected then .idle else .sendWrite, state)
  | .shutdownAssert =>
    if state.value ≤ ConnectionState.kDisconnecting.value then .next (.shutdownExchange, state)
    else .failed .shutdown
  | .shutdownExchange =>
    .next (if state ≠ .kConnected then .idle
      else if isInLoopThread then .shutdownInLoop else .queueInLoop .shutdown, .kDisconnecting)
  | .shutdownInLoop => .next (.idle, state)
  | .forceCloseTest => .next (if state ≠ .kDisconnected then .forceCloseExchange else .idle, state)
  | .forceCloseExchange =>
    .next (if state ≠ .kDisconnected then .queueInLoop .forceClose else .idle, .kDisconnecting)
  | .handleRead =>
    if state ≠ .kDisconnected then .next (.readFd, state) else .failed .handleRead
  | .handleWrite => .next (if state = .kDisconnected then .idle else .write, state)
  | .drained => .next (if state = .kDisconnecting then .shutdownInLoop else .idle, state)
  | .forceCloseInLoop => .next (if state ≠ .kDisconnected then .closeConnected else .idle, state)
  | .closeConnected =>
    .next (if state = .kConnected then .closeStore else .closeDisconnecting, state)
  | .closeDisconnecting =>
    if state = .kDisconnecting then .next (.closeStore, state) else .failed .handleClose
  | .closeStore => .next (.closeRemove, .kDisconnected)
  | .idle | .sendWrite | .queueInLoop _ | .readFd | .write | .closeRemove | .closeCallback =>
    .blocked

/-- The handler a stage of the dispatch enters. -/
def enter (st : Stage) (revents : Mask) : Pc :=
  match st with
  | .close => if .epollhup ∈ revents ∧ .epollin ∉ revents then .closeConnected else .idle
  | .error => .idle
  | .read => if revents ∩ {.epollin, .epollpri, .epollrdhup} ≠ ∅ then .handleRead else .idle
  | .write => if .epollout ∈ revents then .handleWrite else .idle

/-- The state shared by the threads, and where each of them stands. -/
structure Threads where
  state : ConnectionState
  channel : Channel
  /-- `outputBuffer_` is not empty -/
  unsent : Bool
  /-- how often `closeCallback_` has been invoked -/
  closeCallbacks : ℕ
  pc : Pid → Pc
  phase : Phase
  pendingJobs : List Request
  jobs : List Request

/-- The steps. -/
inductive Label
  /-- thread `t` starts a call -/
  | call (t : Pid) (r : Request)
  /-- thread `t` makes its next access of `state_` -/
  | access (t : Pid)
  /-- thread `t` pushes its closure -/
  | push (t : Pid)
  | poll (revents : Option Mask)
  /-- the loop thread enters the next stage of the dispatch -/
  | stage
  /-- `readFd` returns, at the end of file or not -/
  | readFd (eof : Bool)
  /-- `sendInLoop` goes on, and some of the data goes to the output buffer or none -/
  | sendWrite (rest : Bool)
  /-- `::write` returns, and the output buffer is drained or not -/
  | write (drained : Bool)
  | removeChannel
  | closeCallback
  | swap
  | runJob
  | endJobs
  deriving DecidableEq

/-- The thread that makes a step. -/
def Label.thread (threadId : Pid) : Label → Pid
  | .call t _ | .access t | .push t => t
  | .poll _ | .stage | .readFd _ | .sendWrite _ | .write _ | .removeChannel | .closeCallback
  | .swap | .runJob | .endJobs => threadId

/-- Thread `t` moves to `pc`. -/
def Threads.goto (s : Threads) (t : Pid) (pc : Pc) : Threads :=
  { s with pc := Function.update s.pc t pc }

/-- An operation on the channel. -/
def Threads.onChannel (s : Threads) (f : Channel → Except Assertion (Channel × EpollCtl)) :
    Outcome Assertion Threads :=
  (Outcome.ofExcept (f s.channel)).bind fun (ch, _) => .next { s with channel := ch }

/-- The step function.  The loop thread starts a handler, a closure or a call when it stands in
none. -/
def step (threadId : Pid) (s : Threads) : Label → Outcome Assertion Threads
  | .call t r =>
    .guard (s.pc t = .idle ∧ (t = threadId → s.phase ≠ .poll)) <| .next (s.goto t r.call)
  | .access t =>
    ((s.pc t).access (t = threadId) s.state).bind fun (pc, state) =>
      .next { s.goto t pc with state := state }
  | .push t =>
    match s.pc t with
    | .queueInLoop r => .next { s.goto t .idle with pendingJobs := s.pendingJobs ++ [r] }
    | _ => .blocked
  | .poll none =>
    .guard (s.pc threadId = .idle ∧ s.phase = .poll) <| .next { s with phase := .dispatch none }
  | .poll (some m) =>
    .guard (s.pc threadId = .idle ∧ s.phase = .poll ∧ s.channel.polling = true ∧
      Reportable (some s.channel.events) m) <|
      .next { s with phase := .dispatch (some .close), channel := { s.channel with revents := m } }
  | .stage =>
    match s.phase with
    | .dispatch (some st) =>
      .guard (s.pc threadId = .idle) <|
        .next { s.goto threadId (enter st s.channel.revents) with phase := .dispatch st.next }
    | _ => .blocked
  | .readFd eof =>
    .guard (s.pc threadId = .readFd) <|
      .next (s.goto threadId (if eof then .closeConnected else .idle))
  -- what is not written directly is appended, and `enableWrite` registers the channel
  | .sendWrite rest =>
    .guard (s.pc threadId = .sendWrite) <|
      if ¬ s.channel.isWriting ∧ s.unsent = true then .failed .sendInLoop
      else if rest then
        { s.goto threadId .idle with unsent := true }.onChannel Channel.enableWrite
      else .next (s.goto threadId .idle)
  | .write drained =>
    .guard (s.pc threadId = .write) <|
      if s.unsent = false then .failed .handleWriteReadable
      else if ¬ s.channel.isWriting then .failed .handleWriteWriting
      else if drained then
        { s.goto threadId .drained with unsent := false }.onChannel Channel.disableWrite
      else .next (s.goto threadId .idle)
  -- `disableAll`; the epoller asserts that a channel it does not know has events
  | .removeChannel =>
    .guard (s.pc threadId = .closeRemove) <|
      (s.goto threadId .closeCallback).onChannel Channel.disableAll
  | .closeCallback =>
    .guard (s.pc threadId = .closeCallback) <|
      .next { s.goto threadId .idle with closeCallbacks := s.closeCallbacks + 1 }
  | .swap =>
    .guard (s.pc threadId = .idle ∧ s.phase = .dispatch none) <|
      .next { s with jobs := s.pendingJobs, pendingJobs := [], phase := .jobs }
  | .runJob =>
    match s.phase, s.jobs with
    | .jobs, r :: rs =>
      .guard (s.pc threadId = .idle) <| .next { s.goto threadId r.job with jobs := rs }
    | _, _ => .blocked
  | .endJobs =>
    .guard (s.pc threadId = .idle ∧ s.phase = .jobs ∧ s.jobs = []) <|
      .next { s with phase := .poll }

/-- An established connection, and no thread in a call. -/
def start (fd : Fd) : Threads where
  state := .kConnected
  channel := (Channel.new fd).setEvents {.epollin, .epollpri}
  unsent := false
  closeCallbacks := 0
  pc _ := .idle
  phase := .dispatch none
  pendingJobs := []
  jobs := []

/-- The runs of the threads. -/
def system (threadId : Pid) : System Threads Label Assertion where
  init s := ∃ fd, s = start fd
  step := step threadId

variable {threadId t : Pid} {s s' : Threads} {lab : Label} {pc pc' : Pc} {b : Bool}
  {state state' : ConnectionState}

@[simp] theorem goto_pc_self : (s.goto t pc).pc t = pc := by simp [Threads.goto]

theorem goto_pc_of_ne {u : Pid} (h : u ≠ t) : (s.goto t pc).pc u = s.pc u := by
  simp [Threads.goto, h]

@[simp] theorem goto_state : (s.goto t pc).state = s.state := rfl
@[simp] theorem goto_channel : (s.goto t pc).channel = s.channel := rfl
@[simp] theorem goto_closeCallbacks : (s.goto t pc).closeCallbacks = s.closeCallbacks := rfl
@[simp] theorem goto_phase : (s.goto t pc).phase = s.phase := rfl

theorem onChannel_update {f : Channel → Except Assertion (Channel × EpollCtl)} {m : Mask}
    (hf : f s.channel = Channel.update { s.channel with events := m })
    (h : s.onChannel f = .next s') : s' = { s with channel := s.channel.setEvents m } := by
  simp only [Threads.onChannel, Outcome.bind_eq_next, Outcome.ofExcept_eq_next, hf] at h
  obtain ⟨p, hp, h⟩ := h
  obtain rfl := Channel.eq_of_update hp
  cases h
  rfl

theorem sendWrite_cases {rest : Bool} (h : step threadId s (.sendWrite rest) = .next s') :
    s.pc threadId = .sendWrite ∧ (s' = s.goto threadId .idle ∨
      s' = { s.goto threadId .idle with
        unsent := true
        channel := s.channel.setEvents (s.channel.events ∪ {.epollout}) }) := by
  simp only [SharedState.step, Outcome.guard_eq_next] at h
  obtain ⟨hpc, h⟩ := h
  refine ⟨hpc, ?_⟩
  split_ifs at h
  · exact .inr (onChannel_update (m := s.channel.events ∪ {EpollEvent.epollout}) rfl h)
  · cases h
    exact .inl rfl

theorem write_cases {drained : Bool} (h : step threadId s (.write drained) = .next s') :
    s.pc threadId = .write ∧ (s' = s.goto threadId .idle ∨
      s' = { s.goto threadId .drained with
        unsent := false
        channel := s.channel.setEvents (s.channel.events \ {.epollout}) }) := by
  simp only [SharedState.step, Outcome.guard_eq_next] at h
  obtain ⟨hpc, h⟩ := h
  refine ⟨hpc, ?_⟩
  split_ifs at h
  · exact .inr (onChannel_update (m := s.channel.events \ {EpollEvent.epollout}) rfl h)
  · cases h
    exact .inl rfl

/-- Only a channel that is registered is removed. -/
theorem removeChannel_cases (h : step threadId s .removeChannel = .next s') :
    s.pc threadId = .closeRemove ∧ s.channel.polling = true ∧
      s' = { s.goto threadId .closeCallback with channel := s.channel.setEvents ∅ } := by
  simp only [SharedState.step, Outcome.guard_eq_next] at h
  obtain ⟨hpc, h⟩ := h
  refine ⟨hpc, ?_, onChannel_update rfl h⟩
  by_contra hpol
  have herr : s.channel.disableAll = .error .updateChannel :=
    Channel.update_error rfl (by simpa using hpol)
  simp [Threads.onChannel, herr] at h

/-- The other threads stay where they are. -/
theorem step_pc_of_ne {u : Pid} (h : (system threadId).step s lab = .next s')
    (hu : u ≠ lab.thread threadId) : s'.pc u = s.pc u := by
  change SharedState.step threadId s lab = .next s' at h
  cases lab with
  | access t =>
    simp only [SharedState.step, Outcome.bind_eq_next, Outcome.next.injEq] at h
    obtain ⟨⟨pc', state'⟩, -, rfl⟩ := h
    exact goto_pc_of_ne hu
  | poll revents =>
    cases revents <;> simp only [SharedState.step, Outcome.guard_eq_next, Outcome.next.injEq] at h
    all_goals
      obtain ⟨-, rfl⟩ := h
      rfl
  | push t =>
    simp only [SharedState.step] at h
    split at h <;> cases h
    exact goto_pc_of_ne hu
  | stage | runJob =>
    simp only [SharedState.step] at h
    split at h
    · simp only [Outcome.guard_eq_next, Outcome.next.injEq] at h
      obtain ⟨-, rfl⟩ := h
      exact goto_pc_of_ne hu
    · cases h
  | sendWrite rest =>
    obtain ⟨-, rfl | rfl⟩ := sendWrite_cases h <;> exact goto_pc_of_ne hu
  | write drained =>
    obtain ⟨-, rfl | rfl⟩ := write_cases h <;> exact goto_pc_of_ne hu
  | removeChannel =>
    obtain ⟨-, -, rfl⟩ := removeChannel_cases h
    exact goto_pc_of_ne hu
  | call t r | readFd eof | closeCallback =>
    simp only [SharedState.step, Outcome.guard_eq_next, Outcome.next.injEq] at h
    obtain ⟨-, rfl⟩ := h
    exact goto_pc_of_ne hu
  | swap | endJobs =>
    simp only [SharedState.step, Outcome.guard_eq_next, Outcome.next.injEq] at h
    obtain ⟨-, rfl⟩ := h
    rfl

theorem exec_pc_of_ne {u : Pid} {w : List Label} (h : (system threadId).exec s w = .next s')
    (hu : ∀ lab ∈ w, u ≠ lab.thread threadId) : s'.pc u = s.pc u := by
  have hrun := System.exec_invariant (S := system threadId)
    (K := fun w s₁ => (∀ lab ∈ w, u ≠ lab.thread threadId) → s₁.pc u = s.pc u)
    (fun _ => rfl) ?_ h
  · exact hrun hu
  · intro w lab s₁ s₂ hs hstep hw
    rw [step_pc_of_ne hstep (hw lab (by simp))]
    exact hs fun lab' h' => hw lab' (List.mem_append_left _ h')

/-! ### Without interference -/

/-- The one-step `shutdown` is its assertion and its exchange with nothing in between. -/
theorem shutdown_access {c c' : TcpConnection} {l : List Event}
    (h : c.shutdown b t = .ok (c', l)) :
    Pc.shutdownAssert.access b c.state = .next (.shutdownExchange, c.state) ∧
      ∃ pc, Pc.shutdownExchange.access b c.state = .next (pc, c'.state) := by
  obtain ⟨hd, rfl, -⟩ := TcpConnection.shutdown_cases h
  refine ⟨?_, _, rfl⟩
  cases hs : c.state <;> simp [Pc.access, hs, ConnectionState.value] at hd ⊢

/-- The one-step `forceClose` is its test and its exchange with nothing in between. -/
theorem forceClose_access {c c' : TcpConnection} {l : List Event}
    (h : c.forceClose = .ok (c', l)) :
    (c.state ≠ .kDisconnected ∧
      Pc.forceCloseTest.access b c.state = .next (.forceCloseExchange, c.state) ∧
      Pc.forceCloseExchange.access b c.state = .next (.queueInLoop .forceClose, c'.state)) ∨
    Pc.forceCloseTest.access b c.state = .next (.idle, c'.state) := by
  obtain ⟨hd, rfl, -⟩ | ⟨hd, rfl, -⟩ := TcpConnection.forceClose_cases h
  · exact .inl ⟨hd, by simp [Pc.access, hd], by simp [Pc.access, hd]⟩
  · exact .inr (by simp [Pc.access, hd])

/-- The one-step `handleClose` is its assertion and its store with nothing in between. -/
theorem handleClose_access {c c' : TcpConnection} {l : List Event}
    (h : c.handleClose = .ok (c', l)) :
    (Pc.closeConnected.access b c.state = .next (.closeStore, c.state) ∨
      Pc.closeConnected.access b c.state = .next (.closeDisconnecting, c.state) ∧
      Pc.closeDisconnecting.access b c.state = .next (.closeStore, c.state)) ∧
    Pc.closeStore.access b c.state = .next (.closeRemove, c'.state) := by
  obtain ⟨hd | hd, rfl, -⟩ := TcpConnection.handleClose_cases h <;> simp [Pc.access, hd]

/-! ### A closed connection that is shut down -/

/-- Thread 2 passes the test of `forceClose`; the peer closes, and the loop thread 1 runs
`handleClose` to its end. -/
def closingRun : List Label :=
  [.swap, .endJobs, .poll (some {.epollin}), .stage, .stage, .call 2 .forceClose, .access 2, .stage,
    .access 1, .readFd true, .access 1, .access 1, .removeChannel, .closeCallback]

/-- Thread 2 exchanges `state_`; thread 3 finds `kDisconnecting` and queues `forceCloseInLoop`,
which runs `handleClose` again. -/
def reclosingRun : List Label :=
  [.access 2, .call 3 .forceClose, .access 3, .access 3, .push 3, .stage, .swap, .runJob, .access 1,
    .access 1, .access 1, .access 1, .removeChannel]

/-- The state of a closed connection goes back to `kDisconnecting`, and the assertion of
`Epoller::updateChannel` fails where it is closed again. -/
theorem state_regresses :
    ∃ s s', (system 1).exec (start 5) closingRun = .next s ∧
      (system 1).step s (.access 2) = .next s' ∧ s'.state.value < s.state.value ∧
      (system 1).exec s reclosingRun = .failed .updateChannel := by
  have hrun : ((system 1).exec (start 5) closingRun).Leads fun s =>
      ((system 1).step s (.access 2)).Leads (fun s' => s'.state.value < s.state.value) ∧
        (system 1).exec s reclosingRun = .failed .updateChannel := by
    decide +kernel
  obtain ⟨s, hs, ⟨s', hs', hlt⟩, hfail⟩ := hrun
  exact ⟨s, s', hs, hs', hlt, hfail⟩

/-! ### Timely steps -/

/-- The thread goes on, in `shutdown` or `forceClose`, as if the connection were not closed. -/
def Pc.presumesOpen : Pc → Bool
  | .shutdownAssert | .shutdownExchange | .forceCloseExchange => true
  | _ => false

/-- `shutdown` is not called on a closed connection; and when `handleClose` stores
`kDisconnected`, no thread is in `shutdown` before the exchange or in `forceClose` between the test
and the exchange. -/
def Timely (s : Threads) : Label → Prop
  | .call _ .shutdown => s.state ≠ .kDisconnected
  | .access t => s.pc t = .closeStore → ∀ u, (s.pc u).presumesOpen = false
  | _ => True

/-- A program point of a public call. -/
def Pc.isCall : Pc → Bool
  | .idle | .send | .sendInLoop | .sendWrite | .shutdownAssert | .shutdownExchange
  | .shutdownInLoop | .forceCloseTest | .forceCloseExchange | .queueInLoop _ => true
  | _ => false

/-- What the loop thread relies on at a program point. -/
def Pc.LoopOk (pc : Pc) (state : ConnectionState) (polling : Bool) : Prop :=
  match pc with
  | .sendWrite | .readFd | .write | .closeConnected | .closeStore => state ≠ .kDisconnected
  | .closeDisconnecting => state = .kDisconnecting
  | .closeRemove => state = .kDisconnected ∧ polling = true
  | .closeCallback => state = .kDisconnected ∧ polling = false
  | _ => True

/-- The invariant of the timely runs. -/
structure Inv (threadId : Pid) (s : Threads) : Prop where
  established : s.state ≠ .kConnecting
  others : ∀ t, t ≠ threadId → (s.pc t).isCall = true
  loop : (s.pc threadId).LoopOk s.state s.channel.polling
  listed : s.channel.polling = true → .epollin ∈ s.channel.events
  opened : s.state ≠ .kDisconnected → s.channel.polling = true
  closed : s.state = .kDisconnected →
    s.channel.polling = false ∨ s.pc threadId = .closeRemove
  clear : s.state = .kDisconnected → ∀ t, (s.pc t).presumesOpen = false
  dispatch : s.phase = .dispatch (some .close) →
    s.state ≠ .kDisconnected ∧ (s.pc threadId).isCall = true

theorem Inv.start (fd : Fd) : Inv threadId (start fd) where
  established := by simp [SharedState.start]
  others _ _ := rfl
  loop := trivial
  listed _ := by simp [SharedState.start]
  opened _ := rfl
  closed h := by cases h
  clear h := by cases h
  dispatch h := by cases h

/-- What the loop thread relies on where it stands. -/
theorem Inv.loop_at (hs : Inv threadId s) (hpc : s.pc threadId = pc) :
    pc.LoopOk s.state s.channel.polling := hpc ▸ hs.loop

/-- A public call stays in the program points of the calls. -/
theorem access_isCall (hp : pc.isCall = true) (h : pc.access b state = .next (pc', state')) :
    pc'.isCall = true := by
  cases pc <;> simp only [Pc.access, Pc.isCall, Bool.false_eq_true] at h hp <;>
    (try split_ifs at h) <;> cases h <;> rfl

/-- An access leaves the state, exchanges it for `kDisconnecting`, or stores `kDisconnected`. -/
theorem access_state (h : pc.access b state = .next (pc', state')) :
    state' = state ∨
      (state' = .kDisconnecting ∧ pc.presumesOpen = true) ∨
      state' = .kDisconnected ∧ pc = .closeStore := by
  cases pc <;> simp only [Pc.access] at h <;> (try split_ifs at h) <;> cases h <;>
    simp [Pc.presumesOpen]

/-- Whoever goes on as if the connection were not closed has found it so. -/
theorem access_presumesOpen (h : pc.access b state = .next (pc', state'))
    (hp : pc'.presumesOpen = true) : state ≠ .kDisconnected ∧ state' = state := by
  cases pc <;> simp only [Pc.access] at h <;> (try split_ifs at h) <;> cases h <;>
    cases state <;> simp_all [Pc.presumesOpen, ConnectionState.value]

/-- What the loop thread relies on is established by the access before. -/
theorem access_loopOk {r : Bool} (hk : state ≠ .kConnecting)
    (hr : state ≠ .kDisconnected → r = true) (hp : pc.LoopOk state r)
    (h : pc.access b state = .next (pc', state')) : pc'.LoopOk state' r := by
  cases pc <;> simp only [Pc.access] at h <;> (try split_ifs at h) <;> cases h <;>
    cases state <;> simp_all [Pc.LoopOk]

/-- The exchange of another thread does not disturb the loop thread before the close. -/
theorem Pc.LoopOk.exchange {r : Bool} (hp : pc.LoopOk state r)
    (hd : state ≠ .kDisconnected) : pc.LoopOk .kDisconnecting r := by
  cases pc <;> simp_all [Pc.LoopOk]

theorem loopOk_call (r : Request) {b : Bool} : r.call.LoopOk state b := by
  cases r <;> trivial

theorem loopOk_job (r : Request) {b : Bool} : r.job.LoopOk state b := by
  cases r <;> trivial

theorem presumesOpen_job (r : Request) : r.job.presumesOpen = false := by cases r <;> rfl

theorem isCall_call (r : Request) : r.call.isCall = true := by cases r <;> rfl

theorem presumesOpen_enter {st : Stage} {m : Mask} : (enter st m).presumesOpen = false := by
  cases st <;> simp only [enter] <;> (try split_ifs) <;> rfl

/-- A change of the channel after which it is registered as before, and for `EPOLLIN` too. -/
structure Kept (ch ch' : Channel) : Prop where
  polling : ch'.polling = ch.polling
  epollin : .epollin ∈ ch.events → .epollin ∈ ch'.events

theorem Kept.refl (ch : Channel) : Kept ch ch := ⟨rfl, id⟩

/-- An update before the connection is closed. -/
theorem Inv.kept {m : Mask} (hs : Inv threadId s) (hd : s.state ≠ .kDisconnected)
    (hm : .epollin ∈ m) : Kept s.channel (s.channel.setEvents m) where
  polling := by
    rw [hs.opened hd]
    exact decide_eq_true (Finset.ne_empty_of_mem hm)
  epollin _ := hm

/-- The accesses, in terms of the state before. -/
theorem Inv.access_state (hs : Inv threadId s)
    (h : (s.pc t).access b s.state = .next (pc', state')) :
    state' = s.state ∨ (state' = .kDisconnecting ∧ s.state ≠ .kDisconnected) ∨
      state' = .kDisconnected ∧ s.pc t = .closeStore := by
  rcases SharedState.access_state h with h | ⟨h, hpc⟩ | h
  · exact .inl h
  · refine .inr (.inl ⟨h, fun hd => ?_⟩)
    rw [hs.clear hd t] at hpc
    cases hpc
  · exact .inr (.inr h)

/-- The accesses of another thread, which never closes the connection. -/
theorem Inv.access_state_of_ne (hs : Inv threadId s) (ht : t ≠ threadId)
    (h : (s.pc t).access b s.state = .next (pc', state')) :
    state' = s.state ∨ (state' = .kDisconnecting ∧ s.state ≠ .kDisconnected) := by
  rcases hs.access_state h with hst | hst | ⟨-, hst⟩
  · exact .inl hst
  · exact .inr hst
  · have hcall := hs.others t ht
    rw [hst] at hcall
    cases hcall

/-- Behind an access no thread presumes a closed connection open. -/
theorem Inv.access_clear (hs : Inv threadId s) (hc : Timely s (.access t))
    (h : (s.pc t).access b s.state = .next (pc', state')) (hd : state' = .kDisconnected) (u : Pid) :
    ((s.goto t pc').pc u).presumesOpen = false := by
  by_cases hut : u = t
  · subst hut
    rw [goto_pc_self]
    by_contra hp
    obtain ⟨hne, rfl⟩ := access_presumesOpen h (by simpa using hp)
    exact hne hd
  · rw [goto_pc_of_ne hut]
    rcases hs.access_state h with hst | ⟨hst, -⟩ | ⟨-, hpc⟩
    · exact hs.clear (hst ▸ hd) u
    · rw [hst] at hd
      cases hd
    · exact hc hpc u

theorem Inv.access (hs : Inv threadId s) (hc : Timely s (.access t))
    (h : (s.pc t).access (t = threadId) s.state = .next (pc', state')) :
    Inv threadId { s.goto t pc' with state := state' } := by
  have hst := hs.access_state h
  have hk : state' ≠ .kConnecting := by
    rcases hst with rfl | ⟨rfl, -⟩ | ⟨rfl, -⟩
    · exact hs.established
    · simp
    · simp
  have hopened : state' ≠ .kDisconnected → s.channel.polling = true := by
    intro hne
    rcases hst with rfl | ⟨-, hd⟩ | ⟨rfl, -⟩
    · exact hs.opened hne
    · exact hs.opened hd
    · exact absurd rfl hne
  by_cases ht : t = threadId
  · subst ht
    refine ⟨hk, fun u hu => ?_, ?_, hs.listed, hopened, fun hd => ?_, hs.access_clear hc h,
      fun hp => ?_⟩
    · change ((s.goto t pc').pc u).isCall = true
      rw [goto_pc_of_ne hu]
      exact hs.others u hu
    · simpa using access_loopOk hs.established hs.opened hs.loop h
    · simp only at hd
      rcases hst with rfl | ⟨rfl, -⟩ | ⟨rfl, hpc⟩
      · rcases hs.closed hd with hr | hr
        · exact .inl hr
        · rw [hr] at h; cases h
      · cases hd
      · rw [hpc] at h
        cases h
        exact .inr (by simp)
    · -- inside a public call the loop thread does not store `kDisconnected`
      obtain ⟨hd, hcall⟩ := hs.dispatch hp
      refine ⟨?_, by simpa using access_isCall hcall h⟩
      rcases hst with rfl | ⟨rfl, -⟩ | ⟨-, hpc⟩
      · exact hd
      · simp
      · rw [hpc] at hcall; cases hcall
  · have hcall := hs.others t ht
    have hpc : (s.goto t pc').pc threadId = s.pc threadId := goto_pc_of_ne (Ne.symm ht)
    have hst' := hs.access_state_of_ne ht h
    refine ⟨hk, fun u hu => ?_, ?_, hs.listed, hopened, fun hd => ?_, hs.access_clear hc h,
      fun hp => ?_⟩
    · change ((s.goto t pc').pc u).isCall = true
      by_cases hut : u = t
      · subst hut; simpa using access_isCall hcall h
      · rw [goto_pc_of_ne hut]; exact hs.others u hu
    · simp only [hpc]
      rcases hst' with rfl | ⟨rfl, hd⟩
      · exact hs.loop
      · exact hs.loop.exchange hd
    · simp only [hpc] at hd ⊢
      rcases hst' with rfl | ⟨rfl, -⟩
      · exact hs.closed hd
      · cases hd
    · obtain ⟨hd, hl⟩ := hs.dispatch hp
      refine ⟨?_, by simpa [hpc] using hl⟩
      rcases hst' with rfl | ⟨rfl, -⟩
      · exact hd
      · simp

/-- A move of a thread that does not touch `state_`. -/
theorem Inv.move {s₁ : Threads} {p : Pc} (hs : Inv threadId s) (hst : s₁.state = s.state)
    (hch : Kept s.channel s₁.channel) (hpc : s₁.pc = (s.goto t p).pc)
    (hopen : p.presumesOpen = true → s.state ≠ .kDisconnected)
    (hcall : t ≠ threadId → p.isCall = true)
    (hloop : t = threadId → s.pc t ≠ .closeRemove ∧ p.LoopOk s.state s.channel.polling)
    (hph : s₁.phase = .dispatch (some .close) →
      s.state ≠ .kDisconnected ∧ (s₁.pc threadId).isCall = true) : Inv threadId s₁ := by
  have hpol := hch.polling
  refine ⟨hst ▸ hs.established, fun u hu => ?_, ?_, fun hp => hch.epollin (hs.listed (hpol ▸ hp)),
    fun hd => ?_, fun hd => ?_, fun hd u => ?_, fun hp => by rw [hst]; exact hph hp⟩
  · rw [hpc]
    by_cases hut : u = t
    · subst hut; simpa using hcall hu
    · rw [goto_pc_of_ne hut]; exact hs.others u hu
  · rw [hpc, hst, hpol]
    by_cases ht : threadId = t
    · subst ht; simpa using (hloop rfl).2
    · rw [goto_pc_of_ne ht]; exact hs.loop
  · rw [hpol]
    exact hs.opened (hst ▸ hd)
  · rw [hst] at hd
    rw [hpol]
    rcases hs.closed hd with hr | hr
    · exact .inl hr
    · by_cases ht : threadId = t
      · subst ht; exact absurd hr (hloop rfl).1
      · exact .inr (by rw [hpc, goto_pc_of_ne ht]; exact hr)
  · rw [hst] at hd
    rw [hpc]
    by_cases hut : u = t
    · subst hut
      rw [goto_pc_self]
      by_contra hp
      exact hopen (by simpa using hp) hd
    · rw [goto_pc_of_ne hut]
      exact hs.clear hd u

/-- A move of a thread between the program points of the public calls. -/
theorem Inv.moveCall {s₁ : Threads} {p : Pc} (hs : Inv threadId s) (hst : s₁.state = s.state)
    (hch : Kept s.channel s₁.channel) (hpc : s₁.pc = (s.goto t p).pc) (hph : s₁.phase = s.phase)
    (hopen : p.presumesOpen = true → s.state ≠ .kDisconnected) (hcall : p.isCall = true)
    (hloop : s.pc t ≠ .closeRemove ∧ p.LoopOk s.state s.channel.polling) : Inv threadId s₁ := by
  refine hs.move hst hch hpc hopen (fun _ => hcall) (fun _ => hloop) fun hp => ?_
  obtain ⟨hd, hl⟩ := hs.dispatch (hph ▸ hp)
  refine ⟨hd, ?_⟩
  rw [hpc]
  by_cases ht : threadId = t
  · subst ht; simpa using hcall
  · rw [goto_pc_of_ne ht]; exact hl

/-- The loop thread is idle while the loop moves on. -/
theorem Inv.moveLoop {p : Phase} {m : Mask} {q js : List Request} (hs : Inv threadId s)
    (hi : s.pc threadId = .idle) (hp : p = .dispatch (some .close) → s.state ≠ .kDisconnected) :
    Inv threadId { s with
      phase := p, channel := { s.channel with revents := m }, pendingJobs := q, jobs := js } :=
  { hs with dispatch := fun h => ⟨hp h, by rw [hi]; rfl⟩ }

/-- Once the loop thread is inside a handler, the test of `EPOLLHUP` is behind it. -/
theorem Inv.phase_ne (hs : Inv threadId s) (hpc : (s.pc threadId).isCall = false) :
    s.phase ≠ .dispatch (some .close) := fun hp => by
  rw [(hs.dispatch hp).2] at hpc
  cases hpc

theorem loopOk_enter {st : Stage} {m : Mask} {r : Bool}
    (hd : st = .close → state ≠ .kDisconnected) : (enter st m).LoopOk state r := by
  cases st <;> simp only [enter] <;> (try split_ifs) <;> first | exact hd rfl | trivial

/-- The loop thread goes on in `handleClose`, behind the store of `kDisconnected`. -/
theorem Inv.moveClosed {s₁ : Threads} {p : Pc} (hs : Inv threadId s)
    (hd : s.state = .kDisconnected) (hst : s₁.state = s.state)
    (hreg : s₁.channel.polling = false) (hpc : s₁.pc = (s.goto threadId p).pc)
    (hph : s₁.phase = s.phase)
    (hp : p.presumesOpen = false) (hloop : p.LoopOk .kDisconnected false) : Inv threadId s₁ := by
  refine ⟨hst ▸ hs.established, fun u hu => ?_, ?_, fun h => absurd (hreg.symm.trans h) (by simp),
    fun hne => absurd (hst.trans hd) hne, fun _ => .inl hreg, fun _ u => ?_,
    fun hp => absurd hd (hs.dispatch (hph ▸ hp)).1⟩
  · rw [hpc, goto_pc_of_ne hu]
    exact hs.others u hu
  · rw [hpc, goto_pc_self, hst, hd, hreg]
    exact hloop
  · rw [hpc]
    by_cases hu : u = threadId
    · subst hu
      rw [goto_pc_self]
      exact hp
    · rw [goto_pc_of_ne hu]
      exact hs.clear hd u

/-- `sendInLoop` goes on only before the connection is closed. -/
theorem Inv.sendWrite_kept {rest : Bool} (hs : Inv threadId s)
    (h : SharedState.step threadId s (.sendWrite rest) = .next s') : Kept s.channel s'.channel := by
  obtain ⟨hpc, rfl | rfl⟩ := sendWrite_cases h
  · exact .refl _
  · have hd : s.state ≠ .kDisconnected := hs.loop_at hpc
    exact hs.kept hd (Finset.mem_union_left _ (hs.listed (hs.opened hd)))

theorem Inv.write_kept {drained : Bool} (hs : Inv threadId s)
    (h : SharedState.step threadId s (.write drained) = .next s') : Kept s.channel s'.channel := by
  obtain ⟨hpc, rfl | rfl⟩ := write_cases h
  · exact .refl _
  · have hd : s.state ≠ .kDisconnected := hs.loop_at hpc
    -- the channel goes on to read
    exact hs.kept hd (by simp [hs.listed (hs.opened hd)])

/-- A public call starts. -/
theorem Timely.call {r : Request} (hc : Timely s (.call t r)) (hp : r.call.presumesOpen = true) :
    s.state ≠ .kDisconnected := by
  cases r with
  | shutdown => exact hc
  | send | forceClose => cases hp

theorem Inv.step (hs : Inv threadId s) (hc : Timely s lab)
    (h : (system threadId).step s lab = .next s') : Inv threadId s' := by
  change SharedState.step threadId s lab = .next s' at h
  cases lab with
  | call t r =>
    simp only [SharedState.step, Outcome.guard_eq_next, Outcome.next.injEq] at h
    obtain ⟨⟨hi, -⟩, rfl⟩ := h
    exact hs.moveCall rfl (.refl _) rfl rfl hc.call (isCall_call r) ⟨by simp [hi], loopOk_call r⟩
  | access t =>
    simp only [SharedState.step, Outcome.bind_eq_next, Outcome.next.injEq] at h
    obtain ⟨⟨pc', state'⟩, ha, rfl⟩ := h
    exact hs.access hc ha
  | push t =>
    simp only [SharedState.step] at h
    split at h
    · cases h
      rename_i r hr
      exact hs.moveCall (t := t) (p := .idle) rfl (.refl _) rfl rfl (fun h => (by cases h)) rfl
        ⟨by simp [hr], trivial⟩
    · cases h
  | poll revents =>
    cases revents with
    | none =>
      simp only [SharedState.step, Outcome.guard_eq_next, Outcome.next.injEq] at h
      obtain ⟨⟨hi, -⟩, rfl⟩ := h
      exact hs.moveLoop hi (by simp)
    | some m =>
      simp only [SharedState.step, Outcome.guard_eq_next, Outcome.next.injEq] at h
      obtain ⟨⟨hi, -, hr, -⟩, rfl⟩ := h
      refine hs.moveLoop hi fun _ hd => ?_
      rcases hs.closed hd with h | h
      · rw [hr] at h; cases h
      · rw [hi] at h; cases h
  | stage =>
    simp only [SharedState.step] at h
    split at h
    · rename_i st hst
      simp only [Outcome.guard_eq_next, Outcome.next.injEq] at h
      obtain ⟨hi, rfl⟩ := h
      refine hs.move (t := threadId) rfl (.refl _) rfl (fun h => ?_) (fun h => absurd rfl h)
        (fun _ => ⟨by simp [hi], ?_⟩) ?_
      · rw [presumesOpen_enter] at h
        cases h
      · exact loopOk_enter fun h => by subst h; exact (hs.dispatch hst).1
      · cases st <;> simp [Stage.next]
    · cases h
  | readFd eof =>
    simp only [SharedState.step, Outcome.guard_eq_next, Outcome.next.injEq] at h
    obtain ⟨hpc, rfl⟩ := h
    have hl := hs.loop_at hpc
    refine hs.move rfl (.refl _) rfl (fun h => ?_) (fun h => absurd rfl h)
      (fun _ => ⟨by simp [hpc], ?_⟩) fun hp => absurd hp (hs.phase_ne (by rw [hpc]; rfl))
    · cases eof <;> cases h
    · cases eof
      · trivial
      · exact hl
  | sendWrite rest =>
    have hch := hs.sendWrite_kept h
    obtain ⟨hpc, rfl | rfl⟩ := sendWrite_cases h
    all_goals
      exact hs.moveCall (t := threadId) (p := .idle) rfl hch rfl rfl (fun h => (by cases h)) rfl
        ⟨by simp [hpc], trivial⟩
  | write drained =>
    have hch := hs.write_kept h
    obtain ⟨hpc, rfl | rfl⟩ := write_cases h
    all_goals
      exact hs.move (t := threadId) rfl hch rfl (fun h => (by cases h)) (fun h => absurd rfl h)
        (fun _ => ⟨by simp [hpc], trivial⟩) fun hp => absurd hp (hs.phase_ne (by rw [hpc]; rfl))
  | removeChannel =>
    obtain ⟨hpc, -, rfl⟩ := removeChannel_cases h
    have hl := hs.loop_at hpc
    exact hs.moveClosed (p := .closeCallback) hl.1 rfl rfl rfl rfl rfl ⟨rfl, rfl⟩
  | closeCallback =>
    simp only [SharedState.step, Outcome.guard_eq_next, Outcome.next.injEq] at h
    obtain ⟨hpc, rfl⟩ := h
    have hl := hs.loop_at hpc
    exact hs.moveClosed (p := .idle) hl.1 rfl hl.2 rfl rfl rfl trivial
  | swap =>
    simp only [SharedState.step, Outcome.guard_eq_next, Outcome.next.injEq] at h
    obtain ⟨⟨hi, -⟩, rfl⟩ := h
    exact hs.moveLoop hi (by simp)
  | runJob =>
    simp only [SharedState.step] at h
    split at h
    · rename_i r rs hp hj
      simp only [Outcome.guard_eq_next, Outcome.next.injEq] at h
      obtain ⟨hi, rfl⟩ := h
      refine hs.move (t := threadId) rfl (.refl _) rfl (fun h => ?_) (fun h => absurd rfl h)
        (fun _ => ⟨by simp [hi], loopOk_job r⟩) (by simp [hp])
      rw [presumesOpen_job] at h
      cases h
    · cases h
  | endJobs =>
    simp only [SharedState.step, Outcome.guard_eq_next, Outcome.next.injEq] at h
    obtain ⟨⟨hi, -⟩, rfl⟩ := h
    exact hs.moveLoop hi (by simp)

theorem Inv.of_reachable (hr : (system threadId).ReachableIf Timely s) : Inv threadId s :=
  hr.invariant (by rintro _ ⟨fd, rfl⟩; exact .start fd) fun _ _ _ hs hc h => hs.step hc h

/-- From the states of the timely runs no step lowers the state. -/
theorem Inv.state_le (hs : Inv threadId s) (h : (system threadId).step s lab = .next s') :
    s.state.value ≤ s'.state.value := by
  change SharedState.step threadId s lab = .next s' at h
  cases lab with
  | access t =>
    simp only [SharedState.step, Outcome.bind_eq_next, Outcome.next.injEq] at h
    obtain ⟨⟨pc', state'⟩, ha, rfl⟩ := h
    rcases hs.access_state ha with rfl | ⟨rfl, hd⟩ | ⟨rfl, -⟩
    · exact le_rfl
    · cases hs : s.state <;> simp [hs, ConnectionState.value] at hd ⊢
    · cases hs : s.state <;> simp [ConnectionState.value]
  | poll revents =>
    cases revents <;>
      simp only [SharedState.step, Outcome.guard_eq_next, Outcome.next.injEq] at h <;>
      simp [← h.2]
  | push t =>
    simp only [SharedState.step] at h
    split at h <;> simp at h
    simp [← h]
  | stage | runJob =>
    simp only [SharedState.step] at h
    split at h <;> simp at h
    simp [← h.2]
  | sendWrite rest => obtain ⟨-, rfl | rfl⟩ := sendWrite_cases h <;> exact le_rfl
  | write drained => obtain ⟨-, rfl | rfl⟩ := write_cases h <;> exact le_rfl
  | removeChannel =>
    obtain ⟨-, -, rfl⟩ := removeChannel_cases h
    exact le_rfl
  | _ =>
    simp only [SharedState.step, Outcome.guard_eq_next, Outcome.next.injEq] at h
    simp [← h.2]

theorem access_failed {a : Assertion} (h : pc.access b state = .failed a) :
    (pc = .shutdownAssert ∧ state = .kDisconnected) ∨ a = .handleRead ∨
      (pc = .closeDisconnecting ∧ state ≠ .kDisconnecting) := by
  cases pc <;> simp only [Pc.access] at h <;> (try split_ifs at h) <;> cases h
  · left
    cases state <;> simp_all [ConnectionState.value]
  · exact .inr (.inl rfl)
  · exact .inr (.inr ⟨rfl, ‹_›⟩)

/-- What `sendInLoop` does behind its test fails by its own assertion only. -/
theorem sendWrite_failed {a : Assertion} {rest : Bool}
    (h : SharedState.step threadId s (.sendWrite rest) = .failed a) : a = .sendInLoop := by
  simp only [SharedState.step, Outcome.guard_eq_failed] at h
  obtain ⟨-, h⟩ := h
  split_ifs at h
  · cases h
    rfl
  · simp [Threads.onChannel, Channel.enableWrite_eq] at h

theorem Inv.write_failed {a : Assertion} {drained : Bool} (hs : Inv threadId s)
    (h : SharedState.step threadId s (.write drained) = .failed a) :
    a = .handleWriteReadable ∨ a = .handleWriteWriting := by
  simp only [SharedState.step, Outcome.guard_eq_failed] at h
  obtain ⟨hpc, h⟩ := h
  have hd : s.state ≠ .kDisconnected := hs.loop_at hpc
  split_ifs at h
  · cases h
    exact .inl rfl
  · simp [Threads.onChannel, Channel.disableWrite_eq (hs.opened hd)] at h
  · cases h
    exact .inr rfl

/-- The channel is registered until `handleClose` removes it. -/
theorem Inv.removeChannel_ne_failed {a : Assertion} (hs : Inv threadId s) :
    SharedState.step threadId s .removeChannel ≠ .failed a := by
  intro h
  simp only [SharedState.step, Outcome.guard_eq_failed] at h
  obtain ⟨hpc, h⟩ := h
  simp [Threads.onChannel, Channel.disableAll_eq (hs.loop_at hpc).2] at h

/-- In the states of the timely runs the assertions on `state_` in `shutdown` and `handleClose`
hold, and that of the epoller. -/
theorem Inv.failed {a : Assertion} (hs : Inv threadId s)
    (h : (system threadId).step s lab = .failed a) :
    a ≠ .shutdown ∧ a ≠ .handleClose ∧ a ≠ .updateChannel := by
  change SharedState.step threadId s lab = .failed a at h
  cases lab with
  | access t =>
    simp only [SharedState.step, Outcome.bind_eq_failed, reduceCtorEq, and_false, exists_false,
      or_false] at h
    rcases access_failed h with ⟨hpc, hd⟩ | rfl | ⟨hpc, hd⟩
    · have hclear := hs.clear hd t
      rw [hpc] at hclear
      cases hclear
    · simp
    · by_cases ht : t = threadId
      · subst ht
        exact absurd (hs.loop_at hpc) hd
      · have hcall := hs.others t ht
        rw [hpc] at hcall
        cases hcall
  | poll revents => cases revents <;> simp [SharedState.step] at h
  | push t | stage | runJob =>
    simp only [SharedState.step] at h
    split at h <;> simp at h
  | sendWrite rest =>
    obtain rfl := sendWrite_failed h
    simp
  | write drained => obtain rfl | rfl := hs.write_failed h <;> simp
  | removeChannel => exact absurd h hs.removeChannel_ne_failed
  | call t r | readFd eof | closeCallback | swap | endJobs => simp [SharedState.step] at h

/-- In the timely runs the channel is removed before the close callback, and never again. -/
structure Once (threadId : Pid) (s : Threads) : Prop where
  registered : s.channel.polling = true → s.closeCallbacks = 0 ∧ s.pc threadId ≠ .closeCallback
  before : s.pc threadId = .closeCallback → s.closeCallbacks = 0
  le : s.closeCallbacks ≤ 1

/-- An access does not lead to the close callback. -/
theorem access_ne_closeCallback (h : pc.access b state = .next (pc', state')) :
    pc' ≠ .closeCallback := by
  cases pc <;> simp only [Pc.access] at h <;> (try split_ifs at h) <;> cases h <;> simp

theorem enter_ne_closeCallback {st : Stage} {m : Mask} : enter st m ≠ .closeCallback := by
  cases st <;> simp only [enter] <;> (try split_ifs) <;> simp

/-- A step that is neither the removal nor the callback. -/
theorem Once.of_eq (hs : Once threadId s) (hreg : s'.channel.polling = s.channel.polling)
    (hcb : s'.closeCallbacks = s.closeCallbacks)
    (hpc : s'.pc threadId = s.pc threadId ∨ s'.pc threadId ≠ .closeCallback) :
    Once threadId s' := by
  refine ⟨fun h => ?_, fun h => ?_, hcb ▸ hs.le⟩
  · rw [hreg] at h
    obtain ⟨hz, hne⟩ := hs.registered h
    refine ⟨hcb.trans hz, ?_⟩
    obtain hpc | hpc := hpc
    · rw [hpc]
      exact hne
    · exact hpc
  · obtain hpc | hpc := hpc
    · rw [hpc] at h
      exact hcb.trans (hs.before h)
    · exact absurd h hpc

/-- Thread `t` moves. -/
theorem Once.move {s₁ : Threads} {p : Pc} (hs : Once threadId s)
    (hreg : s₁.channel.polling = s.channel.polling) (hcb : s₁.closeCallbacks = s.closeCallbacks)
    (hpc : s₁.pc = (s.goto t p).pc) (hp : p ≠ .closeCallback) : Once threadId s₁ := by
  refine hs.of_eq hreg hcb ?_
  rw [hpc]
  by_cases ht : threadId = t
  · subst ht
    exact .inr (by simpa using hp)
  · exact .inl (goto_pc_of_ne ht)

theorem Once.step (hi : Inv threadId s) (hs : Once threadId s)
    (h : (system threadId).step s lab = .next s') : Once threadId s' := by
  change SharedState.step threadId s lab = .next s' at h
  cases lab with
  | call t r =>
    simp only [SharedState.step, Outcome.guard_eq_next, Outcome.next.injEq] at h
    obtain ⟨-, rfl⟩ := h
    exact hs.move rfl rfl rfl (by cases r <;> simp [Request.call])
  | access t =>
    simp only [SharedState.step, Outcome.bind_eq_next, Outcome.next.injEq] at h
    obtain ⟨⟨pc', state'⟩, ha, rfl⟩ := h
    exact hs.move (t := t) rfl rfl rfl (access_ne_closeCallback ha)
  | push t =>
    simp only [SharedState.step] at h
    split at h <;> cases h
    exact hs.move (t := t) rfl rfl rfl (by simp)
  | poll revents =>
    cases revents <;> simp only [SharedState.step, Outcome.guard_eq_next, Outcome.next.injEq] at h
    all_goals
      obtain ⟨-, rfl⟩ := h
      exact hs.of_eq rfl rfl (.inl rfl)
  | stage =>
    simp only [SharedState.step] at h
    split at h
    · simp only [Outcome.guard_eq_next, Outcome.next.injEq] at h
      obtain ⟨-, rfl⟩ := h
      exact hs.move (t := threadId) rfl rfl rfl enter_ne_closeCallback
    · cases h
  | runJob =>
    simp only [SharedState.step] at h
    split at h
    · rename_i r rs hp hj
      simp only [Outcome.guard_eq_next, Outcome.next.injEq] at h
      obtain ⟨-, rfl⟩ := h
      exact hs.move (t := threadId) rfl rfl rfl (by cases r <;> simp [Request.job])
    · cases h
  | readFd eof =>
    simp only [SharedState.step, Outcome.guard_eq_next, Outcome.next.injEq] at h
    obtain ⟨-, rfl⟩ := h
    exact hs.move rfl rfl rfl (by cases eof <;> simp)
  | sendWrite rest =>
    have hch := hi.sendWrite_kept h
    obtain ⟨-, rfl | rfl⟩ := sendWrite_cases h <;>
      exact hs.move (t := threadId) (p := .idle) hch.polling rfl rfl (by simp)
  | write drained =>
    have hch := hi.write_kept h
    obtain ⟨-, rfl | rfl⟩ := write_cases h
    · exact hs.move (t := threadId) (p := .idle) hch.polling rfl rfl (by simp)
    · exact hs.move (t := threadId) (p := .drained) hch.polling rfl rfl (by simp)
  | removeChannel =>
    obtain ⟨-, hr, rfl⟩ := removeChannel_cases h
    have hz := (hs.registered hr).1
    exact ⟨fun h => (by simp at h), fun _ => hz, hs.le⟩
  | closeCallback =>
    simp only [SharedState.step, Outcome.guard_eq_next, Outcome.next.injEq] at h
    obtain ⟨hpc, rfl⟩ := h
    have hz := hs.before hpc
    refine ⟨fun h => absurd hpc (hs.registered h).2, fun h => ?_, by simp [hz]⟩
    simp at h
  | swap | endJobs =>
    simp only [SharedState.step, Outcome.guard_eq_next, Outcome.next.injEq] at h
    obtain ⟨-, rfl⟩ := h
    exact hs.of_eq rfl rfl (.inl rfl)

theorem Once.of_reachable (hr : (system threadId).ReachableIf Timely s) : Once threadId s := by
  refine hr.invariant_of (fun _ hr => Inv.of_reachable hr) ?_ fun _ _ _ hi hs _ h => hs.step hi h
  rintro _ ⟨fd, rfl⟩
  exact ⟨fun _ => ⟨rfl, by simp [SharedState.start]⟩, fun _ => rfl, Nat.zero_le _⟩

/-- **The state is monotone.**  In every timely run the state never decreases, `closeCallback_` is
invoked at most once, and no step fails by the assertion of `shutdown` or of `handleClose`, nor by
that of the epoller where `handleClose` removes the channel. -/
theorem state_monotone (hr : (system threadId).ReachableIf Timely s)
    (hrun : (system threadId).RunIf Timely s s') :
    s.state.value ≤ s'.state.value ∧ s'.closeCallbacks ≤ 1 ∧
      ∀ lab a, (system threadId).step s' lab = .failed a →
        a ≠ .shutdown ∧ a ≠ .handleClose ∧ a ≠ .updateChannel := by
  have hr' := hr.run hrun
  refine ⟨?_, (Once.of_reachable hr').le, fun lab a h => (Inv.of_reachable hr').failed h⟩
  exact System.RunIf.monotone (I := Inv threadId) (f := fun s => s.state.value)
    (fun _ _ _ hs hc h => hs.step hc h) (fun _ _ _ hs _ h => hs.state_le h) (.of_reachable hr)
    hrun

/-- A step that is timely wherever the other threads stand. -/
def Plain (s : Threads) : Label → Prop
  | .call _ .shutdown => s.state ≠ .kDisconnected
  | .access t => s.pc t ≠ .closeStore
  | _ => True

instance (s : Threads) : DecidablePred (Plain s) := fun lab =>
  match lab with
  | .call _ .shutdown => inferInstanceAs (Decidable (s.state ≠ _))
  | .access t => inferInstanceAs (Decidable (s.pc t ≠ _))
  | .call _ .send | .call _ .forceClose | .push _ | .poll _ | .stage | .readFd _ | .sendWrite _
  | .write _ | .removeChannel | .closeCallback | .swap | .runJob | .endJobs => isTrue trivial

theorem Plain.timely (h : Plain s lab) : Timely s lab := by
  cases lab with
  | call t r => cases r <;> exact h
  | access t => exact fun hp => absurd hp h
  | _ => trivial

/-- Thread 2 calls `forceClose` while thread 3 is in `shutdown`, both before the exchange; the
connection is closed once. -/
theorem state_monotone_forceClose :
    ∃ s, (system 1).RunIf Timely (start 5) s ∧ s.closeCallbacks = 1 ∧
      (start 5).state.value ≤ s.state.value := by
  let w : List Label := [.call 2 .forceClose, .access 2, .call 3 .shutdown, .access 3, .access 2,
    .access 3, .push 2, .swap, .runJob, .access 1, .access 1, .access 1]
  obtain ⟨s₁, h₁, ⟨hp1, hp2, hp3⟩, s₂, h₂, s, h, hc⟩ :
      ((system 1).execIf Plain (start 5) w).Leads fun s₁ =>
        (s₁.pc 1 = .closeStore ∧ s₁.pc 2 = .idle ∧ s₁.pc 3 = .idle) ∧
          ((system 1).step s₁ (.access 1)).Leads fun s₂ =>
            ((system 1).execIf Plain s₂ [.removeChannel, .closeCallback]).Leads fun s =>
              s.closeCallbacks = 1 := by
    decide +kernel
  -- nobody is between a look at `state_` and the exchange at the store of `kDisconnected`
  have hstore : Timely s₁ (.access 1) := by
    intro _ u
    by_cases hu1 : u = 1
    · subst hu1; rw [hp1]; rfl
    by_cases hu2 : u = 2
    · subst hu2; rw [hp2]; rfl
    by_cases hu3 : u = 3
    · subst hu3; rw [hp3]; rfl
    have hu : s₁.pc u = (start 5).pc u := exec_pc_of_ne (System.exec_of_execIf h₁) (by
      simp [w, Label.thread, hu1, hu2, hu3])
    rw [hu]
    rfl
  have hrun : (system 1).RunIf Timely (start 5) s :=
    (((System.runIf_of_execIf h₁).mono fun _ _ => Plain.timely).tail ⟨_, hstore, h₂⟩).trans
      ((System.runIf_of_execIf h).mono fun _ _ => Plain.timely)
  exact ⟨s, hrun, hc, (state_monotone (.of_init ⟨5, rfl⟩) hrun).1⟩

end SharedState
end Leven
