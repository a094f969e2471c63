import Leven.Transition.System
import Leven.Container.RefHeap
import Leven.TcpConnection.Callbacks

/-!
# TcpServer

A `TcpServer` on the loop of thread `threadId`, with the connections it accepts, the closures they
put into `pendingJobs_`, and the users.  Each stage of a dispatch, each closure and each call by a
user is one step; a callback is what happens between the step that calls it and the step `ret`, and
meanwhile the loop thread keeps the references of the functions it is in.

* `Closure`, `Frame`, `ServerPc`: a queued closure, a callback that is running, and where the loop
  thread is, up to the destruction of the server and of the loop;
* `Owned`: who keeps a connection alive; `release`: what happens when owners have gone;
* `newConnection`, `closeConnection`, `perform`: the server, and a member function of a connection;
* `step`, `system`, and the inversions `Step.of_step` and `Failure.of_step`.

A connection is known by the number of connections accepted before it.  How many references the
users keep to a connection is a count; they may copy one that they have or are handed, and drop it,
at any time and in any thread.  The list `callbacks` only records what has happened.
-/

namespace Leven

open Transition Container

/-- The closure holds a `shared_ptr` to its connection. -/
def Job.owns : Job → Bool
  | .stopRead | .startRead => false
  | _ => true

/-- A closure that a connection has put into `pendingJobs_`. -/
structure Closure where
  conn : ℕ
  job : Job
  deriving DecidableEq

/-- A channel of `activeChnls_`. -/
inductive Active
  | acceptor
  | channel (c : ℕ)
  deriving DecidableEq

/-- What `epoll_wait` reports. -/
inductive Ready
  | acceptor
  | channel (c : ℕ) (revents : Mask)
  deriving DecidableEq

def Ready.active : Ready → Active
  | .acceptor => .acceptor
  | .channel c _ => .channel c

/-- A callback that the loop thread runs. -/
inductive Frame
  /-- `connectionCallback_`, called by `newConnection`, which has the connection in `conn` -/
  | up (c : ℕ)
  /-- `messageCallback_`, called by `handleRead` with a temporary -/
  | message (c : ℕ)
  /-- `connectionCallback_`, called by `closeConnection`; the temporary is that of `handleClose` -/
  | down (c : ℕ)
  /-- a write-complete or high-water-mark callback, with the reference of its closure -/
  | job (c : ℕ)
  /-- a handler or a job of the user, or what the thread does behind `loop()` -/
  | other
  deriving DecidableEq

/-- The connection that the callback is called with. -/
def Frame.conn : Frame → Option ℕ
  | .up c | .message c | .down c | .job c => some c
  | .other => none

/-- Where the loop thread is. -/
inductive ServerPc
  /-- before `epoll_wait` -/
  | polling
  /-- at the head of the loop over `activeChnls_`, with its rest -/
  | dispatching (rest : List Active)
  /-- in `handleEventsWithGuard`, before a stage other than the first -/
  | handling (c : ℕ) (stage : Stage) (rest : List Active)
  /-- in `doPendingJobs` -/
  | running
  /-- behind `loop()` -/
  | left
  /-- behind `~TcpServer` -/
  | serverGone
  /-- behind `~EventLoop` -/
  | loopGone
  deriving DecidableEq

namespace ServerPc

/-- The stage that comes next, with its channel and the channels behind it. -/
def stage : ServerPc → Option (ℕ × Stage × List Active)
  | .dispatching (.channel c :: rest) => some (c, .close, rest)
  | .handling c st rest => some (c, st, rest)
  | _ => none

/-- Behind the stage `st` of the dispatch of `c`. -/
def behind (c : ℕ) (st : Stage) (rest : List Active) : ServerPc :=
  match st.next with
  | some st' => .handling c st' rest
  | none => .dispatching rest

/-- The channels that are being dispatched or wait in `activeChnls_`. -/
def active : ServerPc → List Active
  | .dispatching rest => rest
  | .handling c _ rest => .channel c :: rest
  | _ => []

/-- The server exists. -/
def hasServer : ServerPc → Bool
  | .serverGone | .loopGone => false
  | _ => true

theorem hasServer_of_stage {pc : ServerPc} {x : ℕ × Stage × List Active}
    (h : pc.stage = some x) : pc.hasServer = true := by
  unfold stage at h
  split at h
  · rfl
  · rfl
  · cases h

theorem hasServer_behind {c : ℕ} {st : Stage} {rest : List Active} :
    (behind c st rest).hasServer = true := by
  unfold behind
  split <;> rfl

/-- Handlers and jobs of the user run here. -/
def runsOthers : ServerPc → Bool
  | .dispatching _ | .running | .left | .serverGone => true
  | _ => false

end ServerPc

/-- The errors of `accept4` that the code tells apart. -/
inductive AcceptError
  | econnaborted
  | emfile
  | other
  deriving DecidableEq

/-- The answer of `accept4`. -/
inductive AcceptResult
  | accepted (fd : Fd)
  | error (e : AcceptError)
  deriving DecidableEq

/-- The server, its loop and its connections. -/
structure TcpServer where
  conns : RefHeap ℕ TcpConnection
  /-- how many connections have been made -/
  created : ℕ
  connections : Finset ℕ
  /-- how many references the users have -/
  refs : ℕ → ℕ
  pendingJobs : List Closure
  /-- the rest of the batch of `doPendingJobs` -/
  jobs : List Closure
  /-- the closures of the batch that have run; they go with the batch -/
  done : List Closure
  interest : Interest
  pc : ServerPc
  frame : Option Frame
  /-- `writeCompleteCallback_` is set -/
  writeCompleteCallback : Bool
  /-- how many calls the users have made -/
  calls : ℕ
  /-- the calls of `connectionCallback_`, with the state of the connection -/
  callbacks : List (ℕ × ConnectionState)

namespace TcpServer

/-- The steps. -/
inductive Label
  /-- `epoll_wait` returns -/
  | poll (ready : List Ready)
  /-- the dispatch of the acceptor: `Acceptor::handleRead`, if the mask asks for it -/
  | accept (r : Option AcceptResult)
  /-- the next stage of the dispatch -/
  | handle (r : ReadResult) (w : WriteResult)
  /-- a handler or a job of the user is called -/
  | other
  /-- the callback returns -/
  | ret
  /-- `jobs.swap(pendingJobs_)` -/
  | swap
  /-- the next closure of the batch -/
  | runJob (w : WriteResult)
  /-- the end of `doPendingJobs` -/
  | endJobs
  /-- thread `t` makes a call -/
  | call (t : Pid) (c : ℕ) (op : Op)
  /-- a user copies a reference -/
  | keep (c : ℕ)
  /-- a user drops a reference -/
  | drop (c : ℕ)
  /-- the loop finds `quit_` set -/
  | leave
  /-- `~TcpServer` -/
  | destroyServer
  /-- `~EventLoop` -/
  | destroyLoop
  deriving DecidableEq

/-! ### Owners -/

/-- A closure of the list holds a reference to the connection. -/
def Holds (l : List Closure) (c : ℕ) : Prop := ∃ j ∈ l, j.conn = c ∧ j.job.owns = true

instance (l : List Closure) (c : ℕ) : Decidable (Holds l c) :=
  inferInstanceAs (Decidable (∃ j ∈ l, _))

/-- A function that the loop thread is in holds a reference to the connection. -/
def InFrame (s : TcpServer) (c : ℕ) : Prop := ∃ f ∈ s.frame, f.conn = some c

instance (s : TcpServer) (c : ℕ) : Decidable (s.InFrame c) :=
  decidable_of_iff (s.frame.bind Frame.conn = some c) (by simp [InFrame, Option.bind_eq_some_iff])

/-- Somebody holds a reference to the connection: the server, a user, a closure or a function. -/
def Owned (s : TcpServer) (c : ℕ) : Prop :=
  c ∈ s.connections ∨ 0 < s.refs c ∨ Holds (s.pendingJobs ++ s.jobs ++ s.done) c ∨ s.InFrame c

instance (s : TcpServer) (c : ℕ) : Decidable (s.Owned c) :=
  inferInstanceAs (Decidable (_ ∨ _ ∨ _ ∨ _))

/-- `TcpConnection::~TcpConnection`, and `Channel::~Channel` behind it. -/
def destructor (conn : TcpConnection) : Except Fault Unit :=
  if conn.state ≠ .kDisconnected then .error (.assertion .connectionDtor)
  else if conn.channel.handlingEvents then .error (.assertion .channelDtor)
  else .ok ()

/-- A call of `epoll_ctl` on the descriptor `-1` changes nothing. -/
def ctlAll (fd : Fd) (l : List Event) (k : Interest) : Interest :=
  if fd < 0 then k else interestAfter k l

/-- `::close` takes the descriptors of the destroyed connections out of the interest list. -/
def closeAll (h h' : RefHeap ℕ TcpConnection) : List ℕ → Interest → Interest
  | [], k => k
  | c :: cs, k =>
    match h c, h' c with
    | .live conn, .destroyed => closeAll h h' cs (Function.update k conn.channel.fd none)
    | _, _ => closeAll h h' cs k

/-- References to the connections of the list have gone. -/
def release (cs : List ℕ) (s : TcpServer) : Outcome Fault TcpServer :=
  (Outcome.ofExcept (RefHeap.releaseAll s.Owned destructor cs s.conns)).bind fun conns =>
    .next { s with conns := conns, interest := closeAll s.conns conns cs s.interest }

/-! ### The server and its connections -/

/-- The connection `c` has become `conn`, with the events `l`. -/
def apply (c : ℕ) (conn : TcpConnection) (l : List Event) (s : TcpServer) : TcpServer :=
  { s with
    conns := Function.update s.conns c (.live conn)
    interest := ctlAll conn.channel.fd l s.interest
    pendingJobs := s.pendingJobs ++ (queued l).map (Closure.mk c) }

/-- `connectionCallback_(conn)`. -/
def connectionCallback (f : Frame) (c : ℕ) (state : ConnectionState) (s : TcpServer) : TcpServer :=
  { s with frame := some f, callbacks := s.callbacks ++ [(c, state)] }

/-- The new connection is in `connections_`. -/
def inserted (s : TcpServer) : TcpServer :=
  { s with created := s.created + 1, connections := insert s.created s.connections }

/-- The connection has been established, and `connectionCallback_` is called. -/
def announced (conn : TcpConnection) (l : List Event) (s : TcpServer) : TcpServer :=
  (s.inserted.apply s.created conn l).connectionCallback (.up s.created) s.created conn.state

def newConnection (fd : Fd) (s : TcpServer) : Outcome Fault TcpServer :=
  let conn := TcpConnection.new fd s.writeCompleteCallback false 0
  ((Outcome.ofExcept conn.connectEstablished).mapFailed Fault.assertion).bind fun (conn, l) =>
    .next (s.announced conn l)

def closeConnection (c : ℕ) (state : ConnectionState) (s : TcpServer) : Outcome Fault TcpServer :=
  if c ∈ s.connections then
    .next ({ s with connections := s.connections.erase c }.connectionCallback (.down c) c state)
  else .failed (.assertion .closeConnection)

/-- `Acceptor::handleRead` hands a failed `accept4` that it tolerates to `newConnection`, with the
descriptor `-1`. -/
def acceptorHandleRead (r : AcceptResult) (s : TcpServer) : Outcome Fault TcpServer :=
  match r with
  | .accepted fd => s.newConnection fd
  | .error .econnaborted | .error .emfile => s.newConnection (-1)
  | .error .other => .failed .fatal

/-- The callback that the events of a member function call for, at its end. -/
def enterCallback (c : ℕ) (state : ConnectionState) (l : List Event) (s : TcpServer) :
    Outcome Fault TcpServer :=
  if .closeCallback ∈ l then s.closeConnection c state
  else if .messageCallback ∈ l then .next { s with frame := some (.message c) }
  else if ∃ e ∈ l, e.isCallback = true then .next { s with frame := some (.job c) }
  else .next s

/-- A member function of the connection `c`. -/
def perform (c : ℕ) (f : TcpConnection → TcpConnection.Result) (s : TcpServer) :
    Outcome Fault TcpServer :=
  match s.conns c with
  | .live conn =>
    ((Outcome.ofExcept (f conn)).mapFailed Fault.assertion).bind fun (conn', l) =>
      (s.apply c conn' l).enterCallback c conn'.state l
  | _ => .failed .destroyed

/-! ### The system -/

/-- `Epoller::Poll` stores the masks in the channels. -/
def setRevents : List Ready → RefHeap ℕ TcpConnection → RefHeap ℕ TcpConnection
  | [], h => h
  | .acceptor :: rs, h => setRevents rs h
  | .channel c m :: rs, h =>
    match h c with
    | .live conn => setRevents rs <|
        Function.update h c (.live { conn with channel := { conn.channel with revents := m } })
    | _ => setRevents rs h

/-- What `epoll_wait` may report. -/
def CanReport (s : TcpServer) : Ready → Prop
  | .acceptor => True
  | .channel c m =>
    match s.conns c with
    | .live conn => Reportable (s.interest conn.channel.fd) m
    | _ => False

instance (s : TcpServer) (r : Ready) : Decidable (s.CanReport r) :=
  match r with
  | .acceptor => isTrue trivial
  | .channel c m =>
    match h : s.conns c with
    | .live conn =>
      decidable_of_iff (Reportable (s.interest conn.channel.fd) m) (by simp [CanReport, h])
    | .free | .destroyed => isFalse (by simp [CanReport, h])

/-- The connection `c` has the descriptor. -/
def hasFd (s : TcpServer) (fd : Fd) (c : ℕ) : Bool :=
  match s.conns c with
  | .live conn => conn.channel.fd = fd
  | _ => false

/-- What `accept4` may answer: a descriptor that is not in use. -/
def CanAccept (s : TcpServer) : AcceptResult → Prop
  | .accepted fd => 0 ≤ fd ∧ ∀ c < s.created, s.hasFd fd c = false
  | .error _ => True

instance (s : TcpServer) (r : AcceptResult) : Decidable (s.CanAccept r) :=
  match r with
  | .accepted fd =>
    inferInstanceAs (Decidable (0 ≤ fd ∧ ∀ c < s.created, s.hasFd fd c = false))
  | .error _ => isTrue trivial

/-- Thread `t` may call the connection: it holds a reference, of its own or from the callback that
it runs, and the loop thread runs user code. -/
def MayCall (threadId t : Pid) (c : ℕ) (s : TcpServer) : Prop :=
  s.pc ≠ .loopGone ∧ (t = threadId → s.frame.isSome = true) ∧
    (0 < s.refs c ∨ t = threadId ∧ s.InFrame c)

instance (threadId t : Pid) (c : ℕ) (s : TcpServer) : Decidable (s.MayCall threadId t c) :=
  inferInstanceAs (Decidable (_ ∧ (t = threadId → _) ∧ _))

/-- A reference to copy is with a user or in the callback that runs. -/
def MayKeep (c : ℕ) (s : TcpServer) : Prop := 0 < s.refs c ∨ s.InFrame c

instance (c : ℕ) (s : TcpServer) : Decidable (s.MayKeep c) :=
  inferInstanceAs (Decidable (_ ∨ _))

/-- The step function.  The loop thread goes on when it is in no callback. -/
def step (threadId : Pid) (s : TcpServer) : Label → Outcome Fault TcpServer
  | .poll ready =>
    .guard (s.pc = .polling ∧ (ready.map Ready.active).Nodup ∧ ∀ r ∈ ready, s.CanReport r) <|
      .next { s with
        conns := setRevents ready s.conns
        pc := .dispatching (ready.map Ready.active) }
  | .accept r =>
    match s.pc with
    | .dispatching (.acceptor :: rest) =>
      .guard (s.frame = none ∧ ∀ a ∈ r, s.CanAccept a) <|
        match r with
        | some a => { s with pc := .dispatching rest }.acceptorHandleRead a
        -- no bit of the mask calls for `handleRead`
        | none => .next { s with pc := .dispatching rest }
    | _ => .blocked
  | .handle r w =>
    match s.pc.stage with
    | some (c, st, rest) =>
      .guard (s.frame = none) <|
        -- the poll round reaches the channel by a raw pointer, whether it is alive or not
        { s with pc := .behind c st rest }.perform c fun conn => conn.handleStage st r w
    | none => .blocked
  | .other =>
    .guard (s.frame = none ∧ s.pc.runsOthers = true) <| .next { s with frame := some .other }
  | .ret =>
    match s.frame with
    -- the `shared_ptr` on the frame of the callback goes with it
    | some f => { s with frame := none }.release f.conn.toList
    | none => .blocked
  | .swap =>
    .guard (s.frame = none ∧ s.pc = .dispatching []) <|
      .next { s with jobs := s.pendingJobs, pendingJobs := [], pc := .running }
  | .runJob w =>
    match s.jobs with
    | j :: js =>
      .guard (s.frame = none ∧ s.pc = .running) <|
        { s with jobs := js, done := s.done ++ [j] }.perform j.conn fun conn => conn.runJob j.job w
    | [] => .blocked
  | .endJobs =>
    .guard (s.frame = none ∧ s.pc = .running ∧ s.jobs = []) <|
      -- the local vector of `doPendingJobs` is destroyed with its closures
      { s with done := [], pc := .polling }.release (s.done.map Closure.conn)
  | .call t c op =>
    .guard (s.MayCall threadId t c) <|
      { s with calls := s.calls + 1 }.perform c fun conn =>
        conn.call (t = threadId) t s.calls op
  | .keep c =>
    .guard (s.MayKeep c) <| .next { s with refs := Function.update s.refs c (s.refs c + 1) }
  | .drop c =>
    .guard (0 < s.refs c) <|
      { s with refs := Function.update s.refs c (s.refs c - 1) }.release [c]
  | .leave => .guard (s.frame = none ∧ s.pc = .polling) <| .next { s with pc := .left }
  | .destroyServer =>
    .guard (s.frame = none ∧ s.pc = .left) <|
      -- the set lets its connections go, open or not
      { s with connections := ∅, pc := .serverGone }.release
        ((List.range s.created).filter (· ∈ s.connections))
  | .destroyLoop =>
    .guard (s.frame = none ∧ s.pc = .serverGone) <|
      -- closures that have not been run are destroyed with the loop
      { s with pendingJobs := [], pc := .loopGone }.release (s.pendingJobs.map Closure.conn)

/-- A new server, with a write-complete callback or without, on a loop that has not started.  The
interest list is that of the connections: the descriptors of the acceptor, of `wakeupfd_` and of
`timerfd_` have no entries. -/
def new (writeCompleteCallback : Bool) : TcpServer where
  conns _ := .free
  created := 0
  connections := ∅
  refs _ := 0
  pendingJobs := []
  jobs := []
  done := []
  interest _ := none
  pc := .polling
  frame := none
  writeCompleteCallback := writeCompleteCallback
  calls := 0
  callbacks := []

/-- The server on the loop of thread `threadId`. -/
def system (threadId : Pid) : System TcpServer Label Fault where
  init s := ∃ writeCompleteCallback, s = new writeCompleteCallback
  step := step threadId

variable {threadId t : Pid} {s s' : TcpServer} {lab : Label} {c : ℕ} {cs : List ℕ} {fd : Fd}
  {conn : TcpConnection} {l : List Event} {state : ConnectionState} {r : AcceptResult}
  {f : TcpConnection → TcpConnection.Result}

/-! ### What the operations answer -/

/-- References to the connections of the list have gone, and the connections that nobody owns any
more with them. -/
inductive Released (s : TcpServer) (cs : List ℕ) : TcpServer → Prop
  | intro {conns : RefHeap ℕ TcpConnection} {k : Interest}
      (h : RefHeap.Collected s.Owned destructor cs s.conns conns) :
      Released s cs { s with conns := conns, interest := k }

/-- The callback at the end of a member function. -/
inductive Entered (s : TcpServer) (c : ℕ) (state : ConnectionState) (l : List Event) :
    TcpServer → Prop
  | close (hl : .closeCallback ∈ l) (hc : c ∈ s.connections) :
      Entered s c state l
        ({ s with connections := s.connections.erase c }.connectionCallback (.down c) c state)
  | frame {f : Frame} (hl : .closeCallback ∉ l) (hf : f.conn = some c)
      (he : ∃ e ∈ l, e.isCallback = true) : Entered s c state l { s with frame := some f }
  | none (hl : .closeCallback ∉ l) : Entered s c state l s

/-- A member function has run. -/
inductive Performed (s : TcpServer) (c : ℕ) (f : TcpConnection → TcpConnection.Result) :
    TcpServer → Prop
  | intro {conn conn' : TcpConnection} {l : List Event} {s' : TcpServer}
      (hl : s.conns c = .live conn) (h : f conn = .ok (conn', l))
      (he : Entered (s.apply c conn' l) c conn'.state l s') : Performed s c f s'

theorem Released.of_release (h : s.release cs = .next s') : Released s cs s' := by
  simp only [release, Outcome.bind_eq_next, Outcome.ofExcept_eq_next, Outcome.next.injEq] at h
  obtain ⟨conns, h, rfl⟩ := h
  exact .intro (RefHeap.collected_of_releaseAll h)

theorem Entered.of_enterCallback (h : s.enterCallback c state l = .next s') :
    Entered s c state l s' := by
  unfold enterCallback closeConnection at h
  split_ifs at h with hl hc hm he
  · cases h; exact .close hl hc
  · cases h; exact .frame hl rfl ⟨_, hm, rfl⟩
  · cases h; exact .frame hl rfl he
  · cases h; exact .none hl

theorem Performed.of_perform (h : s.perform c f = .next s') : Performed s c f s' := by
  unfold perform at h
  split at h
  · simp only [Outcome.bind_eq_next, Outcome.mapFailed_eq_next, Outcome.ofExcept_eq_next] at h
    obtain ⟨⟨conn', l⟩, hf, he⟩ := h
    exact .intro ‹_› hf (.of_enterCallback he)
  · cases h

/-- A failed `accept4` makes a connection too. -/
theorem acceptorHandleRead_cases (h : s.acceptorHandleRead r = .next s') :
    ∃ fd conn l, (r = .accepted fd ∨ fd = -1 ∧ ∃ e, r = .error e) ∧
      (TcpConnection.new fd s.writeCompleteCallback false 0).connectEstablished = .ok (conn, l) ∧
      s' = s.announced conn l := by
  have hnew : ∀ fd, s.newConnection fd = .next s' → ∃ conn l,
      (TcpConnection.new fd s.writeCompleteCallback false 0).connectEstablished = .ok (conn, l) ∧
        s' = s.announced conn l := by
    intro fd h
    simp only [newConnection, Outcome.bind_eq_next, Outcome.mapFailed_eq_next,
      Outcome.ofExcept_eq_next, Outcome.next.injEq] at h
    obtain ⟨⟨conn, l⟩, hc, rfl⟩ := h
    exact ⟨conn, l, hc, rfl⟩
  unfold acceptorHandleRead at h
  split at h
  · obtain ⟨conn, l, hc, rfl⟩ := hnew _ h
    exact ⟨_, conn, l, .inl rfl, hc, rfl⟩
  · obtain ⟨conn, l, hc, rfl⟩ := hnew _ h
    exact ⟨-1, conn, l, .inr ⟨rfl, _, rfl⟩, hc, rfl⟩
  · obtain ⟨conn, l, hc, rfl⟩ := hnew _ h
    exact ⟨-1, conn, l, .inr ⟨rfl, _, rfl⟩, hc, rfl⟩
  · cases h

theorem release_failed {e : Fault} (h : s.release cs = .failed e) :
    ∃ c ∈ cs, ¬ s.Owned c ∧ ∃ conn, s.conns c = .live conn ∧ destructor conn = .error e := by
  simp only [release, Outcome.bind_eq_failed, Outcome.ofExcept_eq_failed, reduceCtorEq, and_false,
    exists_false, or_false] at h
  exact RefHeap.exists_of_releaseAll_error h

theorem perform_failed {e : Fault} (h : s.perform c f = .failed e) :
    (∀ conn, s.conns c ≠ .live conn) ∧ e = .destroyed ∨
    (∃ conn a, s.conns c = .live conn ∧ f conn = .error a ∧ e = .assertion a) ∨
    ∃ conn conn' l, s.conns c = .live conn ∧ f conn = .ok (conn', l) ∧ .closeCallback ∈ l ∧
      c ∉ s.connections ∧ e = .assertion .closeConnection := by
  unfold perform at h
  split at h
  · next conn hl =>
    simp only [Outcome.bind_eq_failed, Outcome.mapFailed_eq_failed, Outcome.mapFailed_eq_next,
      Outcome.ofExcept_eq_failed, Outcome.ofExcept_eq_next] at h
    rcases h with ⟨a, he, rfl⟩ | ⟨⟨conn', l⟩, hok, h⟩
    · exact .inr (.inl ⟨conn, a, hl, he, rfl⟩)
    · unfold enterCallback closeConnection at h
      split_ifs at h with hcl hc
      cases h
      exact .inr (.inr ⟨conn, conn', l, hl, hok, hcl, hc, rfl⟩)
  · next hn =>
    cases h
    exact .inl ⟨hn, rfl⟩

theorem acceptorHandleRead_failed {e : Fault} (h : s.acceptorHandleRead r = .failed e) :
    e = .fatal ∨ ∃ a, e = .assertion a ∧ a.ofConnection = true := by
  have hnew : ∀ fd, s.newConnection fd = .failed e →
      ∃ a, e = .assertion a ∧ a.ofConnection = true := by
    intro fd h
    simp only [newConnection, Outcome.bind_eq_failed, Outcome.mapFailed_eq_failed,
      Outcome.ofExcept_eq_failed, reduceCtorEq, and_false, exists_false, or_false] at h
    obtain ⟨a, ha, rfl⟩ := h
    exact ⟨a, rfl, TcpConnection.connectEstablished_ofConnection ha⟩
  unfold acceptorHandleRead at h
  split at h
  · exact .inr (hnew _ h)
  · exact .inr (hnew _ h)
  · exact .inr (hnew _ h)
  · cases h
    exact .inl rfl

theorem destructor_eq_ok :
    destructor conn = .ok () ↔
      conn.state = .kDisconnected ∧ conn.channel.handlingEvents = false := by
  unfold destructor
  split_ifs with hs hf <;> simp_all

theorem destructor_eq_error {e : Fault} :
    destructor conn = .error e ↔
      conn.state ≠ .kDisconnected ∧ e = .assertion .connectionDtor ∨
        conn.state = .kDisconnected ∧ conn.channel.handlingEvents = true ∧
          e = .assertion .channelDtor := by
  unfold destructor
  split_ifs with hs hf
  · simp [hs, eq_comm (a := e)]
  · simp only [ne_eq, not_not] at hs
    simp [hs, hf, eq_comm (a := e)]
  · simp [hs, hf]

/-! ### The steps, one constructor for each kind -/

/-- The steps. -/
inductive Step (threadId : Pid) (s : TcpServer) : Label → TcpServer → Prop
  | poll {ready : List Ready} (hp : s.pc = .polling) (hn : (ready.map Ready.active).Nodup)
      (hr : ∀ r ∈ ready, s.CanReport r) :
      Step threadId s (.poll ready)
        { s with conns := setRevents ready s.conns, pc := .dispatching (ready.map Ready.active) }
  | accept {r : AcceptResult} {rest : List Active} {fd : Fd} {conn : TcpConnection}
      {l : List Event} (hp : s.pc = .dispatching (.acceptor :: rest)) (hf : s.frame = none)
      (ha : s.CanAccept r) (hr : r = .accepted fd ∨ fd = -1 ∧ ∃ e, r = .error e)
      (h : (TcpConnection.new fd s.writeCompleteCallback false 0).connectEstablished =
        .ok (conn, l)) :
      Step threadId s (.accept (some r)) ({ s with pc := .dispatching rest }.announced conn l)
  | skip {rest : List Active} (hp : s.pc = .dispatching (.acceptor :: rest))
      (hf : s.frame = none) : Step threadId s (.accept none) { s with pc := .dispatching rest }
  | handle {r : ReadResult} {w : WriteResult} {c : ℕ} {st : Stage} {rest : List Active}
      {s' : TcpServer} (hp : s.pc.stage = some (c, st, rest)) (hf : s.frame = none)
      (h : Performed { s with pc := .behind c st rest } c (fun conn => conn.handleStage st r w) s') :
      Step threadId s (.handle r w) s'
  | other (hf : s.frame = none) (hp : s.pc.runsOthers = true) :
      Step threadId s .other { s with frame := some .other }
  | ret {f : Frame} {s' : TcpServer} (hf : s.frame = some f)
      (h : Released { s with frame := none } f.conn.toList s') : Step threadId s .ret s'
  | swap (hf : s.frame = none) (hp : s.pc = .dispatching []) :
      Step threadId s .swap { s with jobs := s.pendingJobs, pendingJobs := [], pc := .running }
  | runJob {w : WriteResult} {j : Closure} {js : List Closure} {s' : TcpServer}
      (hf : s.frame = none) (hp : s.pc = .running) (hj : s.jobs = j :: js)
      (h : Performed { s with jobs := js, done := s.done ++ [j] } j.conn
        (fun conn => conn.runJob j.job w) s') :
      Step threadId s (.runJob w) s'
  | endJobs {s' : TcpServer} (hf : s.frame = none) (hp : s.pc = .running) (hj : s.jobs = [])
      (h : Released { s with done := [], pc := .polling } (s.done.map Closure.conn) s') :
      Step threadId s .endJobs s'
  | call {t : Pid} {c : ℕ} {op : Op} {s' : TcpServer} (hc : s.MayCall threadId t c)
      (h : Performed { s with calls := s.calls + 1 } c
        (fun conn => conn.call (t = threadId) t s.calls op) s') :
      Step threadId s (.call t c op) s'
  | keep {c : ℕ} (hc : s.MayKeep c) :
      Step threadId s (.keep c) { s with refs := Function.update s.refs c (s.refs c + 1) }
  | drop {c : ℕ} {s' : TcpServer} (hc : 0 < s.refs c)
      (h : Released { s with refs := Function.update s.refs c (s.refs c - 1) } [c] s') :
      Step threadId s (.drop c) s'
  | leave (hf : s.frame = none) (hp : s.pc = .polling) :
      Step threadId s .leave { s with pc := .left }
  | destroyServer {s' : TcpServer} (hf : s.frame = none) (hp : s.pc = .left)
      (h : Released { s with connections := ∅, pc := .serverGone }
        ((List.range s.created).filter (· ∈ s.connections)) s') :
      Step threadId s .destroyServer s'
  | destroyLoop {s' : TcpServer} (hf : s.frame = none) (hp : s.pc = .serverGone)
      (h : Released { s with pendingJobs := [], pc := .loopGone }
        (s.pendingJobs.map Closure.conn) s') :
      Step threadId s .destroyLoop s'

theorem Step.of_step (h : (system threadId).step s lab = .next s') : Step threadId s lab s' := by
  change TcpServer.step threadId s lab = .next s' at h
  cases lab with
  | poll ready =>
    simp only [TcpServer.step, Outcome.guard_eq_next, Outcome.next.injEq] at h
    obtain ⟨⟨hp, hn, hr⟩, rfl⟩ := h
    exact .poll hp hn hr
  | accept r =>
    simp only [TcpServer.step] at h
    split at h
    · obtain ⟨⟨hf, ha⟩, h⟩ := Outcome.guard_eq_next.1 h
      cases r with
      | none => cases h; exact .skip ‹_› hf
      | some r =>
        obtain ⟨fd, conn, l, hr, hc, rfl⟩ := acceptorHandleRead_cases h
        exact .accept ‹_› hf (ha r rfl) hr hc
    · cases h
  | handle r w =>
    simp only [TcpServer.step] at h
    split at h
    · obtain ⟨hf, h⟩ := Outcome.guard_eq_next.1 h
      exact .handle ‹_› hf (.of_perform h)
    · cases h
  | ret =>
    simp only [TcpServer.step] at h
    split at h
    · exact .ret ‹_› (.of_release h)
    · cases h
  | runJob w =>
    simp only [TcpServer.step] at h
    split at h
    · obtain ⟨⟨hf, hp⟩, h⟩ := Outcome.guard_eq_next.1 h
      exact .runJob hf hp ‹_› (.of_perform h)
    · cases h
  | endJobs =>
    obtain ⟨⟨hf, hp, hj⟩, h⟩ := Outcome.guard_eq_next.1 h
    exact .endJobs hf hp hj (.of_release h)
  | call t c op =>
    obtain ⟨hc, h⟩ := Outcome.guard_eq_next.1 h
    exact .call hc (.of_perform h)
  | drop c =>
    obtain ⟨hc, h⟩ := Outcome.guard_eq_next.1 h
    exact .drop hc (.of_release h)
  | destroyServer =>
    obtain ⟨⟨hf, hp⟩, h⟩ := Outcome.guard_eq_next.1 h
    exact .destroyServer hf hp (.of_release h)
  | destroyLoop =>
    obtain ⟨⟨hf, hp⟩, h⟩ := Outcome.guard_eq_next.1 h
    exact .destroyLoop hf hp (.of_release h)
  | other | swap | leave =>
    simp only [TcpServer.step, Outcome.guard_eq_next, Outcome.next.injEq] at h
    obtain ⟨⟨hf, hp⟩, rfl⟩ := h
    constructor <;> assumption
  | keep c =>
    simp only [TcpServer.step, Outcome.guard_eq_next, Outcome.next.injEq] at h
    obtain ⟨hc, rfl⟩ := h
    exact .keep hc

/-- The steps that fail. -/
inductive Failure (threadId : Pid) (s : TcpServer) (e : Fault) : Label → Prop
  | accept {r : AcceptResult} (he : e = .fatal ∨ ∃ a, e = .assertion a ∧ a.ofConnection = true) :
      Failure threadId s e (.accept (some r))
  | handle {r : ReadResult} {w : WriteResult} {c : ℕ} {st : Stage} {rest : List Active}
      (hp : s.pc.stage = some (c, st, rest)) (hf : s.frame = none)
      (h : { s with pc := .behind c st rest }.perform c (fun conn => conn.handleStage st r w) =
        .failed e) :
      Failure threadId s e (.handle r w)
  | ret {f : Frame} (hf : s.frame = some f)
      (h : { s with frame := none }.release f.conn.toList = .failed e) : Failure threadId s e .ret
  | runJob {w : WriteResult} {j : Closure} {js : List Closure} (hf : s.frame = none)
      (hp : s.pc = .running) (hj : s.jobs = j :: js)
      (h : { s with jobs := js, done := s.done ++ [j] }.perform j.conn
        (fun conn => conn.runJob j.job w) = .failed e) :
      Failure threadId s e (.runJob w)
  | endJobs (hf : s.frame = none) (hp : s.pc = .running) (hj : s.jobs = [])
      (h : { s with done := [], pc := .polling }.release (s.done.map Closure.conn) = .failed e) :
      Failure threadId s e .endJobs
  | call {t : Pid} {c : ℕ} {op : Op} (hc : s.MayCall threadId t c)
      (h : { s with calls := s.calls + 1 }.perform c
        (fun conn => conn.call (t = threadId) t s.calls op) = .failed e) :
      Failure threadId s e (.call t c op)
  | drop {c : ℕ} (hc : 0 < s.refs c)
      (h : { s with refs := Function.update s.refs c (s.refs c - 1) }.release [c] = .failed e) :
      Failure threadId s e (.drop c)
  | destroyServer (hf : s.frame = none) (hp : s.pc = .left)
      (h : { s with connections := ∅, pc := .serverGone }.release
        ((List.range s.created).filter (· ∈ s.connections)) = .failed e) :
      Failure threadId s e .destroyServer
  | destroyLoop (hf : s.frame = none) (hp : s.pc = .serverGone)
      (h : { s with pendingJobs := [], pc := .loopGone }.release (s.pendingJobs.map Closure.conn) =
        .failed e) :
      Failure threadId s e .destroyLoop

theorem Failure.of_step {e : Fault} (h : (system threadId).step s lab = .failed e) :
    Failure threadId s e lab := by
  change TcpServer.step threadId s lab = .failed e at h
  cases lab with
  | accept r =>
    simp only [TcpServer.step] at h
    split at h
    · obtain ⟨-, h⟩ := Outcome.guard_eq_failed.1 h
      cases r with
      | none => cases h
      | some r => exact .accept (acceptorHandleRead_failed h)
    · cases h
  | handle r w =>
    simp only [TcpServer.step] at h
    split at h
    · obtain ⟨hf, h⟩ := Outcome.guard_eq_failed.1 h
      exact .handle ‹_› hf h
    · cases h
  | ret =>
    simp only [TcpServer.step] at h
    split at h
    · exact .ret ‹_› h
    · cases h
  | runJob w =>
    simp only [TcpServer.step] at h
    split at h
    · obtain ⟨⟨hf, hp⟩, h⟩ := Outcome.guard_eq_failed.1 h
      exact .runJob hf hp ‹_› h
    · cases h
  | endJobs =>
    obtain ⟨⟨hf, hp, hj⟩, h⟩ := Outcome.guard_eq_failed.1 h
    exact .endJobs hf hp hj h
  | call t c op =>
    obtain ⟨hc, h⟩ := Outcome.guard_eq_failed.1 h
    exact .call hc h
  | drop c =>
    obtain ⟨hc, h⟩ := Outcome.guard_eq_failed.1 h
    exact .drop hc h
  | destroyServer =>
    obtain ⟨⟨hf, hp⟩, h⟩ := Outcome.guard_eq_failed.1 h
    exact .destroyServer hf hp h
  | destroyLoop =>
    obtain ⟨⟨hf, hp⟩, h⟩ := Outcome.guard_eq_failed.1 h
    exact .destroyLoop hf hp h
  | poll | other | swap | keep | leave =>
    simp only [TcpServer.step, Outcome.guard_eq_failed, reduceCtorEq, and_false] at h

end TcpServer
end Leven
