import Mathlib.Tactic
import Mathlib.Data.Finset.Basic

/-!
# leven: what the modules share

The enumerations and the results of system calls that the modules use:

* `Overload`: the two overloads of the functions that take a task;
* `Errno`, `WriteResult`, `ReadResult`: what `::write` and `::readv` answer; the answer is chosen
  by the environment, within the documented contract (at most the requested length);
* `EpollEvent`, `Mask`, `EpollCtl`, `Interest`: the epoll event bits, a set of them, a call of
  `epoll_ctl`, and the interest list of an epoll instance as a map from descriptors to masks;
* `Assertion`: the assertions of the source, one constructor for each `assert` that is modelled;
  `Fault`: a failed assertion, or an access to an object that does not exist any more.

A byte buffer is the list of its readable bytes, and a pointer to a task or to a connection is
a natural number.  Descriptors are integers since `-1` is one of them.
-/

namespace Leven

/-- Bytes of a stream. -/
abbrev Bytes := List UInt8

/-- A file descriptor. -/
abbrev Fd := ℤ

/-- A thread id, as `gettid` returns it. -/
abbrev Pid := ℕ

/-- The overloads for `const Task&` and for `Task&&`. -/
inductive Overload
  | copy
  | move
  deriving DecidableEq

/-- The error numbers the code tells apart. -/
inductive Errno
  | eagain
  | eintr
  | epipe
  | econnreset
  | other (code : ℕ)
  deriving DecidableEq

/-- The answer of `::write`: a byte count, or `-1` with `errno`. -/
inductive WriteResult
  | wrote (n : ℕ)
  | error (e : Errno)
  deriving DecidableEq

/-- The answer of `::readv`: `-1` with `errno`, or the bytes read; no bytes are the end of file. -/
inductive ReadResult
  | error (e : Errno)
  | data (bytes : Bytes)
  deriving DecidableEq

/-- The bits of an epoll mask. -/
inductive EpollEvent
  | epollin
  | epollpri
  | epollout
  | epollerr
  | epollhup
  | epollrdhup
  deriving DecidableEq

/-- An epoll event mask. -/
abbrev Mask := Finset EpollEvent

/-- The operations of `epoll_ctl`. -/
inductive EpollOp
  | add
  | mod
  | del
  deriving DecidableEq

/-- A call of `epoll_ctl`. -/
structure EpollCtl where
  op : EpollOp
  fd : Fd
  events : Mask
  deriving DecidableEq

/-- The interest list of an epoll instance. -/
abbrev Interest := Fd → Option Mask

/-- What the kernel does with a call of `epoll_ctl`: `ADD` of a present descriptor (`EEXIST`) and
`MOD` or `DEL` of an absent one (`ENOENT`) change nothing. -/
def EpollCtl.apply (k : Interest) (c : EpollCtl) : Interest :=
  match c.op, k c.fd with
  | .add, none => Function.update k c.fd (some c.events)
  | .mod, some _ => Function.update k c.fd (some c.events)
  | .del, some _ => Function.update k c.fd none
  | _, _ => k

/-- A call of `epoll_ctl` leaves the other descriptors alone. -/
theorem EpollCtl.apply_other (k : Interest) (c : EpollCtl) {fd : Fd} (h : fd ≠ c.fd) :
    c.apply k fd = k fd := by
  obtain ⟨op, f, m⟩ := c
  cases op <;> cases hk : k f <;> simp [EpollCtl.apply, hk, Function.update_of_ne h]

/-- The masks `epoll_wait` may report for a descriptor registered with `registered`: subscribed
events, and `EPOLLERR` and `EPOLLHUP` in any case. -/
def Reportable (registered : Option Mask) (revents : Mask) : Prop :=
  match registered with
  | none => False
  | some m => revents ⊆ m ∪ {.epollerr, .epollhup}

instance (registered : Option Mask) (revents : Mask) : Decidable (Reportable registered revents) :=
  match registered with
  | none => inferInstanceAs (Decidable False)
  | some m => inferInstanceAs (Decidable (revents ⊆ m ∪ {.epollerr, .epollhup}))

theorem reportable_iff {registered : Option Mask} {revents : Mask} :
    Reportable registered revents ↔
      ∃ m, registered = some m ∧ revents ⊆ m ∪ {.epollerr, .epollhup} := by
  cases registered <;> simp [Reportable]

/-- A reported bit other than `EPOLLERR` and `EPOLLHUP` was subscribed to. -/
theorem Reportable.mem {m revents : Mask} {e : EpollEvent} (h : Reportable (some m) revents)
    (he : e ∈ revents) (h1 : e ≠ .epollerr) (h2 : e ≠ .epollhup) : e ∈ m := by
  have hm : e ∈ m ∪ {.epollerr, .epollhup} := h he
  simpa [h1, h2] using hm

/-- The assertions of the modelled code. -/
inductive Assertion
  /-- `Epoller::updateChannel`: `!channel->hasNoneEvents()` -/
  | updateChannel
  /-- `Channel::~Channel`: `!handlingEvents_` -/
  | channelDtor
  /-- `TcpConnection::~TcpConnection`: `state_ == kDisconnected` -/
  | connectionDtor
  /-- `TcpConnection::connectEstablished`: `state_ == kConnecting` -/
  | connectEstablished
  /-- `TcpConnection::sendInLoop`: `outputBuffer_.readableBytes() == 0` -/
  | sendInLoop
  /-- `TcpConnection::shutdown`: `state_ <= kDisconnecting` -/
  | shutdown
  /-- `TcpConnection::handleRead`: `state_ != kDisconnected` -/
  | handleRead
  /-- `TcpConnection::handleWrite`: `outputBuffer_.readableBytes() > 0` -/
  | handleWriteReadable
  /-- `TcpConnection::handleWrite`: `channel_.isWriting()` -/
  | handleWriteWriting
  /-- `TcpConnection::handleClose`: `state_ == kConnected || state_ == kDisconnecting` -/
  | handleClose
  /-- `TcpServer::closeConnection`: `ret == 1` -/
  | closeConnection
  /-- `EventLoop::quit`: `!quit_` -/
  | quit
  /-- `ThreadPool::runTask`: `running_` -/
  | runTask
  /-- `ThreadPool::stop`: `running_` -/
  | stop
  /-- `TimerQueue::addTimerTask`: `ret.second` -/
  | addTimerTask
  /-- `TimerQueue::handleRead`: `timer->expired(now)` -/
  | timerExpired
  /-- `Timer::restart`: `repeat_` -/
  | restart
  /-- `Timer::cancel`: `!canceled_` -/
  | cancel
  deriving DecidableEq

/-- What ends a run. -/
inductive Fault
  | assertion (a : Assertion)
  /-- an access to an object after its destruction -/
  | destroyed
  /-- a `delete` of an object after its destruction -/
  | deletedTwice
  /-- an error that the process does not survive -/
  | fatal
  deriving DecidableEq

end Leven
