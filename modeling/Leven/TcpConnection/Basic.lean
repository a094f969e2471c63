import Leven.Channel

/-!
# TcpConnection

The member functions of `TcpConnection`, each as a function of the connection before the call.
A member function touches three things besides its own object: the kernel, the loop it hands
closures to, and the callbacks of the user and of the server.  It answers the connection
afterwards and the list of these calls, in order (`Event`); a failed assertion stops it.

* `Job`: the closures a connection puts into `pendingJobs_`, with what they capture;
* `sendInLoop`, `handleWrite`: the two paths on which bytes are written;
* `shutdown`, `forceClose`, `handleClose`: the ways to the end of a connection;
* `handleStage`: the four tests of `Channel::handleEventsWithGuard`, one by one, since user code
  runs between them;
* `call`, `runJob`: a call by the user, and a closure run by `EventLoop::doPendingJobs`.

The caller's thread `t` and the number `k` of a call of `send` are carried along so that a
payload can be followed; no function looks at them.
-/

namespace Leven

/-- The states of a connection, in the order of their values. -/
inductive ConnectionState
  | kConnecting
  | kConnected
  | kDisconnecting
  | kDisconnected
  deriving DecidableEq

/-- The value of the enumerator. -/
def ConnectionState.value : ConnectionState → ℕ
  | .kConnecting => 0
  | .kConnected => 1
  | .kDisconnecting => 2
  | .kDisconnected => 3

/-- A closure handed to the loop.  The first five hold a `shared_ptr` to the connection, the
last two the raw pointer `this`. -/
inductive Job
  | sendInLoop (t : Pid) (k : ℕ) (data : Bytes)
  | shutdownInLoop
  | forceCloseInLoop
  | writeComplete
  | highWaterMark (len : ℕ)
  | stopRead
  | startRead
  deriving DecidableEq

/-- What a connection does outside of its own object, and the entries of the member functions
that properties speak of. -/
inductive Event
  /-- a call of `send` that found the connection connected -/
  | send (t : Pid) (k : ℕ) (data : Bytes)
  /-- a call of `shutdown` that passed its assertion -/
  | shutdown (t : Pid)
  /-- the body of `sendInLoop` -/
  | sendInLoop (t : Pid) (k : ℕ) (data : Bytes)
  /-- `::write` accepted these bytes -/
  | write (bytes : Bytes)
  /-- `::write` failed -/
  | writeError (e : Errno)
  /-- `sendInLoop` gives up its payload -/
  | faultError
  /-- `::shutdown(sockfd_, SHUT_WR)` -/
  | shutdownWr
  | epollCtl (c : EpollCtl)
  | queueInLoop (j : Job)
  /-- `handleRead` got past its assertion and called `readFd` -/
  | readFd
  | messageCallback
  | writeCompleteCallback
  | highWaterMarkCallback (len : ℕ)
  /-- `handleClose` set `kDisconnected` -/
  | closed
  | closeCallback
  /-- the body of the closure of `stopRead` -/
  | stopRead
  /-- the body of the closure of `startRead` -/
  | startRead
  /-- the server announced the connection up -/
  | up
  /-- `epoll_wait` returned: a new iteration of the loop -/
  | poll
  deriving DecidableEq

/-- A connection.  The buffers are their readable bytes; of the callbacks only their presence
matters. -/
structure TcpConnection where
  channel : Channel
  state : ConnectionState
  inputBuffer : Bytes
  outputBuffer : Bytes
  highWaterMark : ℕ
  writeCompleteCallback : Bool
  highWaterMarkCallback : Bool

/-- The calls a user makes on a connection. -/
inductive Op
  | send (data : Bytes) (w : WriteResult)
  | shutdown
  | forceClose
  | stopRead
  | startRead
  | setWriteCompleteCallback
  | setHighWaterMarkCallback (mark : ℕ)
  | retrieveInput (n : ℕ)
  deriving DecidableEq

/-- The stages of `Channel::handleEventsWithGuard`. -/
inductive Stage
  | close
  | error
  | read
  | write
  deriving DecidableEq

def Stage.next : Stage → Option Stage
  | .close => some .error
  | .error => some .read
  | .read => some .write
  | .write => none

/-- Where the loop thread is in an iteration of `EventLoop::loop`, as far as one connection is
concerned: in `epoll_wait`; before a stage of the dispatch of its channel, or with no stage left;
in `doPendingJobs`. -/
inductive Phase
  | poll
  | dispatch (stage : Option Stage)
  | jobs
  deriving DecidableEq

/-- `errno == EPIPE || errno == ECONNRESET` -/
def Errno.isFault (e : Errno) : Prop := e = .epipe ∨ e = .econnreset

instance (e : Errno) : Decidable e.isFault := inferInstanceAs (Decidable (_ ∨ _))

namespace TcpConnection

/-- The constructor; the callbacks are those the server and the user set. -/
def new (fd : Fd) (writeComplete highWater : Bool) (mark : ℕ) : TcpConnection :=
  { channel := Channel.new fd, state := .kConnecting, inputBuffer := [], outputBuffer := []
    highWaterMark := mark, writeCompleteCallback := writeComplete
    highWaterMarkCallback := highWater }

/-- The connection after a call and what the call did, or the assertion that failed. -/
abbrev Result := Except Assertion (TcpConnection × List Event)

/-- The events `l` come before those of `r`. -/
def Result.after (l : List Event) (r : Result) : Result := r.map fun (c, l') => (c, l ++ l')

/-- First `r`, then `f`. -/
def Result.andThen (r : Result) (f : TcpConnection → Result) : Result :=
  r.bind fun (c, l) => (f c).after l

/-- An operation on the channel of the connection. -/
def onChannel (c : TcpConnection) (f : Channel → Except Assertion (Channel × EpollCtl)) : Result :=
  (f c.channel).map fun (ch, ctl) => ({ c with channel := ch }, [.epollCtl ctl])

def connectEstablished (c : TcpConnection) : Result :=
  if c.state = .kConnecting then
    onChannel { c with state := .kConnected, channel := c.channel.tie } Channel.enableRead
  else .error .connectEstablished

def setWriteCompleteCallback (c : TcpConnection) : Result :=
  .ok ({ c with writeCompleteCallback := true }, [])

def setHighWaterMarkCallback (mark : ℕ) (c : TcpConnection) : Result :=
  .ok ({ c with highWaterMarkCallback := true, highWaterMark := mark }, [])

/-- A message callback takes `n` bytes out of the input buffer. -/
def retrieveInput (n : ℕ) (c : TcpConnection) : Result :=
  .ok ({ c with inputBuffer := c.inputBuffer.drop n }, [])

/-! ### Sending -/

/-- The direct write of `sendInLoop`: the count `n`, the flag `faultError` and the events. -/
def writeDirect (data : Bytes) (w : WriteResult) (c : TcpConnection) :
    Except Assertion (ℕ × Bool × List Event) :=
  -- what is buffered goes first, so nothing is written directly
  if c.channel.isWriting then .ok (0, false, [])
  else if c.outputBuffer ≠ [] then .error .sendInLoop
  else match w with
    | .error e =>
      if e.isFault then .ok (0, true, [.writeError e, .faultError])
      else .ok (0, false, [.writeError e])
    | .wrote m =>
      let n := min m data.length
      if n = data.length ∧ c.writeCompleteCallback then
        .ok (n, false, [.write (data.take n), .queueInLoop .writeComplete])
      else .ok (n, false, [.write (data.take n)])

/-- The high-water-mark callback is queued when the buffer grows across the mark. -/
def highWater (rest : Bytes) (c : TcpConnection) : List Event :=
  let oldLen := c.outputBuffer.length
  let newLen := oldLen + rest.length
  if c.highWaterMarkCallback ∧ oldLen < c.highWaterMark ∧ newLen ≥ c.highWaterMark then
    [.queueInLoop (.highWaterMark newLen)]
  else []

/-- The end of `sendInLoop`: the rest of the payload goes to the output buffer. -/
def bufferRest (rest : Bytes) (c : TcpConnection) : Result :=
  (onChannel { c with outputBuffer := c.outputBuffer ++ rest } Channel.enableWrite).after
    (c.highWater rest)

def sendInLoop (t : Pid) (k : ℕ) (data : Bytes) (w : WriteResult) (c : TcpConnection) : Result :=
  -- a disconnected connection gives the payload up with a warning
  if c.state = .kDisconnected then .ok (c, [.sendInLoop t k data])
  else match c.writeDirect data w with
    | .error a => .error a
    | .ok (n, faultError, l) =>
      let remain := data.length - n
      if faultError = false ∧ remain > 0 then
        (c.bufferRest (data.drop n)).after (.sendInLoop t k data :: l)
      else .ok (c, .sendInLoop t k data :: l)

/-- `send`, for each of its three overloads: `data` is the readable part of the argument.  Off
the loop thread the closure holds a copy of the data. -/
def send (isInLoopThread : Bool) (t : Pid) (k : ℕ) (data : Bytes) (w : WriteResult)
    (c : TcpConnection) : Result :=
  if c.state ≠ .kConnected then .ok (c, [])
  else if isInLoopThread then (c.sendInLoop t k data w).after [.send t k data]
  else .ok (c, [.send t k data, .queueInLoop (.sendInLoop t k data)])

/-! ### Closing -/

def shutdownInLoop (c : TcpConnection) : Result :=
  if c.state ≠ .kDisconnected ∧ ¬ c.channel.isWriting then .ok (c, [.shutdownWr])
  else .ok (c, [])

/-- `shutdown`, as one step: the assertion, the exchange and what follows. -/
def shutdown (isInLoopThread : Bool) (t : Pid) (c : TcpConnection) : Result :=
  if c.state.value ≤ ConnectionState.kDisconnecting.value then
    let c' := { c with state := .kDisconnecting }
    if c.state = .kConnected then
      if isInLoopThread then c'.shutdownInLoop.after [.shutdown t]
      else .ok (c', [.shutdown t, .queueInLoop .shutdownInLoop])
    else .ok (c', [.shutdown t])
  else .error .shutdown

/-- `forceClose`, as one step: the exchange returns the value that was tested. -/
def forceClose (c : TcpConnection) : Result :=
  if c.state ≠ .kDisconnected then
    .ok ({ c with state := .kDisconnecting }, [.queueInLoop .forceCloseInLoop])
  else .ok (c, [])

/-- `handleClose`; `EventLoop::removeChannel` is `Channel::disableAll`. -/
def handleClose (c : TcpConnection) : Result :=
  if c.state = .kConnected ∨ c.state = .kDisconnecting then
    ((onChannel { c with state := .kDisconnected } Channel.disableAll).after [.closed]).andThen
      fun c => .ok (c, [.closeCallback])
  else .error .handleClose

def forceCloseInLoop (c : TcpConnection) : Result :=
  if c.state ≠ .kDisconnected then c.handleClose else .ok (c, [])

/-! ### Flow control of the reader -/

def stopReadInLoop (c : TcpConnection) : Result :=
  if c.channel.isReading then (c.onChannel Channel.disableRead).after [.stopRead]
  else .ok (c, [.stopRead])

/-- The closure of `startRead` does not look at the state of the connection. -/
def startReadInLoop (c : TcpConnection) : Result :=
  if ¬ c.channel.isReading then (c.onChannel Channel.enableRead).after [.startRead]
  else .ok (c, [.startRead])

/-- `stopRead`, through `EventLoop::runInLoop(Task&&)`. -/
def stopRead (isInLoopThread : Bool) (c : TcpConnection) : Result :=
  if isInLoopThread then c.stopReadInLoop else .ok (c, [.queueInLoop .stopRead])

/-- `startRead`, through `EventLoop::runInLoop(Task&&)`. -/
def startRead (isInLoopThread : Bool) (c : TcpConnection) : Result :=
  if isInLoopThread then c.startReadInLoop else .ok (c, [.queueInLoop .startRead])

/-- A call by the user. -/
def call (isInLoopThread : Bool) (t : Pid) (k : ℕ) (op : Op) (c : TcpConnection) : Result :=
  match op with
  | .send data w => c.send isInLoopThread t k data w
  | .shutdown => c.shutdown isInLoopThread t
  | .forceClose => c.forceClose
  | .stopRead => c.stopRead isInLoopThread
  | .startRead => c.startRead isInLoopThread
  | .setWriteCompleteCallback => c.setWriteCompleteCallback
  | .setHighWaterMarkCallback mark => c.setHighWaterMarkCallback mark
  | .retrieveInput n => c.retrieveInput n

/-! ### Event handlers -/

/-- `handleError` reads `SO_ERROR` and logs it. -/
def handleError (c : TcpConnection) : Result := .ok (c, [])

def handleRead (r : ReadResult) (c : TcpConnection) : Result :=
  if c.state = .kDisconnected then .error .handleRead
  else match r with
    | .error _ => c.handleError.after [.readFd]
    -- end of file: the peer has closed
    | .data [] => c.handleClose.after [.readFd]
    | .data bytes =>
      .ok ({ c with inputBuffer := c.inputBuffer ++ bytes }, [.readFd, .messageCallback])

/-- The end of `handleWrite`, once the output buffer is empty. -/
def writeFinished (c : TcpConnection) : Result :=
  ((c.onChannel Channel.disableWrite).andThen fun c =>
      if c.state = .kDisconnecting then c.shutdownInLoop else .ok (c, [])).andThen
    fun c => .ok (c, if c.writeCompleteCallback then [.queueInLoop .writeComplete] else [])

def handleWrite (w : WriteResult) (c : TcpConnection) : Result :=
  if c.state = .kDisconnected then .ok (c, [])
  else if c.outputBuffer = [] then .error .handleWriteReadable
  else if ¬ c.channel.isWriting then .error .handleWriteWriting
  else match w with
    -- logged; the output stays in the buffer
    | .error e => .ok (c, [.writeError e])
    | .wrote m =>
      let n := min m c.outputBuffer.length
      let c' := { c with outputBuffer := c.outputBuffer.drop n }
      if c'.outputBuffer = [] then c'.writeFinished.after [.write (c.outputBuffer.take n)]
      else .ok (c', [.write (c.outputBuffer.take n)])

/-- One of the tests of `Channel::handleEventsWithGuard`, with the handler it guards. -/
def handleStage (st : Stage) (r : ReadResult) (w : WriteResult) (c : TcpConnection) : Result :=
  match st with
  | .close =>
    let c := { c with channel := { c.channel with handlingEvents := true } }
    if .epollhup ∈ c.channel.revents ∧ .epollin ∉ c.channel.revents then c.handleClose
    else .ok (c, [])
  | .error => if .epollerr ∈ c.channel.revents then c.handleError else .ok (c, [])
  | .read =>
    if c.channel.revents ∩ {.epollin, .epollpri, .epollrdhup} ≠ ∅ then c.handleRead r
    else .ok (c, [])
  -- the last stage takes the flag down
  | .write =>
    (if .epollout ∈ c.channel.revents then c.handleWrite w else .ok (c, [])).andThen
      fun c => .ok ({ c with channel := { c.channel with handlingEvents := false } }, [])

/-- The body of a closure. -/
def runJob (j : Job) (w : WriteResult) (c : TcpConnection) : Result :=
  match j with
  | .sendInLoop t k data => c.sendInLoop t k data w
  | .shutdownInLoop => c.shutdownInLoop
  | .forceCloseInLoop => c.forceCloseInLoop
  | .writeComplete => .ok (c, [.writeCompleteCallback])
  | .highWaterMark len => .ok (c, [.highWaterMarkCallback len])
  | .stopRead => c.stopReadInLoop
  | .startRead => c.startReadInLoop

end TcpConnection
end Leven
