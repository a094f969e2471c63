import Leven.Transition.System
import Leven.TcpConnection.Events

/-!
# The runs of one connection

`Connection.system threadId` is an established connection together with the part of the loop of
thread `threadId` that concerns it: the interest list of epoll, the closures in `pendingJobs_`,
the rest of the batch that `doPendingJobs` has swapped out, and the phase of the iteration.  Each
call by a user, each stage of a dispatch and each closure is one step; the answers of the kernel
are part of the label.  The connection is kept alive by a reference, and the closures of other
connections are left out.

* `Step`: the steps, one constructor for each kind; `Step.of_step` inverts the step function;
* `Inv`: what every reachable state satisfies, with `Inv.of_reachable`;
* `Inv.failed`: the assertions that a step can trip.
-/

namespace Leven

open Transition

namespace Connection

/-- A state of a run. -/
structure Run where
  conn : TcpConnection
  interest : Interest
  pendingJobs : List Job
  /-- the rest of the batch of `doPendingJobs` -/
  jobs : List Job
  phase : Phase
  /-- how many calls the users have made -/
  calls : ℕ
  history : List Event

/-- The steps of a run. -/
inductive Label
  /-- thread `t` makes a call -/
  | call (t : Pid) (op : Op)
  /-- `epoll_wait` returns, with a mask for the connection or without one -/
  | poll (revents : Option Mask)
  /-- the next stage of the dispatch -/
  | handle (r : ReadResult) (w : WriteResult)
  /-- `jobs.swap(pendingJobs_)` -/
  | swap
  /-- the next closure of the batch -/
  | runJob (w : WriteResult)
  /-- the end of `doPendingJobs` -/
  | endJobs
  deriving DecidableEq

/-- The closures that have not run yet, in the order in which they will. -/
def Run.queue (s : Run) : List Job := s.jobs ++ s.pendingJobs

/-- The state after the connection has become `c`, with the events `l`. -/
def Run.apply (s : Run) (c : TcpConnection) (l : List Event) : Run :=
  { s with
    conn := c
    interest := interestAfter s.interest l
    pendingJobs := s.pendingJobs ++ queued l
    history := s.history ++ l }

/-- The outcome of a member function. -/
def Run.perform (s : Run) (r : TcpConnection.Result) : Outcome Assertion Run :=
  (Outcome.ofExcept r).bind fun (c, l) => .next (s.apply c l)

/-- `Epoller::Poll` stores the mask in the channel. -/
def Run.setRevents (s : Run) (m : Mask) : Run :=
  { s with
    conn := { s.conn with channel := { s.conn.channel with revents := m } }
    phase := .dispatch (some .close)
    history := s.history ++ [.poll] }

/-- The step function.  While it waits in `epoll_wait` the loop thread calls nothing. -/
def step (threadId : Pid) (s : Run) : Label → Outcome Assertion Run
  | .call t op =>
    .guard (t = threadId → s.phase ≠ .poll) <|
      { s with calls := s.calls + 1 }.perform (s.conn.call (t = threadId) t s.calls op)
  | .poll none =>
    .guard (s.phase = .poll) <|
      .next { s with phase := .dispatch none, history := s.history ++ [.poll] }
  | .poll (some m) =>
    .guard (s.phase = .poll ∧ Reportable (s.interest s.conn.channel.fd) m) <|
      .next (s.setRevents m)
  | .handle r w =>
    match s.phase with
    | .dispatch (some st) =>
      { s with phase := .dispatch st.next }.perform (s.conn.handleStage st r w)
    | _ => .blocked
  | .swap =>
    .guard (s.phase = .dispatch none) <|
      .next { s with jobs := s.pendingJobs, pendingJobs := [], phase := .jobs }
  | .runJob w =>
    match s.phase, s.jobs with
    | .jobs, j :: js => { s with jobs := js }.perform (s.conn.runJob j w)
    | _, _ => .blocked
  | .endJobs =>
    .guard (s.phase = .jobs ∧ s.jobs = []) <| .next { s with phase := .poll }

/-- The server has announced the connection, from a handler of its acceptor. -/
def Init (s : Run) : Prop :=
  ∃ fd writeComplete highWater mark k c l, k fd = none ∧
    (TcpConnection.new fd writeComplete highWater mark).connectEstablished = .ok (c, l) ∧
    s = { conn := c, interest := interestAfter k l, pendingJobs := [], jobs := []
          phase := .dispatch none, calls := 0, history := l ++ [.up] }

/-- The mask of an established connection. -/
def startEvents : Mask := ∅ ∪ {.epollin, .epollpri}

/-- The start of a run on descriptor `fd`, over the interest list `k`. -/
def Run.start (k : Interest) (fd : Fd) (writeComplete highWater : Bool) (mark : ℕ) : Run where
  conn :=
    { TcpConnection.new fd writeComplete highWater mark with
      state := .kConnected
      channel := (Channel.new fd).tie.setEvents startEvents }
  interest := EpollCtl.apply k ⟨.add, fd, startEvents⟩
  pendingJobs := []
  jobs := []
  phase := .dispatch none
  calls := 0
  history := [.epollCtl ⟨.add, fd, startEvents⟩, .up]

theorem init_iff {s : Run} :
    Init s ↔ ∃ k fd writeComplete highWater mark, k fd = none ∧
      s = .start k fd writeComplete highWater mark := by
  constructor
  · rintro ⟨fd, writeComplete, highWater, mark, k, c, l, hk, hc, rfl⟩
    refine ⟨k, fd, writeComplete, highWater, mark, hk, ?_⟩
    unfold TcpConnection.connectEstablished at hc
    rw [if_pos (by rfl)] at hc
    obtain ⟨rfl, rfl⟩ := TcpConnection.onChannel_cases hc rfl
    rfl
  · rintro ⟨k, fd, writeComplete, highWater, mark, hk, rfl⟩
    exact ⟨fd, writeComplete, highWater, mark, k, _, _, hk, rfl, rfl⟩

theorem start_init (fd : Fd) (writeComplete highWater : Bool) (mark : ℕ) :
    Init (.start (fun _ => none) fd writeComplete highWater mark) :=
  init_iff.2 ⟨_, fd, writeComplete, highWater, mark, rfl, rfl⟩

/-- The runs of one established connection. -/
def system (threadId : Pid) : System Run Label Assertion where
  init := Init
  step := step threadId

section Apply

variable (s : Run) (c : TcpConnection) (l : List Event)

@[simp] theorem apply_conn : (s.apply c l).conn = c := rfl
@[simp] theorem apply_interest : (s.apply c l).interest = interestAfter s.interest l := rfl
@[simp] theorem apply_jobs : (s.apply c l).jobs = s.jobs := rfl
@[simp] theorem apply_pendingJobs : (s.apply c l).pendingJobs = s.pendingJobs ++ queued l := rfl
@[simp] theorem apply_phase : (s.apply c l).phase = s.phase := rfl
@[simp] theorem apply_history : (s.apply c l).history = s.history ++ l := rfl
@[simp] theorem apply_queue : (s.apply c l).queue = s.queue ++ queued l := by simp [Run.queue]

end Apply

variable {threadId : Pid} {s s' : Run} {lab : Label} {a : Assertion}

@[simp] theorem perform_eq_next {r : TcpConnection.Result} :
    s.perform r = .next s' ↔ ∃ c l, r = .ok (c, l) ∧ s' = s.apply c l := by
  simp only [Run.perform, Outcome.bind_eq_next, Outcome.ofExcept_eq_next, Outcome.next.injEq]
  constructor
  · rintro ⟨⟨c, l⟩, h, he⟩
    exact ⟨c, l, h, he.symm⟩
  · rintro ⟨c, l, h, he⟩
    exact ⟨(c, l), h, he.symm⟩

@[simp] theorem perform_eq_failed {r : TcpConnection.Result} :
    s.perform r = .failed a ↔ r = .error a := by
  simp [Run.perform]

/-- The steps of a run, one constructor for each kind. -/
inductive Step (threadId : Pid) (s : Run) : Label → Run → Prop
  | call {t : Pid} {op : Op} {c : TcpConnection} {l : List Event}
      (ht : t = threadId → s.phase ≠ .poll)
      (h : s.conn.call (t = threadId) t s.calls op = .ok (c, l)) :
      Step threadId s (.call t op) ({ s with calls := s.calls + 1 }.apply c l)
  | idle (hp : s.phase = .poll) :
      Step threadId s (.poll none)
        { s with phase := .dispatch none, history := s.history ++ [.poll] }
  | poll {m : Mask} (hp : s.phase = .poll)
      (hm : Reportable (s.interest s.conn.channel.fd) m) :
      Step threadId s (.poll (some m)) (s.setRevents m)
  | handle {r : ReadResult} {w : WriteResult} {st : Stage} {c : TcpConnection} {l : List Event}
      (hp : s.phase = .dispatch (some st)) (h : s.conn.handleStage st r w = .ok (c, l)) :
      Step threadId s (.handle r w) ({ s with phase := .dispatch st.next }.apply c l)
  | swap (hp : s.phase = .dispatch none) :
      Step threadId s .swap { s with jobs := s.pendingJobs, pendingJobs := [], phase := .jobs }
  | runJob {w : WriteResult} {j : Job} {js : List Job} {c : TcpConnection} {l : List Event}
      (hp : s.phase = .jobs) (hj : s.jobs = j :: js) (h : s.conn.runJob j w = .ok (c, l)) :
      Step threadId s (.runJob w) ({ s with jobs := js }.apply c l)
  | endJobs (hp : s.phase = .jobs) (hj : s.jobs = []) :
      Step threadId s .endJobs { s with phase := .poll }

theorem Step.of_step (h : (system threadId).step s lab = .next s') : Step threadId s lab s' := by
  change step threadId s lab = .next s' at h
  cases lab with
  | call t op =>
    simp only [step, Outcome.guard_eq_next, perform_eq_next] at h
    obtain ⟨ht, c, l, hc, rfl⟩ := h
    exact .call ht hc
  | poll revents =>
    cases revents with
    | none =>
      simp only [step, Outcome.guard_eq_next, Outcome.next.injEq] at h
      obtain ⟨hp, rfl⟩ := h
      exact .idle hp
    | some m =>
      simp only [step, Outcome.guard_eq_next, Outcome.next.injEq] at h
      obtain ⟨⟨hp, hm⟩, rfl⟩ := h
      exact .poll hp hm
  | handle r w =>
    simp only [step] at h
    split at h
    · obtain ⟨c, l, hc, rfl⟩ := perform_eq_next.1 h
      exact .handle ‹_› hc
    · cases h
  | swap =>
    simp only [step, Outcome.guard_eq_next, Outcome.next.injEq] at h
    obtain ⟨hp, rfl⟩ := h
    exact .swap hp
  | runJob w =>
    simp only [step] at h
    split at h
    · obtain ⟨c, l, hc, rfl⟩ := perform_eq_next.1 h
      exact .runJob ‹_› ‹_› hc
    · cases h
  | endJobs =>
    simp only [step, Outcome.guard_eq_next, Outcome.next.injEq] at h
    obtain ⟨⟨hp, hj⟩, rfl⟩ := h
    exact .endJobs hp hj

/-! ### What every reachable state satisfies -/

/-- The invariants of the connection, the interest list and the history. -/
structure Core (s : Run) : Prop where
  sound : s.conn.Sound
  synced : s.conn.channel.Synced s.interest
  established : ConnectionState.kConnected.value ≤ s.conn.state.value
  stream : s.conn.state ≠ .kDisconnected → .faultError ∉ s.history →
    accepted s.history ++ s.conn.outputBuffer = sent s.history
  drained : Whenever (· = .shutdownWr)
    (fun g => (∃ e : Errno, e.isFault ∧ .writeError e ∈ g) ∨ accepted g = sent g) s.history
  fault : .faultError ∈ s.history → ∃ e : Errno, e.isFault ∧ .writeError e ∈ s.history
  closed : .closed ∈ s.history ↔ s.conn.state = .kDisconnected

/-- While a dispatch goes on, a reported `EPOLLOUT` is still subscribed. -/
def Run.WriteReady (s : Run) : Prop :=
  ∀ st, s.phase = .dispatch (some st) → .epollout ∈ s.conn.channel.revents →
    s.conn.state ≠ .kDisconnected → s.conn.channel.isWriting

/-- What every reachable state satisfies. -/
structure Inv (s : Run) : Prop extends Core s where
  ready : s.WriteReady
  batch : s.phase ≠ .jobs → s.jobs = []

theorem Core.polled (hs : Core s) : s.conn.Polled := hs.synced.2.2

theorem Core.ne_connecting (hs : Core s) : s.conn.state ≠ .kConnecting := by
  intro h
  have := hs.established
  simp [h, ConnectionState.value] at this

/-- A disconnected connection stays so. -/
theorem eq_disconnected_of_mono {c c' : TcpConnection} {l : List Event} (e : Effect c c' l)
    (hd : c.state = .kDisconnected) : c'.state = .kDisconnected := by
  have := e.mono
  cases hs : c'.state <;> simp [hd, hs, ConnectionState.value] at this ⊢

/-- A connection that is connected was so before. -/
theorem Core.connected {c : TcpConnection} {l : List Event} (hs : Core s)
    (e : Effect s.conn c l) (hc : c.state = .kConnected) : s.conn.state = .kConnected := by
  have h1 := e.mono
  have h2 := hs.established
  cases h : s.conn.state <;> simp [h, hc, ConnectionState.value] at h1 h2 ⊢

/-- The invariants are kept by everything a connection does. -/
theorem Core.apply {c : TcpConnection} {l : List Event} (hs : Core s) (e : Effect s.conn c l) :
    Core (s.apply c l) where
  sound := e.sound hs.sound
  synced := e.synced _ hs.synced
  established := hs.established.trans e.mono
  stream hd hf := by
    simp only [apply_history, apply_conn, List.mem_append, not_or] at hd hf ⊢
    have hd' : s.conn.state ≠ .kDisconnected := fun h => hd (eq_disconnected_of_mono e h)
    rw [accepted_append, sent_append, List.append_assoc, e.stream hs.sound hd hf.2,
      ← List.append_assoc, hs.stream hd' hf.1]
  drained := by
    refine whenever_append.2 ⟨hs.drained, (e.drained hs.sound).mono ?_⟩
    rintro g ⟨hd, hg⟩
    by_cases hf : .faultError ∈ s.history
    · obtain ⟨x, hx, hm⟩ := hs.fault hf
      exact .inl ⟨x, hx, List.mem_append_left _ hm⟩
    · right
      rw [accepted_append, sent_append, hg, ← List.append_assoc, hs.stream hd hf]
  fault hf := by
    rcases List.mem_append.1 hf with hf | hf
    · obtain ⟨x, hx, hm⟩ := hs.fault hf
      exact ⟨x, hx, List.mem_append_left _ hm⟩
    · obtain ⟨x, hx, hm⟩ := e.fault hf
      exact ⟨x, hx, List.mem_append_right _ hm⟩
  closed := by
    simp only [apply_history, apply_conn, List.mem_append, hs.closed, e.closed]
    refine ⟨?_, fun h => ?_⟩
    · rintro (h | h)
      · exact eq_disconnected_of_mono e h
      · exact h.2
    · by_cases hd : s.conn.state = .kDisconnected
      · exact .inl hd
      · exact .inr ⟨hd, h⟩

/-- A step other than `handleWrite` leaves a subscribed `EPOLLOUT` in place. -/
theorem isWriting_of_growth {c c' : TcpConnection} {l : List Event} (e : Growth c c' l)
    (hc : c.Sound) (hd : c'.state ≠ .kDisconnected) (hw : c.channel.isWriting) :
    c'.channel.isWriting := by
  have hd' : c.state ≠ .kDisconnected := fun h => hd (eq_disconnected_of_mono e.toEffect h)
  have hne : c.outputBuffer ≠ [] := (hc hd').2.2.1 hw
  exact (e.sound hc hd).2.2.2 fun h => hne (List.prefix_nil.1 (h ▸ e.output))

theorem ready_of_growth {t : Run} {c : TcpConnection} {l : List Event} (e : Growth s.conn c l)
    (hc : s.conn.Sound) (ht : t.conn = c)
    (hs : (∃ st, t.phase = .dispatch (some st)) → .epollout ∈ s.conn.channel.revents →
      s.conn.state ≠ .kDisconnected → s.conn.channel.isWriting) : t.WriteReady := by
  subst ht
  intro st hp hr hd
  refine isWriting_of_growth e hc hd (hs ⟨st, hp⟩ (e.revents ▸ hr) fun h => ?_)
  exact hd (eq_disconnected_of_mono e.toEffect h)

theorem Inv.of_init (h : Init s) : Inv s := by
  obtain ⟨k, fd, writeComplete, highWater, mark, hk, rfl⟩ := init_iff.1 h
  refine { sound := fun _ => ?_, synced := ?_, established := le_rfl, stream := fun _ _ => rfl
           drained := by simp [Run.start], fault := by simp [Run.start], closed := by simp [Run.start]
           ready := by simp [Run.start, Run.WriteReady], batch := fun _ => rfl }
  · simp [Run.start, startEvents, TcpConnection.new]
  · have h0 : (Channel.new fd).tie.Synced k := Channel.new_synced fd hk
    exact Channel.setEvents_synced startEvents h0

theorem Inv.step (hs : Inv s) (h : Step threadId s lab s') : Inv s' := by
  cases h with
  | call ht h =>
    have e := TcpConnection.call_growth h
    exact { hs.toCore.apply e.toEffect with
      ready := ready_of_growth e hs.sound rfl fun ⟨st, hp⟩ => hs.ready st hp
      batch := hs.batch }
  | idle hp =>
    exact { hs.toCore with
      stream := by simpa using hs.stream
      drained := by simpa [whenever_append] using hs.drained
      fault := by simpa using hs.fault
      closed := by simpa using hs.closed
      ready := by simp [Run.WriteReady]
      batch := fun _ => hs.batch (by simp [hp]) }
  | poll hp hm =>
    exact {
      sound := hs.sound
      synced := hs.synced
      established := hs.established
      stream := by simpa [Run.setRevents] using hs.stream
      drained := by simpa [Run.setRevents, whenever_append] using hs.drained
      fault := by simpa [Run.setRevents] using hs.fault
      closed := by simpa [Run.setRevents] using hs.closed
      ready := fun st _ hr hd => by
        rw [hs.synced.1, if_pos (hs.sound hd).1] at hm
        exact hm.mem hr (by simp) (by simp)
      batch := fun _ => hs.batch (by simp [hp]) }
  | @handle r w st c l hp h =>
    refine { hs.toCore.apply (TcpConnection.handleStage_effect h) with
      ready := ?_, batch := fun _ => hs.batch (by simp [hp]) }
    by_cases hst : st = .write
    · subst hst; simp [Run.WriteReady, Stage.next]
    · exact ready_of_growth (TcpConnection.handleStage_growth hst h) hs.sound rfl
        fun _ => hs.ready st hp
  | swap hp => exact { hs.toCore with ready := by simp [Run.WriteReady], batch := by simp }
  | runJob hp hj h =>
    exact { hs.toCore.apply (TcpConnection.runJob_growth h).toEffect with
      ready := by simp [Run.WriteReady, hp]
      batch := fun h => absurd hp h }
  | endJobs hp hj =>
    exact { hs.toCore with ready := by simp [Run.WriteReady], batch := fun _ => hj }

variable {C : Run → Label → Prop}

theorem Inv.of_reachable (hr : (system threadId).ReachableIf C s) : Inv s :=
  hr.invariant (fun _ => Inv.of_init) fun _ _ _ hs _ h => hs.step (.of_step h)

/-- The assertions a step can trip: `shutdown` of a disconnected connection, and a handler of a
connection that was closed earlier in the same dispatch. -/
theorem Inv.failed (hs : Inv s) (h : (system threadId).step s lab = .failed a) :
    s.conn.state = .kDisconnected ∧ (a = .shutdown ∨ a = .handleRead ∨ a = .handleClose) := by
  change Connection.step threadId s lab = .failed a at h
  cases lab with
  | call t op =>
    simp only [Connection.step, Outcome.guard_eq_failed, perform_eq_failed] at h
    obtain ⟨rfl, -, hd⟩ := TcpConnection.call_error hs.sound hs.polled h.2
    exact ⟨hd, .inl rfl⟩
  | poll revents => cases revents <;> simp [Connection.step] at h
  | handle r w =>
    simp only [Connection.step] at h
    split at h
    · obtain ⟨ha, h1, h2⟩ := TcpConnection.handleStage_error hs.sound
        (fun hst => hs.ready _ ‹_›) (perform_eq_failed.1 h)
      have h3 := hs.ne_connecting
      refine ⟨?_, .inr ha⟩
      cases hc : s.conn.state <;> simp_all
    · cases h
  | swap | endJobs => simp [Connection.step] at h
  | runJob w =>
    simp only [Connection.step] at h
    split at h
    · exact absurd (perform_eq_failed.1 h)
        (TcpConnection.runJob_ne_error hs.sound hs.polled hs.ne_connecting)
    · cases h

end Connection
end Leven
