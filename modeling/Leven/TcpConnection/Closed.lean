import Leven.TcpConnection.Run

/-!
# Closed stays closed

After `handleClose` every member function looks at `state_` or at the channel, except for the
closure of `startRead`: it enables reading on a channel that has been taken out of epoll.

* `StaysClosed`: the channel is never registered again, `handleRead` is not entered in a later
  iteration, and messages come between the up and the down callback;
* `staysClosed_fails`: a write-complete callback that calls `startRead` after the peer has closed;
* `NoRestart`: the body of `startRead` does not run on a disconnected connection;
* `staysClosed`: the runs whose steps meet the condition.
-/

namespace Leven

open Transition

/-- Not one of the events that a closed connection must not have. -/
@[simp] def Event.isPlain : Event → Bool
  | .epollCtl _ | .messageCallback | .closeCallback | .poll => false
  | _ => true

/-- What a member function guarantees about a connection that is disconnected, before or after. -/
structure Closing (c c' : TcpConnection) (l : List Event) : Prop where
  off : (c.state = .kDisconnected → c.channel.events = ∅) →
    c'.state = .kDisconnected → c'.channel.events = ∅
  add : (c.state = .kDisconnected → c.channel.events = ∅) →
    ∀ ctl, .epollCtl ctl ∈ l → ctl.op = .add → c'.state ≠ .kDisconnected
  message : .messageCallback ∈ l → c'.state ≠ .kDisconnected
  down : .closeCallback ∈ l → c'.state = .kDisconnected
  poll : .poll ∉ l

section Closing

variable {c c' : TcpConnection} {l : List Event} {x : Event}

/-- Plain events that leave the mask as it is. -/
theorem Closing.same (hl : ∀ e ∈ l, e.isPlain = true) (he : c'.channel.events = c.channel.events)
    (hs : c'.state = .kDisconnected → c.state = .kDisconnected) : Closing c c' l where
  off h hd := he ▸ h (hs hd)
  add _ ctl h := absurd (hl _ h) (by simp)
  message h := absurd (hl _ h) (by simp)
  down h := absurd (hl _ h) (by simp)
  poll h := absurd (hl _ h) (by simp)

/-- A connection that is not disconnected afterwards. -/
theorem Closing.alive (hs : c'.state ≠ .kDisconnected)
    (hl : ∀ e ∈ l, e ≠ .closeCallback ∧ e ≠ .poll) : Closing c c' l where
  off _ h := absurd h hs
  add _ _ _ _ := hs
  message _ := hs
  down h := absurd rfl (hl _ h).1
  poll h := absurd rfl (hl _ h).2

/-- A plain event may come before a call. -/
theorem Closing.cons (hx : x.isPlain = true) (e : Closing c c' l) : Closing c c' (x :: l) where
  off := e.off
  add ho ctl h := e.add ho ctl ((List.mem_cons.1 h).resolve_left fun he => by simp [← he] at hx)
  message h := e.message ((List.mem_cons.1 h).resolve_left fun he => by simp [← he] at hx)
  down h := e.down ((List.mem_cons.1 h).resolve_left fun he => by simp [← he] at hx)
  poll h := e.poll ((List.mem_cons.1 h).resolve_left fun he => by simp [← he] at hx)

end Closing

namespace TcpConnection

variable {c c' : TcpConnection} {l : List Event} {b : Bool} {t : Pid} {k : ℕ} {d : Bytes}
  {r : ReadResult} {w : WriteResult}

theorem handleClose_closing (h : c.handleClose = .ok (c', l)) : Closing c c' l := by
  obtain ⟨-, rfl, rfl⟩ := handleClose_cases h
  exact {
    off := fun _ _ => rfl
    add := fun _ ctl hm ha => by
      simp only [List.mem_cons, List.not_mem_nil, or_false, reduceCtorEq, false_or,
        Event.epollCtl.injEq] at hm
      simp [hm, Channel.ctl] at ha
    message := by simp
    down := fun _ => rfl
    poll := by simp }

theorem sendInLoop_state (h : c.sendInLoop t k d w = .ok (c', l)) :
    c'.state = c.state ∧ (c.state = .kDisconnected → c' = c ∧ l = [.sendInLoop t k d]) := by
  unfold sendInLoop at h
  split_ifs at h with hd
  · cases h; exact ⟨rfl, fun _ => ⟨rfl, rfl⟩⟩
  refine ⟨?_, fun hd' => absurd hd' hd⟩
  cases hw : c.writeDirect d w with
  | error a => simp [hw] at h
  | ok p =>
    obtain ⟨n, faultError, m⟩ := p
    simp only [hw] at h
    split_ifs at h
    · obtain ⟨m', hb, -⟩ := Result.after_eq_ok.1 h
      obtain ⟨rfl, -⟩ := bufferRest_cases hb
      rfl
    · cases h; rfl

theorem sendInLoop_closing (h : c.sendInLoop t k d w = .ok (c', l)) : Closing c c' l := by
  obtain ⟨hs, hd⟩ := sendInLoop_state h
  by_cases hc : c.state = .kDisconnected
  · obtain ⟨rfl, rfl⟩ := hd hc
    exact .same (by simp) rfl id
  · obtain ⟨m, rfl, hm⟩ := sendInLoop_events h
    refine .alive (hs ▸ hc) fun e he => ?_
    rcases List.mem_cons.1 he with rfl | he
    · simp
    · have := hm e he
      constructor <;> rintro rfl <;> simp at this

theorem stopReadInLoop_closing (h : c.stopReadInLoop = .ok (c', l)) : Closing c c' l := by
  obtain ⟨hr, rfl, rfl⟩ | ⟨-, rfl, rfl⟩ := stopReadInLoop_cases h
  · -- a disconnected connection is not reading
    by_cases hd : c.state = .kDisconnected
    · have hne : c.channel.events ≠ ∅ := Finset.nonempty_iff_ne_empty.1 ⟨_, hr⟩
      exact { off := fun ho => absurd (ho hd) hne, add := fun ho => absurd (ho hd) hne
              message := by simp, down := by simp, poll := by simp }
    · exact .alive hd (by simp)
  · exact .same (by simp) rfl id

theorem startReadInLoop_closing (hd : c.state ≠ .kDisconnected)
    (h : c.startReadInLoop = .ok (c', l)) : Closing c c' l := by
  obtain ⟨-, rfl, rfl⟩ | ⟨-, rfl, rfl⟩ := startReadInLoop_cases h <;> exact .alive hd (by simp)

theorem call_closing {op : Op} (hop : op = .startRead → b = true → c.state ≠ .kDisconnected)
    (h : c.call b t k op = .ok (c', l)) : Closing c c' l := by
  cases op with
  | send d w =>
    obtain ⟨-, rfl, rfl⟩ | ⟨-, -, m, hm, rfl, -⟩ | ⟨-, -, rfl, rfl⟩ := send_cases h
    · exact .same (by simp) rfl id
    · exact (sendInLoop_closing hm).cons rfl
    · exact .same (by simp) rfl id
  | shutdown =>
    obtain ⟨-, rfl, ⟨-, rfl⟩ | ⟨-, -, rfl⟩ | ⟨-, -, -, rfl⟩ | ⟨-, -, -, rfl⟩⟩ := shutdown_cases h <;>
      exact .alive (by simp) (by simp)
  | forceClose =>
    obtain ⟨-, rfl, rfl⟩ | ⟨-, rfl, rfl⟩ := forceClose_cases h
    · exact .alive (by simp) (by simp)
    · exact .same (by simp) rfl id
  | stopRead =>
    obtain ⟨-, h⟩ | ⟨-, rfl, rfl⟩ := stopRead_cases h
    · exact stopReadInLoop_closing h
    · exact .same (by simp) rfl id
  | startRead =>
    obtain ⟨hb, h⟩ | ⟨-, rfl, rfl⟩ := startRead_cases h
    · exact startReadInLoop_closing (hop rfl hb) h
    · exact .same (by simp) rfl id
  | setWriteCompleteCallback | setHighWaterMarkCallback mark | retrieveInput n =>
    cases h; exact .same (by simp) rfl id

theorem runJob_closing {j : Job} (hj : j = .startRead → c.state ≠ .kDisconnected)
    (h : c.runJob j w = .ok (c', l)) : Closing c c' l := by
  cases j with
  | sendInLoop u i d => exact sendInLoop_closing h
  | shutdownInLoop =>
    obtain ⟨rfl, ⟨-, -, rfl⟩ | rfl⟩ := shutdownInLoop_cases h <;>
      exact .same (by simp) rfl id
  | forceCloseInLoop =>
    obtain ⟨-, h⟩ | ⟨-, rfl, rfl⟩ := forceCloseInLoop_cases h
    · exact handleClose_closing h
    · exact .same (by simp) rfl id
  | writeComplete | highWaterMark len =>
    cases h; exact .same (by simp) rfl id
  | stopRead => exact stopReadInLoop_closing h
  | startRead => exact startReadInLoop_closing (hj rfl) h

theorem handleWrite_closing (h : c.handleWrite w = .ok (c', l)) : Closing c c' l := by
  obtain ⟨-, rfl, rfl⟩ | ⟨hd, -, ⟨e, -, rfl, rfl⟩ | ⟨n, -, -, rfl, rfl⟩ | ⟨n, -, -, rfl, rfl⟩⟩ :=
    handleWrite_cases h
  · exact .same (by simp) rfl id
  · exact .alive hd (by simp)
  · exact .alive hd (by simp)
  · refine .alive hd ?_
    split_ifs <;> simp

theorem handleRead_closing (h : c.handleRead r = .ok (c', l)) : Closing c c' l := by
  obtain ⟨hd, ⟨rfl, rfl⟩ | ⟨m, hm, rfl⟩ | ⟨bytes, rfl, rfl⟩⟩ := handleRead_cases h
  · exact .alive hd (by simp)
  · exact (handleClose_closing hm).cons rfl
  · exact .alive hd (by simp)

/-- The flag `handlingEvents_` may change behind the call. -/
theorem Closing.set_handling {b : Bool} (e : Closing c c' l) :
    Closing c { c' with channel := { c'.channel with handlingEvents := b } } l where
  off := e.off
  add := e.add
  message := e.message
  down := e.down
  poll := e.poll

theorem handleStage_closing {st : Stage} (h : c.handleStage st r w = .ok (c', l)) :
    Closing c c' l := by
  cases StageStep.of_handleStage h with
  | idle => exact .same (by simp) rfl id
  | close _ h =>
    have e := handleClose_closing h
    exact { off := e.off, add := e.add, message := e.message, down := e.down, poll := e.poll }
  | read _ h => exact handleRead_closing h
  | write _ h => exact Closing.set_handling (handleWrite_closing h)

end TcpConnection
namespace Connection

variable {threadId : Pid} {s s' : Run} {lab : Label}

/-- The next step of the dispatch calls `handleRead`. -/
def Run.EntersHandleRead (s : Run) : Prop :=
  s.phase = .dispatch (some .read) ∧
    s.conn.channel.revents ∩ {.epollin, .epollpri, .epollrdhup} ≠ ∅

/-- Once closed, the channel is not registered and never registered again, and `handleRead` is
not entered in a later iteration; messages come after the up and before the down callback. -/
structure StaysClosed (s : Run) : Prop where
  off : .closed ∈ s.history → s.conn.channel.polling = false ∧ s.conn.channel.events = ∅
  add : ∀ ctl : EpollCtl, ctl.op = .add → ¬ [.closed, .epollCtl ctl].Sublist s.history
  handleRead : s.EntersHandleRead → ¬ [.closed, .poll].Sublist s.history
  message : Whenever (· = .messageCallback) (fun g => .up ∈ g ∧ .closeCallback ∉ g) s.history

/-- The body of `startRead` does not run on a disconnected connection. -/
def NoRestart (threadId : Pid) (s : Run) : Label → Prop
  | .call t .startRead => t = threadId → s.conn.state ≠ .kDisconnected
  | .runJob _ => s.jobs.head? = some .startRead → s.conn.state ≠ .kDisconnected
  | _ => True

instance (threadId : Pid) (s : Run) : DecidablePred (NoRestart threadId s) := fun lab =>
  match lab with
  | .call t .startRead => inferInstanceAs (Decidable (t = threadId → _))
  | .runJob _ => inferInstanceAs (Decidable (_ = _ → _))
  | .call _ (.send ..) | .call _ .shutdown | .call _ .forceClose | .call _ .stopRead
  | .call _ .setWriteCompleteCallback | .call _ (.setHighWaterMarkCallback _)
  | .call _ (.retrieveInput _) => isTrue trivial
  | .poll _ | .handle .. | .swap | .endJobs => isTrue trivial

/-- The invariant behind `StaysClosed`. -/
structure Off (s : Run) : Prop where
  off : s.conn.state = .kDisconnected → s.conn.channel.events = ∅
  add : ∀ ctl : EpollCtl, ctl.op = .add → ¬ [.closed, .epollCtl ctl].Sublist s.history
  late : [.closed, .poll].Sublist s.history → ∀ st, s.phase ≠ .dispatch (some st)
  message : Whenever (· = .messageCallback) (fun g => .up ∈ g ∧ .closeCallback ∉ g) s.history
  up : .up ∈ s.history
  down : .closeCallback ∈ s.history → s.conn.state = .kDisconnected

theorem staysClosed_of_off (hi : Inv s) (hs : Off s) : StaysClosed s where
  off hc := by
    have he := hs.off (hi.closed.1 hc)
    refine ⟨?_, he⟩
    by_contra hp
    exact hi.synced.2.1 (by simpa using hp) he
  add := hs.add
  handleRead he hsub := hs.late hsub _ he.1
  message := hs.message

theorem Off.of_init (h : Init s) : Off s := by
  obtain ⟨k, fd, writeComplete, highWater, mark, -, rfl⟩ := init_iff.1 h
  refine { off := by simp [Run.start], add := fun ctl _ hsub => ?_, late := by simp [Run.start]
           message := by simp [Run.start], up := by simp [Run.start], down := by simp [Run.start] }
  have : .closed ∈ (Run.start k fd writeComplete highWater mark).history := hsub.subset (by simp)
  simp [Run.start] at this

/-- A call, a handler or a closure; `t` differs from `s` in the phase and the queue. -/
theorem Off.apply {t : Run} {c : TcpConnection} {l : List Event} (hi : Inv s) (hs : Off s)
    (e : Effect s.conn c l) (ec : Closing s.conn c l) (hc : t.conn = c)
    (hh : t.history = s.history ++ l)
    (hp : (∃ st, t.phase = .dispatch (some st)) → ∃ st, s.phase = .dispatch (some st)) :
    Off t where
  off := hc ▸ ec.off hs.off
  add ctl ha hsub := by
    by_cases hm : .epollCtl ctl ∈ l
    · -- nothing before or in this call has closed the connection
      have hcl : .closed ∈ t.history := hsub.subset (by simp)
      have hd := ec.add hs.off ctl hm ha
      rw [hh, List.mem_append, hi.closed, e.closed] at hcl
      rcases hcl with hcl | hcl
      · exact hd (eq_disconnected_of_mono e hcl)
      · exact hd hcl.2
    · rw [hh, pair_sublist_append_of_notMem hm] at hsub
      exact hs.add ctl ha hsub
  late hsub st hst := by
    rw [hh, pair_sublist_append_of_notMem ec.poll] at hsub
    obtain ⟨st', hst'⟩ := hp ⟨st, hst⟩
    exact hs.late hsub st' hst'
  message := by
    rw [hh]
    refine whenever_append.2 ⟨hs.message, fun l₁ x l₂ he hx => ?_⟩
    subst hx
    have hd := ec.message (by simp [he])
    refine ⟨List.mem_append_left _ hs.up, fun hm => ?_⟩
    rcases List.mem_append.1 hm with hm | hm
    · exact hd (eq_disconnected_of_mono e (hs.down hm))
    · exact hd (ec.down (by simp [he, hm]))
  up := hh ▸ List.mem_append_left _ hs.up
  down hm := by
    rw [hc]
    rw [hh] at hm
    rcases List.mem_append.1 hm with hm | hm
    · exact eq_disconnected_of_mono e (hs.down hm)
    · exact ec.down hm

/-- `epoll_wait` reports nothing for a closed connection. -/
theorem Off.poll {t : Run} (hs : Off s) (hst : t.conn.state = s.conn.state)
    (hev : t.conn.channel.events = s.conn.channel.events) (hh : t.history = s.history ++ [.poll])
    (hp : .closed ∈ s.history → ∀ st, t.phase ≠ .dispatch (some st)) : Off t where
  off h := hev.trans (hs.off (hst ▸ h))
  add ctl ha := by
    rw [hh, pair_sublist_append_of_notMem (by simp)]
    exact hs.add ctl ha
  late h := by
    rw [hh, pair_sublist_concat] at h
    exact hp h
  message := by
    rw [hh]
    exact whenever_append.2 ⟨hs.message, by simp⟩
  up := hh ▸ List.mem_append_left _ hs.up
  down h := hst.trans (hs.down (by simpa [hh] using h))

theorem Off.step (hi : Inv s) (hs : Off s) (hc : NoRestart threadId s lab)
    (h : Step threadId s lab s') : Off s' := by
  cases h with
  | @call t op c l ht h =>
    have ec : Closing s.conn c l := TcpConnection.call_closing (fun ho hb => by
      subst ho; exact hc (by simpa using hb)) h
    exact hs.apply hi (TcpConnection.call_growth h).toEffect ec rfl rfl id
  | idle hp => exact hs.poll rfl rfl rfl (by simp)
  | poll hp hm =>
    refine hs.poll rfl rfl rfl fun hcl => ?_
    obtain ⟨-, hne⟩ := hi.synced
    obtain ⟨m', hk, -⟩ := reportable_iff.1 hm
    have hpoll : s.conn.channel.polling = true := by
      by_contra hp'
      rw [hi.synced.1, if_neg hp'] at hk
      cases hk
    exact absurd (hs.off (hi.closed.1 hcl)) (hne.1 hpoll)
  | @handle r w st c l hp h =>
    exact hs.apply hi (TcpConnection.handleStage_effect h) (TcpConnection.handleStage_closing h)
      rfl rfl fun _ => ⟨st, hp⟩
  | swap hp =>
    exact { off := hs.off, add := hs.add, late := by simp, message := hs.message, up := hs.up
            down := hs.down }
  | @runJob w j js c l hp hj h =>
    have ec : Closing s.conn c l := TcpConnection.runJob_closing (fun ho => by
      subst ho; exact hc (by simp [hj])) h
    refine hs.apply hi (TcpConnection.runJob_growth h).toEffect ec rfl rfl ?_
    simp [hp]
  | endJobs hp hj =>
    exact { off := hs.off, add := hs.add, late := by simp, message := hs.message, up := hs.up
            down := hs.down }

/-- **Closed stays closed.**  In every run in which the body of `startRead` does not run on a
disconnected connection. -/
theorem staysClosed (hr : (system threadId).ReachableIf (NoRestart threadId) s) :
    StaysClosed s := by
  refine staysClosed_of_off (.of_reachable hr) ?_
  exact hr.invariant_of (fun _ => Inv.of_reachable) (fun _ => Off.of_init)
    fun _ _ _ hi hs hc h => hs.step hi hc (.of_step h)

/-- A connection that receives data, is stopped and started again, and is closed by its peer. -/
theorem staysClosed_peer :
    ∃ s, (system 1).ReachableIf (NoRestart 1) s ∧ .messageCallback ∈ s.history ∧
      .closed ∈ s.history ∧ StaysClosed s := by
  obtain ⟨s, hr, h1, h2⟩ := System.exists_reachableIf (S := system 1) (C := NoRestart 1)
    (P := fun s => .messageCallback ∈ s.history ∧ .closed ∈ s.history)
    (w := [.swap, .endJobs, .poll (some {.epollin}), .handle (.data [7]) (.wrote 0),
      .handle (.data [7]) (.wrote 0), .handle (.data [7]) (.wrote 0), .call 1 .stopRead,
      .call 1 .startRead, .handle (.data [7]) (.wrote 0), .swap, .endJobs, .poll (some {.epollhup}),
      .handle (.data []) (.wrote 0)])
    (start_init 5 false false 0) (by decide +kernel)
  exact ⟨s, hr, h1, h2, staysClosed hr⟩

/-- A write completes before the peer closes, and the write-complete callback, which runs after the
close, calls `startRead`; the next dispatch is about to call `handleRead`. -/
def restartingRun : List Label :=
  [.swap, .endJobs, .poll (some {.epollin}), .call 1 (.send [1] (.wrote 1)),
    .handle (.data []) (.wrote 0), .handle (.data []) (.wrote 0), .handle (.data []) (.wrote 0),
    .handle (.data []) (.wrote 0), .swap, .runJob (.wrote 0), .call 1 .startRead, .endJobs,
    .poll (some {.epollin}), .handle (.data []) (.wrote 0), .handle (.data []) (.wrote 0)]

/-- The closed connection is registered again, and its dispatch trips the assertion of
`handleRead`. -/
theorem staysClosed_fails :
    ∃ s, (system 1).exec (.start (fun _ => none) 5 true false 0) restartingRun = .next s ∧
      (system 1).Reachable s ∧ ¬ StaysClosed s ∧ s.conn.channel.polling = true ∧
      (system 1).step s (.handle (.data []) (.wrote 0)) = .failed .handleRead := by
  have hrun : ((system 1).exec (.start (fun _ => none) 5 true false 0) restartingRun).Leads
      fun s => .closed ∈ s.history ∧ s.conn.channel.polling = true ∧
        (system 1).step s (.handle (.data []) (.wrote 0)) = .failed .handleRead := by
    decide +kernel
  obtain ⟨s, hs, hcl, hp, hf⟩ := hrun
  refine ⟨s, hs, System.reachable_of_exec (start_init 5 true false 0) hs, fun hst => ?_, hp, hf⟩
  rw [(hst.off hcl).1] at hp
  cases hp

end Connection
end Leven
