import Leven.TcpConnection.Operations

/-!
# Reading is stopped

`enableRead` subscribes to `EPOLLIN` and `EPOLLPRI`, `disableRead` takes back `EPOLLIN` only, and
`handleEventsWithGuard` calls the read callback for either.  So urgent data is read while reading
is stopped.

* `Masked`: the bits a connection subscribes to;
* `Stopped`, `Halted`: a history in which reading has been stopped and not been started again, and
  in which a later iteration of the loop has begun;
* `Calm`: no urgent data is reported while the channel is not reading;
* `stopRead_stops`: without urgent data `stopRead` stops reading and `startRead` restores the mask;
  `stopRead_fails` has urgent data.
-/

namespace Leven

open Transition

theorem Channel.Performs.events_cases {ch ch' : Channel} {op : Option ChannelOp}
    {ctls : List EpollCtl} (h : ch.Performs op ctls ch') :
    ch'.events = ch.events ∨ ∃ o, op = some o ∧ ch'.events = o.mask ch.events := by
  cases op with
  | none => exact .inl h.2.1
  | some o =>
    obtain ⟨ha, ch₁, ctl, hrun, -, he, -⟩ := h
    rw [ChannelOp.run_eq ha] at hrun
    cases hrun
    exact .inr ⟨o, rfl, he⟩

/-- The bits a connection subscribes to; `EPOLLIN` comes with `EPOLLPRI`. -/
def Masked (ch : Channel) : Prop :=
  ch.events ⊆ {.epollin, .epollpri, .epollout} ∧ (ch.isReading → .epollpri ∈ ch.events)

theorem Masked.performs {ch ch' : Channel} {op : Option ChannelOp} {ctls : List EpollCtl}
    (hm : Masked ch) (h : ch.Performs op ctls ch') : Masked ch' := by
  obtain ⟨hsub, hpri⟩ := hm
  obtain he | ⟨o, -, he⟩ := h.events_cases
  · unfold Masked Channel.isReading
    rw [he]
    exact ⟨hsub, hpri⟩
  · unfold Masked Channel.isReading
    rw [he]
    cases o with
    | enableRead =>
      refine ⟨?_, fun _ => by simp [ChannelOp.mask]⟩
      exact Finset.union_subset hsub (by decide)
    | enableWrite =>
      refine ⟨Finset.union_subset hsub (by decide), fun hr => ?_⟩
      have hr' : ch.isReading := by simpa [ChannelOp.mask, Channel.isReading] using hr
      exact Finset.mem_union_left _ (hpri hr')
    | disableRead =>
      refine ⟨Finset.sdiff_subset.trans hsub, fun hr => ?_⟩
      simp [ChannelOp.mask] at hr
    | disableWrite =>
      refine ⟨Finset.sdiff_subset.trans hsub, fun hr => ?_⟩
      have hr' : ch.isReading := by simpa [ChannelOp.mask, Channel.isReading] using hr
      simpa [ChannelOp.mask] using hpri hr'
    | disableAll => simp [ChannelOp.mask]

/-- A channel that is reading has one mask, but for the write bit. -/
theorem Masked.eq_of_isReading {ch : Channel} (hm : Masked ch) (hr : ch.isReading) :
    ch.events \ {.epollout} = {.epollin, .epollpri} := by
  ext e
  have hsub := @hm.1 e
  have hpri := hm.2 hr
  unfold Channel.isReading at hr
  cases e <;> simp_all

/-- What is reported to a channel that is not reading does not call for reading, unless it is urgent
data. -/
theorem Masked.inter_eq_empty {ch : Channel} {m : Mask} (hm : Masked ch)
    (hrep : Reportable (some ch.events) m) (hr : ¬ ch.isReading) (hpri : .epollpri ∉ m) :
    m ∩ {.epollin, .epollpri, .epollrdhup} = ∅ := by
  refine Finset.eq_empty_of_forall_notMem fun e he => ?_
  obtain ⟨hem, hbits⟩ := Finset.mem_inter.1 he
  simp only [Finset.mem_insert, Finset.mem_singleton] at hbits
  obtain rfl | rfl | rfl := hbits
  · exact hr (hrep.mem hem (by decide) (by decide))
  · exact hpri hem
  · have hrdhup := hm.1 (hrep.mem hem (by decide) (by decide))
    simp at hrdhup

/-- Reading has been stopped and not been started again. -/
def Stopped (h : List Event) : Prop := ∃ g g', h = g ++ .stopRead :: g' ∧ .startRead ∉ g'

/-- And a later iteration of the loop has begun. -/
def Halted (h : List Event) : Prop :=
  ∃ g g', h = g ++ .stopRead :: g' ∧ .startRead ∉ g' ∧ .poll ∈ g'

/-- `handleRead` reads, or hands what it has read to the user. -/
def Event.Reads (e : Event) : Prop := e = .readFd ∨ e = .messageCallback

/-- Neither an iteration nor a read. -/
@[simp] def Event.noRead : Event → Bool
  | .poll | .readFd | .messageCallback => false
  | _ => true

section Histories

variable {h l : List Event}

theorem Halted.of_append (hl : .poll ∉ l) (hh : Halted (h ++ l)) : Halted h := by
  obtain ⟨g, g', he, hs, hp⟩ := hh
  rcases append_eq_append_cons he with ⟨a, ha, rfl⟩ | ⟨a, -, ha⟩
  · rw [List.mem_append, not_or] at hs
    exact ⟨g, a, ha, hs.1, (List.mem_append.1 hp).resolve_right hl⟩
  · exact absurd (by rw [ha]; simp [hp]) hl

theorem Halted.stopped_of_append (hh : Halted (h ++ [.poll])) : Stopped h := by
  obtain ⟨g, g', he, hs, -⟩ := hh
  rcases append_eq_append_cons he with ⟨a, ha, rfl⟩ | ⟨a, -, ha⟩
  · rw [List.mem_append, not_or] at hs
    exact ⟨g, a, ha, hs.1⟩
  · have hmem : .stopRead ∈ [Event.poll] := by
      rw [ha]
      simp
    simp at hmem

/-- Reading has been stopped in a step, or before and not been started in it. -/
theorem Stopped.of_append (hh : Stopped (h ++ l)) :
    .stopRead ∈ l ∨ Stopped h ∧ .startRead ∉ l := by
  obtain ⟨g, g', he, hs⟩ := hh
  rcases append_eq_append_cons he with ⟨a, ha, rfl⟩ | ⟨a, -, ha⟩
  · rw [List.mem_append, not_or] at hs
    exact .inr ⟨⟨g, a, ha, hs.1⟩, hs.2⟩
  · left
    rw [ha]
    simp

end Histories

namespace TcpConnection

variable {c c' : TcpConnection} {l : List Event} {b : Bool} {t : Pid} {k : ℕ} {d : Bytes}
  {r : ReadResult} {w : WriteResult}

theorem noRead_of_ofSend {e : Event} (h : e.ofSend = true) : e.noRead = true := by
  cases e <;> first | rfl | simp at h

theorem call_noRead {op : Op} (h : c.call b t k op = .ok (c', l)) : ∀ e ∈ l, e.noRead = true := by
  by_cases hop : ∃ d w, op = .send d w
  · obtain ⟨d, w, rfl⟩ := hop
    obtain ⟨-, -, rfl⟩ | ⟨-, -, m, -, rfl, hm⟩ | ⟨-, -, -, rfl⟩ := send_cases h
    · simp
    · simpa using fun e he => noRead_of_ofSend (hm e he)
    · simp
  · intro e he
    have hcall := call_events (fun d w he => hop ⟨d, w, he⟩) h e he
    cases e <;> first | rfl | simp at hcall

theorem runJob_noRead {j : Job} (h : c.runJob j w = .ok (c', l)) : ∀ e ∈ l, e.noRead = true := by
  by_cases hj : ∃ u i d, j = .sendInLoop u i d
  · obtain ⟨u, i, d, rfl⟩ := hj
    obtain ⟨m, rfl, hm⟩ := sendInLoop_events h
    simpa using fun e he => noRead_of_ofSend (hm e he)
  · intro e he
    have hjob := runJob_events (fun u i d he => hj ⟨u, i, d, he⟩) h e he
    cases e <;> first | rfl | simp at hjob

/-- Only the stage of the read callback reads, and it looks at the reported mask. -/
theorem reads_of_handleStage {st : Stage} {e : Event} (h : c.handleStage st r w = .ok (c', l))
    (he : e ∈ l) (hr : e.Reads) :
    c.channel.revents ∩ {.epollin, .epollpri, .epollrdhup} ≠ ∅ := by
  cases StageStep.of_handleStage h with
  | idle => cases he
  | close _ h =>
    obtain ⟨-, -, rfl⟩ := handleClose_cases h
    rcases hr with rfl | rfl <;> simp at he
  | read hm h => exact hm
  | write _ h =>
    -- `handleWrite` calls back through closures only
    obtain ⟨-, -, rfl⟩ | ⟨-, -, ⟨x, -, -, rfl⟩ | ⟨n, -, -, -, rfl⟩ | ⟨n, -, -, -, rfl⟩⟩ :=
      handleWrite_cases h
    · cases he
    · rcases hr with rfl | rfl <;> simp at he
    · rcases hr with rfl | rfl <;> simp at he
    · rcases hr with rfl | rfl <;> split_ifs at he <;> simp at he

end TcpConnection

namespace Connection

variable {threadId : Pid} {s s' : Run} {lab : Label} {C : Run → Label → Prop}

/-- No urgent data is reported while the channel is not reading. -/
def Calm (s : Run) : Label → Prop
  | .poll (some m) => .epollpri ∈ m → s.conn.channel.isReading
  | _ => True

instance (s : Run) : DecidablePred (Calm s) := fun lab =>
  match lab with
  | .poll (some _) => inferInstanceAs (Decidable (_ → _))
  | .poll none | .call .. | .handle .. | .swap | .runJob _ | .endJobs => isTrue trivial

theorem Masked.of_init (h : Init s) : Masked s.conn.channel := by
  obtain ⟨k, fd, writeComplete, highWater, mark, -, rfl⟩ := init_iff.1 h
  constructor
  · exact (by decide : startEvents ⊆ {.epollin, .epollpri, .epollout})
  · intro _
    exact (by decide : .epollpri ∈ startEvents)

theorem Masked.step (hi : Inv s) (hs : Masked s.conn.channel) (h : Step threadId s lab s') :
    Masked s'.conn.channel := by
  obtain ⟨l, op, -, ho, -⟩ := h.operates hi
  exact hs.performs ho.performs

theorem Masked.of_reachable (hr : (system threadId).ReachableIf C s) : Masked s.conn.channel :=
  hr.invariant_of (I := fun s => Masked s.conn.channel) (fun _ => Inv.of_reachable)
    (fun s h => Masked.of_init (s := s) h) fun _ _ _ hi hs _ h => Masked.step hi hs (.of_step h)

/-- Reading that has been stopped stays off, and is not called for by a dispatch that started
later. -/
structure Silent (s : Run) : Prop where
  stopped : Stopped s.history → ¬ s.conn.channel.isReading
  late : Halted s.history → ∀ st, s.phase = .dispatch (some st) →
    s.conn.channel.revents ∩ {.epollin, .epollpri, .epollrdhup} = ∅
  silent : Whenever Event.Reads (fun g => ¬ Halted g) s.history

/-- Reading comes back only with the body of `startRead`. -/
theorem stopped_append {c c' : TcpConnection} {h l : List Event} {op : Option ChannelOp}
    (ho : Operates c c' l op) (hs : Stopped h → ¬ c.channel.isReading) (hh : Stopped (h ++ l)) :
    ¬ c'.channel.isReading := by
  intro hr
  rcases hh.of_append with hmem | ⟨hold, hmem⟩
  · exact ho.stop hmem hr
  · have hne := hs hold
    obtain he | ⟨o, rfl, he⟩ := ho.performs.events_cases
    · unfold Channel.isReading at hr hne
      exact hne (he ▸ hr)
    · unfold Channel.isReading at hr
      rw [he] at hr
      rcases ChannelOp.mem_mask_epollin hr with rfl | hr
      · exact hmem (ho.enable rfl)
      · exact hne hr

/-- A call, a handler or a closure; `t` differs from `s` in the phase and the queue. -/
theorem Silent.apply {t : Run} {c : TcpConnection} {l : List Event} {op : Option ChannelOp}
    (hs : Silent s) (ho : Operates s.conn c l op) (hc : t.conn = c)
    (hrev : c.channel.revents = s.conn.channel.revents) (hh : t.history = s.history ++ l)
    (hpoll : .poll ∉ l)
    (hp : (∃ st, t.phase = .dispatch (some st)) → ∃ st, s.phase = .dispatch (some st))
    (hread : ∀ e ∈ l, e.Reads → (∃ st, s.phase = .dispatch (some st)) ∧
      s.conn.channel.revents ∩ {.epollin, .epollpri, .epollrdhup} ≠ ∅) : Silent t where
  stopped hst := by
    rw [hh] at hst
    rw [hc]
    exact stopped_append ho hs.stopped hst
  late hst st hph := by
    rw [hh] at hst
    obtain ⟨st', hph'⟩ := hp ⟨st, hph⟩
    rw [hc, hrev]
    exact hs.late (hst.of_append hpoll) st' hph'
  silent := by
    rw [hh]
    refine whenever_append.2 ⟨hs.silent, fun l₁ x l₂ he hx hhalt => ?_⟩
    subst he
    obtain ⟨⟨st, hph⟩, hne⟩ := hread x (by simp) hx
    have hpoll₁ : .poll ∉ l₁ := fun hm => hpoll (List.mem_append_left _ hm)
    exact hne (hs.late (hhalt.of_append hpoll₁) st hph)

theorem Silent.of_init (h : Init s) : Silent s := by
  obtain ⟨k, fd, writeComplete, highWater, mark, -, rfl⟩ := init_iff.1 h
  have hno : .stopRead ∉ (Run.start k fd writeComplete highWater mark).history := by
    simp [Run.start]
  constructor
  · rintro ⟨g, g', he, -⟩
    exact absurd (by rw [he]; simp) hno
  · rintro ⟨g, g', he, -⟩
    exact absurd (by rw [he]; simp) hno
  · refine whenever_of_forall_not fun x hx hr => ?_
    rcases hr with rfl | rfl <;> simp [Run.start] at hx

theorem Silent.step (hi : Inv s) (hm : Masked s.conn.channel) (hs : Silent s) (hc : Calm s lab)
    (h : Step threadId s lab s') : Silent s' := by
  have hnoRead : ∀ {l : List Event}, (∀ e ∈ l, e.noRead = true) →
      .poll ∉ l ∧ ∀ e ∈ l, ¬ e.Reads := by
    intro l hl
    refine ⟨fun hp => by simpa using hl _ hp, fun e he hr => ?_⟩
    rcases hr with rfl | rfl <;> simpa using hl _ he
  have hpolled : Whenever Event.Reads (fun g => ¬ Halted g) (s.history ++ [.poll]) := by
    refine whenever_append.2 ⟨hs.silent, whenever_of_forall_not fun x hx hr => ?_⟩
    rcases hr with rfl | rfl <;> simp at hx
  have hstop : Stopped (s.history ++ [.poll]) → ¬ s.conn.channel.isReading := fun hst =>
    stopped_append (.none (by simp) rfl rfl : Operates s.conn s.conn [.poll] none) hs.stopped hst
  cases h with
  | @call t op c l ht h =>
    obtain ⟨op', ho⟩ := TcpConnection.call_operates hi.polled h
    obtain ⟨hpoll, hread⟩ := hnoRead (TcpConnection.call_noRead h)
    exact hs.apply ho rfl (TcpConnection.call_growth h).revents rfl hpoll id
      fun e he hr => absurd hr (hread e he)
  | idle hp => exact ⟨hstop, by simp, hpolled⟩
  | @poll m hp hrep =>
    refine ⟨hstop, fun hst st _ => ?_, hpolled⟩
    -- `EPOLLIN` is not subscribed, and `EPOLLPRI` is not reported
    have hne := hs.stopped hst.stopped_of_append
    have hev : s.interest s.conn.channel.fd = some s.conn.channel.events := by
      obtain ⟨m', hk, -⟩ := reportable_iff.1 hrep
      rw [hi.synced.1] at hk ⊢
      split_ifs at hk ⊢
      rfl
    rw [hev] at hrep
    exact hm.inter_eq_empty hrep hne fun hpri => hne (hc hpri)
  | @handle r w st c l hp h =>
    obtain ⟨op, ho⟩ := TcpConnection.handleStage_operates hi.sound h
    have hpoll : .poll ∉ l := fun hm => by simpa using TcpConnection.handleStage_events h _ hm
    exact hs.apply ho rfl (TcpConnection.handleStage_effect h).revents rfl hpoll
      (fun _ => ⟨st, hp⟩) fun e he hr => ⟨⟨st, hp⟩, TcpConnection.reads_of_handleStage h he hr⟩
  | swap hp => exact ⟨hs.stopped, by simp, hs.silent⟩
  | @runJob w j js c l hp hj h =>
    obtain ⟨op', ho⟩ := TcpConnection.runJob_operates hi.sound hi.polled h
    obtain ⟨hpoll, hread⟩ := hnoRead (TcpConnection.runJob_noRead h)
    exact hs.apply ho rfl (TcpConnection.runJob_growth h).revents rfl hpoll (by simp [hp])
      fun e he hr => absurd hr (hread e he)
  | endJobs hp hj => exact ⟨hs.stopped, by simp, hs.silent⟩

theorem Silent.of_reachable (hr : (system threadId).ReachableIf Calm s) : Silent s :=
  hr.invariant_of (J := fun s => Inv s ∧ Masked s.conn.channel)
    (fun _ hr => ⟨.of_reachable hr, Masked.of_reachable hr⟩) (fun _ => Silent.of_init)
    fun _ _ _ hj hs hc h => hs.step hj.1 hj.2 hc (.of_step h)

/-- **`stopRead` stops reading.**  In every run in which no urgent data is reported while the
channel is not reading: behind a `stopRead`, as long as there is no `startRead`, a dispatch that
starts in a later iteration neither calls `readFd` nor `messageCallback_`; and when a `stopRead` has
stopped reading, the next `startRead` leaves the mask as it was before, but for the write bit. -/
theorem stopRead_stops (hr : (system threadId).ReachableIf Calm s) :
    Whenever Event.Reads (fun g => ¬ Halted g) s.history ∧
    ∀ lab₁ s₁ l₁ s₂ lab₂ s₃ l₂, s.conn.channel.isReading →
      (system threadId).step s lab₁ = .next s₁ → s₁.history = s.history ++ l₁ → .stopRead ∈ l₁ →
      (system threadId).RunIf Calm s₁ s₂ → (system threadId).step s₂ lab₂ = .next s₃ →
      s₃.history = s₂.history ++ l₂ → .startRead ∈ l₂ →
      s₃.conn.channel.events \ {.epollout} = s.conn.channel.events \ {.epollout} := by
  refine ⟨(Silent.of_reachable hr).silent, ?_⟩
  intro lab₁ s₁ l₁ s₂ lab₂ s₃ l₂ hreading h₁ _ _ hrun h₃ hh₃ hstart
  have hi : Inv s := .of_reachable hr
  have hm : Masked s.conn.channel := Masked.of_reachable hr
  have hs₁ : Inv s₁ ∧ Masked s₁.conn.channel :=
    ⟨hi.step (.of_step h₁), Masked.step hi hm (.of_step h₁)⟩
  obtain ⟨hi₂, hm₂⟩ := hrun.invariant (I := fun s => Inv s ∧ Masked s.conn.channel)
    (fun s lab s' hs _ h => ⟨hs.1.step (.of_step h), Masked.step hs.1 hs.2 (.of_step h)⟩) hs₁
  have hm₃ := Masked.step hi₂ hm₂ (.of_step h₃)
  obtain ⟨l, op, hh, ho, -⟩ := (Step.of_step h₃).operates hi₂
  obtain rfl : l₂ = l := List.append_cancel_left (hh₃.symm.trans hh)
  rw [hm.eq_of_isReading hreading, hm₃.eq_of_isReading (ho.start hstart)]

/-- A connection that is stopped, receives data, and is started again. -/
theorem stopRead_stops_started :
    ∃ s, (system 1).ReachableIf Calm s ∧
      [.stopRead, .poll, .startRead, .poll, .readFd].Sublist s.history ∧
      Whenever Event.Reads (fun g => ¬ Halted g) s.history := by
  obtain ⟨s, hr, hsub⟩ := System.exists_reachableIf (S := system 1) (C := Calm)
    (P := fun s => [.stopRead, .poll, .startRead, .poll, .readFd].Sublist s.history)
    (w := [.call 1 .stopRead, .swap, .endJobs, .poll none, .call 1 .startRead, .swap, .endJobs,
      .poll (some {.epollin}), .handle (.data [7]) (.wrote 0), .handle (.data [7]) (.wrote 0),
      .handle (.data [7]) (.wrote 0)])
    (start_init 5 false false 0) (by decide +kernel)
  exact ⟨s, hr, hsub, (stopRead_stops hr).1⟩

/-- Reading is stopped, and the peer sends urgent data. -/
def urgentRun : List Label :=
  [.call 1 .stopRead, .swap, .endJobs, .poll (some {.epollpri}), .handle (.data [7]) (.wrote 0),
    .handle (.data [7]) (.wrote 0), .handle (.data [7]) (.wrote 0)]

/-- The dispatch reads, and calls the message callback. -/
theorem stopRead_fails :
    ∃ s, (system 1).exec (.start (fun _ => none) 5 false false 0) urgentRun = .next s ∧
      (system 1).Reachable s ∧ ¬ s.conn.channel.isReading ∧
      ¬ Whenever Event.Reads (fun g => ¬ Halted g) s.history := by
  have hrun : ((system 1).exec (.start (fun _ => none) 5 false false 0) urgentRun).Leads
      fun s => ¬ s.conn.channel.isReading ∧ s.history.drop 2 = [.stopRead,
        .epollCtl ⟨.mod, 5, {.epollpri}⟩, .poll, .readFd, .messageCallback] := by
    decide +kernel
  obtain ⟨s, hs, hne, hh⟩ := hrun
  refine ⟨s, hs, System.reachable_of_exec (start_init 5 false false 0) hs, hne, fun hw => ?_⟩
  have hsplit : s.history = (s.history.take 2 ++
      [.stopRead, .epollCtl ⟨.mod, 5, {.epollpri}⟩, .poll]) ++ .readFd :: [.messageCallback] := by
    calc s.history = s.history.take 2 ++ s.history.drop 2 := (List.take_append_drop ..).symm
      _ = _ := by rw [hh, List.append_assoc]; rfl
  exact hw _ _ _ hsplit (.inl rfl) ⟨_, _, rfl, by simp, by simp⟩

end Connection
end Leven
