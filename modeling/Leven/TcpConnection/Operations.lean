import Leven.Channel.Family
import Leven.TcpConnection.Run

/-!
# The operations of a connection on its channel

Every member function of a connection runs at most one operation of its channel, and only what is
polling is disabled.

* `epollCtls l`: the calls of `epoll_ctl` among the events `l`;
* `Operates c c' l op`: the call that ends in `c'` with the events `l` runs `op` on the channel,
  and what it tells about the closures of `startRead` and `stopRead`;
* `call_operates`, `runJob_operates`, `handleStage_operates`, `connectEstablished_operates`;
* `interest_mirrored`: the interest list mirrors the channels of an epoll instance, and the
  connections keep to the precondition of this.
-/

namespace Leven

open Transition

/-- The calls of `epoll_ctl`. -/
def epollCtls (l : List Event) : List EpollCtl :=
  l.filterMap fun
    | .epollCtl c => some c
    | _ => none

@[simp] theorem epollCtls_nil : epollCtls [] = [] := rfl

@[simp] theorem epollCtls_append (l m : List Event) :
    epollCtls (l ++ m) = epollCtls l ++ epollCtls m := List.filterMap_append

@[simp] theorem epollCtls_cons (e : Event) (l : List Event) :
    epollCtls (e :: l) = (match e with | .epollCtl c => [c] | _ => []) ++ epollCtls l := by
  cases e <;> rfl

/-- Events that tell nothing about the channel. -/
@[simp] def Event.noChannel : Event → Bool
  | .epollCtl _ | .startRead | .stopRead => false
  | _ => true

theorem epollCtls_eq_nil {l : List Event} (hl : ∀ e ∈ l, e.noChannel = true) :
    epollCtls l = [] := by
  refine List.filterMap_eq_nil_iff.2 fun e he => ?_
  cases e <;> first | rfl | exact absurd (hl _ he) (by simp)

/-- What a member function does with the channel. -/
structure Operates (c c' : TcpConnection) (l : List Event) (op : Option ChannelOp) : Prop where
  performs : c.channel.Performs op (epollCtls l) c'.channel
  start : .startRead ∈ l → c'.channel.isReading
  stop : .stopRead ∈ l → ¬ c'.channel.isReading
  enable : op = some .enableRead → .startRead ∈ l

section Operates

variable {c c' : TcpConnection} {l m : List Event} {b : Bool} {t : Pid} {k : ℕ} {d : Bytes}
  {r : ReadResult} {w : WriteResult} {op : Option ChannelOp} {o : ChannelOp}

/-- No operation. -/
theorem Operates.none (hl : ∀ e ∈ l, e.noChannel = true)
    (he : c'.channel.events = c.channel.events) (hp : c'.channel.polling = c.channel.polling) :
    Operates c c' l none where
  performs := ⟨epollCtls_eq_nil hl, he, hp⟩
  start h := absurd (hl _ h) (by simp)
  stop h := absurd (hl _ h) (by simp)
  enable h := by cases h

theorem performs_some (ha : o.Allowed c.channel)
    (hl : epollCtls l = [c.channel.ctl (o.mask c.channel.events)])
    (he : c'.channel.events = o.mask c.channel.events)
    (hp : c'.channel.polling = decide (o.mask c.channel.events ≠ ∅)) :
    c.channel.Performs (some o) (epollCtls l) c'.channel :=
  ⟨ha, _, _, ChannelOp.run_eq ha, hl, he, hp⟩

/-- An operation other than those of `startRead` and `stopRead`. -/
theorem Operates.some (ha : o.Allowed c.channel) (ho : o ≠ .enableRead)
    (hs : .startRead ∉ l ∧ .stopRead ∉ l)
    (hl : epollCtls l = [c.channel.ctl (o.mask c.channel.events)])
    (he : c'.channel.events = o.mask c.channel.events)
    (hp : c'.channel.polling = decide (o.mask c.channel.events ≠ ∅)) :
    Operates c c' l (some o) where
  performs := performs_some ha hl he hp
  start h := absurd h hs.1
  stop h := absurd h hs.2
  enable h := absurd (Option.some.inj h) ho

/-- Events that tell nothing about the channel may come before a call. -/
theorem Operates.after (hm : ∀ e ∈ m, e.noChannel = true) (h : Operates c c' l op) :
    Operates c c' (m ++ l) op where
  performs := by
    rw [epollCtls_append, epollCtls_eq_nil hm, List.nil_append]
    exact h.performs
  start hs := h.start ((List.mem_append.1 hs).resolve_left fun hs => absurd (hm _ hs) (by simp))
  stop hs := h.stop ((List.mem_append.1 hs).resolve_left fun hs => absurd (hm _ hs) (by simp))
  enable ho := List.mem_append_right _ (h.enable ho)

namespace TcpConnection

theorem writeDirect_noChannel {n : ℕ} {faultError : Bool}
    (h : c.writeDirect d w = .ok (n, faultError, l)) : ∀ e ∈ l, e.noChannel = true := by
  unfold writeDirect at h
  split_ifs at h with hw hb
  · cases h; simp
  · cases w with
    | error e => dsimp only at h; split_ifs at h <;> cases h <;> simp
    | wrote m => dsimp only at h; split_ifs at h <;> cases h <;> simp

theorem sendInLoop_operates (h : c.sendInLoop t k d w = .ok (c', l)) :
    ∃ op, Operates c c' l op := by
  unfold sendInLoop at h
  split_ifs at h with hd
  · cases h
    exact ⟨_, .none (by simp) rfl rfl⟩
  cases hw : c.writeDirect d w with
  | error a => simp [hw] at h
  | ok p =>
    obtain ⟨n, faultError, m⟩ := p
    have hm := writeDirect_noChannel hw
    simp only [hw] at h
    split_ifs at h
    · obtain ⟨m', hb, rfl⟩ := Result.after_eq_ok.1 h
      obtain ⟨rfl, rfl⟩ := bufferRest_cases hb
      have hbefore : ∀ e ∈ .sendInLoop t k d :: m ++ c.highWater (d.drop n), e.noChannel = true := by
        refine List.forall_mem_append.2 ⟨List.forall_mem_cons.2 ⟨rfl, hm⟩, ?_⟩
        rcases highWater_cases (d.drop n) c with he | ⟨len, he⟩ <;> simp [he]
      rw [← List.append_assoc]
      refine ⟨some .enableWrite, Operates.after hbefore (.some ?_ (by simp) (by simp) rfl rfl rfl)⟩
      intro hdis
      cases hdis
    · cases h
      exact ⟨_, .none (by simpa using hm) rfl rfl⟩

theorem handleClose_operates (hs : c.Sound) (h : c.handleClose = .ok (c', l)) :
    Operates c c' l (some .disableAll) := by
  obtain ⟨hd, rfl, rfl⟩ := handleClose_cases h
  refine .some (fun _ => hs.polled ?_) (by simp) (by simp) rfl rfl (by simp [ChannelOp.mask])
  rcases hd with hd | hd <;> simp [hd]

theorem stopReadInLoop_operates (hp : c.Polled) (h : c.stopReadInLoop = .ok (c', l)) :
    ∃ op, Operates c c' l op := by
  obtain ⟨hr, rfl, rfl⟩ | ⟨hr, rfl, rfl⟩ := stopReadInLoop_cases h
  · have ha : ChannelOp.disableRead.Allowed c.channel := fun _ =>
      hp (Finset.nonempty_iff_ne_empty.1 ⟨_, hr⟩)
    refine ⟨some .disableRead, performs_some ha rfl rfl rfl, by simp, fun _ => ?_, by simp⟩
    simp [Channel.isReading]
  · exact ⟨none, ⟨rfl, rfl, rfl⟩, by simp, fun _ => hr, by simp⟩

theorem startReadInLoop_operates (h : c.startReadInLoop = .ok (c', l)) :
    ∃ op, Operates c c' l op := by
  obtain ⟨hr, rfl, rfl⟩ | ⟨hr, rfl, rfl⟩ := startReadInLoop_cases h
  · have ha : ChannelOp.enableRead.Allowed c.channel := fun h => by cases h
    refine ⟨some .enableRead, performs_some ha rfl rfl rfl, fun _ => ?_, by simp, by simp⟩
    simp [Channel.isReading]
  · exact ⟨none, ⟨rfl, rfl, rfl⟩, fun _ => hr, by simp, by simp⟩

theorem shutdownInLoop_operates (h : c.shutdownInLoop = .ok (c', l)) : Operates c c' l none := by
  obtain ⟨rfl, ⟨-, -, rfl⟩ | rfl⟩ := shutdownInLoop_cases h <;> exact .none (by simp) rfl rfl

theorem call_operates {o : Op} (hp : c.Polled) (h : c.call b t k o = .ok (c', l)) :
    ∃ op, Operates c c' l op := by
  cases o with
  | send d w =>
    obtain ⟨-, rfl, rfl⟩ | ⟨-, -, m, hm, rfl, -⟩ | ⟨-, -, rfl, rfl⟩ := send_cases h
    · exact ⟨_, .none (by simp) rfl rfl⟩
    · obtain ⟨op, ho⟩ := sendInLoop_operates hm
      exact ⟨op, ho.after (m := [_]) (by simp)⟩
    · exact ⟨_, .none (by simp) rfl rfl⟩
  | shutdown =>
    obtain ⟨-, rfl, ⟨-, rfl⟩ | ⟨-, -, rfl⟩ | ⟨-, -, -, rfl⟩ | ⟨-, -, -, rfl⟩⟩ := shutdown_cases h <;>
      exact ⟨_, .none (by simp) rfl rfl⟩
  | forceClose =>
    obtain ⟨-, rfl, rfl⟩ | ⟨-, rfl, rfl⟩ := forceClose_cases h <;>
      exact ⟨_, .none (by simp) rfl rfl⟩
  | stopRead =>
    obtain ⟨-, h⟩ | ⟨-, rfl, rfl⟩ := stopRead_cases h
    · exact stopReadInLoop_operates hp h
    · exact ⟨_, .none (by simp) rfl rfl⟩
  | startRead =>
    obtain ⟨-, h⟩ | ⟨-, rfl, rfl⟩ := startRead_cases h
    · exact startReadInLoop_operates h
    · exact ⟨_, .none (by simp) rfl rfl⟩
  | setWriteCompleteCallback | setHighWaterMarkCallback mark | retrieveInput n =>
    cases h
    exact ⟨_, .none (by simp) rfl rfl⟩

theorem runJob_operates {j : Job} (hs : c.Sound) (hp : c.Polled)
    (h : c.runJob j w = .ok (c', l)) : ∃ op, Operates c c' l op := by
  cases j with
  | sendInLoop u i d => exact sendInLoop_operates h
  | shutdownInLoop => exact ⟨_, shutdownInLoop_operates h⟩
  | forceCloseInLoop =>
    obtain ⟨-, h⟩ | ⟨-, rfl, rfl⟩ := forceCloseInLoop_cases h
    · exact ⟨_, handleClose_operates hs h⟩
    · exact ⟨_, .none (by simp) rfl rfl⟩
  | writeComplete | highWaterMark len =>
    cases h
    exact ⟨_, .none (by simp) rfl rfl⟩
  | stopRead => exact stopReadInLoop_operates hp h
  | startRead => exact startReadInLoop_operates h

theorem handleRead_operates (hs : c.Sound) (h : c.handleRead r = .ok (c', l)) :
    ∃ op, Operates c c' l op := by
  obtain ⟨-, ⟨rfl, rfl⟩ | ⟨m, hm, rfl⟩ | ⟨bytes, rfl, rfl⟩⟩ := handleRead_cases h
  · exact ⟨_, .none (by simp) rfl rfl⟩
  · exact ⟨_, (handleClose_operates hs hm).after (m := [_]) (by simp)⟩
  · exact ⟨_, .none (by simp) rfl rfl⟩

theorem handleWrite_operates (hs : c.Sound) (h : c.handleWrite w = .ok (c', l)) :
    ∃ op, Operates c c' l op := by
  obtain ⟨-, rfl, rfl⟩ | ⟨hd, -, ⟨e, -, rfl, rfl⟩ | ⟨n, -, -, rfl, rfl⟩ | ⟨n, -, -, rfl, rfl⟩⟩ :=
    handleWrite_cases h
  · exact ⟨_, .none (by simp) rfl rfl⟩
  · exact ⟨_, .none (by simp) rfl rfl⟩
  · exact ⟨_, .none (by simp) rfl rfl⟩
  · refine ⟨_, .some (o := .disableWrite) (fun _ => hs.polled hd) (by simp) ?_ ?_ rfl rfl⟩
    · split_ifs <;> simp
    · split_ifs <;> simp [ChannelOp.mask]

theorem handleStage_operates {st : Stage} (hs : c.Sound) (h : c.handleStage st r w = .ok (c', l)) :
    ∃ op, Operates c c' l op := by
  cases StageStep.of_handleStage h with
  | idle => exact ⟨_, .none (by simp) rfl rfl⟩
  | close _ h =>
    obtain ⟨hd, rfl, rfl⟩ := handleClose_cases h
    refine ⟨some .disableAll, .some (fun _ => hs.polled ?_) (by simp) (by simp) rfl rfl ?_⟩
    · rcases hd with hd | hd <;> simp [show c.state = _ from hd]
    · simp [ChannelOp.mask]
  | read _ h => exact handleRead_operates hs h
  | write _ h =>
    obtain ⟨op, ho⟩ := handleWrite_operates hs h
    refine ⟨op, ?_, ho.start, ho.stop, ho.enable⟩
    have hperf := ho.performs
    cases op <;> exact hperf

/-- A new connection is registered. -/
theorem connectEstablished_operates (fd : Fd) (writeComplete highWater : Bool) (mark : ℕ) :
    ∃ c l, (TcpConnection.new fd writeComplete highWater mark).connectEstablished = .ok (c, l) ∧
      (TcpConnection.new fd writeComplete highWater mark).channel.Performs (some .enableRead)
        (epollCtls l) c.channel := by
  refine ⟨_, _, rfl, performs_some ?_ rfl rfl rfl⟩
  intro h
  cases h

end TcpConnection

end Operates

/-! ### The mirror -/

/-- The interest list behind some calls of `epoll_ctl`. -/
def applyAll (k : Interest) (ctls : List EpollCtl) : Interest := ctls.foldl EpollCtl.apply k

theorem interestAfter_eq (k : Interest) (l : List Event) :
    interestAfter k l = applyAll k (epollCtls l) := by
  induction l generalizing k with
  | nil => rfl
  | cons e l ih =>
    rw [interestAfter_cons, epollCtls_cons, ih]
    cases e <;> rfl

namespace Connection

variable {threadId : Pid} {s s' : Run} {lab : Label}

/-- Every step runs at most one operation of the channel, and makes its call of `epoll_ctl`. -/
theorem Step.operates (hi : Inv s) (h : Step threadId s lab s') :
    ∃ l op, s'.history = s.history ++ l ∧ Operates s.conn s'.conn l op ∧
      s'.interest = applyAll s.interest (epollCtls l) := by
  cases h with
  | @call t o c l ht h =>
    obtain ⟨op, ho⟩ := TcpConnection.call_operates hi.polled h
    exact ⟨l, op, rfl, ho, interestAfter_eq _ _⟩
  | idle hp | poll hp hm => exact ⟨[.poll], none, rfl, .none (by simp) rfl rfl, rfl⟩
  | @handle r w st c l hp h =>
    obtain ⟨op, ho⟩ := TcpConnection.handleStage_operates hi.sound h
    exact ⟨l, op, rfl, ho, interestAfter_eq _ _⟩
  | @runJob w j js c l hp hj h =>
    obtain ⟨op, ho⟩ := TcpConnection.runJob_operates hi.sound hi.polled h
    exact ⟨l, op, rfl, ho, interestAfter_eq _ _⟩
  | swap hp | endJobs hp hj =>
    exact ⟨[], none, (List.append_nil _).symm, .none (by simp) rfl rfl, rfl⟩

end Connection

/-- **The interest list mirrors the channels.**  Of channels with distinct descriptors whose
disabling operations are applied only while they are polling: each is polling exactly if it is
registered and exactly if it has events, with its mask; an operation succeeds, issues `ADD` exactly
for an absent descriptor, and leaves the entries and the channels of the others alone.
A connection keeps to this: each of its steps runs at most one operation, which is allowed, and
makes only its call of `epoll_ctl`, and the assertion of `Epoller::updateChannel` does not fail. -/
theorem interest_mirrored {ι : Type*} [DecidableEq ι] {fd : ι → Fd}
    (hfd : Function.Injective fd) :
    (∀ s, (Channels.system fd).Reachable s →
      (∀ i, ((s.channel i).polling = true ↔ s.interest (fd i) ≠ none) ∧
        ((s.channel i).polling = true ↔ (s.channel i).events ≠ ∅) ∧
        ((s.channel i).polling = true → s.interest (fd i) = some (s.channel i).events)) ∧
      ∀ i op, op.Allowed (s.channel i) → ∃ s' ctl,
        (Channels.system fd).step s (i, op) = .next s' ∧
        op.run (s.channel i) = .ok (s'.channel i, ctl) ∧ ctl.fd = fd i ∧
        (ctl.op = .add ↔ s.interest (fd i) = none) ∧ s'.interest = ctl.apply s.interest ∧
        (∀ f, f ≠ fd i → s'.interest f = s.interest f) ∧
        ∀ j, j ≠ i → s'.channel j = s.channel j) ∧
    (∀ f writeComplete highWater mark, ∃ c l,
      (TcpConnection.new f writeComplete highWater mark).connectEstablished = .ok (c, l) ∧
      (Channel.new f).Performs (some .enableRead) (epollCtls l) c.channel) ∧
    ∀ threadId s, (Connection.system threadId).Reachable s →
      (∀ lab s', (Connection.system threadId).step s lab = .next s' →
        ∃ l op, s'.history = s.history ++ l ∧
          s.conn.channel.Performs op (epollCtls l) s'.conn.channel ∧
          s'.interest = applyAll s.interest (epollCtls l)) ∧
      ∀ lab, (Connection.system threadId).step s lab ≠ .failed .updateChannel := by
  refine ⟨fun s hr => ⟨fun i => ?_, fun i op ha => ?_⟩,
    TcpConnection.connectEstablished_operates, fun threadId s hr => ⟨fun lab s' h => ?_, ?_⟩⟩
  · have hm : Channels.Mirrored fd s := .of_reachable hfd hr
    obtain ⟨hk, hne⟩ := hm.synced i
    rw [hm.fd i] at hk
    refine ⟨?_, hne, fun hp => by rw [hk, if_pos hp]⟩
    rw [hk]
    split_ifs with hp <;> simp [hp]
  · have hm : Channels.Mirrored fd s := .of_reachable hfd hr
    refine ⟨s.updated i op, (s.channel i).ctl (op.mask (s.channel i).events),
      Channels.step_eq ha, ?_, hm.fd i, ?_, rfl, fun f hf => ?_, fun j hj => ?_⟩
    · rw [Channels.updated_self]
      exact ChannelOp.run_eq ha
    · rw [ChannelOp.ctl_add_iff ha (hm.synced i), hm.fd i]
    · refine Channel.ctl_other _ _ ?_
      rwa [hm.fd i]
    · exact (hm.updated_other hfd hj _).1
  · obtain ⟨l, op, hh, ho, hk⟩ := (Connection.Step.of_step h).operates (.of_reachable hr)
    exact ⟨l, op, hh, ho.performs, hk⟩
  · intro lab h
    obtain ⟨-, ha | ha | ha⟩ := (Connection.Inv.of_reachable hr).failed h <;> cases ha

/-- Two channels, one of which is reading and writing and stops reading. -/
theorem interest_mirrored_two :
    ∃ s, (Channels.system fun b : Bool => if b then 5 else 6).Reachable s ∧
      s.interest 5 = some (s.channel true).events ∧ s.interest 6 = none := by
  have hrun : ((Channels.system fun b : Bool => if b then (5 : Fd) else 6).exec
      { channel := fun b => Channel.new (if b then 5 else 6), interest := fun _ => none }
      [(true, .enableRead), (true, .enableWrite), (true, .disableRead)]).Leads fun s =>
        (s.channel true).polling = true ∧ (s.channel false).polling = false := by
    decide +kernel
  obtain ⟨s, hs, ht, hf⟩ := hrun
  have hr : (Channels.system fun b : Bool => if b then (5 : Fd) else 6).Reachable s :=
    System.reachable_of_exec ⟨rfl, fun _ => rfl⟩ hs
  have hfd : Function.Injective fun b : Bool => if b then (5 : Fd) else 6 := by decide
  have hmirror := ((interest_mirrored hfd).1 s hr).1
  refine ⟨s, hr, (hmirror true).2.2 ht, ?_⟩
  by_contra hne
  rw [(hmirror false).1.2 hne] at hf
  cases hf

end Leven
