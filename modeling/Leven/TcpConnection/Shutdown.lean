import Leven.TcpConnection.Stream

/-!
# Graceful shutdown

`SHUT_WR` has two triggers.  `shutdownInLoop` is queued behind the sends of its thread, but
`handleWrite` issues `SHUT_WR` as soon as the output buffer is empty and `state_` says
`kDisconnecting`, without a look at the closures that still wait: a send of the thread that has
called `shutdown` may be among them.

* `Graceful`: no thread that sends and then shuts down has its data cut off;
* `graceful_fails`: a run in which one has;
* `NoOvertaking`: the condition on a step under which `SHUT_WR` does not overtake a send;
* `graceful`: the runs whose steps meet the condition.
-/

namespace Leven

open Transition

/-- The connection becomes disconnected, or a write fails with `EPIPE` or `ECONNRESET`. -/
def Event.isExcuse : Event → Bool
  | .closed => true
  | .writeError e => decide e.isFault
  | _ => false

/-- An excuse has come first. -/
def Excused (g : List Event) : Prop := ∃ e ∈ g, e.isExcuse = true

instance (g : List Event) : Decidable (Excused g) := inferInstanceAs (Decidable (∃ e ∈ g, _))

/-- The `sendInLoop` of the call has run, and the kernel has accepted its payload. -/
def Delivered (t : Pid) (k : ℕ) (d : Bytes) (g : List Event) : Prop :=
  ∃ g₁ g₂, g = g₁ ++ .sendInLoop t k d :: g₂ ∧
    sent (g₁ ++ [.sendInLoop t k d]) <+: accepted g

/-- Whenever a thread sends while the connection is connected and then calls `shutdown`, `SHUT_WR`
is not issued before the data is delivered. -/
def Graceful (h : List Event) : Prop :=
  ∀ t k d, [.send t k d, .shutdown t].Sublist h →
    Whenever (· = .shutdownWr) (fun g => Excused g ∨ Delivered t k d g) h

/-- At every `SHUT_WR` the sends of thread `t` have been executed. -/
def CutFree (t : Pid) (h : List Event) : Prop :=
  Whenever (· = .shutdownWr) (fun g => ∀ p ∈ issued t g, p ∈ executed t g) h

/-- A closure of `sendInLoop` whose thread has called `shutdown`. -/
def Job.isOvertaken (h : List Event) : Job → Prop
  | .sendInLoop t _ _ => .shutdown t ∈ h
  | _ => False

instance (h : List Event) : DecidablePred (Job.isOvertaken h) := fun j =>
  match j with
  | .sendInLoop t _ _ => inferInstanceAs (Decidable (.shutdown t ∈ h))
  | .shutdownInLoop | .forceCloseInLoop | .writeComplete | .highWaterMark _ | .stopRead
  | .startRead => isFalse id

/-- No request to send or to shut down, and no closure for one. -/
@[simp] def Event.noRequest : Event → Bool
  | .send .. | .shutdown _ | .queueInLoop (.sendInLoop ..) | .queueInLoop .shutdownInLoop => false
  | _ => true

theorem noRequest_of_ofSend {e : Event} (h : e.ofSend = true) : e.noRequest = true := by
  cases e with
  | queueInLoop j => cases j <;> first | rfl | simp at h
  | _ => first | rfl | simp at h

theorem noRequest_of_ofJob {e : Event} (h : e.ofJob = true) : e.noRequest = true := by
  cases e <;> first | rfl | simp at h

theorem noRequest_of_ofHandler {e : Event} (h : e.ofHandler = true) : e.noRequest = true := by
  cases e with
  | queueInLoop j => cases j <;> first | rfl | simp at h
  | _ => first | rfl | simp at h

theorem issued_eq_nil {t : Pid} {l : List Event} (hl : ∀ k d, .send t k d ∉ l) :
    issued t l = [] :=
  List.eq_nil_iff_forall_not_mem.2 fun ⟨k, d⟩ h => hl k d (mem_issued.1 h)

theorem CutFree.append {t : Pid} {h l : List Event} (hc : CutFree t h)
    (hl : .shutdownWr ∈ l → issued t l = [] ∧ ∀ p ∈ issued t h, p ∈ executed t h) :
    CutFree t (h ++ l) := by
  refine whenever_append.2 ⟨hc, fun l₁ x l₂ he hx p hp => ?_⟩
  subst hx
  obtain ⟨hn, ha⟩ := hl (by rw [he]; simp)
  rw [he, issued_append, List.append_eq_nil_iff] at hn
  rw [issued_append, hn.1, List.append_nil] at hp
  rw [executed_append]
  exact List.mem_append_left _ (ha p hp)

namespace TcpConnection

variable {c c' : TcpConnection} {l : List Event} {st : Stage} {r : ReadResult} {w : WriteResult}

/-- `handleWrite` issues `SHUT_WR` when it empties the output buffer of a disconnecting
connection. -/
theorem shutdownWr_of_handleStage (h : c.handleStage st r w = .ok (c', l))
    (hs : .shutdownWr ∈ l) :
    st = .write ∧ .epollout ∈ c.channel.revents ∧ c.state = .kDisconnecting ∧
      ∃ m, w = .wrote m ∧ c.outputBuffer.length ≤ m := by
  cases StageStep.of_handleStage h with
  | idle => simp at hs
  | close _ h => obtain ⟨-, -, rfl⟩ := handleClose_cases h; simp at hs
  | read _ h =>
    obtain ⟨-, ⟨-, rfl⟩ | ⟨m, hm, rfl⟩ | ⟨bytes, -, rfl⟩⟩ := handleRead_cases h
    · simp at hs
    · obtain ⟨-, -, rfl⟩ := handleClose_cases hm; simp at hs
    · simp at hs
  | write hr h =>
    obtain ⟨-, -, rfl⟩ | ⟨-, -, ⟨e, -, -, rfl⟩ | ⟨n, -, -, -, rfl⟩ | ⟨n, rfl, hn, -, rfl⟩⟩ :=
      handleWrite_cases h
    · simp at hs
    · simp at hs
    · simp at hs
    · refine ⟨rfl, hr, ?_, n, rfl, hn⟩
      by_contra hne
      rw [if_neg hne] at hs
      split_ifs at hs <;> simp at hs

/-- Of the public calls only `send` and `shutdown` make requests. -/
theorem call_quiet {b : Bool} {t : Pid} {k : ℕ} {op : Op} (hsend : ∀ d w, op ≠ .send d w)
    (hshut : op ≠ .shutdown) (h : c.call b t k op = .ok (c', l)) :
    (∀ e ∈ l, e.noRequest = true) ∧ .shutdownWr ∉ l := by
  cases op with
  | send d w => exact absurd rfl (hsend d w)
  | shutdown => exact absurd rfl hshut
  | forceClose => obtain ⟨-, -, rfl⟩ | ⟨-, -, rfl⟩ := forceClose_cases h <;> simp
  | stopRead =>
    obtain ⟨-, h⟩ | ⟨-, -, rfl⟩ := stopRead_cases h
    · obtain ⟨-, -, rfl⟩ | ⟨-, -, rfl⟩ := stopReadInLoop_cases h <;> simp
    · simp
  | startRead =>
    obtain ⟨-, h⟩ | ⟨-, -, rfl⟩ := startRead_cases h
    · obtain ⟨-, -, rfl⟩ | ⟨-, -, rfl⟩ := startReadInLoop_cases h <;> simp
    · simp
  | setWriteCompleteCallback | setHighWaterMarkCallback mark | retrieveInput n => cases h; simp

/-- Of the closures only that of `shutdown` issues `SHUT_WR`. -/
theorem runJob_quiet {j : Job} (hsend : ∀ u i d, j ≠ .sendInLoop u i d)
    (hshut : j ≠ .shutdownInLoop) (h : c.runJob j w = .ok (c', l)) : .shutdownWr ∉ l := by
  cases j with
  | sendInLoop u i d => exact absurd rfl (hsend u i d)
  | shutdownInLoop => exact absurd rfl hshut
  | forceCloseInLoop =>
    obtain ⟨-, h⟩ | ⟨-, -, rfl⟩ := forceCloseInLoop_cases h
    · obtain ⟨-, -, rfl⟩ := handleClose_cases h; simp
    · simp
  | writeComplete | highWaterMark len => cases h; simp
  | stopRead => obtain ⟨-, -, rfl⟩ | ⟨-, -, rfl⟩ := stopReadInLoop_cases h <;> simp
  | startRead => obtain ⟨-, -, rfl⟩ | ⟨-, -, rfl⟩ := startReadInLoop_cases h <;> simp

end TcpConnection

namespace Connection

variable {threadId : Pid} {s s' : Run} {lab : Label}

/-- `handleWrite` is about to empty the output buffer of a disconnecting connection. -/
def Run.Drains (s : Run) (w : WriteResult) : Prop :=
  s.phase = .dispatch (some .write) ∧ .epollout ∈ s.conn.channel.revents ∧
    s.conn.state = .kDisconnecting ∧
    match w with
    | .wrote m => s.conn.outputBuffer.length ≤ m
    | .error _ => False

instance (s : Run) (w : WriteResult) : Decidable (s.Drains w) :=
  match w with
  | .wrote m => inferInstanceAs (Decidable (_ ∧ _ ∧ _ ∧ s.conn.outputBuffer.length ≤ m))
  | .error _ => inferInstanceAs (Decidable (_ ∧ _ ∧ _ ∧ False))

/-- The steps at which `SHUT_WR` overtakes no send of a thread that shuts down: when `handleWrite`
empties the output buffer of a disconnecting connection, no closure of `sendInLoop` waits whose
thread has called `shutdown`; and a thread calls `shutdown` only if its sends had all been executed
at every `SHUT_WR` before. -/
def NoOvertaking (s : Run) : Label → Prop
  | .handle _ w => s.Drains w → ∀ j ∈ s.pendingJobs, ¬ j.isOvertaken s.history
  | .call t .shutdown => CutFree t s.history
  | _ => True

instance (s : Run) : DecidablePred (NoOvertaking s) := fun lab =>
  match lab with
  | .handle _ w =>
    inferInstanceAs (Decidable (s.Drains w → ∀ j ∈ s.pendingJobs, ¬ j.isOvertaken s.history))
  | .call _ .shutdown => inferInstanceAs (Decidable (Whenever _ _ _))
  | .call _ (.send ..) | .call _ .forceClose | .call _ .stopRead | .call _ .startRead
  | .call _ .setWriteCompleteCallback | .call _ (.setHighWaterMarkCallback _)
  | .call _ (.retrieveInput _) => isTrue trivial
  | .poll _ | .swap | .runJob _ | .endJobs => isTrue trivial

/-- The order of sends, shutdowns and `SHUT_WR`. -/
structure Shut (s : Run) : Prop where
  connected : s.conn.state = .kConnected →
    .shutdownWr ∉ s.history ∧ (∀ t, .shutdown t ∉ s.history) ∧ .shutdownInLoop ∉ s.queue
  queue : ∀ t k d, ¬ [.shutdownInLoop, .sendInLoop t k d].Sublist s.queue
  sends : ∀ t k d, ¬ [.shutdownWr, .send t k d].Sublist s.history
  cutFree : ∀ t, .shutdown t ∈ s.history → CutFree t s.history

/-- All sends before `SHUT_WR`, and all of them executed, are delivered. -/
theorem graceful_of_shut (hi : Inv s) (hs : Shut s) : Graceful s.history := by
  intro t k d hsub g x g₂ he hx
  subst hx
  have hsend : .send t k d ∈ s.history := hsub.subset (by simp)
  have hshut : .shutdown t ∈ s.history := hsub.subset (by simp)
  have hg : .send t k d ∈ g := by
    rw [he, List.mem_append, List.mem_cons] at hsend
    rcases hsend with h | h | h
    · exact h
    · cases h
    · refine absurd ?_ (hs.sends t k d)
      rw [he]
      exact (List.cons_sublist_cons.2 (List.singleton_sublist.2 h)).trans
        (List.sublist_append_right _ _)
  -- the send was executed before this `SHUT_WR`, and at `SHUT_WR` the output is drained
  have hrun : .sendInLoop t k d ∈ g :=
    mem_executed.1 (hs.cutFree t hshut g _ g₂ he rfl _ (mem_issued.2 hg))
  rcases hi.drained g _ g₂ he rfl with ⟨e, hfault, hmem⟩ | hacc
  · exact .inl ⟨_, hmem, by simpa [Event.isExcuse] using hfault⟩
  · obtain ⟨g₁, g₃, rfl⟩ := List.append_of_mem hrun
    refine .inr ⟨g₁, g₃, rfl, ?_⟩
    rw [hacc, List.append_cons g₁ _ g₃, sent_append (g₁ ++ _)]
    exact List.prefix_append _ _

theorem Shut.of_init (h : Init s) : Shut s := by
  obtain ⟨k, fd, writeComplete, highWater, mark, -, rfl⟩ := init_iff.1 h
  refine { connected := by simp [Run.start, Run.queue], queue := by simp [Run.start, Run.queue]
           sends := fun t k d hsub => ?_, cutFree := by simp [Run.start] }
  have : .shutdownWr ∈ (Run.start _ fd writeComplete highWater mark).history :=
    hsub.subset (by simp)
  simp [Run.start] at this

/-- A step without a request. -/
theorem Shut.apply {c : TcpConnection} {l : List Event} (hi : Core s) (hs : Shut s)
    (e : Effect s.conn c l) (hl : ∀ e ∈ l, e.noRequest = true)
    (hw : .shutdownWr ∈ l → s.conn.state ≠ .kConnected ∧
      ∀ t, .shutdown t ∈ s.history → ∀ p ∈ issued t s.history, p ∈ executed t s.history) :
    Shut (s.apply c l) := by
  have hsend : ∀ t k d, .send t k d ∉ l := fun t k d h => by simpa using hl _ h
  have hshut : ∀ t, .shutdown t ∉ l := fun t h => by simpa using hl _ h
  have hqs : ∀ t k d, .queueInLoop (.sendInLoop t k d) ∉ l := fun t k d h => by simpa using hl _ h
  have hqw : .queueInLoop .shutdownInLoop ∉ l := fun h => by simpa using hl _ h
  refine { connected := fun hc => ?_, queue := fun t k d => ?_, sends := fun t k d => ?_
           cutFree := fun t ht => ?_ }
  · have hc' := hi.connected e hc
    obtain ⟨h1, h2, h3⟩ := hs.connected hc'
    have h4 : .shutdownWr ∉ l := fun h => (hw h).1 hc'
    simp [h1, h2, h3, h4, hshut, hqw]
  · rw [apply_queue, pair_sublist_append_of_notMem (by simpa using hqs t k d)]
    exact hs.queue t k d
  · rw [apply_history, pair_sublist_append_of_notMem (hsend t k d)]
    exact hs.sends t k d
  · have ht' : .shutdown t ∈ s.history := (List.mem_append.1 ht).resolve_right (hshut t)
    exact (hs.cutFree t ht').append fun h => ⟨issued_eq_nil (hsend t), (hw h).2 t ht'⟩

/-- A call of `send` on a connected connection comes before every shutdown. -/
theorem Shut.send {t : Pid} {k : ℕ} {d : Bytes} {w : WriteResult} {c : TcpConnection}
    {l : List Event} {b : Bool} (hi : Core s) (hs : Shut s)
    (h : s.conn.send b t k d w = .ok (c, l)) : Shut (s.apply c l) := by
  have e := (TcpConnection.send_growth h).toEffect
  obtain ⟨-, -, rfl⟩ | ⟨hc, -, m, -, rfl, hm⟩ | ⟨hc, -, -, rfl⟩ := TcpConnection.send_cases h
  · exact hs.apply hi e (by simp) (by simp)
  all_goals obtain ⟨h1, h2, h3⟩ := hs.connected hc
  · have hm' : ∀ e ∈ m, e.noRequest = true := fun e he => noRequest_of_ofSend (hm e he)
    have hsend : ∀ t k d, .send t k d ∉ m := fun t k d h => by simpa using hm' _ h
    have hshut : ∀ t, .shutdown t ∉ m := fun t h => by simpa using hm' _ h
    have hqs : ∀ t k d, .queueInLoop (.sendInLoop t k d) ∉ m :=
      fun t k d h => by simpa using hm' _ h
    have hqw : .queueInLoop .shutdownInLoop ∉ m := fun h => by simpa using hm' _ h
    have hwr : .shutdownWr ∉ m := fun h => by simpa using hm _ h
    refine { connected := fun _ => by simp [h1, h2, h3, hshut, hqw, hwr]
             queue := fun t' k' d' => ?_
             sends := fun t' k' d' hsub => ?_, cutFree := fun t' ht' => ?_ }
    · rw [apply_queue, pair_sublist_append_of_notMem (by simpa using hqs t' k' d')]
      exact hs.queue t' k' d'
    · have : .shutdownWr ∈ (s.apply c _).history := hsub.subset (by simp)
      simp [h1, hwr] at this
    · simp [h2, hshut] at ht'
  · refine { connected := fun _ => by simp [h1, h2, h3], queue := fun t' k' d' hsub => ?_
             sends := fun t' k' d' hsub => ?_, cutFree := fun t' ht' => ?_ }
    · have : .shutdownInLoop ∈ (s.apply c _).queue := hsub.subset (by simp)
      simp [h3] at this
    · have : .shutdownWr ∈ (s.apply c _).history := hsub.subset (by simp)
      simp [h1] at this
    · simp [h2] at ht'

/-- A call of `shutdown` by a thread whose sends no `SHUT_WR` has overtaken. -/
theorem Shut.shutdown {t : Pid} {c : TcpConnection} {l : List Event} (ho : Order threadId s)
    (hs : Shut s) (hcut : CutFree t s.history)
    (h : s.conn.shutdown (t = threadId) t = .ok (c, l)) : Shut (s.apply c l) := by
  obtain ⟨-, rfl, hl⟩ := TcpConnection.shutdown_cases h
  have hsend : ∀ t k d, .send t k d ∉ l := by
    obtain ⟨-, rfl⟩ | ⟨-, -, rfl⟩ | ⟨-, -, -, rfl⟩ | ⟨-, -, -, rfl⟩ := hl <;> simp
  have hqs : ∀ t k d, .queueInLoop (.sendInLoop t k d) ∉ l := by
    obtain ⟨-, rfl⟩ | ⟨-, -, rfl⟩ | ⟨-, -, -, rfl⟩ | ⟨-, -, -, rfl⟩ := hl <;> simp
  have hw : .shutdownWr ∈ l → s.conn.state = .kConnected ∧ t = threadId := by
    obtain ⟨-, rfl⟩ | ⟨-, -, rfl⟩ | ⟨-, -, -, rfl⟩ | ⟨hc, ht, -, rfl⟩ := hl <;> simp_all
  have hu : ∀ u, .shutdown u ∈ l → u = t := by
    obtain ⟨-, rfl⟩ | ⟨-, -, rfl⟩ | ⟨-, -, -, rfl⟩ | ⟨-, -, -, rfl⟩ := hl <;> simp
  refine { connected := by simp, queue := fun t' k' d' => ?_, sends := fun t' k' d' => ?_
           cutFree := fun u hmem => ?_ }
  · rw [apply_queue, pair_sublist_append_of_notMem (by simpa using hqs t' k' d')]
    exact hs.queue t' k' d'
  · rw [apply_history, pair_sublist_append_of_notMem (hsend t' k' d')]
    exact hs.sends t' k' d'
  · rcases List.mem_append.1 hmem with hmem | hmem
    · refine (hs.cutFree u hmem).append fun h => ?_
      exact absurd hmem ((hs.connected (hw h).1).2.1 u)
    · obtain rfl := hu u hmem
      refine hcut.append fun h => ⟨issued_eq_nil (hsend u), fun p hp => ?_⟩
      obtain ⟨-, rfl⟩ := hw h
      rwa [ho.order u, ho.loop, List.append_nil] at hp

/-- Nothing of a thread waits, so all of its sends have been executed. -/
theorem Order.executed (ho : Order threadId s) {t : Pid} (hq : ∀ k d, .sendInLoop t k d ∉ s.queue) :
    ∀ p ∈ issued t s.history, p ∈ executed t s.history := by
  have hw : waiting t s.queue = [] :=
    List.eq_nil_iff_forall_not_mem.2 fun ⟨k, d⟩ h => hq k d (mem_waiting.1 h)
  intro p hp
  rwa [ho.order t, hw, List.append_nil] at hp

theorem Shut.call {t : Pid} {op : Op} {c : TcpConnection} {l : List Event} (hi : Core s)
    (ho : Order threadId s) (hs : Shut s) (hc : NoOvertaking s (.call t op))
    (h : s.conn.call (t = threadId) t s.calls op = .ok (c, l)) :
    Shut ({ s with calls := s.calls + 1 }.apply c l) := by
  have hs' : Shut { s with calls := s.calls + 1 } := ⟨hs.connected, hs.queue, hs.sends, hs.cutFree⟩
  have hi' : Core { s with calls := s.calls + 1 } := { hi with }
  by_cases hsend : ∃ d w, op = .send d w
  · obtain ⟨d, w, rfl⟩ := hsend
    exact hs'.send hi' h
  by_cases hshut : op = .shutdown
  · subst hshut
    exact Shut.shutdown (s := { s with calls := s.calls + 1 }) ⟨ho.order, ho.loop⟩ hs' hc h
  obtain ⟨hl, hw⟩ := TcpConnection.call_quiet (fun d w he => hsend ⟨d, w, he⟩) hshut h
  exact hs'.apply hi' (TcpConnection.call_growth h).toEffect hl fun h => absurd h hw

/-- A handler issues `SHUT_WR` when it drains the output of a disconnecting connection. -/
theorem Shut.handle {r : ReadResult} {w : WriteResult} {st : Stage} {c : TcpConnection}
    {l : List Event} (hi : Inv s) (ho : Order threadId s) (hs : Shut s)
    (hc : NoOvertaking s (.handle r w)) (hp : s.phase = .dispatch (some st))
    (h : s.conn.handleStage st r w = .ok (c, l)) :
    Shut ({ s with phase := .dispatch st.next }.apply c l) := by
  have hs' : Shut { s with phase := .dispatch st.next } :=
    ⟨hs.connected, hs.queue, hs.sends, hs.cutFree⟩
  refine hs'.apply { hi.toCore with } (TcpConnection.handleStage_effect h)
    (fun e he => noRequest_of_ofHandler (TcpConnection.handleStage_events h e he)) fun hw => ?_
  obtain ⟨rfl, hr, hst, m, rfl, hm⟩ := TcpConnection.shutdownWr_of_handleStage h hw
  refine ⟨by simp [hst], fun t ht => ho.executed fun k d hmem => ?_⟩
  -- outside of the batch the queue is `pendingJobs_`, about which the condition speaks
  have hb : s.jobs = [] := hi.batch (by simp [hp])
  rw [Run.queue, hb, List.nil_append] at hmem
  exact hc ⟨hp, hr, hst, hm⟩ _ hmem ht

theorem Shut.runJob {w : WriteResult} {j : Job} {js : List Job} {c : TcpConnection}
    {l : List Event} (hi : Core s) (ho : Order threadId s) (hs : Shut s) (hj : s.jobs = j :: js)
    (h : s.conn.runJob j w = .ok (c, l)) : Shut ({ s with jobs := js }.apply c l) := by
  have hq : s.queue = j :: (js ++ s.pendingJobs) := by simp [Run.queue, hj]
  have hs' : Shut { s with jobs := js } := {
    connected := fun hc => by
      obtain ⟨h1, h2, h3⟩ := hs.connected hc
      rw [hq, List.mem_cons, not_or] at h3
      exact ⟨h1, h2, h3.2⟩
    queue := fun t k d hsub => hs.queue t k d (hq ▸ hsub.cons j)
    sends := hs.sends
    cutFree := hs.cutFree }
  have hi' : Core { s with jobs := js } := { hi with }
  have e := (TcpConnection.runJob_growth h).toEffect
  by_cases hsend : ∃ u i d, j = .sendInLoop u i d
  · obtain ⟨u, i, d, rfl⟩ := hsend
    obtain ⟨m, rfl, hm⟩ := TcpConnection.sendInLoop_events h
    have hwr : .shutdownWr ∉ m := fun hw => by simpa using hm _ hw
    refine hs'.apply hi' e ?_ (by simp [hwr])
    simpa using fun e he => noRequest_of_ofSend (hm e he)
  have hne : ∀ u i d, j ≠ .sendInLoop u i d := fun u i d he => hsend ⟨u, i, d, he⟩
  refine hs'.apply hi' e
    (fun e he => noRequest_of_ofJob (TcpConnection.runJob_events hne h e he)) fun hw => ?_
  by_cases hshut : j = .shutdownInLoop
  · -- every send queued before has been executed, none is queued behind
    subst hshut
    refine ⟨fun hc => (hs.connected hc).2.2 (by simp [hq]), fun t _ => ho.executed fun k d hm => ?_⟩
    rw [hq, List.mem_cons] at hm
    rcases hm with hm | hm
    · cases hm
    · exact hs.queue t k d (hq ▸ List.cons_sublist_cons.2 (List.singleton_sublist.2 hm))
  · exact absurd hw (TcpConnection.runJob_quiet hne hshut h)

theorem Shut.step (hi : Inv s) (ho : Order threadId s) (hs : Shut s) (hc : NoOvertaking s lab)
    (h : Step threadId s lab s') : Shut s' := by
  cases h with
  | call ht h => exact hs.call hi.toCore ho hc h
  | idle hp =>
    exact {
      connected := by simpa [Run.queue] using hs.connected
      queue := hs.queue
      sends := fun t k d => by
        rw [pair_sublist_append_of_notMem (by simp)]; exact hs.sends t k d
      cutFree := fun t ht => (hs.cutFree t (by simpa using ht)).append (by simp) }
  | poll hp hm =>
    exact {
      connected := by simpa [Run.queue, Run.setRevents] using hs.connected
      queue := hs.queue
      sends := fun t k d => by
        rw [Run.setRevents, pair_sublist_append_of_notMem (by simp)]; exact hs.sends t k d
      cutFree := fun t ht =>
        (hs.cutFree t (by simpa [Run.setRevents] using ht)).append (by simp) }
  | handle hp h => exact hs.handle hi ho hc hp h
  | swap hp =>
    have hb : s.jobs = [] := hi.batch (by simp [hp])
    have hq : (s.pendingJobs ++ [] : List Job) = s.queue := by simp [Run.queue, hb]
    exact { connected := by simpa [Run.queue, hb] using hs.connected
            queue := fun t k d => by simpa [Run.queue, hb] using hs.queue t k d
            sends := hs.sends, cutFree := hs.cutFree }
  | runJob hp hj h => exact hs.runJob hi.toCore ho hj h
  | endJobs hp hj => exact ⟨hs.connected, hs.queue, hs.sends, hs.cutFree⟩

/-- **Graceful shutdown.**  In every run in which `SHUT_WR` overtakes no send of a thread that shuts
down, no thread that sends and then shuts down has its data cut off. -/
theorem graceful (hr : (system threadId).ReachableIf NoOvertaking s) : Graceful s.history := by
  refine graceful_of_shut (.of_reachable hr) ?_
  exact hr.invariant_of (J := fun s => Inv s ∧ Order threadId s)
    (fun _ hr => ⟨.of_reachable hr, .of_reachable hr⟩) (fun _ => Shut.of_init)
    fun _ _ _ hj hs hc h => hs.step hj.1 hj.2 hc (.of_step h)

/-- Thread 2 sends and shuts down; `SHUT_WR` comes from the closure of `shutdown`. -/
theorem graceful_queued :
    ∃ s, (system 1).ReachableIf NoOvertaking s ∧ [.send 2 0 [3], .shutdown 2].Sublist s.history ∧
      .shutdownWr ∈ s.history ∧ Graceful s.history := by
  obtain ⟨s, hr, h1, h2⟩ := System.exists_reachableIf (S := system 1) (C := NoOvertaking)
    (P := fun s => [.send 2 0 [3], .shutdown 2].Sublist s.history ∧ .shutdownWr ∈ s.history)
    (w := [.call 2 (.send [3] (.wrote 0)), .call 2 .shutdown, .swap, .runJob (.wrote 1),
      .runJob (.wrote 0)])
    (start_init 5 false false 0) (by decide +kernel)
  exact ⟨s, hr, h1, h2, graceful hr⟩

/-- The loop thread 1 has output waiting for `EPOLLOUT`; thread 2 sends and shuts down after
`epoll_wait` has returned; the dispatch writes the rest of the output and issues `SHUT_WR`. -/
def overtakingRun : List Label :=
  [.call 1 (.send [1, 2] (.wrote 1)), .swap, .endJobs, .poll (some {.epollout}),
    .call 2 (.send [3] (.wrote 0)), .call 2 .shutdown, .handle (.data []) (.wrote 0),
    .handle (.data []) (.wrote 0), .handle (.data []) (.wrote 0), .handle (.data []) (.wrote 1)]

/-- The data of thread 2 is cut off. -/
theorem graceful_fails :
    ∃ s, (system 1).exec (.start (fun _ => none) 5 false false 0) overtakingRun = .next s ∧
      (system 1).Reachable s ∧ ¬ Graceful s.history := by
  have hrun : ((system 1).exec (.start (fun _ => none) 5 false false 0) overtakingRun).Leads
      fun s => [.send 2 1 [3], .shutdown 2].Sublist s.history ∧ .shutdownWr ∈ s.history ∧
        .sendInLoop 2 1 [3] ∉ s.history ∧ ¬ Excused s.history := by decide +kernel
  obtain ⟨s, hs, hsub, hwr, hloop, hexc⟩ := hrun
  refine ⟨s, hs, System.reachable_of_exec (start_init 5 false false 0) hs, fun hg => ?_⟩
  obtain ⟨g, g₂, he⟩ := List.append_of_mem hwr
  rcases hg 2 1 [3] hsub g _ g₂ he rfl with ⟨e, hmem, hx⟩ | ⟨g₁, g₃, rfl, -⟩
  · exact hexc ⟨e, by simp [he, hmem], hx⟩
  · exact hloop (by simp [he])

end Connection
end Leven
