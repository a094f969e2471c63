import Leven.TcpConnection.Callbacks
import Leven.TcpConnection.StopRead

/-!
# The reported masks

One dispatch runs up to four stages, and a stage may close the connection.  `handleWrite` returns on
a closed connection, `handleRead` asserts that it is not closed; a mask with `EPOLLHUP` and without
`EPOLLIN` closes in the first stage, and `EPOLLPRI` in the same mask calls for `handleRead`.

* `InDispatch`, `SafeDispatch`: the steps of one dispatch, and what it must not do;
* `Dispatching`: what holds between the stages;
* `safeDispatch_iff`: the masks whose dispatch is safe.
-/

namespace Leven

open Transition

namespace TcpConnection

variable {c c' : TcpConnection} {l : List Event} {b : Bool} {t : Pid} {k : ℕ} {r : ReadResult}
  {w : WriteResult}

/-- A handler closes the connection at most once. -/
theorem handleStage_count_closed {st : Stage} (h : c.handleStage st r w = .ok (c', l)) :
    l.count .closed ≤ 1 := by
  have hclose : ∀ {d d' : TcpConnection} {m : List Event}, d.handleClose = .ok (d', m) →
      m.count .closed ≤ 1 := by
    intro d d' m hm
    obtain ⟨-, -, rfl⟩ := handleClose_cases hm
    simp
  have hwrite : ∀ {m : List Event}, (∀ e ∈ m, e.isCallback = false) → m.count .closed ≤ 1 := by
    intro m hm
    rw [List.count_eq_zero_of_not_mem fun hmem => by simpa using hm _ hmem]
    exact Nat.zero_le 1
  cases StageStep.of_handleStage h with
  | idle => exact Nat.zero_le 1
  | close _ h => exact hclose h
  | read _ h =>
    obtain ⟨-, ⟨-, rfl⟩ | ⟨m, hm, rfl⟩ | ⟨bytes, -, rfl⟩⟩ := handleRead_cases h
    · simp
    · rw [List.count_cons_of_ne (by simp)]
      exact hclose hm
    · simp
  | write _ h => exact hwrite (handleWrite_isCallback h)

/-- The stage of the read callback fails on a closed connection whose mask calls for it, and the
first stage on one whose peer has hung up; the other stages do not fail there. -/
theorem handleStage_error_disconnected {st : Stage} {a : Assertion}
    (hd : c.state = .kDisconnected) (h : c.handleStage st r w = .error a) :
    st = .close ∨
      st = .read ∧ c.channel.revents ∩ {.epollin, .epollpri, .epollrdhup} ≠ ∅ := by
  cases st with
  | close => exact .inl rfl
  | error =>
    simp only [handleStage, handleError] at h
    split_ifs at h
  | read =>
    simp only [handleStage] at h
    split_ifs at h with hm
    exact .inr ⟨rfl, hm⟩
  | write =>
    simp only [handleStage, handleWrite, if_pos hd] at h
    split_ifs at h <;> simp at h

end TcpConnection

namespace Connection

variable {threadId : Pid} {s s' s₁ : Run} {lab : Label} {m : Mask} {a : Assertion}

/-- The step belongs to a dispatch of the channel. -/
def InDispatch (s : Run) (_ : Label) : Prop := ∃ st, s.phase = .dispatch (some st)

instance (s : Run) (lab : Label) : Decidable (InDispatch s lab) :=
  match h : s.phase with
  | .dispatch (some st) => isTrue ⟨st, h⟩
  | .poll | .jobs | .dispatch none => isFalse (by simp [InDispatch, h])

/-- The dispatch that begins in `s` trips no assertion of the handlers, whatever the kernel answers
and the users call, and closes the connection at most once. -/
structure SafeDispatch (threadId : Pid) (s : Run) : Prop where
  asserts : ∀ s' lab a, (system threadId).RunIf InDispatch s s' → InDispatch s' lab →
    (system threadId).step s' lab = .failed a →
    a ≠ .handleRead ∧ a ≠ .handleWriteReadable ∧ a ≠ .handleWriteWriting ∧ a ≠ .handleClose
  once : ∀ s', (system threadId).RunIf InDispatch s s' → s'.history.count .closed ≤ 1

/-- Between the stages of a dispatch of the mask `m`. -/
structure Dispatching (m : Mask) (s : Run) : Prop where
  revents : s.conn.channel.revents = m
  /-- Before the stage of the read callback only the first stage has closed the connection. -/
  alive : ∀ st, s.phase = .dispatch (some st) → s.conn.state = .kDisconnected →
    st ≠ .close ∧ (st ≠ .write → .epollhup ∈ m ∧ .epollin ∉ m)
  once : s.history.count .closed ≤ 1

/-- A step closes the connection at most once, if it is not closed. -/
theorem Inv.count_closed {c : TcpConnection} {l : List Event} (hi : Inv s)
    (e : Effect s.conn c l) (hs : s.history.count .closed ≤ 1) (hl : l.count .closed ≤ 1) :
    (s.history ++ l).count .closed ≤ 1 := by
  rw [List.count_append]
  by_cases hc : .closed ∈ l
  · have hno : .closed ∉ s.history := fun hmem => (e.closed.1 hc).1 (hi.closed.1 hmem)
    rw [List.count_eq_zero_of_not_mem hno]
    omega
  · rw [List.count_eq_zero_of_not_mem hc]
    omega

theorem Dispatching.step (hi : Inv s) (hs : Dispatching m s) (hc : InDispatch s lab)
    (h : Step threadId s lab s') : Dispatching m s' := by
  obtain ⟨st₀, hph⟩ := hc
  cases h with
  | @call t op c l ht h =>
    have e := (TcpConnection.call_growth h).toEffect
    have hno : .closed ∉ l := fun hmem => by simpa using TcpConnection.call_isCallback h _ hmem
    refine ⟨e.revents.trans hs.revents, fun st hp hd => hs.alive st hp ?_, ?_⟩
    · by_contra hne
      exact hno (e.closed.2 ⟨hne, hd⟩)
    · refine hi.count_closed e hs.once ?_
      rw [List.count_eq_zero_of_not_mem hno]
      exact Nat.zero_le 1
  | @handle r w st c l hp h =>
    have e := TcpConnection.handleStage_effect h
    refine ⟨e.revents.trans hs.revents, fun st' hp' hd => ?_,
      hi.count_closed e hs.once (TcpConnection.handleStage_count_closed h)⟩
    have hnext : st.next = some st' := by
      have hp'' : Phase.dispatch st.next = .dispatch (some st') := hp'
      injection hp''
    have hst' : st' ≠ .close := by
      rintro rfl
      cases st <;> cases hnext
    refine ⟨hst', fun hw => ?_⟩
    by_cases hd₀ : s.conn.state = .kDisconnected
    · obtain ⟨-, hhup⟩ := hs.alive st hp hd₀
      refine hhup ?_
      rintro rfl
      cases hnext
    · -- this stage has closed the connection, so it is the first
      cases st with
      | close =>
        simp only [TcpConnection.handleStage] at h
        split_ifs at h with hmask
        · rw [← hs.revents]
          exact hmask
        · cases h
          exact absurd hd hd₀
      | error =>
        simp only [TcpConnection.handleStage, TcpConnection.handleError] at h
        split_ifs at h <;> cases h <;> exact absurd hd hd₀
      | read => cases hnext; exact absurd rfl hw
      | write => cases hnext
  | idle hp | poll hp hm | swap hp | runJob hp hj h | endJobs hp hj =>
    rw [hp] at hph
    cases hph

/-- The states of the dispatch of `m`. -/
theorem Dispatching.of_run (hi : Inv s) (hs : Dispatching m s)
    (hr : (system threadId).RunIf InDispatch s s') : Inv s' ∧ Dispatching m s' :=
  hr.invariant (I := fun s => Inv s ∧ Dispatching m s)
    (fun _ _ _ hs hc h => ⟨hs.1.step (.of_step h), hs.2.step hs.1 hc (.of_step h)⟩) ⟨hi, hs⟩

theorem Dispatching.of_poll (hi : Inv s) (hd : s.conn.state ≠ .kDisconnected) :
    Dispatching m (s.setRevents m) where
  revents := rfl
  alive st _ hd' := absurd hd' hd
  once := by
    have hno : .closed ∉ s.history := fun hmem => hd (hi.closed.1 hmem)
    simp only [Run.setRevents, List.count_append, List.count_eq_zero_of_not_mem hno]
    simp

/-- The first stage closes a connection whose peer has hung up. -/
theorem handleStage_close_eq {c : TcpConnection} {r : ReadResult} {w : WriteResult}
    (hs : c.Sound) (hst : c.state = .kConnected ∨ c.state = .kDisconnecting)
    (hm : .epollhup ∈ c.channel.revents ∧ .epollin ∉ c.channel.revents) :
    ∃ c' l, c.handleStage .close r w = .ok (c', l) ∧ c'.state = .kDisconnected := by
  cases h : c.handleStage .close r w with
  | error a =>
    obtain ⟨-, h1, h2⟩ := TcpConnection.handleStage_error hs (fun hw => by cases hw) h
    rcases hst with hst | hst
    · exact absurd hst h1
    · exact absurd hst h2
  | ok p =>
    refine ⟨p.1, p.2, rfl, ?_⟩
    simp only [TcpConnection.handleStage] at h
    rw [if_pos hm] at h
    obtain ⟨-, he, -⟩ := TcpConnection.handleClose_cases h
    rw [he]

/-- The next stage of a dispatch. -/
theorem step_handle {st : Stage} {r : ReadResult} {w : WriteResult}
    (hp : s.phase = .dispatch (some st)) :
    (system threadId).step s (.handle r w) =
      { s with phase := .dispatch st.next }.perform (s.conn.handleStage st r w) := by
  change Connection.step threadId s (.handle r w) = _
  simp only [Connection.step, hp]

/-- A dispatch that has got to the stage of the read callback on a closed connection, with a mask
that calls for it, fails. -/
theorem step_handleRead_failed {r : ReadResult} {w : WriteResult}
    (hp : s.phase = .dispatch (some .read)) (hd : s.conn.state = .kDisconnected)
    (hm : s.conn.channel.revents ∩ {.epollin, .epollpri, .epollrdhup} ≠ ∅) :
    (system threadId).step s (.handle r w) = .failed .handleRead := by
  rw [step_handle hp, perform_eq_failed]
  unfold TcpConnection.handleStage TcpConnection.handleRead
  dsimp only
  rw [if_pos hm, if_pos hd]

/-- The first stage closes, the second does nothing, and the third asserts. -/
theorem not_safeDispatch (hi : Inv s) (hd : s.conn.state ≠ .kDisconnected)
    (hp : s.phase = .dispatch (some .close)) (hhup : .epollhup ∈ s.conn.channel.revents)
    (hin : .epollin ∉ s.conn.channel.revents) (hpri : .epollpri ∈ s.conn.channel.revents) :
    ¬ SafeDispatch threadId s := by
  intro hsafe
  have hst : s.conn.state = .kConnected ∨ s.conn.state = .kDisconnecting := by
    have hne := hi.ne_connecting
    cases hst : s.conn.state <;> simp_all
  obtain ⟨c, l, hclose, hcd⟩ := handleStage_close_eq (r := .data []) (w := .wrote 0) hi.sound hst
    ⟨hhup, hin⟩
  have hstep₁ : (system threadId).step s (.handle (.data []) (.wrote 0)) =
      .next ({ s with phase := .dispatch (some .error) }.apply c l) := by
    rw [step_handle hp]
    exact perform_eq_next.2 ⟨c, l, hclose, rfl⟩
  generalize hs₁ : { s with phase := .dispatch (some .error) }.apply c l = s₁ at hstep₁
  have hp₁ : s₁.phase = .dispatch (some .error) := by
    rw [← hs₁]
    rfl
  have hrev₁ : s₁.conn.channel.revents = s.conn.channel.revents := by
    rw [← hs₁]
    exact (TcpConnection.handleStage_effect hclose).revents
  have hstep₂ : (system threadId).step s₁ (.handle (.data []) (.wrote 0)) =
      .next ({ s₁ with phase := .dispatch (some .read) }.apply s₁.conn []) := by
    rw [step_handle hp₁]
    refine perform_eq_next.2 ⟨s₁.conn, [], ?_, rfl⟩
    simp only [TcpConnection.handleStage, TcpConnection.handleError, ite_self]
  have hrun : (system threadId).RunIf InDispatch s
      ({ s₁ with phase := .dispatch (some .read) }.apply s₁.conn []) :=
    (Relation.ReflTransGen.single ⟨_, ⟨_, hp⟩, hstep₁⟩).tail ⟨_, ⟨_, hp₁⟩, hstep₂⟩
  refine (hsafe.asserts _ _ _ hrun ⟨.read, rfl⟩
    (step_handleRead_failed (r := .data []) (w := .wrote 0) rfl ?_ ?_)).1 rfl
  · rw [← hs₁]
    exact hcd
  · refine Finset.nonempty_iff_ne_empty.1 ⟨.epollpri, ?_⟩
    rw [apply_conn, hrev₁]
    simp [hpri]

/-- **The masks that are dispatched safely.**  The dispatch of a mask that `epoll_wait` reports for
an established connection trips no assertion of the handlers and closes the connection at most
once, whatever the kernel answers and the users call meanwhile, exactly if the mask does not have
`EPOLLHUP` and `EPOLLPRI` without `EPOLLIN`. -/
theorem safeDispatch_iff (hr : (system threadId).Reachable s)
    (hd : s.conn.state ≠ .kDisconnected)
    (h : (system threadId).step s (.poll (some m)) = .next s₁) :
    SafeDispatch threadId s₁ ↔ ¬ (.epollhup ∈ m ∧ .epollin ∉ m ∧ .epollpri ∈ m) := by
  have hi : Inv s := .of_reachable hr
  have hi₁ : Inv s₁ := hi.step (.of_step h)
  have hrdhup : .epollrdhup ∉ m := by
    cases Step.of_step h with
    | poll hp hrep =>
      rw [hi.synced.1, if_pos (hi.sound hd).1] at hrep
      intro hmem
      have hsub := (Masked.of_reachable hr).1 (hrep.mem hmem (by simp) (by simp))
      simp at hsub
  have hs₁ : Dispatching m s₁ ∧ s₁.conn.state ≠ .kDisconnected ∧
      s₁.phase = .dispatch (some .close) := by
    cases Step.of_step h with
    | poll hp hrep => exact ⟨.of_poll hi hd, hd, rfl⟩
  obtain ⟨hdisp, hd₁, hph⟩ := hs₁
  constructor
  · rintro hsafe ⟨hhup, hin, hpri⟩
    rw [← hdisp.revents] at hhup hin hpri
    exact not_safeDispatch hi₁ hd₁ hph hhup hin hpri hsafe
  · intro hmask
    constructor
    · intro s' lab a hrun hin hfail
      obtain ⟨hi', hs'⟩ := Dispatching.of_run hi₁ hdisp hrun
      obtain ⟨hd', rfl | ha⟩ := hi'.failed hfail
      · simp
      · exfalso
        obtain ⟨st, hp⟩ := hin
        cases lab with
        | handle r w =>
          rw [step_handle hp, perform_eq_failed] at hfail
          obtain ⟨hclose, hhup⟩ := hs'.alive st hp hd'
          rcases TcpConnection.handleStage_error_disconnected hd' hfail with rfl | ⟨rfl, hne⟩
          · exact hclose rfl
          · obtain ⟨hh, hn⟩ := hhup (by simp)
            refine hne (Finset.eq_empty_of_forall_notMem fun e he => ?_)
            rw [hs'.revents] at he
            cases e <;> simp_all
        | call t op =>
          change Connection.step threadId s' (.call t op) = .failed a at hfail
          simp only [Connection.step, Outcome.guard_eq_failed, perform_eq_failed] at hfail
          obtain ⟨rfl, -⟩ := TcpConnection.call_error hi'.sound hi'.polled hfail.2
          rcases ha with ha | ha <;> cases ha
        | poll revents =>
          change Connection.step threadId s' (.poll revents) = .failed a at hfail
          cases revents <;> simp [Connection.step] at hfail
        | swap | endJobs => exact absurd (Outcome.guard_eq_failed.1 hfail).2 (by simp)
        | runJob w =>
          change Connection.step threadId s' (.runJob w) = .failed a at hfail
          simp only [Connection.step, hp] at hfail
          cases hfail
    · intro s' hrun
      exact (Dispatching.of_run hi₁ hdisp hrun).2.once

/-- The peer hangs up while data of it can be read. -/
theorem safeDispatch_hangup :
    ∃ s s₁, (system 1).Reachable s ∧ s.conn.state = .kConnected ∧
      (system 1).step s (.poll (some {.epollin, .epollhup})) = .next s₁ ∧ SafeDispatch 1 s₁ := by
  have hrun : ((system 1).exec (.start (fun _ => none) 5 false false 0) [.swap, .endJobs]).Leads
      fun s => s.conn.state = .kConnected ∧
        ((system 1).step s (.poll (some {.epollin, .epollhup}))).Leads fun _ => True := by
    decide +kernel
  obtain ⟨s, hs, hc, s₁, h, -⟩ := hrun
  have hr : (system 1).Reachable s := System.reachable_of_exec (start_init 5 false false 0) hs
  exact ⟨s, s₁, hr, hc, h, (safeDispatch_iff hr (by simp [hc]) h).2 (by decide)⟩

/-- The peer hangs up while urgent data of it can be read, and nothing else. -/
theorem safeDispatch_fails :
    ∃ s s₁, (system 1).Reachable s ∧ s.conn.state = .kConnected ∧
      (system 1).step s (.poll (some {.epollpri, .epollhup})) = .next s₁ ∧
      ¬ SafeDispatch 1 s₁ := by
  have hrun : ((system 1).exec (.start (fun _ => none) 5 false false 0) [.swap, .endJobs]).Leads
      fun s => s.conn.state = .kConnected ∧
        ((system 1).step s (.poll (some {.epollpri, .epollhup}))).Leads fun s₁ =>
          ((system 1).execIf InDispatch s₁ [.handle (.data []) (.wrote 0),
            .handle (.data []) (.wrote 0)]).Leads fun s₂ => s₂.phase = .dispatch (some .read) ∧
              (system 1).step s₂ (.handle (.data []) (.wrote 0)) = .failed .handleRead := by
    decide +kernel
  obtain ⟨s, hs, hc, s₁, h, s₂, h₂, hp, hf⟩ := hrun
  refine ⟨s, s₁, System.reachable_of_exec (start_init 5 false false 0) hs, hc, h, fun hsafe => ?_⟩
  exact (hsafe.asserts s₂ _ _ (System.runIf_of_execIf h₂) ⟨_, hp⟩ hf).1 rfl

end Connection
end Leven
