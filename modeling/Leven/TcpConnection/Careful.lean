import Leven.TcpConnection.Closed
import Leven.TcpConnection.DispatchMask

/-!
# Careful users of a connection

Three assertions of a connection can fail: that of `shutdown`, when the connection is closed, and
those of `handleRead` and `handleClose`, when it is dispatched again after it has been closed.

* `Careful`: nobody calls `shutdown` on a closed connection or restarts its reader, and a hangup is
  not reported with urgent data alone;
* `Guarded`: what then holds in a dispatch;
* `careful_ne_failed`: no assertion fails.
-/

namespace Leven.Connection

open Transition

variable {threadId : Pid} {s s' : Run} {lab : Label} {m : Mask} {a : Assertion}

/-- A closed connection is neither shut down nor read again, and a hangup does not come with urgent
data and without `EPOLLIN`. -/
def Careful (threadId : Pid) (s : Run) : Label → Prop
  | .call t op => op = .shutdown ∨ op = .startRead ∧ t = threadId → s.conn.state ≠ .kDisconnected
  | .runJob _ => s.jobs.head? = some .startRead → s.conn.state ≠ .kDisconnected
  | .poll revents => ∀ m ∈ revents, ¬ (.epollhup ∈ m ∧ .epollin ∉ m ∧ .epollpri ∈ m)
  | .handle .. | .swap | .endJobs => True

instance (threadId : Pid) (s : Run) : DecidablePred (Careful threadId s) := fun lab =>
  match lab with
  | .call _ _ | .runJob _ => inferInstanceAs (Decidable (_ → _))
  | .poll revents => inferInstanceAs (Decidable (∀ m ∈ revents, _))
  | .handle .. | .swap | .endJobs => isTrue trivial

theorem Careful.noRestart (hc : Careful threadId s lab) : NoRestart threadId s lab := by
  cases lab with
  | call t op =>
    cases op with
    | startRead => exact fun ht => hc (.inr ⟨rfl, ht⟩)
    | _ => trivial
  | runJob w => exact hc
  | _ => trivial

/-- In a dispatch: what has been reported, and that a closed connection has been closed by its first
stages. -/
structure Guarded (s : Run) : Prop where
  dispatching : Dispatching s.conn.channel.revents s
  mask : ¬ (.epollhup ∈ s.conn.channel.revents ∧ .epollin ∉ s.conn.channel.revents ∧
    .epollpri ∈ s.conn.channel.revents)
  rdhup : .epollrdhup ∉ s.conn.channel.revents

/-- A dispatch begins. -/
theorem Guarded.of_poll (hr : (system threadId).ReachableIf (Careful threadId) s)
    (hc : Careful threadId s (.poll (some m))) (hrep : Reportable (s.interest s.conn.channel.fd) m) :
    Guarded (s.setRevents m) := by
  have hi : Inv s := .of_reachable hr
  obtain ⟨m', hk, -⟩ := reportable_iff.1 hrep
  have hpoll : s.conn.channel.polling = true := by
    by_contra hno
    rw [hi.synced.1, if_neg hno] at hk
    cases hk
  have hd : s.conn.state ≠ .kDisconnected := by
    intro hd
    have hstays := staysClosed (hr.mono fun _ _ => Careful.noRestart)
    rw [(hstays.off (hi.closed.2 hd)).1] at hpoll
    cases hpoll
  have hrdhup : .epollrdhup ∉ m := by
    rw [hi.synced.1, if_pos hpoll] at hrep
    intro hmem
    have hsub := (Masked.of_reachable hr).1 (hrep.mem hmem (by simp) (by simp))
    simp at hsub
  exact ⟨.of_poll hi hd, hc m rfl, hrdhup⟩

/-- The stages of a dispatch, and the calls between them. -/
theorem Guarded.step (hi : Inv s) (hs : Guarded s) (hin : InDispatch s lab)
    (h : Step threadId s lab s') : Guarded s' := by
  have hd := hs.dispatching.step hi hin h
  have he := hd.revents
  rw [← he] at hd
  refine ⟨hd, ?_, ?_⟩
  · rw [he]
    exact hs.mask
  · rw [he]
    exact hs.rdhup

theorem Guarded.of_reachable (hr : (system threadId).ReachableIf (Careful threadId) s)
    (hin : ∃ st, s.phase = .dispatch (some st)) : Guarded s := by
  refine hr.invariant_of (J := (system threadId).ReachableIf (Careful threadId))
    (I := fun s => (∃ st, s.phase = .dispatch (some st)) → Guarded s) (fun _ h => h) ?_ ?_ hin
  · intro s h
    obtain ⟨k, fd, writeComplete, highWater, mark, -, rfl⟩ := init_iff.1 h
    simp [Run.start]
  · rintro s lab s' hreach hs hc hstep ⟨st, hp'⟩
    have h := Step.of_step hstep
    by_cases hin : InDispatch s lab
    · exact (hs hin).step (.of_reachable hreach) hin h
    · cases h with
      | poll hp hm => exact .of_poll hreach hc hm
      | call ht h => exact absurd ⟨st, hp'⟩ hin
      | handle hp h => exact absurd ⟨_, hp⟩ hin
      | runJob hp hj h =>
        change s.phase = _ at hp'
        rw [hp] at hp'
        cases hp'
      | idle hp | swap hp | endJobs hp hj => cases hp'

/-- A stage does not fail. -/
theorem Guarded.handle_ne_failed {r : ReadResult} {w : WriteResult} (hi : Inv s) (hs : Guarded s)
    {st : Stage} (hp : s.phase = .dispatch (some st)) :
    (system threadId).step s (.handle r w) ≠ .failed a := by
  intro hfail
  obtain ⟨hd, -⟩ := hi.failed hfail
  rw [step_handle hp, perform_eq_failed] at hfail
  obtain ⟨hclose, hhup⟩ := hs.dispatching.alive st hp hd
  rcases TcpConnection.handleStage_error_disconnected hd hfail with rfl | ⟨rfl, hne⟩
  · exact hclose rfl
  · -- a connection that the first stage has closed has no mask that calls for `handleRead`
    obtain ⟨hh, hn⟩ := hhup (by simp)
    have hpri : .epollpri ∉ s.conn.channel.revents := fun hpri => hs.mask ⟨hh, hn, hpri⟩
    have hrdhup := hs.rdhup
    refine hne (Finset.eq_empty_of_forall_notMem fun e he => ?_)
    cases e <;> simp_all

/-- **Careful users trip no assertion.**  In every run in which nobody shuts a closed connection
down or restarts its reader, and `epoll_wait` does not report a hangup with urgent data and without
`EPOLLIN`, no such step fails. -/
theorem careful_ne_failed (hr : (system threadId).ReachableIf (Careful threadId) s)
    (hc : Careful threadId s lab) : (system threadId).step s lab ≠ .failed a := by
  intro h
  have hi : Inv s := .of_reachable hr
  cases lab with
  | call t op =>
    change Connection.step threadId s (.call t op) = .failed a at h
    simp only [Connection.step, Outcome.guard_eq_failed, perform_eq_failed] at h
    obtain ⟨-, rfl, hd⟩ := TcpConnection.call_error hi.sound hi.polled h.2
    exact hc (.inl rfl) hd
  | poll revents =>
    change Connection.step threadId s (.poll revents) = .failed a at h
    cases revents <;> simp [Connection.step] at h
  | handle r w =>
    cases hp : s.phase with
    | dispatch st =>
      cases st with
      | none => simp [system, Connection.step, hp] at h
      | some st => exact (Guarded.of_reachable hr ⟨st, hp⟩).handle_ne_failed hi hp h
    | poll | jobs => simp [system, Connection.step, hp] at h
  | swap | endJobs => exact absurd (Outcome.guard_eq_failed.1 h).2 (by simp)
  | runJob w =>
    change Connection.step threadId s (.runJob w) = .failed a at h
    simp only [Connection.step] at h
    split at h
    · exact TcpConnection.runJob_ne_error hi.sound hi.polled hi.ne_connecting
        (perform_eq_failed.1 h)
    · cases h

end Leven.Connection
