import Leven.TcpConnection.Careful
import Leven.TcpServer.Deferred
import Leven.TcpServer.Dispatch
import Leven.TcpServer.Projection
import Leven.TcpServer.Teardown

/-!
# Servers that do not stop

What can end a run of a server is a failed assertion, an access to a connection that has been
destroyed, or an error of `accept4` that the code does not tolerate.  Each of them has a condition
on the users and on what the kernel reports, and together the conditions are enough.

* `Careful`: the conditions on a step that concern the connections one by one;
* `Lawful`: with those on references and on the end of the server;
* `server_safe`: a run whose steps meet the conditions never fails.
-/

namespace Leven

open Transition Container

/-- A hangup is not reported with urgent data and without `EPOLLIN`. -/
def Ready.Calm : Ready → Prop
  | .acceptor => True
  | .channel _ m => ¬ (.epollhup ∈ m ∧ .epollin ∉ m ∧ .epollpri ∈ m)

instance (x : Ready) : Decidable x.Calm :=
  match x with
  | .acceptor => isTrue trivial
  | .channel _ _ => inferInstanceAs (Decidable (¬ _))

namespace TcpServer

variable {threadId : Pid} {s s' : TcpServer} {lab : Label} {c : ℕ} {conn : TcpConnection} {e : Fault}
  {f : TcpConnection → TcpConnection.Result} {r : Connection.Run} {a : Assertion}

/-- `accept4` fails only by `ECONNABORTED` or `EMFILE`, a closed connection is neither shut down nor
read again, and a hangup does not come with urgent data and without `EPOLLIN`. -/
def Careful (threadId : Pid) (s : TcpServer) : Label → Prop
  | .poll ready => ∀ x ∈ ready, x.Calm
  | .accept r => r ≠ some (.error .other)
  | .call t c op => op = .shutdown ∨ op = .startRead ∧ t = threadId → s.view c = .live true
  | .runJob _ => ∀ j ∈ s.jobs.head?, j.job = .startRead → s.view j.conn = .live true
  | .handle .. | .other | .ret | .swap | .endJobs | .keep _ | .drop _ | .leave | .destroyServer
  | .destroyLoop => True

instance (threadId : Pid) (s : TcpServer) : DecidablePred (Careful threadId s) := fun lab =>
  match lab with
  | .poll ready => inferInstanceAs (Decidable (∀ x ∈ ready, x.Calm))
  | .accept r => inferInstanceAs (Decidable (r ≠ _))
  | .call _ _ _ => inferInstanceAs (Decidable (_ → _))
  | .runJob _ => inferInstanceAs (Decidable (∀ j ∈ s.jobs.head?, _))
  | .handle .. | .other | .ret | .swap | .endJobs | .keep _ | .drop _ | .leave | .destroyServer
  | .destroyLoop => isTrue trivial

/-- What a step must meet. -/
structure Lawful (threadId : Pid) (s : TcpServer) (lab : Label) : Prop where
  careful : Careful threadId s lab
  active : KeepsActive s lab
  targets : KeepsTargets s lab
  empty : DestroysEmpty s lab

instance (threadId : Pid) (s : TcpServer) : DecidablePred (Lawful threadId s) := fun lab =>
  decidable_of_iff (Careful threadId s lab ∧ KeepsActive s lab ∧ KeepsTargets s lab ∧
    DestroysEmpty s lab) ⟨fun h => ⟨h.1, h.2.1, h.2.2.1, h.2.2.2⟩, fun h => ⟨h.1, h.2, h.3, h.4⟩⟩

/-! ### One connection -/

theorem not_disconnected_of_view (hl : s.conns c = .live conn) (hv : s.view c = .live true) :
    conn.state ≠ .kDisconnected := by
  rw [view_eq hl] at hv
  exact TcpConnection.isOpen_eq_true.1 (Slot.live.inj hv)

/-- A careful step of the server is a careful step of each connection. -/
theorem Careful.project (hc : Careful threadId s lab) (hm : Mirrors c s r) :
    ∀ k ∈ project threadId c s lab, Connection.Careful threadId r k := by
  intro k hk
  cases lab with
  | poll ready =>
    cases hk
    exact fun m hm => hc _ (mem_of_reported hm)
  | handle rd w =>
    obtain ⟨x, -, hx⟩ := Option.bind_eq_some_iff.1 hk
    split_ifs at hx
    cases hx
    trivial
  | runJob w =>
    obtain ⟨j, hj, hx⟩ := Option.bind_eq_some_iff.1 hk
    split_ifs at hx with hjc
    cases hx
    intro hhead
    have hjobs := hm.jobs
    cases hs : s.jobs with
    | nil =>
      rw [hs] at hj
      cases hj
    | cons i js =>
      rw [hs] at hj hjobs
      cases hj
      subst hjc
      rw [hjobs, jobsOf_cons_self] at hhead
      exact not_disconnected_of_view hm.conn (hc j (by simp [hs]) (Option.some.inj hhead))
  | call t d op =>
    cases hk
    split_ifs with hd
    · subst hd
      exact fun hop => not_disconnected_of_view hm.conn (hc hop)
    · simp [otherCall, Connection.Careful]
  | swap | endJobs | leave =>
    cases hk
    simp [Connection.Careful]
  | _ => cases hk

/-- A connection of a lawful run does a careful run of its own. -/
theorem exists_careful (hr : (system threadId).ReachableIf (Lawful threadId) s)
    (hl : s.conns c = .live conn) (hp : s.pc ≠ .loopGone) :
    ∃ r, (Connection.system threadId).ReachableIf (Connection.Careful threadId) r ∧ Mirrors c s r :=
  (projects (C := Lawful threadId) (by simp [otherCall, Connection.Careful])
    fun _ _ _ hc hm => hc.careful.project hm).exists_reachable hr ⟨⟨conn, hl⟩, hp⟩

/-! ### The server -/

/-- Only an error that the code does not tolerate ends the run in `Acceptor::handleRead`. -/
theorem accept_failed {x : Option AcceptResult}
    (h : (system threadId).step s (.accept x) = .failed e) : x = some (.error .other) := by
  change TcpServer.step threadId s (.accept x) = .failed e at h
  simp only [TcpServer.step] at h
  split at h
  · obtain ⟨-, h⟩ := Outcome.guard_eq_failed.1 h
    cases x with
    | none => cases h
    | some x =>
      cases x with
      | accepted fd => cases h
      | error x => cases x <;> first | rfl | cases h
  · cases h

/-- A member function of a connection that is there, and that does not fail itself. -/
theorem eq_of_perform_failed (h : s.perform c f = .failed e)
    (hlive : ∃ conn, s.conns c = .live conn)
    (hok : ∀ conn a, s.conns c = .live conn → f conn ≠ .error a) :
    e = .assertion .closeConnection := by
  obtain ⟨hn, -⟩ | ⟨conn, a, hl, herr, -⟩ | ⟨_, _, _, -, -, -, -, he⟩ := perform_failed h
  · obtain ⟨conn, hl⟩ := hlive
    exact absurd hl (hn conn)
  · exact absurd herr (hok conn a hl)
  · exact he

/-- The erasure in `closeConnection` is exact. -/
theorem ne_closeConnection (hr : (system threadId).ReachableIf (Lawful threadId) s)
    (h : (system threadId).step s lab = .failed e) : e ≠ .assertion .closeConnection := by
  rintro rfl
  exact (Exact.of_reachable hr).not_failure (.of_step h)

/-- A connection does not fail in a run of its own. -/
theorem not_step_failed {k : Connection.Label}
    (hr : (system threadId).ReachableIf (Lawful threadId) s) (hc : Lawful threadId s lab)
    (hk : project threadId c s lab = some k) (hp : s.pc ≠ .loopGone)
    (hl : s.conns c = .live conn) :
    ¬ ∀ r, Mirrors c s r → r.conn = conn → (Connection.system threadId).step r k = .failed a := by
  intro hfail
  obtain ⟨r, hreach, hm⟩ := exists_careful hr hl hp
  have hrc : r.conn = conn := Slot.live.inj (hm.conn.symm.trans hl)
  exact Connection.careful_ne_failed hreach (hc.careful.project hm k hk) (hfail r hm hrc)

/-- A step that calls a member function of a connection does not fail there, `u` being the server
at the call. -/
theorem perform_ne_failed {u : TcpServer} {k : Connection.Label}
    (hr : (system threadId).ReachableIf (Lawful threadId) s) (hc : Lawful threadId s lab)
    (h : (system threadId).step s lab = .failed e) (hu : u.conns = s.conns)
    (hk : project threadId c s lab = some k) (hp : s.pc ≠ .loopGone)
    (hlive : ∃ conn, s.conns c = .live conn)
    (hfail : ∀ r a, Mirrors c s r → f r.conn = .error a →
      (Connection.system threadId).step r k = .failed a) :
    u.perform c f ≠ .failed e := by
  intro hperform
  refine ne_closeConnection hr h
    (eq_of_perform_failed hperform (by rwa [hu]) fun conn a hl herr => ?_)
  rw [hu] at hl
  refine not_step_failed hr hc hk hp hl fun r hm hrc => hfail r a hm ?_
  rw [hrc]
  exact herr

/-- A step that lets references go destroys no connection that is open or dispatched. -/
theorem release_ne_failed {u : TcpServer} {cs : List ℕ}
    (hr : (system threadId).ReachableIf (Lawful threadId) s) (hc : Lawful threadId s lab)
    (h : (system threadId).step s lab = .failed e) : u.release cs ≠ .failed e := by
  intro hrelease
  obtain ⟨-, -, -, conn, -, hd⟩ := release_failed hrelease
  obtain ⟨-, rfl⟩ | ⟨-, -, rfl⟩ := destructor_eq_error.1 hd
  · have hopen : NoneOpen s := .of_reachable (hr.mono fun _ _ => Lawful.empty)
    exact hopen.not_failure (.of_reachable hr) hc.empty (.of_step h)
  · exact (Flagged.of_reachable hr).step_ne_failed hc.active h

/-- **A lawful server does not stop.**  In every run of a server in which a connection that is
closed is neither shut down nor read again, the last reference to it does not go while its channel
is being dispatched or a bare closure waits for it, the server is destroyed without connections,
`accept4` fails only by `ECONNABORTED` or `EMFILE` and no hangup comes with urgent data and without
`EPOLLIN`: no such step fails, so no assertion of the connections, of the channels, of the epoller
or of the server does, and no destroyed connection is used. -/
theorem server_safe (hr : (system threadId).ReachableIf (Lawful threadId) s)
    (hc : Lawful threadId s lab) : (system threadId).step s lab ≠ .failed e := by
  intro h
  cases Failure.of_step h with
  | accept he =>
    obtain rfl := Option.some.inj (accept_failed h)
    exact hc.careful rfl
  | @handle rd w c st rest hp hf hperform =>
    have hlive : ActiveLive s := .of_reachable (hr.mono fun _ _ => Lawful.active)
    have hactive : Active.channel c ∈ s.pc.active := by
      rw [ServerPc.active_of_stage hp]
      exact List.mem_cons_self
    have hk : project threadId c s (.handle rd w) = some (.handle rd w) := by simp [project, hp]
    have hgone : s.pc ≠ .loopGone := by
      rintro hgone
      rw [hgone] at hp
      cases hp
    refine absurd hperform
      (perform_ne_failed hr hc h rfl hk hgone (hlive c hactive) fun r a hm herr => ?_)
    rw [Connection.step_handle (hm.phase.trans (phase_of_stage hp))]
    exact Connection.perform_eq_failed.2 herr
  | @runJob w j js hf hp hj hperform =>
    have htargets : TargetsLive s := .of_reachable (hr.mono fun _ _ => Lawful.targets)
    have hlive : ∃ conn, s.conns j.conn = .live conn := by
      refine htargets ?_ j (by simp [queue, hj])
      rw [hp]
      rfl
    have hk : project threadId j.conn s (.runJob w) = some (.runJob w) := by simp [project, hj]
    refine absurd hperform
      (perform_ne_failed hr hc h rfl hk (by simp [hp]) hlive fun r a hm herr => ?_)
    have hph : r.phase = .jobs := by
      rw [hm.phase, hp]
      rfl
    have hjobs : r.jobs = j.job :: jobsOf j.conn js := by
      rw [hm.jobs, hj]
      exact jobsOf_cons_self j.job
    show Connection.step threadId r (.runJob w) = _
    simp only [Connection.step, hph, hjobs]
    exact Connection.perform_eq_failed.2 herr
  | @call t c op hcall hperform =>
    have howned : s.Owned c := by
      obtain ⟨-, -, hrefs | ⟨-, hframe⟩⟩ := hcall
      · exact .inr (.inl hrefs)
      · exact .inr (.inr (.inr hframe))
    have hk : project threadId c s (.call t c op) = some (.call t op) := by simp [project]
    refine absurd hperform (perform_ne_failed hr hc h rfl hk hcall.1
      (Alive.of_reachable hr c howned) fun r a hm herr => ?_)
    refine Outcome.guard_eq_failed.2 ⟨hm.phase_ne_poll (.of_reachable hr) hcall, ?_⟩
    rw [hm.calls]
    exact Connection.perform_eq_failed.2 herr
  | ret hf hu | endJobs hf hp hj hu | drop hc' hu | destroyServer hf hp hu | destroyLoop hf hp hu =>
    exact release_ne_failed hr hc h hu

/-- A connection has been closed in its dispatch and destroyed with the last reference of a user,
and the server is destroyed next. -/
theorem server_safe_one :
    ∃ s, (system 0).ReachableIf (Lawful 0) s ∧ (s.pc = .left ∧ s.view 0 = .destroyed ∧
      Lawful 0 s .destroyServer) ∧ ∀ e, (system 0).step s .destroyServer ≠ .failed e := by
  obtain ⟨s, hr, hp, hv, hc⟩ := System.exists_reachableIf (S := system 0) (C := Lawful 0)
    (s := new false)
    (P := fun s => s.pc = .left ∧ s.view 0 = .destroyed ∧ Lawful 0 s .destroyServer)
    (w := [.poll [.acceptor], .accept (some (.accepted 5)), .keep 0, .ret, .swap, .endJobs,
      .poll [.channel 0 {.epollin}], .handle (.data []) (.wrote 0), .handle (.data []) (.wrote 0),
      .handle (.data []) (.wrote 0), .ret, .handle (.data []) (.wrote 0), .call 2 0 .stopRead,
      .swap, .runJob (.wrote 0), .endJobs, .drop 0, .leave]) ⟨false, rfl⟩ (by decide +kernel)
  exact ⟨s, hr, ⟨hp, hv, hc⟩, fun e => server_safe hr hc⟩

end TcpServer
end Leven
