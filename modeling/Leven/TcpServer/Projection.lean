import Leven.Transition.Component
import Leven.TcpConnection.DispatchMask
import Leven.TcpServer.Registered

/-!
# The runs of a connection in a server

`Connection.system` is one connection with its part of the loop; in a server many connections share
the loop, the interest list and the queue, and are made and destroyed while others are dispatched.
What one of them does there is still one of its own runs.

* `ServerPc.phase`, `jobsOf`, `project`: where the loop is for a connection, its closures in a
  queue, and its part of a step;
* `Mirrors`: the state of a server, as one connection sees it;
* `Mirrors.step`: a step of the server is the step `project` of the connection, or none;
* `connection_projects`: every connection of a reachable state is in a reachable state of its own.

The calls of all connections are counted together.  A call of another connection is a call that
takes nothing, from some thread that is not that of the loop.
-/

namespace Leven

open Transition Container

/-- Where the loop is, as far as the connection `c` is concerned.  Behind `loop()` no channel is
dispatched. -/
def ServerPc.phase (c : ℕ) : ServerPc → Phase
  | .polling => .poll
  | .dispatching rest => .dispatch (if .channel c ∈ rest then some .close else none)
  | .handling d st rest =>
    .dispatch (if d = c then some st else if .channel c ∈ rest then some .close else none)
  | .running => .jobs
  | .left | .serverGone | .loopGone => .dispatch none

namespace TcpServer

variable {threadId : Pid} {s s' : TcpServer} {lab : Label} {c d : ℕ} {cs : List ℕ}
  {conn conn' : TcpConnection} {l : List Event} {f : TcpConnection → TcpConnection.Result}
  {r : Connection.Run} {js : List Closure} {ready : List Ready}

/-- The closures of the connection. -/
def jobsOf (c : ℕ) (js : List Closure) : List Job :=
  js.filterMap fun j => if j.conn = c then some j.job else none

/-- The mask that `epoll_wait` reports for the connection. -/
def reported (c : ℕ) (ready : List Ready) : Option Mask :=
  ready.findSome? fun
    | .acceptor => none
    | .channel d m => if d = c then some m else none

/-- A call that takes nothing, from a thread that is not that of the loop. -/
def otherCall (threadId : Pid) : Connection.Label := .call (threadId + 1) (.retrieveInput 0)

/-- The part of the connection in a step. -/
def project (threadId : Pid) (c : ℕ) (s : TcpServer) : Label → Option Connection.Label
  | .poll ready => some (.poll (reported c ready))
  | .handle r w => s.pc.stage.bind fun x => if x.1 = c then some (.handle r w) else none
  | .swap => some .swap
  | .runJob w => s.jobs.head?.bind fun j => if j.conn = c then some (.runJob w) else none
  | .endJobs => some .endJobs
  | .call t d op => some (if d = c then .call t op else otherCall threadId)
  -- an iteration in which nothing is reported any more
  | .leave => some (.poll none)
  | .accept _ | .other | .ret | .keep _ | .drop _ | .destroyServer | .destroyLoop => none

/-- The server, as its connection `c` sees it. -/
structure Mirrors (c : ℕ) (s : TcpServer) (r : Connection.Run) : Prop where
  conn : s.conns c = .live r.conn
  interest : 0 ≤ r.conn.channel.fd → r.interest r.conn.channel.fd = s.interest r.conn.channel.fd
  pendingJobs : r.pendingJobs = jobsOf c s.pendingJobs
  jobs : r.jobs = jobsOf c s.jobs
  phase : r.phase = s.pc.phase c
  calls : r.calls = s.calls

/-! ### The parts of a state -/

theorem jobsOf_append : jobsOf c (js ++ js') = jobsOf c js ++ jobsOf c js' := List.filterMap_append

theorem jobsOf_map_self (k : List Job) : jobsOf c (k.map (Closure.mk c)) = k := by
  simp [jobsOf, List.filterMap_map]

theorem jobsOf_map_of_ne (hd : d ≠ c) (k : List Job) : jobsOf c (k.map (Closure.mk d)) = [] := by
  simp [jobsOf, List.filterMap_map, hd]

theorem jobsOf_cons_self (j : Job) : jobsOf c (⟨c, j⟩ :: js) = j :: jobsOf c js := by
  simp [jobsOf]

theorem jobsOf_cons_of_ne {j : Closure} (hj : j.conn ≠ c) : jobsOf c (j :: js) = jobsOf c js := by
  simp [jobsOf, hj]

theorem phase_eq_poll {pc : ServerPc} : pc.phase c = .poll ↔ pc = .polling := by
  cases pc <;> simp [ServerPc.phase]

/-- The phase of the connection whose stage comes next. -/
theorem phase_of_stage {pc : ServerPc} {st : Stage} {rest : List Active}
    (hp : pc.stage = some (c, st, rest)) : pc.phase c = .dispatch (some st) := by
  unfold ServerPc.stage at hp
  split at hp
  · cases hp
    simp [ServerPc.phase]
  · cases hp
    simp [ServerPc.phase]
  · cases hp

/-- The phase of the connection behind its stage. -/
theorem phase_behind {st : Stage} {rest : List Active} (hc : .channel c ∉ rest) :
    (ServerPc.behind c st rest).phase c = .dispatch st.next := by
  unfold ServerPc.behind
  split
  · next st' hst => simp [ServerPc.phase, hst]
  · next hst => simp [ServerPc.phase, hst, hc]

/-- The stage of another connection. -/
theorem phase_behind_of_ne {pc : ServerPc} {st : Stage} {rest : List Active}
    (hp : pc.stage = some (d, st, rest)) (hd : d ≠ c) :
    (ServerPc.behind d st rest).phase c = pc.phase c := by
  have hbehind : (ServerPc.behind d st rest).phase c =
      .dispatch (if .channel c ∈ rest then some .close else none) := by
    unfold ServerPc.behind
    split
    · simp [ServerPc.phase, hd]
    · rfl
  rw [hbehind]
  unfold ServerPc.stage at hp
  split at hp
  · cases hp
    simp [ServerPc.phase, Ne.symm hd]
  · cases hp
    simp [ServerPc.phase, hd]
  · cases hp

theorem reported_ne_none : reported c ready ≠ none ↔ .channel c ∈ ready.map Ready.active := by
  induction ready with
  | nil => simp [reported]
  | cons x ready ih =>
    cases x with
    | acceptor => simpa [reported, Ready.active] using ih
    | channel d m =>
      by_cases hd : d = c
      · simp [reported, Ready.active, hd]
      · simpa [reported, Ready.active, hd, Ne.symm hd] using ih

theorem mem_of_reported {m : Mask} (hm : reported c ready = some m) :
    .channel c m ∈ ready := by
  obtain ⟨x, hx, hxm⟩ := List.exists_of_findSome?_eq_some hm
  cases x with
  | acceptor => cases hxm
  | channel d m' =>
    dsimp only at hxm
    split_ifs at hxm with hd
    cases hxm
    exact hd ▸ hx

/-- The masks are stored where they belong. -/
theorem setRevents_eq (hn : (ready.map Ready.active).Nodup) {h : RefHeap ℕ TcpConnection}
    (hl : h c = .live conn) :
    setRevents ready h c = .live ((reported c ready).elim conn fun m =>
      { conn with channel := { conn.channel with revents := m } }) := by
  induction ready generalizing h conn with
  | nil => exact hl
  | cons x ready ih =>
    obtain ⟨hx, hn'⟩ := List.nodup_cons.1 hn
    cases x with
    | acceptor => exact ih hn' hl
    | channel d m =>
      by_cases hd : d = c
      · subst hd
        have hno : reported d ready = none := by
          by_contra hne
          exact hx (reported_ne_none.1 hne)
        simp only [setRevents, hl]
        rw [ih hn' (Function.update_self ..), hno]
        simp [reported]
      · have hrep : reported c (.channel d m :: ready) = reported c ready := by
          simp [reported, hd]
        rw [hrep]
        cases hx : h d with
        | live conn' =>
          simp only [setRevents, hx]
          exact ih hn' ((Function.update_of_ne (Ne.symm hd) _ _).trans hl)
        | free | destroyed =>
          simp only [setRevents, hx]
          exact ih hn' hl

/-! ### The steps -/

/-- A member function of the connection. -/
theorem Mirrors.performed_self (hm : Mirrors c s r)
    (hf : ∀ conn conn' l, f conn = .ok (conn', l) → Effect conn conn' l)
    (hp : Performed s c f s') :
    ∃ conn' l, f r.conn = .ok (conn', l) ∧ Mirrors c s' (r.apply conn' l) := by
  cases hp with
  | @intro conn conn' l _ hl hok he =>
    obtain rfl : conn = r.conn := Slot.live.inj (hl.symm.trans hm.conn)
    have e := hf _ _ _ hok
    obtain ⟨hconns, hk, hq, hjobs, hpc, hcalls, -⟩ := he.same
    refine ⟨conn', l, hok, ?_, ?_, ?_, ?_, ?_, ?_⟩
    · rw [hconns]
      exact Function.update_self ..
    · intro hpos
      show interestAfter r.interest l conn'.channel.fd = s'.interest conn'.channel.fd
      have hall : s'.interest = interestAfter s.interest l := by
        rw [hk]
        exact if_neg (not_lt.2 hpos)
      rw [hall, e.fd]
      exact interestAfter_congr (hm.interest (e.fd ▸ hpos))
    · rw [hq]
      show r.pendingJobs ++ queued l = jobsOf c (s.pendingJobs ++ (queued l).map (Closure.mk c))
      rw [jobsOf_append, jobsOf_map_self, hm.pendingJobs]
    · exact hm.jobs.trans (congrArg _ hjobs.symm)
    · rw [hpc]
      exact hm.phase
    · exact hm.calls.trans hcalls.symm

/-- A member function of another connection. -/
theorem Mirrors.performed_other (hm : Mirrors c s r) (hs : Registered s) (hd : d ≠ c)
    (hf : ∀ conn conn' l, f conn = .ok (conn', l) → Effect conn conn' l)
    (hp : Performed s d f s') : Mirrors c s' r := by
  cases hp with
  | @intro conn conn' l _ hl hok he =>
    have e := hf _ _ _ hok
    obtain ⟨hconns, hk, hq, hjobs, hpc, hcalls, -⟩ := he.same
    refine ⟨?_, ?_, ?_, hm.jobs.trans (congrArg _ hjobs.symm), ?_, hm.calls.trans hcalls.symm⟩
    · rw [hconns]
      exact (Function.update_of_ne (Ne.symm hd) _ _).trans hm.conn
    · intro hpos
      have hne := hs.ne_of_ne hm.conn hl (Ne.symm hd) hpos
      rw [hk, hm.interest hpos]
      exact (ctlAll_other fun k => e.other k _ hne).symm
    · rw [hq, hm.pendingJobs]
      show _ = jobsOf c (s.pendingJobs ++ (queued l).map (Closure.mk d))
      rw [jobsOf_append, jobsOf_map_of_ne hd, List.append_nil]
    · rw [hpc]
      exact hm.phase

/-- Other connections are destroyed. -/
theorem Mirrors.released (hm : Mirrors c s r) (hs : Registered s) (hr : s.release cs = .next s')
    (hl : ∃ conn, s'.conns c = .live conn) : Mirrors c s' r := by
  obtain ⟨conns, hcol, rfl⟩ := release_eq hr
  obtain ⟨conn, hl⟩ := hl
  have hsame : conns c = s.conns c := hl.trans (hcol.live hl).symm
  refine ⟨hsame.trans hm.conn, fun hpos => ?_, hm.pendingJobs, hm.jobs, hm.phase, hm.calls⟩
  rw [hm.interest hpos]
  refine Option.ext fun m => ?_
  rw [closeAll_eq_some]
  refine (and_iff_left ?_).symm
  intro d _ conn' hd hdes he
  have hcd : c ≠ d := by
    rintro rfl
    cases hl.symm.trans hdes
  exact hs.ne_of_ne hm.conn hd hcd hpos he.symm

/-- `epoll_wait` returns. -/
theorem Mirrors.poll (hm : Mirrors c s r) (hs : Registered s) (hp : s.pc = .polling)
    (hn : (ready.map Ready.active).Nodup) (hr : ∀ x ∈ ready, s.CanReport x) :
    ∃ r', (Connection.system threadId).step r (.poll (reported c ready)) = .next r' ∧
      Mirrors c { s with
        conns := setRevents ready s.conns, pc := .dispatching (ready.map Ready.active) } r' := by
  have hph : r.phase = .poll := by
    rw [hm.phase, hp]
    rfl
  have hconn := setRevents_eq hn hm.conn
  cases hrep : reported c ready with
  | none =>
    have hmem : .channel c ∉ ready.map Ready.active := fun h => reported_ne_none.2 h hrep
    refine ⟨_, Outcome.guard_eq_next.2 ⟨hph, rfl⟩, ?_, hm.interest, hm.pendingJobs, hm.jobs, ?_,
      hm.calls⟩
    · rw [hrep] at hconn
      exact hconn
    · exact congrArg Phase.dispatch (if_neg hmem).symm
  | some m =>
    have hmem : .channel c ∈ ready.map Ready.active := reported_ne_none.1 (by simp [hrep])
    have hcan := hr _ (mem_of_reported hrep)
    simp only [CanReport, hm.conn] at hcan
    have hpos : 0 ≤ r.conn.channel.fd := by
      refine (hs.owned _ fun hnone => ?_).1
      rw [hnone] at hcan
      exact hcan
    rw [← hm.interest hpos] at hcan
    refine ⟨_, Outcome.guard_eq_next.2 ⟨⟨hph, hcan⟩, rfl⟩, ?_, hm.interest, hm.pendingJobs, hm.jobs,
      ?_, hm.calls⟩
    · rw [hrep] at hconn
      exact hconn
    · exact congrArg Phase.dispatch (if_pos hmem).symm

/-- The next stage of a dispatch. -/
theorem Mirrors.handle {rd : ReadResult} {w : WriteResult} {st : Stage} {rest : List Active}
    (hm : Mirrors c s r) (hs : Registered s) (ho : Orderly s)
    (hp : s.pc.stage = some (d, st, rest))
    (h : Performed { s with pc := .behind d st rest } d (fun conn => conn.handleStage st rd w) s') :
    ∃ r', (Connection.system threadId).stepOpt r (project threadId c s (.handle rd w)) = .next r' ∧
      Mirrors c s' r' := by
  have hproj : project threadId c s (.handle rd w) =
      if d = c then some (.handle rd w) else none := by
    simp only [project, hp, Option.bind_some]
  rw [hproj]
  by_cases hd : d = c
  · subst hd
    have hrest : .channel d ∉ rest := by
      have hnodup := ho.nodup
      rw [ServerPc.active_of_stage hp] at hnodup
      exact (List.nodup_cons.1 hnodup).1
    have hph : r.phase = .dispatch (some st) := hm.phase.trans (phase_of_stage hp)
    have hbehind : Mirrors d { s with pc := .behind d st rest }
        { r with phase := .dispatch st.next } :=
      ⟨hm.conn, hm.interest, hm.pendingJobs, hm.jobs, (phase_behind hrest).symm, hm.calls⟩
    obtain ⟨conn', l, hok, hm'⟩ :=
      hbehind.performed_self (fun _ _ _ h => TcpConnection.handleStage_effect h) h
    rw [if_pos rfl]
    refine ⟨_, (Connection.step_handle hph).trans ?_, hm'⟩
    exact Connection.perform_eq_next.2 ⟨conn', l, hok, rfl⟩
  · have hbehind : Mirrors c { s with pc := .behind d st rest } r :=
      ⟨hm.conn, hm.interest, hm.pendingJobs, hm.jobs,
        hm.phase.trans (phase_behind_of_ne hp hd).symm, hm.calls⟩
    rw [if_neg hd]
    exact ⟨r, rfl, hbehind.performed_other (hs.of_eq rfl rfl) hd
      (fun _ _ _ h => TcpConnection.handleStage_effect h) h⟩

/-- The next closure of the batch. -/
theorem Mirrors.runJob {w : WriteResult} {j : Closure} (hm : Mirrors c s r) (hs : Registered s)
    (hp : s.pc = .running) (hj : s.jobs = j :: js)
    (h : Performed { s with jobs := js, done := s.done ++ [j] } j.conn
      (fun conn => conn.runJob j.job w) s') :
    ∃ r', (Connection.system threadId).stepOpt r (project threadId c s (.runJob w)) = .next r' ∧
      Mirrors c s' r' := by
  have hproj : project threadId c s (.runJob w) =
      if j.conn = c then some (.runJob w) else none := by
    simp only [project, hj, List.head?_cons, Option.bind_some]
  have hph : r.phase = .jobs := by
    rw [hm.phase, hp]
    rfl
  have hjobs := hm.jobs
  rw [hj] at hjobs
  rw [hproj]
  obtain ⟨d, job⟩ := j
  by_cases hd : d = c
  · subst hd
    rw [jobsOf_cons_self] at hjobs
    have htaken : Mirrors d { s with jobs := js, done := s.done ++ [⟨d, job⟩] }
        { r with jobs := jobsOf d js } :=
      ⟨hm.conn, hm.interest, hm.pendingJobs, rfl, hm.phase, hm.calls⟩
    obtain ⟨conn', l, hok, hm'⟩ :=
      htaken.performed_self (fun _ _ _ h => (TcpConnection.runJob_growth h).toEffect) h
    rw [if_pos rfl]
    refine ⟨_, ?_, hm'⟩
    show Connection.step threadId r (.runJob w) = _
    simp only [Connection.step, hph, hjobs]
    exact Connection.perform_eq_next.2 ⟨conn', l, hok, rfl⟩
  · rw [jobsOf_cons_of_ne hd] at hjobs
    have htaken : Mirrors c { s with jobs := js, done := s.done ++ [⟨d, job⟩] } r :=
      ⟨hm.conn, hm.interest, hm.pendingJobs, hjobs, hm.phase, hm.calls⟩
    rw [if_neg hd]
    exact ⟨r, rfl, htaken.performed_other (hs.of_eq rfl rfl) hd
      (fun _ _ _ h => (TcpConnection.runJob_growth h).toEffect) h⟩

/-- A call that takes nothing is counted. -/
theorem step_otherCall :
    (Connection.system threadId).step r (otherCall threadId) =
      .next { r with calls := r.calls + 1 } := by
  refine Outcome.guard_eq_next.2 ⟨fun h => absurd h (Nat.succ_ne_self _), ?_⟩
  refine Connection.perform_eq_next.2 ⟨r.conn, [], ?_, ?_⟩
  · simp [TcpConnection.call, TcpConnection.retrieveInput]
  · simp [Connection.Run.apply]

/-- The loop thread calls nothing while it waits. -/
theorem Mirrors.phase_ne_poll {t : Pid} (hm : Mirrors c s r) (ho : Orderly s)
    (hc : s.MayCall threadId t d) (ht : t = threadId) : r.phase ≠ .poll := by
  intro hpoll
  rw [hm.phase, phase_eq_poll] at hpoll
  have hframe := hc.2.1 ht
  rw [ho.idle hpoll] at hframe
  cases hframe

/-- A call by a user. -/
theorem Mirrors.call {t : Pid} {op : Op} (hm : Mirrors c s r) (hs : Registered s) (ho : Orderly s)
    (hc : s.MayCall threadId t d)
    (h : Performed { s with calls := s.calls + 1 } d
      (fun conn => conn.call (t = threadId) t s.calls op) s') :
    ∃ r', (Connection.system threadId).stepOpt r (project threadId c s (.call t d op)) = .next r' ∧
      Mirrors c s' r' := by
  have hcalls : r.calls + 1 = s.calls + 1 := congrArg (· + 1) hm.calls
  have hm₁ : Mirrors c { s with calls := s.calls + 1 } { r with calls := r.calls + 1 } :=
    ⟨hm.conn, hm.interest, hm.pendingJobs, hm.jobs, hm.phase, hcalls⟩
  by_cases hd : d = c
  · subst hd
    obtain ⟨conn', l, hok, hm'⟩ :=
      hm₁.performed_self (fun _ _ _ h => (TcpConnection.call_growth h).toEffect) h
    rw [← hm.calls] at hok
    refine ⟨_, ?_, hm'⟩
    simp only [project, if_pos]
    exact Outcome.guard_eq_next.2 ⟨hm.phase_ne_poll ho hc,
      Connection.perform_eq_next.2 ⟨conn', l, hok, rfl⟩⟩
  · refine ⟨{ r with calls := r.calls + 1 }, ?_, ?_⟩
    · simp only [project, if_neg hd]
      exact step_otherCall
    · exact hm₁.performed_other (hs.of_eq rfl rfl) hd
        (fun _ _ _ h => (TcpConnection.call_growth h).toEffect) h

/-- A connection that is there was there before, or it has just been made. -/
theorem Step.live_or_new (h : Step threadId s lab s') (hl : s'.conns c = .live conn') :
    (∃ conn, s.conns c = .live conn) ∨ (∃ a, lab = .accept (some a)) ∧ c = s.created := by
  have hperformed : ∀ {s₀ : TcpServer} {d : ℕ} {f : TcpConnection → TcpConnection.Result},
      Performed s₀ d f s' → s₀.conns = s.conns → ∃ conn, s.conns c = .live conn := by
    intro s₀ d f hp hconns
    obtain ⟨conn, conn', l, hd, -, he⟩ := hp.conns_cases
    rw [he, hconns] at hl
    by_cases hcd : c = d
    · exact ⟨conn, by rw [hcd, ← hconns, hd]⟩
    · rw [Function.update_of_ne hcd] at hl
      exact ⟨_, hl⟩
  cases h with
  | @poll ready hp hn hr =>
    obtain he | ⟨conn, m, hlive, -⟩ := setRevents_cases ready s.conns c
    · exact .inl ⟨conn', he.symm.trans hl⟩
    · exact .inl ⟨conn, hlive⟩
  | @accept a rest fd new l hp hf ha hr h =>
    by_cases hcn : c = s.created
    · exact .inr ⟨⟨a, rfl⟩, hcn⟩
    · exact .inl ⟨conn', (Function.update_of_ne hcn _ _).symm.trans hl⟩
  | handle hp hf h => exact .inl (hperformed h rfl)
  | runJob hf hp hj h => exact .inl (hperformed h rfl)
  | call hc h => exact .inl (hperformed h rfl)
  | ret hf h | endJobs hf hp hj h | drop hc h | destroyServer hf hp h | destroyLoop hf hp h =>
    obtain ⟨hcol⟩ := h
    exact .inl ⟨conn', hcol.live hl⟩
  | skip | other | swap | keep | leave => exact .inl ⟨conn', hl⟩

/-- Behind `~EventLoop` nothing but references changes. -/
theorem Step.pc_eq_loopGone (h : Step threadId s lab s') (hp : s.pc = .loopGone) :
    s'.pc = .loopGone := by
  cases h with
  | call hc h => exact absurd hp hc.1
  | ret hf h => exact h.pc_eq.trans hp
  | drop hc h => exact h.pc_eq.trans hp
  | other hf ho =>
    rw [hp] at ho
    cases ho
  | keep => exact hp
  | handle hst hf h =>
    rw [hp] at hst
    cases hst
  | poll hp' | accept hp' | skip hp' | swap hf hp' | runJob hf hp' hj h | endJobs hf hp' hj h
  | leave hf hp' | destroyServer hf hp' h | destroyLoop hf hp' h =>
    rw [hp] at hp'
    cases hp'

/-- **A step of the server is a step of the connection or none.** -/
theorem Mirrors.step (hm : Mirrors c s r) (hx : Exact s) (hs : Registered s) (ho : Orderly s)
    (hstep : (system threadId).step s lab = .next s') (hl : s'.conns c = .live conn')
    (hp' : s'.pc ≠ .loopGone) :
    ∃ r', (Connection.system threadId).stepOpt r (project threadId c s lab) = .next r' ∧
      Mirrors c s' r' := by
  have hreleased : ∀ {r' : Connection.Run}, lab.Releases → Mirrors c (s.letGo lab).1 r' →
      Registered (s.letGo lab).1 → Mirrors c s' r' := fun hl' hm' hs' =>
    hm'.released hs' (release_of_step hl' hstep) ⟨conn', hl⟩
  cases Step.of_step hstep with
  | poll hp hn hr => exact hm.poll hs hp hn hr
  | @accept a rest fd new l hp hf ha hr h =>
    refine ⟨r, rfl, ?_⟩
    have hs' := hs.step hx hstep
    rw [connectEstablished_new (k := s.interest)] at h
    obtain ⟨rfl, rfl⟩ := Prod.mk.inj (Except.ok.inj h)
    have hcn : c ≠ s.created := (hx.lt_created hm.conn).ne
    refine ⟨(Function.update_of_ne hcn _ _).trans hm.conn, fun hpos => ?_, ?_, hm.jobs, ?_,
      hm.calls⟩
    · have hne := hs'.ne_of_ne ((Function.update_of_ne hcn _ _).trans hm.conn)
        (Function.update_self ..) hcn hpos
      rw [hm.interest hpos]
      exact (ctlAll_add_other hne).symm
    · rw [hm.pendingJobs]
      exact congrArg _ (List.append_nil _).symm
    · rw [hm.phase, hp]
      simp [ServerPc.phase, announced, connectionCallback, TcpServer.apply, inserted]
  | skip hp hf =>
    refine ⟨r, rfl, hm.conn, hm.interest, hm.pendingJobs, hm.jobs, ?_, hm.calls⟩
    rw [hm.phase, hp]
    simp [ServerPc.phase]
  | handle hp hf h => exact hm.handle hs ho hp h
  | runJob hf hp hj h => exact hm.runJob hs hp hj h
  | call hc h => exact hm.call hs ho hc h
  | ret hf h =>
    exact ⟨r, rfl, hreleased trivial
      ⟨hm.conn, hm.interest, hm.pendingJobs, hm.jobs, hm.phase, hm.calls⟩ (hs.of_eq rfl rfl)⟩
  | drop hc h =>
    exact ⟨r, rfl, hreleased trivial
      ⟨hm.conn, hm.interest, hm.pendingJobs, hm.jobs, hm.phase, hm.calls⟩ (hs.of_eq rfl rfl)⟩
  | endJobs hf hp hj h =>
    have hph : r.phase = .jobs := by
      rw [hm.phase, hp]
      rfl
    have hjobs : r.jobs = [] := by
      rw [hm.jobs, hj]
      rfl
    exact ⟨{ r with phase := .poll }, Outcome.guard_eq_next.2 ⟨⟨hph, hjobs⟩, rfl⟩,
      hreleased trivial ⟨hm.conn, hm.interest, hm.pendingJobs, hm.jobs, rfl, hm.calls⟩
        (hs.of_eq rfl rfl)⟩
  | destroyServer hf hp h =>
    have hph : r.phase = .dispatch none := by
      rw [hm.phase, hp]
      rfl
    exact ⟨r, rfl, hreleased trivial
      ⟨hm.conn, hm.interest, hm.pendingJobs, hm.jobs, hph, hm.calls⟩ (hs.of_eq rfl rfl)⟩
  | destroyLoop hf hp h => exact absurd h.pc_eq hp'
  | swap hf hp =>
    have hph : r.phase = .dispatch none := by
      rw [hm.phase, hp]
      rfl
    exact ⟨_, Outcome.guard_eq_next.2 ⟨hph, rfl⟩, hm.conn, hm.interest, rfl, hm.pendingJobs, rfl,
      hm.calls⟩
  | leave hf hp =>
    have hph : r.phase = .poll := by
      rw [hm.phase, hp]
      rfl
    exact ⟨_, Outcome.guard_eq_next.2 ⟨hph, rfl⟩, hm.conn, hm.interest, hm.pendingJobs, hm.jobs, rfl,
      hm.calls⟩
  | other | keep =>
    exact ⟨r, rfl, hm.conn, hm.interest, hm.pendingJobs, hm.jobs, hm.phase, hm.calls⟩

/-! ### The runs -/

variable {C : TcpServer → Label → Prop} {D : Connection.Run → Connection.Label → Prop}

/-- Calls that take nothing are only counted. -/
theorem reachable_calls (hD : ∀ r, D r (otherCall threadId))
    (hr : (Connection.system threadId).ReachableIf D r) (n : ℕ) :
    (Connection.system threadId).ReachableIf D { r with calls := r.calls + n } := by
  induction n with
  | zero => exact hr
  | succ n ih => exact ih.step (hD _) step_otherCall

/-- A new connection is at the start of a run of its own. -/
theorem Mirrors.start (hD : ∀ r, D r (otherCall threadId)) (hx : Exact s) (hs : Registered s)
    (ho : Orderly s) {a : AcceptResult}
    (hstep : (system threadId).step s (.accept (some a)) = .next s') :
    ∃ r, (Connection.system threadId).ReachableIf D r ∧ Mirrors s.created s' r := by
  cases Step.of_step hstep with
  | @accept _ rest fd conn l hp hf ha hr h =>
    have hnone : s.interest fd = none := by
      by_contra hne
      obtain ⟨hpos, c, hc⟩ := hs.owned fd hne
      rcases hr with rfl | ⟨rfl, -⟩
      · obtain ⟨conn', hl, hfd⟩ := fdOf_eq_live.1 hc
        have hno := ha.2 c (hx.lt_created hl)
        simp [hasFd, hl, hfd] at hno
      · cases hpos
    have hinit : (Connection.system threadId).init
        (.start s.interest fd s.writeCompleteCallback false 0) :=
      Connection.init_iff.2 ⟨_, _, _, _, _, hnone, rfl⟩
    have hreach : (Connection.system threadId).ReachableIf D _ :=
      reachable_calls hD (.of_init hinit) s.calls
    rw [connectEstablished_new (k := s.interest)] at h
    obtain ⟨rfl, rfl⟩ := Prod.mk.inj (Except.ok.inj h)
    -- nothing of the new connection is in the queue
    have hqueue : ∀ js : List Closure, js ⊆ s.queue → jobsOf s.created js = [] := fun js hjs =>
      List.filterMap_eq_nil_iff.2 fun j hj => if_neg (ho.queue j (hjs hj)).ne
    refine ⟨_, hreach, Function.update_self .., fun hpos => ?_, ?_, ?_, ?_, Nat.zero_add _⟩
    · exact congrFun (if_neg (not_lt.2 hpos)).symm fd
    · show [] = jobsOf s.created (s.pendingJobs ++ [])
      rw [List.append_nil]
      exact (hqueue _ (List.subset_append_right _ _)).symm
    · exact (hqueue _ (List.subset_append_left _ _)).symm
    · have hrest : .channel s.created ∉ rest := by
        intro hmem
        refine lt_irrefl _ (ho.active s.created ?_)
        rw [hp]
        exact List.mem_cons_of_mem _ hmem
      exact congrArg Phase.dispatch (if_neg hrest).symm

/-- A connection of a server is a component of it, as long as there is a loop. -/
theorem projects (hD : ∀ r, D r (otherCall threadId))
    (hCD : ∀ s lab r, C s lab → Mirrors c s r → ∀ k ∈ project threadId c s lab, D r k) :
    System.Projects (system threadId) (Connection.system threadId) C D
      (fun s => (∃ conn, s.conns c = .live conn) ∧ s.pc ≠ .loopGone) (Mirrors c)
      (project threadId c) where
  init := by
    rintro _ ⟨wc, rfl⟩ ⟨⟨conn, hl⟩, -⟩
    cases hl
  start := by
    rintro s lab s' hr - hstep hnot ⟨⟨conn, hl⟩, hp'⟩
    have h := Step.of_step hstep
    have hp : s.pc ≠ .loopGone := fun hp => hp' (h.pc_eq_loopGone hp)
    obtain hlive | ⟨⟨a, rfl⟩, rfl⟩ := h.live_or_new hl
    · exact absurd ⟨hlive, hp⟩ hnot
    · exact Mirrors.start hD (.of_reachable hr) (.of_reachable hr) (.of_reachable hr) hstep
  step := by
    rintro s lab s' r hr - hstep - hm ⟨⟨conn, hl⟩, hp'⟩
    exact hm.step (.of_reachable hr) (.of_reachable hr) (.of_reachable hr) hstep hl hp'
  cond := hCD

/-- **A connection of a server does its own runs.**  Every connection that is there in a reachable
state of a server, as long as the loop exists, is in a reachable state of `Connection.system`, with
its own part of the queue, of the interest list and of the iteration; and every step of the server,
whatever it does to other connections, is the step `project` of the connection or none. -/
theorem connection_projects (hr : (system threadId).Reachable s) (hl : s.conns c = .live conn)
    (hp : s.pc ≠ .loopGone) :
    ∃ r, (Connection.system threadId).Reachable r ∧ r.conn = conn ∧ Mirrors c s r ∧
      ∀ lab s', (system threadId).step s lab = .next s' → (∃ conn', s'.conns c = .live conn') →
        s'.pc ≠ .loopGone →
        ∃ r', (Connection.system threadId).stepOpt r (project threadId c s lab) = .next r' ∧
          Mirrors c s' r' := by
  obtain ⟨r, hreach, hm⟩ := (projects (C := fun _ _ => True) (D := fun _ _ => True) (c := c)
    (fun _ => trivial) fun _ _ _ _ _ _ _ => trivial).exists_reachable hr ⟨⟨conn, hl⟩, hp⟩
  refine ⟨r, hreach, Slot.live.inj (hm.conn.symm.trans hl), hm, ?_⟩
  rintro lab s' hstep ⟨conn', hl'⟩ hp'
  exact hm.step (.of_reachable hr) (.of_reachable hr) (.of_reachable hr) hstep hl' hp'

/-- Connection 1, while connection 0 is being dispatched and has a closure in the queue. -/
theorem connection_projects_two :
    ∃ s conn, (system 0).Reachable s ∧
      (s.conns 1 = .live conn ∧ s.pc = .dispatching [.channel 1] ∧
        s.pendingJobs = [⟨0, .forceCloseInLoop⟩]) ∧
      ∃ r, (Connection.system 0).Reachable r ∧ r.conn = conn ∧ Mirrors 1 s r ∧
        ∀ lab s', (system 0).step s lab = .next s' → (∃ conn', s'.conns 1 = .live conn') →
          s'.pc ≠ .loopGone →
          ∃ r', (Connection.system 0).stepOpt r (project 0 1 s lab) = .next r' ∧
            Mirrors 1 s' r' := by
  have hrun : ((system 0).exec (new false) [.poll [.acceptor], .accept (some (.accepted 5)), .ret,
      .swap, .endJobs, .poll [.acceptor], .accept (some (.accepted 6)), .ret, .swap, .endJobs,
      .poll [.channel 0 {.epollin}, .channel 1 {.epollin}], .handle (.data [1]) (.wrote 0),
      .handle (.data [1]) (.wrote 0), .handle (.data [1]) (.wrote 0), .call 0 0 .forceClose, .ret,
      .handle (.data [1]) (.wrote 0)]).Leads fun s => s.pc = .dispatching [.channel 1] ∧
        s.pendingJobs = [⟨0, .forceCloseInLoop⟩] ∧ s.view 1 = .live true := by
    decide +kernel
  obtain ⟨s, hs, hp, hq, hv⟩ := hrun
  have hr : (system 0).Reachable s := System.reachable_of_exec ⟨false, rfl⟩ hs
  obtain ⟨conn, hl, -⟩ := Slot.map_eq_live.1 hv
  exact ⟨s, conn, hr, ⟨hl, hp, hq⟩, connection_projects hr hl (by simp [hp])⟩

/-! ### What is registered -/

/-- **The interest list is exact.**  In every reachable state of a server, as long as its loop
exists, what `epoll_wait` watches are the connections that are there and poll, each with its own
events: no entry outlives its connection, and no two connections have the same one. -/
theorem interest_exact (hr : (system threadId).Reachable s) (hp : s.pc ≠ .loopGone) (fd : Fd)
    (m : Mask) :
    s.interest fd = some m ↔
      0 ≤ fd ∧ ∃! c, ∃ conn, s.conns c = .live conn ∧ conn.channel.fd = fd ∧
        conn.channel.polling = true ∧ conn.channel.events = m := by
  have hs : Registered s := .of_reachable hr
  -- an entry is what its channel says
  have hentry : ∀ c conn, s.conns c = .live conn → 0 ≤ conn.channel.fd →
      s.interest conn.channel.fd =
        if conn.channel.polling then some conn.channel.events else none := by
    intro c conn hl hpos
    obtain ⟨r, hreach, rfl, hm, -⟩ := connection_projects hr hl hp
    rw [← hm.interest hpos]
    exact (Connection.Inv.of_reachable hreach).synced.1
  constructor
  · intro hk
    obtain ⟨hpos, c, hc⟩ := hs.owned fd (by simp [hk])
    obtain ⟨conn, hl, rfl⟩ := fdOf_eq_live.1 hc
    have he := hentry c conn hl hpos
    rw [hk] at he
    refine ⟨hpos, c, ?_, ?_⟩
    · split_ifs at he with hpoll
      exact ⟨conn, hl, rfl, hpoll, (Option.some.inj he).symm⟩
    · rintro d ⟨conn', hl', hfd, -⟩
      exact hs.distinct d c _ (fdOf_eq_live.2 ⟨conn', hl', hfd⟩) hc hpos
  · rintro ⟨hpos, c, ⟨conn, hl, rfl, hpoll, rfl⟩, -⟩
    rw [hentry c conn hl hpos, if_pos hpoll]

/-- The descriptor 6 of connection 1, when connection 0 has gone. -/
theorem interest_exact_one :
    ∃ s, (system 0).Reachable s ∧ (s.pc ≠ .loopGone ∧ s.view 0 = .destroyed) ∧
      s.interest 5 = none ∧ s.interest 6 = some Connection.startEvents ∧
      ∀ fd m, s.interest fd = some m ↔
        0 ≤ fd ∧ ∃! c, ∃ conn, s.conns c = .live conn ∧ conn.channel.fd = fd ∧
          conn.channel.polling = true ∧ conn.channel.events = m := by
  have hrun : ((system 0).exec (new false) [.poll [.acceptor], .accept (some (.accepted 5)),
      .keep 0, .ret, .swap, .endJobs, .poll [.acceptor], .accept (some (.accepted 6)), .ret, .swap,
      .endJobs, .poll [.channel 0 {.epollin}], .handle (.data []) (.wrote 0),
      .handle (.data []) (.wrote 0), .handle (.data []) (.wrote 0), .ret,
      .handle (.data []) (.wrote 0), .drop 0]).Leads fun s => s.pc = .dispatching [] ∧
        s.view 0 = .destroyed ∧ s.interest 5 = none ∧
        s.interest 6 = some Connection.startEvents := by
    decide +kernel
  obtain ⟨s, hs, hp, hv, h5, h6⟩ := hrun
  have hr : (system 0).Reachable s := System.reachable_of_exec ⟨false, rfl⟩ hs
  have hne : s.pc ≠ .loopGone := by simp [hp]
  exact ⟨s, hr, ⟨hne, hv⟩, h5, h6, interest_exact hr hne⟩

end TcpServer
end Leven
