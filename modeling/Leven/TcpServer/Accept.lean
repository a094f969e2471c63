import Leven.TcpServer.Connections

/-!
# The answers of `accept4`

`Acceptor::handleRead` logs a failure of `accept4` and leaves its switch on `ECONNABORTED` and
`EMFILE`, but not the function: behind the switch the descriptor `-1` goes to `newConnection` like
any other.

* `answers w`, `acceptedFds w`: what `accept4` has answered in the run `w`, and the descriptors
  among it; `announcedUp`: the connections announced up, in order;
* `Accounted`: every answer, a failure too, has made one connection;
* `AcceptsExactly`: connections and descriptors correspond, and a failure changes nothing;
* `acceptsExactly_iff`: the runs in which this holds are those without a tolerated failure.
-/

namespace Leven

open Transition Container

/-- `Acceptor::handleRead` goes on behind its switch. -/
def AcceptError.isTolerated : AcceptError → Bool
  | .econnaborted | .emfile => true
  | .other => false

/-- The value of `sockfd` behind the call. -/
def AcceptResult.sockfd : AcceptResult → Fd
  | .accepted fd => fd
  | .error _ => -1

/-- The descriptor of a successful answer. -/
def AcceptResult.descriptor : AcceptResult → Option Fd
  | .accepted fd => some fd
  | .error _ => none

namespace TcpServer

/-- A failure of `accept4` that is tolerated. -/
def Label.isToleratedFailure : Label → Bool
  | .accept (some (.error e)) => e.isTolerated
  | _ => false

/-- The answers of `accept4`, in order. -/
def answers (w : List Label) : List AcceptResult :=
  w.filterMap fun
    | .accept r => r
    | _ => none

/-- The descriptors that `accept4` has returned, in order. -/
def acceptedFds (w : List Label) : List Fd := (answers w).filterMap AcceptResult.descriptor

/-- The connections that have been announced up, in order. -/
def announcedUp (s : TcpServer) : List ℕ :=
  (s.callbacks.filter (·.2 = .kConnected)).map Prod.fst

variable {threadId : Pid} {wc : Bool} {s s' : TcpServer} {lab : Label} {w : List Label} {c : ℕ}
  {cs : List ℕ} {conn : TcpConnection} {l : List Event} {fd : Fd}
  {f : TcpConnection → TcpConnection.Result}

/-! ### One connection for each answer -/

/-- Every answer of `accept4` has made one connection, which has been announced up and has the
descriptor of the answer. -/
structure Accounted (w : List Label) (s : TcpServer) : Prop where
  up : s.announcedUp = List.range s.created
  created : s.created = (answers w).length
  fd : ∀ c conn, s.conns c = .live conn →
    ((answers w).map AcceptResult.sockfd)[c]? = some conn.channel.fd
  valid : ∀ fd, .accepted fd ∈ answers w → 0 ≤ fd
  fatal : .error .other ∉ answers w

@[simp] theorem answers_append (w w' : List Label) : answers (w ++ w') = answers w ++ answers w' :=
  List.filterMap_append

@[simp] theorem answers_accept {r : AcceptResult} : answers [.accept (some r)] = [r] := rfl

theorem announcedUp_append {state : ConnectionState}
    (h : s'.callbacks = s.callbacks ++ [(c, state)]) :
    s'.announcedUp = s.announcedUp ++ if state = .kConnected then [c] else [] := by
  simp only [announcedUp, h, List.filter_append, List.map_append]
  split_ifs with hs
  · simp [hs]
  · simp [hs]

/-- A step that is not an answer of `accept4`. -/
theorem Accounted.label (hs : Accounted w s) (hl : answers [lab] = []) :
    Accounted (w ++ [lab]) s := by
  have hw : answers (w ++ [lab]) = answers w := by rw [answers_append, hl, List.append_nil]
  constructor
  · exact hs.up
  · rw [hw]; exact hs.created
  · rw [hw]; exact hs.fd
  · rw [hw]; exact hs.valid
  · rw [hw]; exact hs.fatal

/-- Steps that neither make a connection nor announce one. -/
theorem Accounted.of_eq (hs : Accounted w s) (hup : s'.announcedUp = s.announcedUp)
    (hn : s'.created = s.created)
    (hfd : ∀ c conn', s'.conns c = .live conn' →
      ∃ conn, s.conns c = .live conn ∧ conn'.channel.fd = conn.channel.fd) : Accounted w s' where
  up := by rw [hup, hn]; exact hs.up
  created := hn.trans hs.created
  fd c conn' hl := by
    obtain ⟨conn, hl, he⟩ := hfd c conn' hl
    rw [he]
    exact hs.fd c conn hl
  valid := hs.valid
  fatal := hs.fatal

/-- A member function keeps the descriptor, and what it announces is announced down. -/
theorem Accounted.performed (hs : Accounted w s)
    (hf : ∀ conn conn' l, f conn = .ok (conn', l) → Served conn conn' l) (h : Performed s c f s') :
    Accounted w s' := by
  obtain @⟨old, new, l, _, hl, hok, he⟩ := h
  have hserved := hf _ _ _ hok
  have hfd : ∀ d conn', Function.update s.conns c (.live new) d = .live conn' →
      ∃ conn, s.conns d = .live conn ∧ conn'.channel.fd = conn.channel.fd := by
    intro d conn' hd
    by_cases hdc : d = c
    · rw [hdc, Function.update_self] at hd
      cases hd
      exact ⟨old, hdc ▸ hl, hserved.fd⟩
    · rw [Function.update_of_ne hdc] at hd
      exact ⟨conn', hd, rfl⟩
  cases he with
  | none hn | frame hn hf he => exact hs.of_eq rfl rfl hfd
  | close hcl hmem =>
    refine hs.of_eq ?_ rfl hfd
    rw [announcedUp_append (s := s) rfl, (hserved.close.1 hcl).2, if_neg (by decide),
      List.append_nil]

theorem Accounted.released (hs : Accounted w s) (h : Released s cs s') : Accounted w s' := by
  obtain ⟨hcol⟩ := h
  exact hs.of_eq rfl rfl fun c conn hl => ⟨conn, hcol.live hl, rfl⟩

theorem connectEstablished_fd {writeComplete highWater : Bool} {mark : ℕ}
    (h : (TcpConnection.new fd writeComplete highWater mark).connectEstablished = .ok (conn, l)) :
    conn.channel.fd = fd := by
  unfold TcpConnection.connectEstablished at h
  rw [if_pos (by rfl)] at h
  obtain ⟨rfl, -⟩ := TcpConnection.onChannel_cases h rfl
  rfl

/-- An answer of `accept4`, whatever it is, makes one connection. -/
theorem Accounted.accepted {r : AcceptResult} (hs : Accounted w s) (hst : conn.state = .kConnected)
    (hfd : conn.channel.fd = r.sockfd) (hr : ∀ fd, r = .accepted fd → 0 ≤ fd)
    (hfatal : r ≠ .error .other) : Accounted (w ++ [.accept (some r)]) (s.announced conn l) := by
  have hcr := hs.created
  constructor
  · rw [announcedUp_append (s := s) rfl, hst, if_pos rfl, hs.up]
    exact List.range_succ.symm
  · rw [answers_append, List.length_append, ← hcr]
    rfl
  · intro c conn' hl
    rw [answers_append, List.map_append, answers_accept, List.map_singleton]
    by_cases hc : c = s.created
    · have hself : (s.announced conn l).conns c = .live conn := hc ▸ Function.update_self ..
      rw [hself] at hl
      cases hl
      rw [hc, hcr, ← List.length_map (f := AcceptResult.sockfd), List.getElem?_concat_length, hfd]
    · have hold : s.conns c = .live conn' := by
        rw [← hl]
        exact (Function.update_of_ne hc _ _).symm
      obtain ⟨hlt, hget⟩ := List.getElem?_eq_some_iff.1 (hs.fd c conn' hold)
      rw [List.getElem?_append_left hlt]
      exact hs.fd c conn' hold
  · intro fd hmem
    rw [answers_append, List.mem_append, answers_accept, List.mem_singleton] at hmem
    rcases hmem with hmem | hmem
    · exact hs.valid fd hmem
    · exact hr fd hmem.symm
  · rw [answers_append, List.mem_append, answers_accept, List.mem_singleton, not_or]
    exact ⟨hs.fatal, hfatal.symm⟩

/-- `FATAL` does not return. -/
theorem step_ne_next_of_fatal :
    (system threadId).step s (.accept (some (.error .other))) ≠ .next s' := by
  intro h
  change TcpServer.step threadId s (.accept (some (.error .other))) = .next s' at h
  simp only [TcpServer.step] at h
  split at h
  · obtain ⟨-, h⟩ := Outcome.guard_eq_next.1 h
    cases h
  · cases h

theorem Accounted.step (hs : Accounted w s) (h : (system threadId).step s lab = .next s') :
    Accounted (w ++ [lab]) s' := by
  have hfatal : lab ≠ .accept (some (.error .other)) := by
    rintro rfl
    exact step_ne_next_of_fatal h
  cases Step.of_step h with
  | @accept r rest fd conn l hp hf ha hr hc =>
    have hrest : Accounted w { s with pc := .dispatching rest } := { hs with }
    refine hrest.accepted (TcpConnection.connectEstablished_state hc) ?_ ?_ ?_
    · rw [connectEstablished_fd hc]
      rcases hr with rfl | ⟨rfl, e, rfl⟩ <;> rfl
    · rintro fd rfl
      exact ha.1
    · rintro rfl
      exact hfatal rfl
  | @poll ready hp hn hr =>
    refine Accounted.label (hs.of_eq rfl rfl fun c conn' hl => ?_) rfl
    change setRevents ready s.conns c = .live conn' at hl
    obtain he | ⟨conn, m, hlive, he⟩ := setRevents_cases _ s.conns c
    · exact ⟨conn', he ▸ hl, rfl⟩
    · rw [he] at hl
      cases hl
      exact ⟨conn, hlive, rfl⟩
  | @handle r w c st rest _ hp hf h =>
    have hbehind : Accounted _ { s with pc := .behind c st rest } := { hs with }
    exact (hbehind.performed (fun _ _ _ h => TcpConnection.handleStage_served h) h).label rfl
  | @runJob w j js _ hf hp hj h =>
    have htaken : Accounted _ { s with jobs := js, done := s.done ++ [j] } := { hs with }
    exact (htaken.performed (fun _ _ _ h => TcpConnection.runJob_served h) h).label rfl
  | call hc h =>
    have hcalled : Accounted _ { s with calls := s.calls + 1 } := { hs with }
    exact (hcalled.performed (fun _ _ _ h => TcpConnection.call_served h) h).label rfl
  | ret hf h =>
    have hleft : Accounted _ { s with frame := none } := { hs with }
    exact (hleft.released h).label rfl
  | endJobs hf hp hj h =>
    have hended : Accounted _ { s with done := [], pc := .polling } := { hs with }
    exact (hended.released h).label rfl
  | @drop c _ hc h =>
    have hdropped : Accounted _ { s with refs := Function.update s.refs c (s.refs c - 1) } :=
      { hs with }
    exact (hdropped.released h).label rfl
  | destroyServer hf hp h =>
    have hgone : Accounted _ { s with connections := ∅, pc := .serverGone } := { hs with }
    exact (hgone.released h).label rfl
  | destroyLoop hf hp h =>
    have hgone : Accounted _ { s with pendingJobs := [], pc := .loopGone } := { hs with }
    exact (hgone.released h).label rfl
  | skip hp hf | swap hf hp | leave hf hp | other hf hp | keep hc =>
    exact Accounted.label { hs with } rfl

theorem Accounted.of_exec (h : (system threadId).exec (new wc) w = .next s) : Accounted w s := by
  refine System.exec_invariant ?_ (fun _ _ _ _ hk hl => hk.step hl) h
  constructor
  · rfl
  · rfl
  · intro c conn hl
    cases hl
  · intro fd hmem
    cases hmem
  · exact List.not_mem_nil

/-! ### What a failed `accept4` changes -/

/-- The state `s` is one of the states of the run `w` of a new server, behind the labels `v`. -/
def Passes (threadId : Pid) (wc : Bool) (w v : List Label) (s : TcpServer) : Prop :=
  v <+: w ∧ (system threadId).exec (new wc) v = .next s

/-- In every state of the run `w` the connections announced up are those of the successful answers
of `accept4`, in their order and with their descriptors; a tolerated failure leaves the set of
connections, the interest list and the calls of `connectionCallback_` as they were; and no
connection has the descriptor `-1`. -/
structure AcceptsExactly (threadId : Pid) (wc : Bool) (w : List Label) : Prop where
  ups : ∀ v s, Passes threadId wc w v s →
    s.created = (acceptedFds v).length ∧ s.announcedUp = List.range (acceptedFds v).length
  fds : ∀ v s c conn, Passes threadId wc w v s → s.conns c = .live conn →
    (acceptedFds v)[c]? = some conn.channel.fd
  failed : ∀ v s s' lab, Passes threadId wc w v s → v ++ [lab] <+: w →
    lab.isToleratedFailure = true → (system threadId).step s lab = .next s' →
    s'.connections = s.connections ∧ s'.interest = s.interest ∧ s'.callbacks = s.callbacks
  built : ∀ v s c conn, Passes threadId wc w v s → s.conns c = .live conn →
    conn.channel.fd ≠ -1

theorem mem_answers {r : AcceptResult} : r ∈ answers w ↔ .accept (some r) ∈ w := by
  unfold answers
  rw [List.mem_filterMap]
  constructor
  · rintro ⟨lab, hmem, hlab⟩
    split at hlab
    · rw [← hlab]
      exact hmem
    · cases hlab
  · intro hmem
    exact ⟨_, hmem, rfl⟩

/-- Without a tolerated failure all answers are successes. -/
theorem answers_eq (hfatal : .error .other ∉ answers w)
    (hw : ∀ lab ∈ w, lab.isToleratedFailure = false) :
    answers w = (acceptedFds w).map .accepted := by
  have hall : ∀ r ∈ answers w, ∃ fd, r = .accepted fd := by
    rintro (fd | e) hr
    · exact ⟨fd, rfl⟩
    · have htol := hw _ (mem_answers.1 hr)
      cases e with
      | econnaborted | emfile => cases htol
      | other => exact absurd hr hfatal
  unfold acceptedFds
  generalize answers w = rs at hall
  induction rs with
  | nil => rfl
  | cons r rs ih =>
    obtain ⟨fd, rfl⟩ := hall r List.mem_cons_self
    rw [List.filterMap_cons_some (f := AcceptResult.descriptor) rfl, List.map_cons,
      ← ih fun r hr => hall r (List.mem_cons_of_mem _ hr)]

/-- A failure is an answer that is not a success. -/
theorem length_acceptedFds_lt {e : AcceptError} (h : .error e ∈ answers w) :
    (acceptedFds w).length < (answers w).length := by
  unfold acceptedFds
  generalize answers w = rs at h
  induction rs with
  | nil => cases h
  | cons r rs ih =>
    cases r with
    | accepted fd =>
      rw [List.filterMap_cons_some (f := AcceptResult.descriptor) rfl, List.length_cons, List.length_cons]
      exact Nat.succ_lt_succ (ih ((List.mem_cons.1 h).resolve_left (by simp)))
    | error e' =>
      rw [List.filterMap_cons_none rfl, List.length_cons]
      exact Nat.lt_succ_of_le (List.length_filterMap_le _ _)

/-- **A failed `accept4`.**  In a run of the server everything corresponds to the successful answers
of `accept4` exactly if none of the failures that the code tolerates occurs: such a failure makes a
connection on the descriptor `-1` and announces it. -/
theorem acceptsExactly_iff (hs : (system threadId).exec (new wc) w = .next s) :
    AcceptsExactly threadId wc w ↔ ∀ lab ∈ w, lab.isToleratedFailure = false := by
  constructor
  · intro hex lab hmem
    by_contra htol
    rw [Bool.not_eq_false] at htol
    have hacc : Accounted w s := .of_exec hs
    have herr : ∃ e, .error e ∈ answers w := by
      unfold Label.isToleratedFailure at htol
      split at htol
      · exact ⟨_, mem_answers.2 hmem⟩
      · cases htol
    obtain ⟨e, he⟩ := herr
    -- one connection has been made for each answer, so there is one too many
    have hlt := length_acceptedFds_lt he
    have hups := (hex.ups w s ⟨List.prefix_rfl, hs⟩).1
    rw [hacc.created] at hups
    omega
  · intro hw
    have hpass : ∀ v t, Passes threadId wc w v t →
        Accounted v t ∧ answers v = (acceptedFds v).map .accepted := by
      rintro v t ⟨hv, ht⟩
      have hacc : Accounted v t := .of_exec ht
      exact ⟨hacc, answers_eq hacc.fatal fun lab hmem => hw lab (hv.subset hmem)⟩
    have hfds : ∀ v t c conn, Passes threadId wc w v t → t.conns c = .live conn →
        (acceptedFds v)[c]? = some conn.channel.fd := by
      intro v t c conn hv hl
      obtain ⟨hacc, hans⟩ := hpass v t hv
      have hfd := hacc.fd c conn hl
      have hid : AcceptResult.sockfd ∘ AcceptResult.accepted = id := rfl
      rw [hans, List.map_map, hid, List.map_id] at hfd
      exact hfd
    refine { ups := fun v t hv => ?_, fds := hfds, failed := fun v t t' lab _ hv htol _ => ?_
             built := fun v t c conn hv hl hneg => ?_ }
    · obtain ⟨hacc, hans⟩ := hpass v t hv
      have hlen : t.created = (acceptedFds v).length := by
        rw [hacc.created, hans, List.length_map]
      exact ⟨hlen, by rw [hacc.up, hlen]⟩
    · have hfalse := hw lab (hv.subset (by simp))
      rw [htol] at hfalse
      cases hfalse
    · obtain ⟨hacc, hans⟩ := hpass v t hv
      have hmem : conn.channel.fd ∈ acceptedFds v := List.mem_of_getElem? (hfds v t c conn hv hl)
      have hpos := hacc.valid conn.channel.fd (by rw [hans]; exact List.mem_map_of_mem hmem)
      rw [hneg] at hpos
      exact absurd hpos (by decide)

/-- One connection is accepted, with the descriptor 5. -/
theorem acceptsExactly_one :
    ∃ s, (system 0).exec (new false) [.poll [.acceptor], .accept (some (.accepted 5)), .ret] =
        .next s ∧ s.announcedUp = [0] ∧
      AcceptsExactly 0 false [.poll [.acceptor], .accept (some (.accepted 5)), .ret] := by
  have hrun : ((system 0).exec (new false)
      [.poll [.acceptor], .accept (some (.accepted 5)), .ret]).Leads
      fun s => s.announcedUp = [0] := by
    decide +kernel
  obtain ⟨s, hs, hup⟩ := hrun
  exact ⟨s, hs, hup, (acceptsExactly_iff hs).2 (by decide)⟩

/-- The process is out of descriptors when a client connects. -/
def emfileRun : List Label := [.poll [.acceptor], .accept (some (.error .emfile)), .ret]

/-- Connection 0 is made on the descriptor `-1`, is in `connections_` and is announced up. -/
theorem acceptsExactly_fails :
    ∃ s, (system 0).exec (new false) emfileRun = .next s ∧ (system 0).Reachable s ∧
      ¬ AcceptsExactly 0 false emfileRun ∧ s.connections = {0} ∧
      s.callbacks = [(0, .kConnected)] ∧
      ∃ conn, s.conns 0 = .live conn ∧ conn.channel.fd = -1 := by
  have hrun : ((system 0).exec (new false) emfileRun).Leads fun s => s.connections = {0} ∧
      s.callbacks = [(0, .kConnected)] ∧ s.hasFd (-1) 0 = true := by
    decide +kernel
  obtain ⟨s, hs, hset, hcb, hfd⟩ := hrun
  have hconn : ∃ conn, s.conns 0 = .live conn ∧ conn.channel.fd = -1 := by
    unfold hasFd at hfd
    split at hfd
    · next conn hl => exact ⟨conn, hl, by simpa using hfd⟩
    · cases hfd
  refine ⟨s, hs, System.reachable_of_exec ⟨false, rfl⟩ hs, ?_, hset, hcb, hconn⟩
  obtain ⟨conn, hl, hneg⟩ := hconn
  intro hex
  exact hex.built emfileRun s 0 conn ⟨List.prefix_rfl, hs⟩ hl hneg

end TcpServer
end Leven
