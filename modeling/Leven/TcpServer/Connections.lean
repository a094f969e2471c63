import Leven.TcpServer.Basic

/-!
# The set of connections

`connections_` is the set of the connections that have been announced and are not closed, and each
connection is announced up once and down at most once.  All ways to close a connection lead through
`handleClose`, which calls the close callback exactly when it changes the state to `kDisconnected`
(`Served`).

* `view`: what the server can tell of a connection, `expected`: the calls of `connectionCallback_`
  that belong to it;
* `Exact`: the invariant, with a lemma for each operation;
* `connections_exact`: the law.
-/

namespace Leven

open Transition Container

/-- The connection is not closed. -/
def TcpConnection.isOpen (conn : TcpConnection) : Bool := decide (conn.state ≠ .kDisconnected)

@[simp] theorem TcpConnection.isOpen_eq_true {conn : TcpConnection} :
    conn.isOpen = true ↔ conn.state ≠ .kDisconnected := by
  simp [isOpen]

@[simp] theorem TcpConnection.isOpen_eq_false {conn : TcpConnection} :
    conn.isOpen = false ↔ conn.state = .kDisconnected := by
  simp [isOpen]

/-- A connection stays closed, and it is closed by the member function with the close callback. -/
theorem Served.isOpen {conn conn' : TcpConnection} {l : List Event} (h : Served conn conn' l)
    (hl : .closeCallback ∉ l) : conn'.isOpen = conn.isOpen := by
  have hiff : conn'.state = .kDisconnected ↔ conn.state = .kDisconnected := by
    refine ⟨fun hd => ?_, h.stays⟩
    by_contra hne
    exact hl (h.close.2 ⟨hne, hd⟩)
  simp only [TcpConnection.isOpen, ne_eq, hiff]

namespace TcpServer

variable {threadId : Pid} {s s' : TcpServer} {lab : Label} {c d : ℕ} {cs : List ℕ}
  {conn conn' : TcpConnection} {l : List Event} {f : TcpConnection → TcpConnection.Result}
  {a : Assertion} {ready : List Ready} {h h' : RefHeap ℕ TcpConnection}

/-! ### What the server can tell of a connection -/

/-- Whether the connection is there, and open. -/
def view (s : TcpServer) (c : ℕ) : Slot Bool := (s.conns c).map TcpConnection.isOpen

/-- The calls of `connectionCallback_` that belong to a connection. -/
def expected : Slot Bool → List ConnectionState
  | .free => []
  | .live true => [.kConnected]
  | .live false | .destroyed => [.kConnected, .kDisconnected]

/-- The calls of `connectionCallback_` with the connection. -/
def announcements (s : TcpServer) (c : ℕ) : List ConnectionState :=
  (s.callbacks.filter (·.1 = c)).map Prod.snd

theorem view_eq (hc : s.conns c = .live conn) : s.view c = .live conn.isOpen := by
  rw [view, hc]
  rfl

/-- A report changes the masks only. -/
theorem setRevents_cases (ready : List Ready) (h : RefHeap ℕ TcpConnection) (c : ℕ) :
    setRevents ready h c = h c ∨ ∃ conn m, h c = .live conn ∧
    setRevents ready h c = .live { conn with channel := { conn.channel with revents := m } } := by
  induction ready generalizing h with
  | nil => exact .inl rfl
  | cons r rs ih =>
    cases r with
    | acceptor => exact ih h
    | channel d m =>
      unfold setRevents
      cases hd : h d with
      | free | destroyed => exact ih h
      | live conn =>
        by_cases hcd : c = d
        · subst hcd
          have hup := ih (Function.update h c
            (.live { conn with channel := { conn.channel with revents := m } }))
          simp only [Function.update_self, Slot.live.injEq] at hup
          obtain hup | ⟨conn', m', rfl, hup⟩ := hup
          · exact .inr ⟨conn, m, hd, hup⟩
          · exact .inr ⟨conn, m', hd, hup⟩
        · have hup := ih (Function.update h d
            (.live { conn with channel := { conn.channel with revents := m } }))
          rw [Function.update_of_ne hcd] at hup
          exact hup

theorem map_setRevents {β : Type*} {g : TcpConnection → β}
    (hg : ∀ conn m, g { conn with channel := { conn.channel with revents := m } } = g conn) :
    (setRevents ready h c).map g = (h c).map g := by
  obtain he | ⟨conn, m, hl, he⟩ := setRevents_cases ready h c
  · rw [he]
  · rw [he, hl]
    exact congrArg Slot.live (hg conn m)

theorem view_apply_self : (s.apply c conn l).view c = .live conn.isOpen :=
  view_eq (Function.update_self ..)

theorem view_apply_of_ne (hd : d ≠ c) : (s.apply c conn l).view d = s.view d := by
  simp only [view, TcpServer.apply, Function.update_of_ne hd]

theorem mem_announcements {state : ConnectionState} :
    state ∈ s.announcements c ↔ (c, state) ∈ s.callbacks := by
  simp [announcements]

theorem announcements_append {state : ConnectionState}
    (h : s'.callbacks = s.callbacks ++ [(c, state)]) :
    s'.announcements d = s.announcements d ++ if d = c then [state] else [] := by
  simp only [announcements, h, List.filter_append, List.map_append]
  split_ifs with hdc
  · simp [hdc]
  · simp [Ne.symm hdc]

/-! ### The invariant -/

/-- The set of connections and the calls of `connectionCallback_` are what the connections tell. -/
structure Exact (s : TcpServer) : Prop where
  fresh : ∀ c, s.view c = .free ↔ s.created ≤ c
  connections : s.pc.hasServer = true → ∀ c, c ∈ s.connections ↔ s.view c = .live true
  announced : ∀ c, s.announcements c = expected (s.view c)

/-- Steps that the server cannot tell. -/
theorem Exact.of_eq (hs : Exact s) (hv : ∀ c, s'.view c = s.view c) (hn : s'.created = s.created)
    (hcb : s'.callbacks = s.callbacks)
    (hp : s'.pc.hasServer = true → s.pc.hasServer = true ∧ s'.connections = s.connections) :
    Exact s' where
  fresh c := by rw [hv, hn]; exact hs.fresh c
  connections hp' c := by
    obtain ⟨hp, hc⟩ := hp hp'
    rw [hv, hc]
    exact hs.connections hp c
  announced c := by
    rw [hv, ← hs.announced c]
    simp only [announcements, hcb]

/-- A new connection is in the set and announced up. -/
theorem Exact.opened (hs : Exact s)
    (hv : ∀ c, s'.view c = if c = s.created then .live true else s.view c)
    (hn : s'.created = s.created + 1) (hc : s'.connections = insert s.created s.connections)
    (hcb : s'.callbacks = s.callbacks ++ [(s.created, .kConnected)])
    (hp : s'.pc.hasServer = true → s.pc.hasServer = true) : Exact s' where
  fresh c := by
    have hfresh := hs.fresh c
    rw [hv, hn]
    split_ifs with hcn
    · refine iff_of_false (by simp) ?_
      omega
    · rw [hfresh]
      omega
  connections hp' c := by
    rw [hv, hc, Finset.mem_insert]
    split_ifs with hcn
    · simp [hcn]
    · simp only [hcn, false_or]
      exact hs.connections (hp hp') c
  announced c := by
    rw [announcements_append hcb, hv, hs.announced c]
    split_ifs with hcn
    · rw [(hs.fresh c).2 (by omega)]
      rfl
    · exact List.append_nil _

/-- A connection that is closed goes out of the set and is announced down. -/
theorem Exact.closed (hs : Exact s) (hl : s.view c = .live true)
    (hv : ∀ d, s'.view d = if d = c then .live false else s.view d)
    (hn : s'.created = s.created) (hc : s'.connections = s.connections.erase c)
    (hcb : s'.callbacks = s.callbacks ++ [(c, .kDisconnected)])
    (hp : s'.pc.hasServer = true → s.pc.hasServer = true) : Exact s' where
  fresh d := by
    rw [hv, hn, ← hs.fresh d]
    split_ifs with hdc
    · simp [hdc, hl]
    · rfl
  connections hp' d := by
    rw [hv, hc, Finset.mem_erase]
    split_ifs with hdc
    · simp [hdc]
    · simp only [ne_eq, hdc, not_false_eq_true, true_and]
      exact hs.connections (hp hp') d
  announced d := by
    rw [announcements_append hcb, hv, hs.announced d]
    split_ifs with hdc
    · rw [hdc, hl]
      rfl
    · exact List.append_nil _

theorem Exact.accepted (hs : Exact s) (hc : conn.state = .kConnected) :
    Exact (s.announced conn l) := by
  have hopen : conn.isOpen = true := by simp [hc]
  refine hs.opened (fun c => ?_) rfl rfl ?_ id
  · split_ifs with hcn
    · rw [hcn, ← hopen]
      exact view_apply_self (s := s.inserted) (l := l)
    · exact view_apply_of_ne (s := s.inserted) (l := l) hcn
  · rw [← hc]
    rfl

/-- A member function closes an open connection, or leaves it open or closed. -/
theorem Exact.entered (hs : Exact s) (hl : s.conns c = .live conn) (hserved : Served conn conn' l)
    (h : Entered (s.apply c conn' l) c conn'.state l s') : Exact s' := by
  have hsame : .closeCallback ∉ l → Exact (s.apply c conn' l) := by
    intro hn
    refine hs.of_eq (fun d => ?_) rfl rfl fun hp => ⟨hp, rfl⟩
    by_cases hd : d = c
    · rw [hd, view_apply_self, view_eq hl, hserved.isOpen hn]
    · exact view_apply_of_ne hd
  cases h with
  | none hn => exact hsame hn
  | frame hn hf he => exact (hsame hn).of_eq (fun _ => rfl) rfl rfl fun hp => ⟨hp, rfl⟩
  | close hcl hmem =>
    -- the close callback comes exactly with the change of the state to `kDisconnected`
    obtain ⟨hne, hd⟩ := hserved.close.1 hcl
    have hopen : conn.isOpen = true := TcpConnection.isOpen_eq_true.2 hne
    have hshut : conn'.isOpen = false := TcpConnection.isOpen_eq_false.2 hd
    refine hs.closed (c := c) (by rw [view_eq hl, hopen]) (fun d => ?_) rfl rfl ?_ id
    · split_ifs with hdc
      · rw [hdc, ← hshut]
        exact view_apply_self (s := s) (l := l)
      · exact view_apply_of_ne (s := s) (l := l) hdc
    · rw [← hd]
      rfl

theorem Exact.performed (hs : Exact s)
    (hf : ∀ conn conn' l, f conn = .ok (conn', l) → Served conn conn' l) (h : Performed s c f s') :
    Exact s' := by
  cases h with
  | intro hl h he => exact hs.entered hl (hf _ _ _ h) he

/-- A connection that is destroyed is closed. -/
theorem Released.view_cases (h : Released s cs s') (c : ℕ) :
    s'.view c = s.view c ∨ s.view c = .live false ∧ s'.view c = .destroyed := by
  obtain @⟨conns, k, hcol⟩ := h
  obtain he | ⟨-, -, ⟨conn, hl, hd⟩, hdes⟩ := hcol.kept c
  · left
    show (conns c).map _ = (s.conns c).map _
    rw [he]
  · right
    constructor
    · rw [view_eq hl, TcpConnection.isOpen_eq_false.2 (destructor_eq_ok.1 hd).1]
    · show (conns c).map _ = .destroyed
      rw [hdes]
      rfl

theorem Exact.released (hs : Exact s) (h : Released s cs s') : Exact s' := by
  have hv := h.view_cases
  obtain ⟨hcol⟩ := h
  refine ⟨fun c => ?_, fun hp c => ?_, fun c => ?_⟩
  · show _ ↔ s.created ≤ c
    rw [← hs.fresh c]
    rcases hv c with he | ⟨hold, hnew⟩
    · rw [he]
    · simp [hold, hnew]
  · show c ∈ s.connections ↔ _
    rw [hs.connections hp c]
    rcases hv c with he | ⟨hold, hnew⟩
    · rw [he]
    · simp [hold, hnew]
  · show s.announcements c = _
    rw [hs.announced c]
    rcases hv c with he | ⟨hold, hnew⟩
    · rw [he]
    · rw [hold, hnew]
      rfl

theorem Exact.step (hs : Exact s) (h : Step threadId s lab s') : Exact s' := by
  cases h with
  | poll hp hn hr =>
    exact hs.of_eq (fun c => map_setRevents fun _ _ => rfl) rfl rfl fun _ => ⟨by rw [hp]; rfl, rfl⟩
  | @accept r rest fd conn l hp hf ha hr h =>
    have hrest : Exact { s with pc := .dispatching rest } :=
      hs.of_eq (fun _ => rfl) rfl rfl fun _ => ⟨by rw [hp]; rfl, rfl⟩
    exact hrest.accepted (TcpConnection.connectEstablished_state h)
  | @handle r w c st rest _ hp hf h =>
    have hserver := ServerPc.hasServer_of_stage hp
    have hbehind : Exact { s with pc := .behind c st rest } :=
      hs.of_eq (fun _ => rfl) rfl rfl fun _ => ⟨hserver, rfl⟩
    exact hbehind.performed (fun _ _ _ h => TcpConnection.handleStage_served h) h
  | @runJob w j js _ hf hp hj h =>
    have htaken : Exact { s with jobs := js, done := s.done ++ [j] } :=
      hs.of_eq (fun _ => rfl) rfl rfl fun hp => ⟨hp, rfl⟩
    exact htaken.performed (fun _ _ _ h => TcpConnection.runJob_served h) h
  | call hc h =>
    have hcalled : Exact { s with calls := s.calls + 1 } :=
      hs.of_eq (fun _ => rfl) rfl rfl fun hp => ⟨hp, rfl⟩
    exact hcalled.performed (fun _ _ _ h => TcpConnection.call_served h) h
  | ret hf h =>
    have hleft : Exact { s with frame := none } :=
      hs.of_eq (fun _ => rfl) rfl rfl fun hp => ⟨hp, rfl⟩
    exact hleft.released h
  | endJobs hf hp hj h =>
    have hended : Exact { s with done := [], pc := .polling } :=
      hs.of_eq (fun _ => rfl) rfl rfl fun _ => ⟨by rw [hp]; rfl, rfl⟩
    exact hended.released h
  | @drop c _ hc h =>
    have hdropped : Exact { s with refs := Function.update s.refs c (s.refs c - 1) } :=
      hs.of_eq (fun _ => rfl) rfl rfl fun hp => ⟨hp, rfl⟩
    exact hdropped.released h
  | destroyServer hf hp h =>
    -- the set goes with the server
    have hgone : Exact { s with connections := ∅, pc := .serverGone } :=
      hs.of_eq (fun _ => rfl) rfl rfl fun hp => (by cases hp)
    exact hgone.released h
  | destroyLoop hf hp h =>
    have hgone : Exact { s with pendingJobs := [], pc := .loopGone } :=
      hs.of_eq (fun _ => rfl) rfl rfl fun hp => (by cases hp)
    exact hgone.released h
  | skip hp hf | swap hf hp | leave hf hp =>
    exact hs.of_eq (fun _ => rfl) rfl rfl fun _ => ⟨by rw [hp]; rfl, rfl⟩
  | other | keep => exact hs.of_eq (fun _ => rfl) rfl rfl fun hp => ⟨hp, rfl⟩

theorem Exact.of_reachable {C : TcpServer → Label → Prop}
    (hr : (system threadId).ReachableIf C s) : Exact s := by
  refine hr.invariant (I := Exact) ?_ fun s lab s' hs _ h => hs.step (.of_step h)
  rintro _ ⟨wc, rfl⟩
  refine ⟨fun c => ?_, fun _ c => ?_, fun c => rfl⟩
  · exact iff_of_true rfl (Nat.zero_le c)
  · exact iff_of_false (Finset.notMem_empty c) (by simp [view, new])

/-! ### The law -/

/-- The erase of a connection that is closed finds the connection. -/
theorem Exact.perform_ne_closeConnection (hs : Exact s) (hp : s.pc.hasServer = true)
    (hf : ∀ conn conn' l, f conn = .ok (conn', l) → Served conn conn' l)
    (he : ∀ conn a, f conn = .error a → a.ofConnection = true) :
    s.perform c f ≠ .failed (.assertion .closeConnection) := by
  intro h
  rcases perform_failed h with
    ⟨-, h⟩ | ⟨conn, a, -, herr, h⟩ | ⟨conn, conn', l, hl, hok, hcl, hc, -⟩
  · cases h
  · cases h
    exact absurd (he _ _ herr) (by decide)
  · have hne := ((hf _ _ _ hok).close.1 hcl).1
    refine hc ((hs.connections hp c).2 ?_)
    rw [view_eq hl, TcpConnection.isOpen_eq_true.2 hne]

/-- A destructor does not erase. -/
theorem release_ne_closeConnection : s.release cs ≠ .failed (.assertion .closeConnection) := by
  intro h
  obtain ⟨c, -, -, conn, -, hd⟩ := release_failed h
  obtain ⟨-, he⟩ | ⟨-, -, he⟩ := destructor_eq_error.1 hd <;> cases he

theorem Exact.not_failure (hs : Exact s) :
    ¬ Failure threadId s (.assertion .closeConnection) lab := by
  intro h
  cases h with
  | accept hF =>
    obtain hF | ⟨a, hF, ha⟩ := hF
    · cases hF
    · cases hF
      cases ha
  | @handle r w c st rest hp hf h =>
    have hserver := ServerPc.hasServer_of_stage hp
    have hbehind : Exact { s with pc := .behind c st rest } :=
      hs.of_eq (fun _ => rfl) rfl rfl fun _ => ⟨hserver, rfl⟩
    refine hbehind.perform_ne_closeConnection ?_ (fun _ _ _ h => TcpConnection.handleStage_served h)
      (fun _ _ h => TcpConnection.handleStage_ofConnection h) h
    exact ServerPc.hasServer_behind
  | @runJob w j js hf hp hj h =>
    have htaken : Exact { s with jobs := js, done := s.done ++ [j] } :=
      hs.of_eq (fun _ => rfl) rfl rfl fun hp => ⟨hp, rfl⟩
    refine htaken.perform_ne_closeConnection ?_ (fun _ _ _ h => TcpConnection.runJob_served h)
      (fun _ _ h => TcpConnection.runJob_ofConnection h) h
    show s.pc.hasServer = true
    rw [hp]
    rfl
  | call hc h =>
    -- a call does not close the connection
    rcases perform_failed h with ⟨-, h⟩ | ⟨conn, a, -, herr, h⟩ | ⟨conn, conn', l, -, hok, hcl, -⟩
    · cases h
    · cases h
      exact absurd (TcpConnection.call_ofConnection herr) (by decide)
    · exact absurd (TcpConnection.call_isCallback hok _ hcl) (by decide)
  | ret hf h | endJobs hf hp hj h | drop hc h | destroyServer hf hp h | destroyLoop hf hp h =>
    exact release_ne_closeConnection h

/-- **`connections_` is exact.**  In every reachable state, as long as the server exists, the set
holds the connections that have been announced up and are not closed; each connection that has been
accepted has been announced up once and then at most once down; and the erase in `closeConnection`
finds its connection. -/
theorem connections_exact (hr : (system threadId).Reachable s) :
    (s.pc.hasServer = true → ∀ c, c ∈ s.connections ↔ (c, .kConnected) ∈ s.callbacks ∧
      ∃ conn, s.conns c = .live conn ∧ conn.state ≠ .kDisconnected) ∧
    (∀ c < s.created, s.announcements c = [.kConnected] ∨
      s.announcements c = [.kConnected, .kDisconnected]) ∧
    ∀ lab, (system threadId).step s lab ≠ .failed (.assertion .closeConnection) := by
  have hs : Exact s := .of_reachable hr
  refine ⟨fun hp c => ?_, fun c hc => ?_, fun lab h => hs.not_failure (.of_step h)⟩
  · rw [hs.connections hp c, view, Slot.map_eq_live]
    constructor
    · rintro ⟨conn, hl, ho⟩
      refine ⟨mem_announcements.1 ?_, conn, hl, TcpConnection.isOpen_eq_true.1 ho⟩
      rw [hs.announced c, view_eq hl, ho]
      exact List.mem_singleton_self _
    · rintro ⟨-, conn, hl, hne⟩
      exact ⟨conn, hl, TcpConnection.isOpen_eq_true.2 hne⟩
  · rw [hs.announced c]
    cases hv : s.view c with
    | free => exact absurd ((hs.fresh c).1 hv) (by omega)
    | live b => cases b <;> simp [expected]
    | destroyed => exact .inr rfl

/-- Connection 0 has been closed by its peer, connection 1 is open. -/
theorem connections_exact_two :
    ∃ s, (system 0).Reachable s ∧ s.callbacks = [(0, .kConnected), (1, .kConnected),
        (0, .kDisconnected)] ∧ s.connections = {1} ∧
      (∀ c, c ∈ s.connections ↔ (c, .kConnected) ∈ s.callbacks ∧
        ∃ conn, s.conns c = .live conn ∧ conn.state ≠ .kDisconnected) ∧
      (∀ c < s.created, s.announcements c = [.kConnected] ∨
        s.announcements c = [.kConnected, .kDisconnected]) ∧
      ∀ lab, (system 0).step s lab ≠ .failed (.assertion .closeConnection) := by
  have hrun : ((system 0).exec (new false) [.poll [.acceptor], .accept (some (.accepted 5)), .ret,
      .swap, .endJobs, .poll [.acceptor], .accept (some (.accepted 6)), .ret, .swap, .endJobs,
      .poll [.channel 0 {.epollin}], .handle (.data []) (.wrote 0), .handle (.data []) (.wrote 0),
      .handle (.data []) (.wrote 0)]).Leads fun s => s.pc.hasServer = true ∧
        s.callbacks = [(0, .kConnected), (1, .kConnected), (0, .kDisconnected)] ∧
        s.connections = {1} := by
    decide +kernel
  obtain ⟨s, hs, hp, hcb, hc⟩ := hrun
  have hr : (system 0).Reachable s := System.reachable_of_exec ⟨false, rfl⟩ hs
  obtain ⟨hset, hann, herase⟩ := connections_exact hr
  exact ⟨s, hr, hcb, hc, hset hp, hann, herase⟩

end TcpServer
end Leven
