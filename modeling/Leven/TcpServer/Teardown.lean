import Leven.TcpServer.Owners

/-!
# The destruction of the server

`~TcpConnection` wants a closed connection.  Only `handleClose` closes one, and after the last
iteration of the loop nobody calls it: the server has no destructor that closes the connections in
`connections_`, and their closures in `pendingJobs_` are not run any more.

* `DestroysEmpty`: the server is destroyed when `connections_` is empty;
* `NoneOpen`: behind the destruction of the server no connection is open;
* `Step.stays_open`: a connection that is open behind the destruction of the server stays open;
* `destroyed_when_closed`: the law, `destroyed_open`: a run without the condition.
-/

namespace Leven.TcpServer

open Transition Container

variable {threadId : Pid} {s s' : TcpServer} {lab : Label} {c d : ℕ} {conn : TcpConnection}
  {f : TcpConnection → TcpConnection.Result} {e : Fault}

/-- The server is destroyed without connections. -/
def DestroysEmpty (s : TcpServer) : Label → Prop
  | .destroyServer => s.connections = ∅
  | _ => True

instance : Decidable (DestroysEmpty s lab) :=
  match lab with
  | .destroyServer => inferInstanceAs (Decidable (s.connections = ∅))
  | .poll _ | .accept _ | .handle .. | .other | .ret | .swap | .runJob _ | .endJobs | .call ..
  | .keep _ | .drop _ | .leave | .destroyLoop => inferInstanceAs (Decidable True)

/-! ### Open connections behind the destruction of the server -/

/-- A call leaves a connection open or closed. -/
theorem Performed.view_eq_of_call {t : Pid} {k : ℕ} {op : Op} {b : Bool}
    (h : Performed s c (fun conn => conn.call b t k op) s') : s'.view d = s.view d := by
  cases h with
  | @intro conn conn' l _ hl hok he =>
    have hnot : .closeCallback ∉ l := fun hcl =>
      absurd (TcpConnection.call_isCallback hok _ hcl) (by decide)
    show (s'.conns d).map _ = (s.conns d).map _
    rw [he.conns_eq]
    show (Function.update s.conns c (.live conn') d).map _ = _
    by_cases hdc : d = c
    · subst hdc
      rw [Function.update_self, hl]
      exact congrArg Slot.live ((TcpConnection.call_served hok).isOpen hnot)
    · rw [Function.update_of_ne hdc]

/-- Behind the destruction of the server a connection is what it was, or a closed one is
destroyed. -/
theorem Step.view_cases (h : Step threadId s lab s') (hp : s.pc.hasServer = false) :
    s'.view c = s.view c ∨ s.view c = .live false ∧ s'.view c = .destroyed := by
  cases h with
  | poll hp' hn hr | accept hp' hf ha hr h | skip hp' hf | runJob hf hp' hj h
  | endJobs hf hp' hj h | swap hf hp' | leave hf hp' | destroyServer hf hp' h =>
    rw [hp'] at hp
    cases hp
  | handle hp' hf h =>
    rw [ServerPc.hasServer_of_stage hp'] at hp
    cases hp
  | call hc h => exact .inl h.view_eq_of_call
  | ret hf h | drop hc h | destroyLoop hf hp' h => exact h.view_cases c
  | other | keep => exact .inl rfl

theorem Step.hasServer (h : Step threadId s lab s') (hp : s.pc.hasServer = false) :
    s'.pc.hasServer = false := by
  cases h with
  | poll hp' hn hr | accept hp' hf ha hr h | skip hp' hf | runJob hf hp' hj h
  | endJobs hf hp' hj h | swap hf hp' | leave hf hp' | destroyServer hf hp' h =>
    rw [hp'] at hp
    cases hp
  | handle hp' hf h =>
    rw [ServerPc.hasServer_of_stage hp'] at hp
    cases hp
  | call hc h =>
    rw [h.pc_eq]
    exact hp
  | ret hf h | drop hc h =>
    rw [h.pc_eq]
    exact hp
  | destroyLoop hf hp' h =>
    rw [h.pc_eq]
    rfl
  | other | keep => exact hp

/-- The destruction of the server is the only way to a state without server. -/
theorem Step.eq_destroyServer (h : Step threadId s lab s') (hp : s.pc.hasServer = true)
    (hp' : s'.pc.hasServer = false) : lab = .destroyServer := by
  cases h with
  | destroyServer hf hpc h => rfl
  | handle hpc hf h =>
    rw [h.pc_eq] at hp'
    exact absurd (ServerPc.hasServer_behind.symm.trans hp') (by decide)
  | runJob hf hpc hj h =>
    rw [h.pc_eq] at hp'
    exact absurd (hp.symm.trans hp') (by decide)
  | call hc h =>
    rw [h.pc_eq] at hp'
    exact absurd (hp.symm.trans hp') (by decide)
  | ret hf h | drop hc h =>
    rw [h.pc_eq] at hp'
    exact absurd (hp.symm.trans hp') (by decide)
  | endJobs hf hpc hj h =>
    rw [h.pc_eq] at hp'
    cases hp'
  | destroyLoop hf hpc h =>
    rw [hpc] at hp
    cases hp
  | other | keep => exact absurd (hp.symm.trans hp') (by decide)
  | poll | accept | skip | swap | leave => cases hp'

/-- Behind the destruction of the server no connection is open. -/
def NoneOpen (s : TcpServer) : Prop := s.pc.hasServer = false → ∀ c, s.view c ≠ .live true

theorem NoneOpen.step (hs : NoneOpen s) (hx : Exact s) (hk : DestroysEmpty s lab)
    (h : Step threadId s lab s') : NoneOpen s' := by
  intro hp' c hc
  cases hp : s.pc.hasServer with
  | false =>
    -- nobody is left to close a connection: without the server the view only loses closed ones
    rcases h.view_cases (c := c) hp with he | ⟨-, hd⟩
    · exact hs hp c (he.symm.trans hc)
    · rw [hd] at hc
      cases hc
  | true =>
    -- the set was empty, and while the server exists it holds the open connections
    obtain rfl := h.eq_destroyServer hp hp'
    cases h with
    | destroyServer hf hpc h =>
      have hopen : s.view c = .live true := by
        rcases h.view_cases c with he | ⟨-, hd⟩
        · exact he.symm.trans hc
        · rw [hd] at hc
          cases hc
      have hmem : c ∈ s.connections := (hx.connections hp c).2 hopen
      rw [show s.connections = ∅ from hk] at hmem
      exact absurd hmem (Finset.notMem_empty c)

theorem NoneOpen.of_reachable (hr : (system threadId).ReachableIf DestroysEmpty s) :
    NoneOpen s := by
  refine hr.invariant_of (J := Exact) (I := NoneOpen) (fun _ h => .of_reachable h) ?_
    fun s lab s' hx hs hk h => hs.step hx hk (.of_step h)
  rintro _ ⟨wc, rfl⟩ hp
  cases hp

/-- Without the server an open connection stays open, and so it is not destroyed. -/
theorem stays_open (hr : (system threadId).RunIf (fun _ _ => True) s s')
    (hp : s.pc.hasServer = false) (hc : s.view c = .live true) :
    s'.view c = .live true := by
  refine (hr.invariant (I := fun s => s.pc.hasServer = false ∧ s.view c = .live true) ?_
    ⟨hp, hc⟩).2
  rintro t lab t' ⟨hserver, hlive⟩ - hstep
  have h := Step.of_step hstep
  refine ⟨h.hasServer hserver, ?_⟩
  rcases h.view_cases (c := c) hserver with he | ⟨hf, -⟩
  · exact he.trans hlive
  · rw [hlive] at hf
    cases hf

/-! ### The law -/

/-- Where the destructor of a connection would fail. -/
theorem NoneOpen.not_failure (hs : NoneOpen s) (hx : Exact s) (hk : DestroysEmpty s lab) :
    ¬ Failure threadId s (.assertion .connectionDtor) lab := by
  intro h
  obtain ⟨c, conn, ⟨hmem, ho⟩, hl, hd⟩ := h.dtor_cases (.inl rfl)
  have hopen : s.view c = .live true := by
    obtain ⟨hst, -⟩ | ⟨-, -, he⟩ := destructor_eq_error.1 hd
    · rw [view_eq hl, TcpConnection.isOpen_eq_true.2 hst]
    · cases he
  cases hp : s.pc.hasServer with
  | false => exact hs hp c hopen
  | true =>
    have hin : c ∈ s.connections := (hx.connections hp c).2 hopen
    cases h with
    | destroyServer hf hpc h =>
      rw [show s.connections = ∅ from hk] at hin
      exact absurd hin (Finset.notMem_empty c)
    | ret | endJobs | drop | destroyLoop => exact ho (.inl hin)
    | _ => exact absurd hmem List.not_mem_nil

/-- **A connection is destroyed when it has been closed.**  In every run in which the server is
destroyed without connections, the assertion in `~TcpConnection` does not fail, and a connection that
has been destroyed has been announced down.  When the server is destroyed with a connection in
`connections_`, that connection is never closed, so nothing can destroy it without failing. -/
theorem destroyed_when_closed (hr : (system threadId).ReachableIf DestroysEmpty s) :
    (∀ lab, DestroysEmpty s lab →
      (system threadId).step s lab ≠ .failed (.assertion .connectionDtor)) ∧
    (∀ c, s.conns c = .destroyed → (c, .kDisconnected) ∈ s.callbacks) ∧
    ∀ s₁, (system threadId).step s .destroyServer = .next s₁ → ∀ c ∈ s.connections, ∀ s₂,
      (system threadId).RunIf (fun _ _ => True) s₁ s₂ →
        ∃ conn, s₂.conns c = .live conn ∧ conn.state ≠ .kDisconnected := by
  have hx : Exact s := .of_reachable hr
  refine ⟨fun lab hk h => ?_, fun c hc => ?_, fun s₁ h c hc s₂ hrun => ?_⟩
  · exact (NoneOpen.of_reachable hr).not_failure hx hk (.of_step h)
  · have hview : s.view c = .destroyed := Slot.map_eq_destroyed.2 hc
    refine mem_announcements.1 ?_
    rw [hx.announced c, hview]
    exact List.mem_cons_of_mem _ (List.mem_singleton_self _)
  · cases Step.of_step h with
    | destroyServer hf hpc hrel =>
      have hopen : s.view c = .live true := (hx.connections (by rw [hpc]; rfl) c).1 hc
      have hafter : s₁.view c = .live true := by
        rcases hrel.view_cases c with he | ⟨hf, -⟩
        · exact he.trans hopen
        · exact absurd (hopen.symm.trans hf) (by simp)
      obtain ⟨conn, hl, ho⟩ := Slot.map_eq_live.1
        (stays_open hrun (by rw [hrel.pc_eq]; rfl) hafter)
      exact ⟨conn, hl, TcpConnection.isOpen_eq_true.1 ho⟩

/-- A connection has been closed and destroyed before the server is destroyed. -/
theorem destroyed_when_closed_one :
    ∃ s, (system 0).ReachableIf DestroysEmpty s ∧ s.pc = .left ∧ s.conns 0 = .destroyed ∧
      (∀ lab, DestroysEmpty s lab → (system 0).step s lab ≠ .failed (.assertion .connectionDtor)) ∧
      (∀ c, s.conns c = .destroyed → (c, .kDisconnected) ∈ s.callbacks) ∧
      ∀ s₁, (system 0).step s .destroyServer = .next s₁ → ∀ c ∈ s.connections, ∀ s₂,
        (system 0).RunIf (fun _ _ => True) s₁ s₂ →
          ∃ conn, s₂.conns c = .live conn ∧ conn.state ≠ .kDisconnected := by
  obtain ⟨s, hr, hp, hc⟩ := System.exists_reachableIf (S := system 0) (C := DestroysEmpty)
    (s := new false) (P := fun s => s.pc = .left ∧ s.view 0 = .destroyed)
    (w := [.poll [.acceptor], .accept (some (.accepted 5)), .keep 0, .ret, .swap, .endJobs,
      .poll [.channel 0 {.epollin}], .handle (.data []) (.wrote 0), .handle (.data []) (.wrote 0),
      .handle (.data []) (.wrote 0), .ret, .handle (.data []) (.wrote 0), .drop 0, .swap, .endJobs,
      .leave]) ⟨false, rfl⟩ (by decide +kernel)
  exact ⟨s, hr, hp, Slot.map_eq_destroyed.1 hc, destroyed_when_closed hr⟩

/-- The loop is left with a client connected: the destruction of the server destroys the open
connection. -/
theorem destroyed_open :
    ∃ s, (system 0).Reachable s ∧ s.pc = .left ∧ s.callbacks = [(0, .kConnected)] ∧
      (system 0).step s .destroyServer = .failed (.assertion .connectionDtor) := by
  have hrun : ((system 0).exec (new false) [.poll [.acceptor], .accept (some (.accepted 5)), .ret,
      .swap, .endJobs, .leave]).Leads fun s => s.pc = .left ∧ s.callbacks = [(0, .kConnected)] ∧
        (system 0).step s .destroyServer = .failed (.assertion .connectionDtor) := by
    decide +kernel
  obtain ⟨s, hs, h⟩ := hrun
  exact ⟨s, System.reachable_of_exec ⟨false, rfl⟩ hs, h⟩

end Leven.TcpServer
