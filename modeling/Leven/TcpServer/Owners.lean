import Leven.TcpServer.Connections

/-!
# The owners of a connection

A connection is destroyed by the step that lets the last reference to it go: the callback that was
called with it returns, a batch of closures is over, a user drops a reference, or the server or the
loop is destroyed.

* `letGo`: the references that a step lets go, `LastGoes`: it is the last one to the connection;
* `Step.live_cases`, `Failure.dtor_cases`: what is destroyed, and where a destructor fails;
* `Alive`: an owner is the owner of a connection that is there;
* `Flagged`: `handlingEvents_` is set only for the channel that is being dispatched.
-/

namespace Leven.TcpServer

open Transition Container

variable {threadId : Pid} {s s' : TcpServer} {lab : Label} {c d : ℕ} {cs : List ℕ}
  {conn conn' : TcpConnection} {l : List Event} {f : TcpConnection → TcpConnection.Result}
  {state : ConnectionState} {e : Fault} {js js' : List Closure}

/-! ### What a step lets go -/

/-- The state without the references that the step lets go, and the connections they refer to. -/
def letGo (s : TcpServer) : Label → TcpServer × List ℕ
  | .ret => ({ s with frame := none }, (s.frame.bind Frame.conn).toList)
  | .endJobs => ({ s with done := [], pc := .polling }, s.done.map Closure.conn)
  | .drop c => ({ s with refs := Function.update s.refs c (s.refs c - 1) }, [c])
  | .destroyServer =>
    ({ s with connections := ∅, pc := .serverGone },
      (List.range s.created).filter (· ∈ s.connections))
  | .destroyLoop => ({ s with pendingJobs := [], pc := .loopGone }, s.pendingJobs.map Closure.conn)
  | _ => (s, [])

/-- The step lets the last reference to the connection go. -/
def LastGoes (s : TcpServer) (c : ℕ) (lab : Label) : Prop :=
  c ∈ (s.letGo lab).2 ∧ ¬ (s.letGo lab).1.Owned c

theorem letGo_conns : (s.letGo lab).1.conns = s.conns := by
  cases lab <;> rfl

theorem letGo_ret {fr : Frame} (hf : s.frame = some fr) :
    s.letGo .ret = ({ s with frame := none }, fr.conn.toList) := by
  simp only [letGo, hf, Option.bind_some]

theorem lastGoes_ret :
    s.LastGoes c .ret ↔ c ∈ s.frame.bind Frame.conn ∧ c ∉ s.connections ∧ s.refs c = 0 ∧
      ¬ Holds (s.pendingJobs ++ s.jobs ++ s.done) c := by
  have hframe : ¬ InFrame { s with frame := none } c := fun ⟨_, hf, _⟩ => (by cases hf)
  simp only [LastGoes, letGo, Owned, hframe, Option.mem_toList, not_or, not_lt, Nat.le_zero,
    or_false, Option.mem_def]

theorem lastGoes_drop :
    s.LastGoes c (.drop d) ↔ c = d ∧ c ∉ s.connections ∧ s.refs c ≤ 1 ∧
      ¬ Holds (s.pendingJobs ++ s.jobs ++ s.done) c ∧ ¬ s.InFrame c := by
  simp only [LastGoes, letGo, List.mem_singleton]
  refine and_congr_right fun hcd => ?_
  subst hcd
  have hrefs : ¬ 0 < Function.update s.refs c (s.refs c - 1) c ↔ s.refs c ≤ 1 := by
    rw [Function.update_self]
    omega
  simp only [Owned, not_or, hrefs]
  rfl

theorem lastGoes_endJobs :
    s.LastGoes c .endJobs ↔ c ∈ s.done.map Closure.conn ∧ c ∉ s.connections ∧ s.refs c = 0 ∧
      ¬ Holds (s.pendingJobs ++ s.jobs) c ∧ ¬ s.InFrame c := by
  simp only [LastGoes, letGo, Owned, not_or, not_lt, Nat.le_zero, List.append_nil]
  rfl

/-- A member function leaves the other connections alone. -/
theorem Entered.conns_eq (h : Entered s c state l s') : s'.conns = s.conns := by
  cases h <;> rfl

/-- What a member function leaves behind. -/
theorem Performed.conns_cases (h : Performed s c f s') : ∃ conn conn' l,
    s.conns c = .live conn ∧ f conn = .ok (conn', l) ∧
      s'.conns = Function.update s.conns c (.live conn') := by
  cases h with
  | intro hl hf he => exact ⟨_, _, _, hl, hf, he.conns_eq⟩

theorem Performed.exists_live (h : Performed s c f s') (hd : ∃ conn, s.conns d = .live conn) :
    ∃ conn, s'.conns d = .live conn := by
  obtain ⟨conn, conn', l, -, -, hconns⟩ := h.conns_cases
  rw [hconns]
  by_cases hdc : d = c
  · exact ⟨conn', hdc ▸ Function.update_self ..⟩
  · rw [Function.update_of_ne hdc]
    exact hd

theorem exists_live_setRevents {ready : List Ready} {h : RefHeap ℕ TcpConnection}
    (hl : ∃ conn, h c = .live conn) : ∃ conn, setRevents ready h c = .live conn := by
  obtain ⟨conn, hl⟩ := hl
  obtain he | ⟨conn', m, -, he⟩ := setRevents_cases ready h c
  · exact ⟨conn, he.trans hl⟩
  · exact ⟨_, he⟩

theorem Released.live_cases (h : Released s cs s') (hl : s.conns c = .live conn) :
    s'.conns c = .live conn ∨
      c ∈ cs ∧ ¬ s.Owned c ∧ destructor conn = .ok () ∧ s'.conns c = .destroyed := by
  obtain ⟨hcol⟩ := h
  obtain he | ⟨ho, hc, ⟨conn', hl', hd⟩, hdes⟩ := hcol.kept c
  · exact .inl (he.trans hl)
  · rw [hl] at hl'
    cases hl'
    exact .inr ⟨hc, ho, hd, hdes⟩

/-- A step releases the references that it lets go, or all connections stay. -/
theorem Step.released_or_kept (h : Step threadId s lab s') :
    Released (s.letGo lab).1 (s.letGo lab).2 s' ∨ (s.letGo lab).2 = [] ∧
      ∀ c, (∃ conn, s.conns c = .live conn) → ∃ conn, s'.conns c = .live conn := by
  cases h with
  | ret hf h =>
    rw [letGo_ret hf]
    exact .inl h
  | endJobs hf hp hj h | drop hc h | destroyServer hf hp h | destroyLoop hf hp h => exact .inl h
  | poll hp hn hr => exact .inr ⟨rfl, fun _ hl => exists_live_setRevents hl⟩
  | @accept r rest fd new l hp hf ha hr h =>
    refine .inr ⟨rfl, fun c hl => ?_⟩
    by_cases hcn : c = s.created
    · exact ⟨new, hcn ▸ Function.update_self ..⟩
    · obtain ⟨conn, hl⟩ := hl
      exact ⟨conn, (Function.update_of_ne hcn _ _).trans hl⟩
  | handle hp hf h => exact .inr ⟨rfl, fun _ hl => h.exists_live hl⟩
  | runJob hf hp hj h => exact .inr ⟨rfl, fun _ hl => h.exists_live hl⟩
  | call hc h => exact .inr ⟨rfl, fun _ hl => h.exists_live hl⟩
  | skip | other | swap | keep | leave => exact .inr ⟨rfl, fun _ hl => hl⟩

/-- A connection stays, or it is destroyed by the step that lets the last reference to it go. -/
theorem Step.live_cases (h : Step threadId s lab s') (hl : s.conns c = .live conn) :
    (∃ conn', s'.conns c = .live conn') ∨
      s.LastGoes c lab ∧ destructor conn = .ok () ∧ s'.conns c = .destroyed := by
  obtain hr | ⟨-, hk⟩ := h.released_or_kept
  · obtain hk | ⟨hmem, ho, hd, hdes⟩ := hr.live_cases (letGo_conns ▸ hl)
    · exact .inl ⟨conn, hk⟩
    · exact .inr ⟨⟨hmem, ho⟩, hd, hdes⟩
  · exact .inl (hk c ⟨conn, hl⟩)

/-- The step that lets the last reference go destroys the connection. -/
theorem Step.not_live_of_lastGoes (h : Step threadId s lab s') (hc : s.LastGoes c lab) :
    s'.conns c ≠ .live conn := by
  obtain ⟨⟨hcol⟩⟩ | ⟨hnil, -⟩ := h.released_or_kept
  · exact hcol.gone c hc.1 hc.2 conn
  · have hmem := hc.1
    rw [hnil] at hmem
    cases hmem

/-- A destructor fails in the step that lets the last reference go. -/
theorem Failure.dtor_cases (h : Failure threadId s e lab)
    (he : e = .assertion .connectionDtor ∨ e = .assertion .channelDtor) :
    ∃ c conn, s.LastGoes c lab ∧ s.conns c = .live conn ∧ destructor conn = .error e := by
  -- the other assertions are those of the member functions
  have hother : ∀ a, e = .assertion a → a.ofConnection = false := by
    rintro a rfl
    rcases he with he | he <;> cases he <;> rfl
  have hperform : ∀ {s₀ : TcpServer} {c : ℕ} {f : TcpConnection → TcpConnection.Result},
      (∀ conn a, f conn = .error a → a.ofConnection = true) → s₀.perform c f ≠ .failed e := by
    intro s₀ c f hf h
    rcases perform_failed h with ⟨-, rfl⟩ | ⟨conn, a, -, herr, rfl⟩ | ⟨_, _, _, -, -, -, -, rfl⟩
    · simp at he
    · exact absurd (hf _ _ herr) (Bool.eq_false_iff.1 (hother a rfl))
    · simp at he
  have hrel : (s.letGo lab).1.release (s.letGo lab).2 = .failed e →
      ∃ c conn, s.LastGoes c lab ∧ s.conns c = .live conn ∧ destructor conn = .error e := by
    intro hr
    obtain ⟨c, hmem, ho, conn, hl, hd⟩ := release_failed hr
    rw [letGo_conns] at hl
    exact ⟨c, conn, ⟨hmem, ho⟩, hl, hd⟩
  cases h with
  | accept hF =>
    rcases hF with rfl | ⟨a, rfl, ha⟩
    · simp at he
    · exact absurd ha (Bool.eq_false_iff.1 (hother a rfl))
  | handle hp hf h =>
    exact absurd h (hperform fun _ _ h => TcpConnection.handleStage_ofConnection h)
  | runJob hf hp hj h => exact absurd h (hperform fun _ _ h => TcpConnection.runJob_ofConnection h)
  | call hc h => exact absurd h (hperform fun _ _ h => TcpConnection.call_ofConnection h)
  | ret hf h =>
    rw [letGo_ret hf] at hrel
    exact hrel h
  | endJobs hf hp hj h | drop hc h | destroyServer hf hp h | destroyLoop hf hp h => exact hrel h

/-! ### Owners -/

theorem Holds.mono (h : Holds js c) (hl : js ⊆ js') : Holds js' c := by
  obtain ⟨j, hj, hc⟩ := h
  exact ⟨j, hl hj, hc⟩

theorem holds_append : Holds (js ++ js') c ↔ Holds js c ∨ Holds js' c := by
  simp only [Holds, List.mem_append, or_and_right, exists_or]

theorem holds_map {k : List Job} (h : Holds (k.map (Closure.mk d)) c) : c = d := by
  obtain ⟨j, hj, hc, -⟩ := h
  obtain ⟨_, -, rfl⟩ := List.mem_map.1 hj
  exact hc.symm

/-- The closures that a member function queues hold references to its connection. -/
theorem holds_queued {k : List Closure}
    (h : Holds (js ++ (queued l).map (Closure.mk c) ++ js' ++ k) d) :
    d = c ∨ Holds (js ++ js' ++ k) d := by
  simp only [holds_append] at h ⊢
  rcases h with ((h | h) | h) | h
  · exact .inr (.inl (.inl h))
  · exact .inl (holds_map h)
  · exact .inr (.inl (.inr h))
  · exact .inr (.inr h)

/-- An owner is the owner of a connection that is there. -/
def Alive (s : TcpServer) : Prop := ∀ c, s.Owned c → ∃ conn, s.conns c = .live conn

theorem Alive.of_le (hs : Alive s) (hconns : s'.conns = s.conns)
    (ho : ∀ c, s'.Owned c → s.Owned c) : Alive s' := by
  intro c hc
  rw [hconns]
  exact hs c (ho c hc)

theorem Alive.released (hs : Alive s) (h : Released s cs s') : Alive s' := by
  obtain ⟨hcol⟩ := h
  exact fun c hc => hcol.exists_live hs hc

/-- Only the connection of the call has new owners. -/
theorem Entered.owned (h : Entered (s.apply c conn' l) c state l s') (hd : s'.Owned d) :
    d = c ∨ s.Owned d := by
  cases h with
  | none hn =>
    rcases hd with hd | hd | hd | hd
    · exact .inr (.inl hd)
    · exact .inr (.inr (.inl hd))
    · exact (holds_queued hd).imp_right fun hd => .inr (.inr (.inl hd))
    · exact .inr (.inr (.inr (.inr hd)))
  | frame hn hf he =>
    rcases hd with hd | hd | hd | ⟨fr, hfr, hd⟩
    · exact .inr (.inl hd)
    · exact .inr (.inr (.inl hd))
    · exact (holds_queued hd).imp_right fun hd => .inr (.inr (.inl hd))
    · cases hfr
      rw [hf] at hd
      cases hd
      exact .inl rfl
  | close hcl hmem =>
    rcases hd with hd | hd | hd | ⟨fr, hfr, hd⟩
    · exact .inr (.inl (Finset.mem_of_mem_erase hd))
    · exact .inr (.inr (.inl hd))
    · exact (holds_queued hd).imp_right fun hd => .inr (.inr (.inl hd))
    · cases hfr
      cases hd
      exact .inl rfl

theorem Alive.performed (hs : Alive s) (h : Performed s c f s') : Alive s' := by
  intro d hd
  cases h with
  | intro hl hf he =>
    rcases he.owned hd with rfl | ho
    · rw [he.conns_eq]
      exact ⟨_, Function.update_self ..⟩
    · rw [he.conns_eq]
      by_cases hdc : d = c
      · subst hdc
        exact ⟨_, Function.update_self ..⟩
      · obtain ⟨conn, hc⟩ := hs d ho
        exact ⟨conn, (Function.update_of_ne hdc _ _).trans hc⟩

/-- Letting references go adds no owner. -/
theorem owned_of_letGo (ho : (s.letGo lab).1.Owned c) : s.Owned c := by
  have hrefs : ∀ d, 0 < Function.update s.refs d (s.refs d - 1) c → 0 < s.refs c := by
    intro d h
    by_cases hd : c = d
    · subst hd
      rw [Function.update_self] at h
      omega
    · rwa [Function.update_of_ne hd] at h
  cases lab with
  | ret =>
    rcases ho with ho | ho | ho | ⟨fr, hfr, -⟩
    · exact .inl ho
    · exact .inr (.inl ho)
    · exact .inr (.inr (.inl ho))
    · cases hfr
  | endJobs =>
    refine ho.imp_right (Or.imp_right (Or.imp_left fun ho => ho.mono ?_))
    exact List.append_subset.2 ⟨List.subset_append_left _ _, List.nil_subset _⟩
  | drop d => exact ho.imp_right (Or.imp_left (hrefs d))
  | destroyServer => exact .inr (ho.resolve_left (Finset.notMem_empty c))
  | destroyLoop =>
    refine ho.imp_right (Or.imp_right (Or.imp_left fun ho => ho.mono ?_))
    exact List.append_subset.2
      ⟨fun j hj => List.mem_append_left _ (List.mem_append_right _ hj),
        List.subset_append_right _ _⟩
  | _ => exact ho

theorem Alive.step (hs : Alive s) (h : Step threadId s lab s') : Alive s' := by
  have hgo : Alive (s.letGo lab).1 := hs.of_le letGo_conns fun c => owned_of_letGo
  cases h with
  | ret hf h =>
    rw [letGo_ret hf] at hgo
    exact hgo.released h
  | endJobs hf hp hj h | drop hc h | destroyServer hf hp h | destroyLoop hf hp h =>
    exact hgo.released h
  | poll hp hn hr => exact fun c hc => exists_live_setRevents (hs c hc)
  | @accept r rest fd new l hp hf ha hr h =>
    intro c hc
    by_cases hcn : c = s.created
    · exact ⟨new, hcn ▸ Function.update_self ..⟩
    · -- the owners that a new connection adds are its own
      have ho : s.Owned c := by
        rcases hc with hc | hc | hc | ⟨fr, hfr, hc⟩
        · exact .inl ((Finset.mem_insert.1 hc).resolve_left hcn)
        · exact .inr (.inl hc)
        · exact .inr (.inr (.inl ((holds_queued hc).resolve_left hcn)))
        · cases hfr
          cases hc
          exact absurd rfl hcn
      obtain ⟨conn, hl⟩ := hs c ho
      exact ⟨conn, (Function.update_of_ne hcn _ _).trans hl⟩
  | @handle r w c st rest _ hp hf h =>
    have hbehind : Alive { s with pc := .behind c st rest } := hs.of_le rfl fun _ => id
    exact hbehind.performed h
  | @runJob w j js _ hf hp hj h =>
    have htaken : Alive { s with jobs := js, done := s.done ++ [j] } := by
      refine hs.of_le rfl fun c hc => hc.imp_right (Or.imp_right (Or.imp_left fun hc => hc.mono ?_))
      rw [hj]
      intro i hi
      simp only [List.mem_append, List.mem_cons, List.not_mem_nil, or_false] at hi ⊢
      tauto
    exact htaken.performed h
  | call hc h =>
    have hcalled : Alive { s with calls := s.calls + 1 } := hs.of_le rfl fun _ => id
    exact hcalled.performed h
  | other hf hp =>
    refine hs.of_le rfl fun c hc => hc.imp_right (Or.imp_right (Or.imp_right ?_))
    rintro ⟨fr, hfr, hc⟩
    cases hfr
    cases hc
  | swap hf hp =>
    refine hs.of_le rfl fun c hc => hc.imp_right (Or.imp_right (Or.imp_left fun hc => hc.mono ?_))
    intro i hi
    simp only [List.mem_append, List.not_mem_nil, false_or] at hi ⊢
    tauto
  | @keep d hd =>
    refine hs.of_le rfl fun c hc => ?_
    by_cases hcd : c = d
    · subst hcd
      exact hd.elim (fun h => .inr (.inl h)) fun h => .inr (.inr (.inr h))
    · refine hc.imp_right (Or.imp_left fun h => ?_)
      change 0 < Function.update s.refs d (s.refs d + 1) c at h
      rwa [Function.update_of_ne hcd] at h
  | skip | leave => exact hs.of_le rfl fun _ => id

theorem Alive.of_reachable {C : TcpServer → Label → Prop}
    (hr : (system threadId).ReachableIf C s) : Alive s := by
  refine hr.invariant (I := Alive) ?_ fun s lab s' hs _ h => hs.step (.of_step h)
  rintro _ ⟨wc, rfl⟩ c (hc | hc | ⟨j, hj, -⟩ | ⟨fr, hfr, -⟩)
  · exact absurd hc (Finset.notMem_empty c)
  · exact absurd hc (lt_irrefl 0)
  · cases hj
  · cases hfr

/-! ### The flag of the dispatch -/

/-- `handlingEvents_` is set only for the channel that is being dispatched. -/
def Flagged (s : TcpServer) : Prop :=
  ∀ c conn, s.conns c = .live conn → conn.channel.handlingEvents = true →
    ∃ st rest, s.pc = .handling c st rest

/-- No flag is raised. -/
theorem Flagged.of_le (hs : Flagged s)
    (hl : ∀ c conn', s'.conns c = .live conn' → conn'.channel.handlingEvents = true →
      ∃ conn, s.conns c = .live conn ∧ conn.channel.handlingEvents = true)
    (hp : ∀ c st rest, s.pc = .handling c st rest → s'.pc = .handling c st rest) : Flagged s' := by
  intro c conn' hc hflag
  obtain ⟨conn, hc, hflag⟩ := hl c conn' hc hflag
  obtain ⟨st, rest, hpc⟩ := hs c conn hc hflag
  exact ⟨st, rest, hp c st rest hpc⟩

theorem Flagged.released (hs : Flagged s) (h : Released s cs s') : Flagged s' := by
  obtain ⟨hcol⟩ := h
  exact hs.of_le (fun c conn hc hflag => ⟨conn, hcol.live hc, hflag⟩) fun _ _ _ => id

theorem Released.pc_eq (h : Released s cs s') : s'.pc = s.pc := by
  cases h
  rfl

theorem Entered.pc_eq (h : Entered s c state l s') : s'.pc = s.pc := by
  cases h <;> rfl

theorem Performed.pc_eq (h : Performed s c f s') : s'.pc = s.pc := by
  cases h with
  | intro hl hf he => exact he.pc_eq

theorem Flagged.performed (hs : Flagged s)
    (hf : ∀ conn conn' l, f conn = .ok (conn', l) →
      conn'.channel.handlingEvents = conn.channel.handlingEvents)
    (h : Performed s c f s') : Flagged s' := by
  refine hs.of_le (fun d conn' hd hflag => ?_) fun _ _ _ hpc => h.pc_eq.trans hpc
  obtain ⟨conn, conn₁, l, hl, hok, hconns⟩ := h.conns_cases
  rw [hconns] at hd
  by_cases hdc : d = c
  · subst hdc
    rw [Function.update_self] at hd
    cases hd
    exact ⟨conn, hl, (hf _ _ _ hok).symm.trans hflag⟩
  · rw [Function.update_of_ne hdc] at hd
    exact ⟨conn', hd, hflag⟩

theorem ServerPc.eq_of_stage {pc : ServerPc} {st st' : Stage} {rest rest' : List Active}
    (hp : pc.stage = some (c, st, rest)) (hd : pc = .handling d st' rest') : d = c := by
  subst hd
  cases hp
  rfl

/-- The first stage of the dispatch raises the flag, the last one takes it down. -/
theorem Flagged.handled (hs : Flagged s) {st : Stage} {rest : List Active} {r : ReadResult}
    {w : WriteResult} (hp : s.pc.stage = some (c, st, rest))
    (h : Performed { s with pc := .behind c st rest } c (fun conn => conn.handleStage st r w) s') :
    Flagged s' := by
  intro d conn' hd hflag
  rw [h.pc_eq]
  obtain ⟨conn, conn₁, l, hl, hok, hconns⟩ := h.conns_cases
  rw [hconns] at hd
  by_cases hdc : d = c
  · subst hdc
    rw [Function.update_self] at hd
    cases hd
    cases st with
    | close | error | read => exact ⟨_, _, rfl⟩
    | write =>
      rw [TcpConnection.handleStage_handling hok] at hflag
      cases hflag
  · rw [Function.update_of_ne hdc] at hd
    obtain ⟨st', rest', hpc⟩ := hs d conn' hd hflag
    exact absurd (ServerPc.eq_of_stage hp hpc) hdc

theorem Flagged.step (hs : Flagged s) (h : Step threadId s lab s') : Flagged s' := by
  -- behind a position that is not in a dispatch
  have hnot : (∀ c st rest, s.pc ≠ .handling c st rest) → ∀ pc, Flagged { s with pc := pc } :=
    fun hp _ => hs.of_le (fun _ conn hc hflag => ⟨conn, hc, hflag⟩) fun c st rest hpc =>
      absurd hpc (hp c st rest)
  have hsame : ∀ {s₁ : TcpServer}, s₁.conns = s.conns → s₁.pc = s.pc → Flagged s₁ :=
    fun hconns hpc => hs.of_le (fun _ conn hc hflag => ⟨conn, hconns ▸ hc, hflag⟩)
      fun _ _ _ h => hpc.trans h
  cases h with
  | poll hp hn hr =>
    refine hs.of_le (fun c conn' hc hflag => ?_) fun c st rest hpc => ?_
    · obtain he | ⟨conn, m, hl, he⟩ := setRevents_cases _ s.conns c
      · exact ⟨conn', he.symm.trans hc, hflag⟩
      · have hc' := he.symm.trans hc
        cases hc'
        exact ⟨conn, hl, hflag⟩
    · rw [hp] at hpc
      cases hpc
  | @accept r rest fd new l hp hf ha hr h =>
    refine (hnot (fun _ _ _ => by rw [hp]; simp) (.dispatching rest)).of_le ?_ fun _ _ _ => id
    intro c conn' hc hflag
    change Function.update s.conns s.created (.live new) c = .live conn' at hc
    by_cases hcn : c = s.created
    · subst hcn
      rw [Function.update_self] at hc
      cases hc
      rw [TcpConnection.connectEstablished_handling h] at hflag
      cases hflag
    · rw [Function.update_of_ne hcn] at hc
      exact ⟨conn', hc, hflag⟩
  | handle hp hf h => exact hs.handled hp h
  | @runJob w j js _ hf hp hj h =>
    have htaken : Flagged { s with jobs := js, done := s.done ++ [j] } := hsame rfl rfl
    exact htaken.performed (fun _ _ _ h => TcpConnection.runJob_handling h) h
  | call hc h =>
    have hcalled : Flagged { s with calls := s.calls + 1 } := hsame rfl rfl
    exact hcalled.performed (fun _ _ _ h => TcpConnection.call_handling h) h
  | ret hf h =>
    have hleft : Flagged { s with frame := none } := hsame rfl rfl
    exact hleft.released h
  | @drop c _ hc h =>
    have hdropped : Flagged { s with refs := Function.update s.refs c (s.refs c - 1) } :=
      hsame rfl rfl
    exact hdropped.released h
  | endJobs hf hp hj h =>
    have hended : Flagged { s with done := [], pc := .polling } :=
      hnot (fun _ _ _ => by rw [hp]; simp) .polling
    exact hended.released h
  | destroyServer hf hp h =>
    have hgone : Flagged { s with connections := ∅, pc := .serverGone } :=
      hnot (fun _ _ _ => by rw [hp]; simp) .serverGone
    exact hgone.released h
  | destroyLoop hf hp h =>
    have hgone : Flagged { s with pendingJobs := [], pc := .loopGone } :=
      hnot (fun _ _ _ => by rw [hp]; simp) .loopGone
    exact hgone.released h
  | skip hp hf => exact hnot (fun _ _ _ => by rw [hp]; simp) _
  | leave hf hp => exact hnot (fun _ _ _ => by rw [hp]; simp) _
  | swap hf hp => exact hnot (fun _ _ _ => by rw [hp]; simp) .running
  | other | keep => exact hsame rfl rfl

theorem Flagged.of_reachable {C : TcpServer → Label → Prop}
    (hr : (system threadId).ReachableIf C s) : Flagged s := by
  refine hr.invariant (I := Flagged) ?_ fun s lab s' hs _ h => hs.step (.of_step h)
  rintro _ ⟨wc, rfl⟩ c conn hc -
  cases hc

end Leven.TcpServer
