import Leven.TcpServer.Registered

/-!
# The lifetime of a connection

A connection is there exactly as long as somebody holds a reference to it: the set of the server, a
user, a closure or a function that the loop thread is in.  Nothing that has an owner is destroyed,
and nothing is left behind without one.

* `Batched`: closures that have been taken out of `pendingJobs_` are run before others are taken;
* `Tight`: a connection that is there has an owner;
* `lifetime_exact`: the law, over all runs.
-/

namespace Leven.TcpServer

open Transition Container

variable {threadId : Pid} {s s' : TcpServer} {lab : Label} {c d : ℕ} {cs : List ℕ}
  {conn conn' : TcpConnection} {f : TcpConnection → TcpConnection.Result} {js js' : List Closure}

/-! ### The batch -/

/-- Outside of `doPendingJobs` there is no batch. -/
def Batched (s : TcpServer) : Prop := s.pc ≠ .running → s.jobs = []

theorem Performed.jobs_eq (hp : Performed s c f s') : s'.jobs = s.jobs := by
  obtain ⟨-, -, he⟩ := hp
  exact he.same.2.2.2.1

theorem Batched.step (hs : Batched s) (h : Step threadId s lab s') : Batched s' := by
  intro hp'
  cases h with
  | poll hp hn hr => exact hs (by simp [hp])
  | accept hp hf ha hr h => exact hs (by simp [hp])
  | skip hp hf => exact hs (by simp [hp])
  | handle hp hf h =>
    refine h.jobs_eq.trans (hs fun hrun => ?_)
    rw [hrun] at hp
    cases hp
  | runJob hf hp hj h =>
    rw [h.pc_eq] at hp'
    exact absurd hp hp'
  | call hc h =>
    rw [h.pc_eq] at hp'
    exact h.jobs_eq.trans (hs hp')
  | ret hf h | drop hc h =>
    obtain ⟨-⟩ := h
    exact hs hp'
  | endJobs hf hp hj h =>
    obtain ⟨-⟩ := h
    exact hj
  | destroyServer hf hp h | destroyLoop hf hp h =>
    obtain ⟨-⟩ := h
    exact hs (by simp [hp])
  | swap hf hp => exact absurd rfl hp'
  | leave hf hp => exact hs (by simp [hp])
  | other | keep => exact hs hp'

theorem Batched.of_reachable {C : TcpServer → Label → Prop}
    (hr : (system threadId).ReachableIf C s) : Batched s := by
  refine hr.invariant (I := Batched) ?_ fun s lab s' hs _ h => hs.step (.of_step h)
  rintro _ ⟨wc, rfl⟩ -
  rfl

/-! ### Owners -/

/-- What a step lets go has other owners, or is in the list. -/
theorem owned_letGo (hx : Exact s) (hl : s.conns c = .live conn) (ho : s.Owned c) :
    (s.letGo lab).1.Owned c ∨ c ∈ (s.letGo lab).2 := by
  cases lab with
  | ret =>
    obtain ho | ho | ho | ⟨fr, hfr, hc⟩ := ho
    · exact .inl (.inl ho)
    · exact .inl (.inr (.inl ho))
    · exact .inl (.inr (.inr (.inl ho)))
    · refine .inr ?_
      rw [letGo_ret hfr, hc]
      exact List.mem_singleton_self _
  | endJobs =>
    obtain ho | ho | ho | ho := ho
    · exact .inl (.inl ho)
    · exact .inl (.inr (.inl ho))
    · rcases holds_append.1 ho with ho | ⟨j, hj, rfl, -⟩
      · exact .inl (.inr (.inr (.inl (holds_append.2 (.inl ho)))))
      · exact .inr (List.mem_map_of_mem hj)
    · exact .inl (.inr (.inr (.inr ho)))
  | drop d =>
    by_cases hcd : c = d
    · exact .inr (List.mem_singleton.2 hcd)
    · refine .inl (ho.imp_right (Or.imp_left fun ho => ?_))
      show 0 < Function.update s.refs d (s.refs d - 1) c
      rwa [Function.update_of_ne hcd]
  | destroyServer =>
    obtain ho | ho := ho
    · refine .inr (List.mem_filter.2 ⟨List.mem_range.2 (hx.lt_created hl), ?_⟩)
      simpa using ho
    · exact .inl (.inr ho)
  | destroyLoop =>
    obtain ho | ho | ho | ho := ho
    · exact .inl (.inl ho)
    · exact .inl (.inr (.inl ho))
    · rcases holds_append.1 ho with ho | ho
      · rcases holds_append.1 ho with ⟨j, hj, rfl, -⟩ | ho
        · exact .inr (List.mem_map_of_mem hj)
        · exact .inl (.inr (.inr (.inl (holds_append.2 (.inl (holds_append.2 (.inr ho)))))))
      · exact .inl (.inr (.inr (.inl (holds_append.2 (.inr ho)))))
    · exact .inl (.inr (.inr (.inr ho)))
  | _ => exact .inl ho

/-- Owners stay owners behind a member function. -/
theorem Performed.owned (hp : Performed s c f s')
    (hf : s.frame = none ∨ ∀ conn conn' l, f conn = .ok (conn', l) → ∀ e ∈ l, e.isCallback = false)
    (ho : s.Owned d) : s'.Owned d := by
  cases hp with
  | @intro conn conn' l _ hl hok he =>
    -- the queue grows, and a frame is only entered from none
    have happly : (s.apply c conn' l).Owned d := by
      refine ho.imp_right (Or.imp_right (Or.imp_left fun ho => ho.mono ?_))
      intro j hj
      simp only [TcpServer.apply, List.mem_append] at hj ⊢
      tauto
    have hframe : s'.frame = s.frame ∨ s.frame = none := by
      rcases hf with hf | hf
      · exact .inr hf
      · exact .inl (he.frame_eq (hf _ _ _ hok))
    have hin : s.InFrame d → s'.frame = s.frame := by
      rintro ⟨fr, hfr, -⟩
      rcases hframe with h | h
      · exact h
      · rw [h] at hfr
        cases hfr
    cases he with
    | close hc hmem =>
      obtain ho | ho | ho | ho := happly
      · by_cases hdc : d = c
        · exact .inr (.inr (.inr ⟨_, rfl, hdc ▸ rfl⟩))
        · exact .inl (Finset.mem_erase.2 ⟨hdc, ho⟩)
      · exact .inr (.inl ho)
      · exact .inr (.inr (.inl ho))
      · obtain ⟨fr, hfr, hd⟩ := ho
        exact .inr (.inr (.inr ⟨fr, (hin ⟨fr, hfr, hd⟩).trans hfr, hd⟩))
    | frame hc hfr hcall =>
      obtain ho | ho | ho | ho := happly
      · exact .inl ho
      · exact .inr (.inl ho)
      · exact .inr (.inr (.inl ho))
      · obtain ⟨fr, hfr', hd⟩ := ho
        exact .inr (.inr (.inr ⟨fr, (hin ⟨fr, hfr', hd⟩).trans hfr', hd⟩))
    | none hc => exact happly

/-- A connection that is there has an owner. -/
def Tight (s : TcpServer) : Prop := ∀ c conn, s.conns c = .live conn → s.Owned c

theorem Tight.performed (hs : Tight s)
    (hf : s.frame = none ∨ ∀ conn conn' l, f conn = .ok (conn', l) → ∀ e ∈ l, e.isCallback = false)
    (hp : Performed s c f s') : Tight s' := by
  intro d conn hl
  refine hp.owned hf ?_
  obtain ⟨conn₀, conn', l, hl₀, -, hconns⟩ := hp.conns_cases
  by_cases hdc : d = c
  · exact hs d conn₀ (hdc ▸ hl₀)
  · rw [hconns, Function.update_of_ne hdc] at hl
    exact hs d conn hl

/-- What is left when references have gone has an owner. -/
theorem Tight.released (hs : Tight s) (hx : Exact s)
    (h : Released (s.letGo lab).1 (s.letGo lab).2 s') : Tight s' := by
  intro c conn hl
  obtain ⟨hcol⟩ := h
  have hl₀ : s.conns c = .live conn := by
    have hconns : (s.letGo lab).1.conns = s.conns := letGo_conns
    rw [← hconns]
    exact hcol.live hl
  have howned : (s.letGo lab).1.Owned c ∨ c ∈ (s.letGo lab).2 := owned_letGo hx hl₀ (hs c conn hl₀)
  rcases howned with ho | hmem
  · exact ho
  · by_contra hno
    exact hcol.gone c hmem hno conn hl

theorem Tight.step (hs : Tight s) (hx : Exact s) (hb : Batched s) (h : Step threadId s lab s') :
    Tight s' := by
  have hreleased : Released (s.letGo lab).1 (s.letGo lab).2 s' → Tight s' := hs.released hx
  cases h with
  | poll hp hn hr =>
    intro c conn hl
    obtain he | ⟨conn', m, hlive, -⟩ := setRevents_cases _ s.conns c
    · exact hs c conn (he.symm.trans hl)
    · exact hs c conn' hlive
  | @accept r rest fd new l hp hf ha hr h =>
    intro c conn hl
    by_cases hcn : c = s.created
    · exact .inl (hcn ▸ Finset.mem_insert_self _ _)
    · have ho := hs c conn ((Function.update_of_ne hcn _ _).symm.trans hl)
      obtain ho | ho | ho | ⟨fr, hfr, -⟩ := ho
      · exact .inl (Finset.mem_insert_of_mem ho)
      · exact .inr (.inl ho)
      · refine .inr (.inr (.inl (ho.mono fun j hj => ?_)))
        simp only [announced, connectionCallback, TcpServer.apply, inserted,
          List.mem_append] at hj ⊢
        tauto
      · rw [hf] at hfr
        cases hfr
  | @handle r w c st rest _ hp hf h =>
    have hbehind : Tight { s with pc := .behind c st rest } := hs
    exact hbehind.performed (.inl hf) h
  | @runJob w j js _ hf hp hj h =>
    have htaken : Tight { s with jobs := js, done := s.done ++ [j] } := by
      refine fun c conn hl => (hs c conn hl).imp_right (Or.imp_right (Or.imp_left fun ho =>
        ho.mono fun i hi => ?_))
      simp only [hj, List.mem_append, List.mem_cons, List.not_mem_nil, or_false] at hi ⊢
      tauto
    exact htaken.performed (.inl hf) h
  | call hc h =>
    have hcalled : Tight { s with calls := s.calls + 1 } := hs
    exact hcalled.performed (.inr fun _ _ _ hok => TcpConnection.call_isCallback hok) h
  | ret hf h =>
    rw [letGo_ret hf] at hreleased
    exact hreleased h
  | endJobs hf hp hj h | drop hc h | destroyServer hf hp h | destroyLoop hf hp h =>
    exact hreleased h
  | swap hf hp =>
    refine fun c conn hl => (hs c conn hl).imp_right (Or.imp_right (Or.imp_left fun ho =>
      ho.mono fun i hi => ?_))
    simp only [hb (by simp [hp]), List.append_nil, List.nil_append] at hi ⊢
    exact hi
  | other hf hp =>
    intro c conn hl
    obtain ho | ho | ho | ⟨fr, hfr, -⟩ := hs c conn hl
    · exact .inl ho
    · exact .inr (.inl ho)
    · exact .inr (.inr (.inl ho))
    · rw [hf] at hfr
      cases hfr
  | @keep d hc =>
    refine fun c conn hl => (hs c conn hl).imp_right (Or.imp_left fun ho => ?_)
    show 0 < Function.update s.refs d (s.refs d + 1) c
    by_cases hcd : c = d
    · subst hcd
      rw [Function.update_self]
      omega
    · rwa [Function.update_of_ne hcd]
  | skip | leave => exact hs

theorem Tight.of_reachable {C : TcpServer → Label → Prop}
    (hr : (system threadId).ReachableIf C s) : Tight s := by
  refine hr.invariant_of (J := fun s => Exact s ∧ Batched s) (I := Tight)
    (fun _ h => ⟨.of_reachable h, .of_reachable h⟩) ?_
    fun s lab s' hJ hs _ h => hs.step hJ.1 hJ.2 (.of_step h)
  rintro _ ⟨wc, rfl⟩ c conn hl
  cases hl

/-! ### The law -/

/-- **A connection lives as long as it is owned.**  In every reachable state the connections that
are there are those to which the server, a user, a closure or a function of the loop thread holds a
reference; the others that have been made have been destroyed, closed and with their callback; and a
step destroys exactly the connections whose last reference it lets go. -/
theorem lifetime_exact (hr : (system threadId).Reachable s) :
    (∀ c, (∃ conn, s.conns c = .live conn) ↔ s.Owned c) ∧
    (∀ c < s.created, ¬ s.Owned c →
      s.conns c = .destroyed ∧ s.announcements c = [.kConnected, .kDisconnected]) ∧
    ∀ lab s', (system threadId).step s lab = .next s' → ∀ c conn, s.conns c = .live conn →
      (s'.conns c = .destroyed ↔ s.LastGoes c lab) := by
  have hx : Exact s := .of_reachable hr
  have halive : Alive s := .of_reachable hr
  have htight : Tight s := .of_reachable hr
  refine ⟨fun c => ⟨?_, halive c⟩, fun c hc hno => ?_, fun lab s' hstep c conn hl => ?_⟩
  · rintro ⟨conn, hl⟩
    exact htight c conn hl
  · have hdes : s.conns c = .destroyed := by
      cases hconns : s.conns c with
      | free =>
        have hfree : s.view c = .free := Slot.map_eq_free.2 hconns
        exact absurd ((hx.fresh c).1 hfree) (by omega)
      | live conn => exact absurd (htight c conn hconns) hno
      | destroyed => rfl
    refine ⟨hdes, ?_⟩
    rw [hx.announced c, view, hdes]
    rfl
  · have h := Step.of_step hstep
    constructor
    · intro hdes
      obtain ⟨conn', hl'⟩ | ⟨hlast, -⟩ := h.live_cases hl
      · rw [hdes] at hl'
        cases hl'
      · exact hlast
    · intro hlast
      obtain ⟨conn', hl'⟩ | ⟨-, -, hdes⟩ := h.live_cases hl
      · exact absurd hl' (h.not_live_of_lastGoes hlast)
      · exact hdes

/-- A closed connection that only a user has a reference to. -/
theorem lifetime_exact_kept :
    ∃ s, (system 0).Reachable s ∧ (s.connections = ∅ ∧ s.refs 0 = 1 ∧ s.view 0 = .live false) ∧
      (∀ c, (∃ conn, s.conns c = .live conn) ↔ s.Owned c) ∧
      (∀ c < s.created, ¬ s.Owned c →
        s.conns c = .destroyed ∧ s.announcements c = [.kConnected, .kDisconnected]) ∧
      ∀ lab s', (system 0).step s lab = .next s' → ∀ c conn, s.conns c = .live conn →
        (s'.conns c = .destroyed ↔ s.LastGoes c lab) := by
  have hrun : ((system 0).exec (new false) [.poll [.acceptor], .accept (some (.accepted 5)),
      .keep 0, .ret, .swap, .endJobs, .poll [.channel 0 {.epollin}], .handle (.data []) (.wrote 0),
      .handle (.data []) (.wrote 0), .handle (.data []) (.wrote 0), .ret,
      .handle (.data []) (.wrote 0)]).Leads fun s =>
        s.connections = ∅ ∧ s.refs 0 = 1 ∧ s.view 0 = .live false := by
    decide +kernel
  obtain ⟨s, hs, h⟩ := hrun
  have hr : (system 0).Reachable s := System.reachable_of_exec ⟨false, rfl⟩ hs
  exact ⟨s, hr, h, lifetime_exact hr⟩

end Leven.TcpServer
