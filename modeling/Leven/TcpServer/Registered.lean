import Leven.TcpConnection.Run
import Leven.TcpServer.Deferred
import Leven.TcpServer.Dispatch

/-!
# The descriptors of a server

The connections of a server share the interest list of their loop.  Nothing there is left behind by
a connection that has gone, since `~TcpConnection` closes the descriptor; so the descriptor that
`accept4` answers next is not registered, whatever connection has had it before.

* `fdOf`: the descriptors;
* `Registered`: no two connections share a descriptor, and what is registered is one of them;
* `Orderly`: the channels of `activeChnls_` are different connections that have been made.
-/

namespace Leven.TcpServer

open Transition Container

variable {threadId : Pid} {s s' : TcpServer} {lab : Label} {c d : ℕ} {cs : List ℕ} {fd : Fd}
  {conn conn' : TcpConnection} {l : List Event} {f : TcpConnection → TcpConnection.Result}
  {state : ConnectionState} {k k' : Interest} {h h' : RefHeap ℕ TcpConnection}

/-! ### The interest list -/

/-- What becomes of an entry depends on the entry alone. -/
theorem interestAfter_congr (hk : k fd = k' fd) : interestAfter k l fd = interestAfter k' l fd := by
  induction l generalizing k k' with
  | nil => exact hk
  | cons e l ih =>
    rw [interestAfter_cons, interestAfter_cons]
    apply ih
    cases e with
    | epollCtl ctl =>
      by_cases hfd : fd = ctl.fd
      · subst hfd
        obtain ⟨op, f, m⟩ := ctl
        dsimp only at hk
        cases op <;> cases hc : k' f <;> simp [EpollCtl.apply, hk, hc]
      · dsimp only
        rw [EpollCtl.apply_other k ctl hfd, EpollCtl.apply_other k' ctl hfd, hk]
    | _ => exact hk

/-- What is left of the interest list when connections have been destroyed. -/
theorem closeAll_eq_some {m : Mask} :
    closeAll h h' cs k fd = some m ↔ k fd = some m ∧
      ∀ c ∈ cs, ∀ conn, h c = .live conn → h' c = .destroyed → conn.channel.fd ≠ fd := by
  induction cs generalizing k with
  | nil => simp [closeAll]
  | cons c cs ih =>
    by_cases hgone : ∃ conn, h c = .live conn ∧ h' c = .destroyed
    · obtain ⟨conn, hl, hd⟩ := hgone
      have hstep : closeAll h h' (c :: cs) k =
          closeAll h h' cs (Function.update k conn.channel.fd none) := by
        simp only [closeAll, hl, hd]
      rw [hstep, ih, Function.update_apply]
      simp only [List.forall_mem_cons, hl, hd, Slot.live.injEq, forall_eq', true_implies]
      by_cases hfd : fd = conn.channel.fd
      · simp [hfd]
      · simp [hfd, Ne.symm hfd]
    · have hstep : closeAll h h' (c :: cs) k = closeAll h h' cs k := by
        rw [closeAll]
        split
        · next conn hl hd => exact absurd ⟨conn, hl, hd⟩ hgone
        · rfl
      rw [hstep, ih, List.forall_mem_cons]
      refine and_congr_right fun _ => ?_
      constructor
      · exact fun hcs => ⟨fun conn hl hd => absurd ⟨conn, hl, hd⟩ hgone, hcs⟩
      · exact fun hcs => hcs.2

theorem release_eq (hr : s.release cs = .next s') :
    ∃ conns, RefHeap.Collected s.Owned destructor cs s.conns conns ∧
      s' = { s with conns := conns, interest := closeAll s.conns conns cs s.interest } := by
  simp only [release, Outcome.bind_eq_next, Outcome.ofExcept_eq_next, Outcome.next.injEq] at hr
  obtain ⟨conns, hc, rfl⟩ := hr
  exact ⟨conns, RefHeap.collected_of_releaseAll hc, rfl⟩

/-- The steps that let references go. -/
def Label.Releases : Label → Prop
  | .ret | .endJobs | .drop _ | .destroyServer | .destroyLoop => True
  | _ => False

theorem release_of_step (hl : lab.Releases) (hs : (system threadId).step s lab = .next s') :
    (s.letGo lab).1.release (s.letGo lab).2 = .next s' := by
  change TcpServer.step threadId s lab = .next s' at hs
  cases lab with
  | ret =>
    simp only [TcpServer.step] at hs
    split at hs
    · next fr hf =>
      rw [letGo_ret hf]
      exact hs
    · cases hs
  | endJobs | drop c | destroyServer | destroyLoop => exact (Outcome.guard_eq_next.1 hs).2
  | _ => exact hl.elim

/-- A callback changes neither the connections nor the interest list nor the queue. -/
theorem Entered.same (he : Entered s c state l s') :
    s'.conns = s.conns ∧ s'.interest = s.interest ∧ s'.pendingJobs = s.pendingJobs ∧
      s'.jobs = s.jobs ∧ s'.pc = s.pc ∧ s'.calls = s.calls ∧ s'.created = s.created := by
  cases he <;> exact ⟨rfl, rfl, rfl, rfl, rfl, rfl, rfl⟩

theorem Entered.frame_eq (he : Entered s c state l s') (hl : ∀ e ∈ l, e.isCallback = false) :
    s'.frame = s.frame := by
  cases he with
  | close hc => exact absurd (hl _ hc) (by simp)
  | frame _ _ hc =>
    obtain ⟨e, hmem, hcall⟩ := hc
    rw [hl e hmem] at hcall
    cases hcall
  | none => rfl

/-! ### Descriptors -/

/-- The descriptor of a connection. -/
def fdOf (s : TcpServer) (c : ℕ) : Slot Fd := (s.conns c).map fun conn => conn.channel.fd

theorem fdOf_eq (hl : s.conns c = .live conn) : s.fdOf c = .live conn.channel.fd := by
  rw [fdOf, hl]
  rfl

/-- A connection that is there has been made. -/
theorem Exact.lt_created (hx : Exact s) (hl : s.conns c = .live conn) : c < s.created := by
  by_contra hge
  have hfree := (hx.fresh c).2 (not_lt.1 hge)
  rw [view_eq hl] at hfree
  cases hfree

theorem fdOf_eq_live : s.fdOf c = .live fd ↔ ∃ conn, s.conns c = .live conn ∧ conn.channel.fd = fd :=
  Slot.map_eq_live

/-- No two connections share a descriptor, and what is registered is the descriptor of one. -/
structure Registered (s : TcpServer) : Prop where
  distinct : ∀ c d fd, s.fdOf c = .live fd → s.fdOf d = .live fd → 0 ≤ fd → c = d
  owned : ∀ fd, s.interest fd ≠ none → 0 ≤ fd ∧ ∃ c, s.fdOf c = .live fd

theorem Registered.of_eq (hs : Registered s) (hfd : s'.fdOf = s.fdOf)
    (hk : s'.interest = s.interest) : Registered s' where
  distinct := by
    rw [hfd]
    exact hs.distinct
  owned := by
    rw [hfd, hk]
    exact hs.owned

/-- The entry of another connection stays. -/
theorem Registered.ne_of_ne (hs : Registered s) (hc : s.conns c = .live conn)
    (hd : s.conns d = .live conn') (hcd : c ≠ d) (hfd : 0 ≤ conn.channel.fd) :
    conn.channel.fd ≠ conn'.channel.fd := by
  intro he
  refine hcd (hs.distinct c d conn.channel.fd (fdOf_eq hc) ?_ hfd)
  rw [fdOf_eq hd, he]

theorem Performed.fdOf_eq (hp : Performed s c f s')
    (hf : ∀ conn conn' l, f conn = .ok (conn', l) → Effect conn conn' l) : s'.fdOf = s.fdOf := by
  obtain ⟨conn, conn', l, hl, hok, hconns⟩ := hp.conns_cases
  funext d
  simp only [fdOf, hconns]
  by_cases hd : d = c
  · subst hd
    rw [Function.update_self, hl]
    exact congrArg Slot.live (hf _ _ _ hok).fd
  · rw [Function.update_of_ne hd]

/-- A call on descriptor `fd` leaves the entries of the others alone. -/
theorem ctlAll_other {fd' : Fd} (ho : ∀ k, interestAfter k l fd' = k fd') :
    ctlAll fd l k fd' = k fd' := by
  unfold ctlAll
  split_ifs
  · rfl
  · exact ho k

theorem ctlAll_add_other {fd' : Fd} {m : Mask} (hne : fd' ≠ fd) :
    ctlAll fd [.epollCtl ⟨.add, fd, m⟩] k fd' = k fd' :=
  ctlAll_other fun k => EpollCtl.apply_other k _ hne

theorem Registered.performed (hs : Registered s)
    (hf : ∀ conn conn' l, f conn = .ok (conn', l) → Effect conn conn' l)
    (hp : Performed s c f s') : Registered s' := by
  have hfd := hp.fdOf_eq hf
  cases hp with
  | @intro conn conn' l _ hl hok he =>
    have e := hf _ _ _ hok
    have hk : s'.interest = ctlAll conn'.channel.fd l s.interest := he.same.2.1
    refine ⟨by rw [hfd]; exact hs.distinct, fun fd hne => ?_⟩
    rw [hfd]
    by_cases hsame : fd = conn.channel.fd
    · subst hsame
      refine ⟨?_, c, TcpServer.fdOf_eq hl⟩
      by_contra hneg
      rw [hk, e.fd, ctlAll, if_pos (not_le.1 hneg)] at hne
      exact hneg (hs.owned _ hne).1
    · rw [hk, ctlAll_other fun k => e.other k fd hsame] at hne
      exact hs.owned fd hne

theorem Registered.released (hs : Registered s) (hr : s.release cs = .next s') :
    Registered s' := by
  obtain ⟨conns, hcol, rfl⟩ := release_eq hr
  have hlive : ∀ c fd, fdOf { s with
      conns := conns, interest := closeAll s.conns conns cs s.interest } c = .live fd →
      s.fdOf c = .live fd := by
    intro c fd hc
    obtain ⟨conn, hl, rfl⟩ := fdOf_eq_live.1 hc
    exact TcpServer.fdOf_eq (hcol.live hl)
  refine ⟨fun c d fd hc hd => hs.distinct c d fd (hlive c fd hc) (hlive d fd hd), ?_⟩
  intro fd hne
  obtain ⟨m, hm⟩ := Option.ne_none_iff_exists'.1 hne
  obtain ⟨hk, hcs⟩ := closeAll_eq_some.1 hm
  obtain ⟨hpos, c, hc⟩ := hs.owned fd (by simp [hk])
  obtain ⟨conn, hl, rfl⟩ := fdOf_eq_live.1 hc
  refine ⟨hpos, c, fdOf_eq_live.2 ?_⟩
  obtain he | ⟨-, hmem, -, hdes⟩ := hcol.kept c
  · exact ⟨conn, he.trans hl, rfl⟩
  · exact absurd rfl (hcs c hmem conn hl hdes)

/-- The connection behind `connectEstablished`, and its call of `epoll_ctl`. -/
theorem connectEstablished_new (fd : Fd) (writeComplete highWater : Bool) (mark : ℕ) :
    (TcpConnection.new fd writeComplete highWater mark).connectEstablished =
      .ok ((Connection.Run.start k fd writeComplete highWater mark).conn,
        [.epollCtl ⟨.add, fd, Connection.startEvents⟩]) := rfl

theorem Registered.accepted (hs : Registered s) (hx : Exact s)
    (hfd : 0 ≤ fd → ∀ c < s.created, s.hasFd fd c = false)
    (hc : (TcpConnection.new fd s.writeCompleteCallback false 0).connectEstablished =
      .ok (conn, l)) : Registered (s.announced conn l) := by
  rw [connectEstablished_new (k := s.interest)] at hc
  obtain ⟨rfl, rfl⟩ := Prod.mk.inj (Except.ok.inj hc)
  generalize hs' : s.announced _ _ = s'
  have hfds : s'.fdOf = Function.update s.fdOf s.created (.live fd) := by
    funext c
    subst hs'
    show (Function.update s.conns s.created _ c).map _ = _
    by_cases hcn : c = s.created
    · rw [hcn, Function.update_self, Function.update_self]
      rfl
    · rw [Function.update_of_ne hcn, Function.update_of_ne hcn]
      rfl
  have hnew : ∀ c, 0 ≤ fd → s.fdOf c = .live fd → False := by
    intro c hpos hc
    obtain ⟨conn, hl, hcfd⟩ := fdOf_eq_live.1 hc
    have hno := hfd hpos c (hx.lt_created hl)
    simp [hasFd, hl, hcfd] at hno
  constructor
  · intro c d fd' hc hd hpos
    rw [hfds, Function.update_apply] at hc hd
    split_ifs at hc hd with hcn hdn hdn
    · rw [hcn, hdn]
    · cases hc
      exact (hnew d hpos hd).elim
    · cases hd
      exact (hnew c hpos hc).elim
    · exact hs.distinct c d fd' hc hd hpos
  · intro fd' hne
    rw [hfds]
    by_cases hsame : fd' = fd
    · subst hsame
      refine ⟨?_, s.created, Function.update_self ..⟩
      by_contra hneg
      have hk : s'.interest fd' = s.interest fd' := by
        subst hs'
        exact congrFun (if_pos (not_le.1 hneg)) fd'
      rw [hk] at hne
      exact hneg (hs.owned _ hne).1
    · have hk : s'.interest fd' = s.interest fd' := by
        subst hs'
        exact ctlAll_add_other hsame
      rw [hk] at hne
      obtain ⟨hpos, c, hc⟩ := hs.owned fd' hne
      refine ⟨hpos, c, ?_⟩
      rw [Function.update_of_ne ?_]
      · exact hc
      · rintro rfl
        obtain ⟨conn, hl, -⟩ := fdOf_eq_live.1 hc
        exact lt_irrefl _ (hx.lt_created hl)

theorem Registered.step (hs : Registered s) (hx : Exact s)
    (hstep : (system threadId).step s lab = .next s') : Registered s' := by
  have hrel : lab.Releases → Registered (s.letGo lab).1 → Registered s' := fun hl hr =>
    hr.released (release_of_step hl hstep)
  cases Step.of_step hstep with
  | poll hp hn hr =>
    refine hs.of_eq ?_ rfl
    funext c
    exact map_setRevents fun _ _ => rfl
  | @accept r rest fd conn l hp hf ha hr h =>
    have hrest : Registered { s with pc := .dispatching rest } := hs.of_eq rfl rfl
    have hxrest : Exact { s with pc := .dispatching rest } :=
      hx.of_eq (fun _ => rfl) rfl rfl fun _ => ⟨by rw [hp]; rfl, rfl⟩
    refine hrest.accepted hxrest ?_ h
    intro hpos c hc
    rcases hr with rfl | ⟨rfl, -⟩
    · exact ha.2 c hc
    · cases hpos
  | @handle r w c st rest _ hp hf h =>
    have hbehind : Registered { s with pc := .behind c st rest } := hs.of_eq rfl rfl
    exact hbehind.performed (fun _ _ _ h => TcpConnection.handleStage_effect h) h
  | @runJob w j js _ hf hp hj h =>
    have htaken : Registered { s with jobs := js, done := s.done ++ [j] } := hs.of_eq rfl rfl
    exact htaken.performed (fun _ _ _ h => (TcpConnection.runJob_growth h).toEffect) h
  | call hc h =>
    have hcalled : Registered { s with calls := s.calls + 1 } := hs.of_eq rfl rfl
    exact hcalled.performed (fun _ _ _ h => (TcpConnection.call_growth h).toEffect) h
  | ret hf h | endJobs hf hp hj h | drop hc h | destroyServer hf hp h | destroyLoop hf hp h =>
    exact hrel trivial (hs.of_eq rfl rfl)
  | skip | other | swap | keep | leave => exact hs.of_eq rfl rfl

theorem Registered.of_reachable {C : TcpServer → Label → Prop}
    (hr : (system threadId).ReachableIf C s) : Registered s := by
  refine hr.invariant_of (J := Exact) (I := Registered) (fun _ h => .of_reachable h) ?_
    fun s lab s' hx hs _ h => hs.step hx h
  rintro _ ⟨wc, rfl⟩
  constructor
  · intro c d fd hc
    cases hc
  · exact fun fd hne => absurd rfl hne

/-! ### The dispatched channels -/

/-- The active channels are different connections that have been made, closures are those of such
connections, and no callback runs while the loop waits. -/
structure Orderly (s : TcpServer) : Prop where
  nodup : s.pc.active.Nodup
  active : ∀ c, .channel c ∈ s.pc.active → c < s.created
  queue : ∀ j ∈ s.queue, j.conn < s.created
  idle : s.pc = .polling → s.frame = none

theorem ServerPc.active_behind_sublist {st : Stage} {rest : List Active} :
    (ServerPc.behind c st rest).active.Sublist (.channel c :: rest) := by
  unfold ServerPc.behind
  split
  · exact .refl _
  · exact List.sublist_cons_self _ _

theorem ServerPc.behind_ne_polling {st : Stage} {rest : List Active} :
    ServerPc.behind c st rest ≠ .polling := by
  unfold ServerPc.behind
  split <;> simp

theorem Performed.created_eq (hp : Performed s c f s') : s'.created = s.created := by
  obtain ⟨-, -, he⟩ := hp
  exact he.same.2.2.2.2.2.2

theorem Step.created_le (h : Step threadId s lab s') : s.created ≤ s'.created := by
  cases h with
  | accept => exact Nat.le_succ _
  | handle hp hf h => exact h.created_eq.ge
  | runJob hf hp hj h => exact h.created_eq.ge
  | call hc h => exact h.created_eq.ge
  | ret hf h | endJobs hf hp hj h | drop hc h | destroyServer hf hp h | destroyLoop hf hp h =>
    obtain ⟨-⟩ := h
    exact le_rfl
  | _ => exact le_rfl

theorem Step.active_sublist (h : Step threadId s lab s') (hl : ∀ ready, lab ≠ .poll ready) :
    s'.pc.active.Sublist s.pc.active := by
  cases h with
  | poll hp hn hr => exact absurd rfl (hl _)
  | accept hp hf ha hr h =>
    rw [hp]
    exact List.sublist_cons_self _ _
  | skip hp hf =>
    rw [hp]
    exact List.sublist_cons_self _ _
  | handle hp hf h =>
    rw [h.pc_eq, ServerPc.active_of_stage hp]
    exact ServerPc.active_behind_sublist
  | runJob hf hp hj h =>
    rw [h.pc_eq]
  | call hc h =>
    rw [h.pc_eq]
  | ret hf h =>
    rw [h.pc_eq]
  | drop hc h =>
    rw [h.pc_eq]
  | endJobs hf hp hj h | destroyServer hf hp h | destroyLoop hf hp h =>
    rw [h.pc_eq]
    exact List.nil_sublist _
  | swap | leave => exact List.nil_sublist _
  | other | keep => exact .refl _

/-- The loop waits again, or goes on waiting, without a callback. -/
theorem Step.frame_eq_none (h : Step threadId s lab s') (hs : s.pc = .polling → s.frame = none)
    (hp' : s'.pc = .polling) : s'.frame = none := by
  cases h with
  | handle hp hf h =>
    rw [h.pc_eq] at hp'
    exact absurd hp' ServerPc.behind_ne_polling
  | runJob hf hp hj h =>
    rw [h.pc_eq] at hp'
    exact absurd (hp.symm.trans hp') (by simp)
  | call hc h =>
    rw [h.pc_eq] at hp'
    cases h with
    | intro hl hok he =>
      rw [he.frame_eq (TcpConnection.call_isCallback hok)]
      exact hs hp'
  | ret hf h =>
    obtain ⟨-⟩ := h
    rfl
  | drop hc h =>
    obtain ⟨-⟩ := h
    exact hs hp'
  | endJobs hf hp hj h =>
    obtain ⟨-⟩ := h
    exact hf
  | destroyServer hf hp h | destroyLoop hf hp h =>
    rw [h.pc_eq] at hp'
    cases hp'
  | other hf hp =>
    change s.pc = .polling at hp'
    simp [hp', ServerPc.runsOthers] at hp
  | keep => exact hs hp'
  | poll | accept | skip | swap | leave => cases hp'

theorem Orderly.step (hs : Orderly s) (hx : Exact s) (h : Step threadId s lab s') :
    Orderly s' := by
  have hcreated := h.created_le
  have hactive : s'.pc.active.Nodup ∧ ∀ c, .channel c ∈ s'.pc.active → c < s'.created := by
    by_cases hpoll : ∃ ready, lab = .poll ready
    · obtain ⟨ready, rfl⟩ := hpoll
      cases h with
      | poll hp hn hr =>
        refine ⟨hn, fun c hc => ?_⟩
        obtain ⟨x, hmem, hxc⟩ := List.mem_map.1 hc
        cases x with
        | acceptor => cases hxc
        | channel d m =>
          cases hxc
          have hcan := hr _ hmem
          simp only [CanReport] at hcan
          split at hcan
          · next conn hl => exact hx.lt_created hl
          · exact hcan.elim
    · push Not at hpoll
      have hsub := h.active_sublist hpoll
      exact ⟨hs.nodup.sublist hsub, fun c hc => (hs.active c (hsub.subset hc)).trans_le hcreated⟩
  refine ⟨hactive.1, hactive.2, fun j hj => ?_, h.frame_eq_none hs.idle⟩
  rcases h.mem_queue hj with hj | ⟨conn, hl⟩
  · exact (hs.queue j hj).trans_le hcreated
  · exact (hx.step h).lt_created hl

theorem Orderly.of_reachable {C : TcpServer → Label → Prop}
    (hr : (system threadId).ReachableIf C s) : Orderly s := by
  refine hr.invariant_of (J := Exact) (I := Orderly) (fun _ h => .of_reachable h) ?_
    fun s lab s' hx hs _ h => hs.step hx (.of_step h)
  rintro _ ⟨wc, rfl⟩
  exact ⟨List.nodup_nil, by simp [new, ServerPc.active], fun _ hj => (by cases hj), fun _ => rfl⟩

end Leven.TcpServer
