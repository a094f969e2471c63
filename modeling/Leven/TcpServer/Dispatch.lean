import Leven.TcpServer.Owners

/-!
# Connections that are being dispatched

`Channel::handleEvents` does not keep its channel alive: the `tie` is not used.  When a connection is
closed in its dispatch, `connections_` lets it go, and the temporary of `handleClose` is gone when the
callback returns: unless somebody else holds a reference, the channel is destroyed with
`handlingEvents_` set.

* `KeepsActive`: the last reference to a closed connection does not go while its channel is being
  dispatched or waits in `activeChnls_`;
* `ActiveLive`: these channels exist;
* `channel_outlives_dispatch`: the law, `channel_destroyed_in_dispatch`: a run without the condition.
-/

namespace Leven.TcpServer

open Transition Container

variable {threadId : Pid} {s s' : TcpServer} {lab : Label} {c d : ℕ} {conn : TcpConnection}

/-- When a callback with a closed connection returns, or a user drops a reference to one, while its
channel is being dispatched or waits in `activeChnls_`, a user still has a reference, a queued
closure holds one, or, at the drop, a callback with the connection is running. -/
def KeepsActive (s : TcpServer) : Label → Prop
  | .ret => ∀ c ∈ s.frame.bind Frame.conn, .channel c ∈ s.pc.active → c ∉ s.connections →
      0 < s.refs c ∨ Holds (s.pendingJobs ++ s.jobs ++ s.done) c
  | .drop c => .channel c ∈ s.pc.active → c ∉ s.connections →
      1 < s.refs c ∨ Holds (s.pendingJobs ++ s.jobs ++ s.done) c ∨ s.InFrame c
  | _ => True

instance : Decidable (KeepsActive s lab) :=
  match lab with
  | .ret => inferInstanceAs (Decidable (∀ c ∈ s.frame.bind Frame.conn,
      .channel c ∈ s.pc.active → c ∉ s.connections →
        0 < s.refs c ∨ Holds (s.pendingJobs ++ s.jobs ++ s.done) c))
  | .drop c => inferInstanceAs (Decidable (.channel c ∈ s.pc.active → c ∉ s.connections →
      1 < s.refs c ∨ Holds (s.pendingJobs ++ s.jobs ++ s.done) c ∨ s.InFrame c))
  | .poll _ | .accept _ | .handle .. | .other | .swap | .runJob _ | .endJobs | .call .. | .keep _
  | .leave | .destroyServer | .destroyLoop => inferInstanceAs (Decidable True)

/-! ### The channels in a dispatch -/

/-- The channels that are being dispatched or wait for it exist. -/
def ActiveLive (s : TcpServer) : Prop :=
  ∀ c, .channel c ∈ s.pc.active → ∃ conn, s.conns c = .live conn

theorem ServerPc.active_of_stage {pc : ServerPc} {st : Stage} {rest : List Active}
    (hp : pc.stage = some (c, st, rest)) : pc.active = .channel c :: rest := by
  unfold ServerPc.stage at hp
  split at hp
  · cases hp; rfl
  · cases hp; rfl
  · cases hp

theorem ServerPc.active_behind {st : Stage} {rest : List Active} :
    (ServerPc.behind c st rest).active ⊆ .channel c :: rest := by
  unfold ServerPc.behind
  split
  · exact List.Subset.refl _
  · exact List.subset_cons_self _ _

/-- Only `epoll_wait` makes channels active. -/
theorem Step.active_subset (h : Step threadId s lab s') (hl : ∀ ready, lab ≠ .poll ready) :
    s'.pc.active ⊆ s.pc.active := by
  cases h with
  | poll hp hn hr => exact absurd rfl (hl _)
  | accept hp hf ha hr h =>
    rw [hp]
    exact List.subset_cons_self _ _
  | skip hp hf =>
    rw [hp]
    exact List.subset_cons_self _ _
  | handle hp hf h =>
    rw [h.pc_eq, ServerPc.active_of_stage hp]
    exact ServerPc.active_behind
  | runJob hf hp hj h =>
    rw [h.pc_eq]
    exact List.Subset.refl _
  | call hc h =>
    rw [h.pc_eq]
    exact List.Subset.refl _
  | ret hf h =>
    rw [h.pc_eq]
    exact List.Subset.refl _
  | drop hc h =>
    rw [h.pc_eq]
    exact List.Subset.refl _
  | endJobs hf hp hj h | destroyServer hf hp h | destroyLoop hf hp h =>
    rw [h.pc_eq]
    exact List.nil_subset _
  | swap | leave => exact List.nil_subset _
  | other | keep => exact List.Subset.refl _

/-- The other steps that let references go are outside of a dispatch. -/
theorem pc_of_lastGoes (h : (system threadId).step s lab ≠ .blocked) (hl : s.LastGoes c lab) :
    s.pc.active = [] ∨ lab = .ret ∨ lab = .drop c := by
  change TcpServer.step threadId s lab ≠ .blocked at h
  cases lab with
  | ret => exact .inr (.inl rfl)
  | drop d => exact .inr (.inr (by rw [List.mem_singleton.1 hl.1]))
  | endJobs =>
    rw [(Outcome.of_guard_ne_blocked h).2.1]
    exact .inl rfl
  | destroyServer | destroyLoop =>
    rw [(Outcome.of_guard_ne_blocked h).2]
    exact .inl rfl
  | _ => exact absurd hl.1 List.not_mem_nil

/-- Under the condition the last reference to an active connection does not go. -/
theorem KeepsActive.notMem_active (hk : KeepsActive s lab) (hl : s.LastGoes c lab)
    (hp : s.pc.active = [] ∨ lab = .ret ∨ lab = .drop c) : .channel c ∉ s.pc.active := by
  intro hc
  rcases hp with hp | rfl | rfl
  · rw [hp] at hc
    cases hc
  · obtain ⟨hf, hn, hrefs, hh⟩ := lastGoes_ret.1 hl
    rcases hk c hf hc hn with hr | hr
    · omega
    · exact hh hr
  · obtain ⟨-, hn, hrefs, hh, hf⟩ := lastGoes_drop.1 hl
    rcases hk hc hn with hr | hr | hr
    · omega
    · exact hh hr
    · exact hf hr

theorem ActiveLive.step (hs : ActiveLive s) (hk : KeepsActive s lab)
    (hstep : (system threadId).step s lab = .next s') : ActiveLive s' := by
  have h := Step.of_step hstep
  by_cases hpoll : ∃ ready, lab = .poll ready
  · obtain ⟨ready, rfl⟩ := hpoll
    cases h with
    | poll hp hn hr =>
      intro c hc
      obtain ⟨r, hmem, hrc⟩ := List.mem_map.1 hc
      cases r with
      | acceptor => cases hrc
      | channel d m =>
        cases hrc
        have hrep := hr _ hmem
        simp only [CanReport] at hrep
        split at hrep
        · next conn hl => exact exists_live_setRevents ⟨conn, hl⟩
        · exact hrep.elim
  · push Not at hpoll
    intro c hc
    have hact := h.active_subset hpoll hc
    obtain ⟨conn, hl⟩ := hs c hact
    -- a connection is destroyed only by a step that lets its last reference go
    rcases h.live_cases hl with hlive | ⟨hlast, -, -⟩
    · exact hlive
    · have hne : (system threadId).step s lab ≠ .blocked := by rw [hstep]; simp
      exact absurd hact (hk.notMem_active hlast (pc_of_lastGoes hne hlast))

theorem ActiveLive.of_reachable (hr : (system threadId).ReachableIf KeepsActive s) :
    ActiveLive s := by
  refine hr.invariant (I := ActiveLive) ?_ fun s lab s' hs hk h => hs.step hk h
  rintro _ ⟨wc, rfl⟩ c hc
  cases hc

/-! ### The law -/

/-- A channel is not destroyed with its flag. -/
theorem Flagged.step_ne_failed (hs : Flagged s) (hk : KeepsActive s lab) :
    (system threadId).step s lab ≠ .failed (.assertion .channelDtor) := by
  intro h
  obtain ⟨c, conn, hlast, hl, hd⟩ := (Failure.of_step h).dtor_cases (.inr rfl)
  -- the assertion of `~Channel` fails with the flag set, which is inside a dispatch
  obtain ⟨-, he⟩ | ⟨-, hflag, -⟩ := destructor_eq_error.1 hd
  · cases he
  obtain ⟨st, rest, hp⟩ := hs c conn hl hflag
  have hne : (system threadId).step s lab ≠ .blocked := by rw [h]; simp
  refine hk.notMem_active hlast (pc_of_lastGoes hne hlast) ?_
  rw [hp]
  exact List.mem_cons_self

/-- A step without the condition that does not fail destroys an active connection. -/
theorem exists_destroyed_of_not_keepsActive (h : Step threadId s lab s')
    (hk : ¬ KeepsActive s lab) :
    ∃ c, .channel c ∈ s'.pc.active ∧ ∀ conn, s'.conns c ≠ .live conn := by
  have hgone : ∀ c, s'.pc = s.pc → .channel c ∈ s.pc.active → s.LastGoes c lab →
      ∃ c, .channel c ∈ s'.pc.active ∧ ∀ conn, s'.conns c ≠ .live conn :=
    fun c hp hact hlast => ⟨c, by rwa [hp], fun conn => h.not_live_of_lastGoes hlast⟩
  cases h with
  | ret hf h =>
    simp only [KeepsActive] at hk
    push Not at hk
    obtain ⟨c, hc, hact, hn, hrefs, hh⟩ := hk
    exact hgone c h.pc_eq hact (lastGoes_ret.2 ⟨hc, hn, by omega, hh⟩)
  | drop hc h =>
    simp only [KeepsActive] at hk
    push Not at hk
    obtain ⟨hact, hn, hrefs, hh, hfr⟩ := hk
    exact hgone _ h.pc_eq hact (lastGoes_drop.2 ⟨rfl, hn, hrefs, hh, hfr⟩)
  | _ => exact absurd trivial hk

/-- **A channel outlives its dispatch.**  In every run whose steps meet the condition, the channels
that are being dispatched or wait in `activeChnls_` exist, and no channel is destroyed while it
handles events.  A step keeps the channels in the dispatch exactly if it meets the condition. -/
theorem channel_outlives_dispatch (hr : (system threadId).ReachableIf KeepsActive s) :
    (∀ c, .channel c ∈ s.pc.active → ∃ conn, s.conns c = .live conn) ∧
    (∀ lab, KeepsActive s lab →
      (system threadId).step s lab ≠ .failed (.assertion .channelDtor)) ∧
    ∀ lab s', (system threadId).step s lab = .next s' →
      (KeepsActive s lab ↔ ∀ c, .channel c ∈ s'.pc.active → ∃ conn, s'.conns c = .live conn) := by
  have hflag : Flagged s := .of_reachable hr
  have hlive : ActiveLive s := .of_reachable hr
  refine ⟨hlive, fun lab => hflag.step_ne_failed, fun lab s' h => ⟨fun hk => ?_, fun hl => ?_⟩⟩
  · exact ActiveLive.of_reachable (hr.step hk h)
  · by_contra hk
    obtain ⟨c, hc, hn⟩ := exists_destroyed_of_not_keepsActive (Step.of_step h) hk
    obtain ⟨conn, hconn⟩ := hl c hc
    exact hn conn hconn

/-- A user has kept a reference to the connection that its peer closes. -/
theorem channel_outlives_dispatch_kept :
    ∃ s, (system 0).ReachableIf KeepsActive s ∧ s.pc = .handling 0 .write [] ∧ s.connections = ∅ ∧
      (∀ c, .channel c ∈ s.pc.active → ∃ conn, s.conns c = .live conn) ∧
      (∀ lab, KeepsActive s lab → (system 0).step s lab ≠ .failed (.assertion .channelDtor)) ∧
      ∀ lab s', (system 0).step s lab = .next s' →
        (KeepsActive s lab ↔ ∀ c, .channel c ∈ s'.pc.active → ∃ conn, s'.conns c = .live conn) := by
  obtain ⟨s, hr, hp, hc⟩ := System.exists_reachableIf (S := system 0) (C := KeepsActive)
    (s := new false) (P := fun s => s.pc = .handling 0 .write [] ∧ s.connections = ∅)
    (w := [.poll [.acceptor], .accept (some (.accepted 5)), .keep 0, .ret, .swap, .endJobs,
      .poll [.channel 0 {.epollin}], .handle (.data []) (.wrote 0), .handle (.data []) (.wrote 0),
      .handle (.data []) (.wrote 0), .ret]) ⟨false, rfl⟩ (by decide +kernel)
  exact ⟨s, hr, hp, hc, channel_outlives_dispatch hr⟩

/-- The peer closes a connection to which no user has kept a reference: when the callback of
`closeConnection` returns, the channel is destroyed in the middle of `handleEventsWithGuard`. -/
theorem channel_destroyed_in_dispatch :
    ∃ s, (system 0).Reachable s ∧ s.pc = .handling 0 .write [] ∧ s.frame = some (.down 0) ∧
      (system 0).step s .ret = .failed (.assertion .channelDtor) := by
  have hrun : ((system 0).exec (new false) [.poll [.acceptor], .accept (some (.accepted 5)), .ret,
      .swap, .endJobs, .poll [.channel 0 {.epollin}], .handle (.data []) (.wrote 0),
      .handle (.data []) (.wrote 0), .handle (.data []) (.wrote 0)]).Leads fun s =>
        s.pc = .handling 0 .write [] ∧ s.frame = some (.down 0) ∧
          (system 0).step s .ret = .failed (.assertion .channelDtor) := by
    decide +kernel
  obtain ⟨s, hs, h⟩ := hrun
  exact ⟨s, System.reachable_of_exec ⟨false, rfl⟩ hs, h⟩

end Leven.TcpServer
