import Leven.TcpServer.Owners

/-!
# The closures in the queue

A closure that a connection has put into `pendingJobs_` holds a `shared_ptr` to it, but for those of
`stopRead` and `startRead`, which hold the bare `this`.  When all owners of the connection go before
such a closure is run, it runs on a connection that is not there any more.

* `Bare`: a closure without reference waits;
* `KeepsTargets`: the last reference to a closed connection does not go while one waits;
* `TargetsLive`: as long as the loop runs, the connections of the queued closures exist;
* `closures_run_on_live`: the law, `closure_outlives_target`: a run without the condition.
-/

namespace Leven

/-- The loop has not been left. -/
def ServerPc.inLoop : ServerPc → Bool
  | .polling | .dispatching _ | .handling .. | .running => true
  | _ => false

namespace TcpServer

open Transition Container

variable {threadId : Pid} {s s' : TcpServer} {lab : Label} {c d : ℕ} {conn conn' : TcpConnection}
  {l : List Event} {f : TcpConnection → TcpConnection.Result} {state : ConnectionState} {j : Closure}

/-- The closures that the loop will run. -/
def queue (s : TcpServer) : List Closure := s.jobs ++ s.pendingJobs

/-- A closure without reference to its connection waits. -/
def Bare (s : TcpServer) (c : ℕ) : Prop := ∃ j ∈ s.queue, j.conn = c ∧ j.job.owns = false

instance : Decidable (s.Bare c) := inferInstanceAs (Decidable (∃ j ∈ s.queue, _))

/-- When a callback with a closed connection returns, a batch of closures is over or a user drops a
reference to a closed connection, while a closure of `stopRead` or `startRead` waits for the
connection, a user still has a reference, a queued closure holds one, or a callback with the
connection is running. -/
def KeepsTargets (s : TcpServer) : Label → Prop
  | .ret => ∀ c ∈ s.frame.bind Frame.conn, s.pc.inLoop = true → s.Bare c → c ∉ s.connections →
      0 < s.refs c ∨ Holds (s.pendingJobs ++ s.jobs ++ s.done) c
  | .endJobs => ∀ c ∈ s.done.map Closure.conn, s.Bare c → c ∉ s.connections →
      0 < s.refs c ∨ Holds (s.pendingJobs ++ s.jobs) c ∨ s.InFrame c
  | .drop c => s.pc.inLoop = true → s.Bare c → c ∉ s.connections →
      1 < s.refs c ∨ Holds (s.pendingJobs ++ s.jobs ++ s.done) c ∨ s.InFrame c
  | _ => True

instance : Decidable (KeepsTargets s lab) :=
  match lab with
  | .ret => inferInstanceAs (Decidable (∀ c ∈ s.frame.bind Frame.conn, s.pc.inLoop = true →
      s.Bare c → c ∉ s.connections →
        0 < s.refs c ∨ Holds (s.pendingJobs ++ s.jobs ++ s.done) c))
  | .endJobs => inferInstanceAs (Decidable (∀ c ∈ s.done.map Closure.conn, s.Bare c →
      c ∉ s.connections → 0 < s.refs c ∨ Holds (s.pendingJobs ++ s.jobs) c ∨ s.InFrame c))
  | .drop c => inferInstanceAs (Decidable (s.pc.inLoop = true → s.Bare c → c ∉ s.connections →
      1 < s.refs c ∨ Holds (s.pendingJobs ++ s.jobs ++ s.done) c ∨ s.InFrame c))
  | .poll _ | .accept _ | .handle .. | .other | .swap | .runJob _ | .call .. | .keep _
  | .leave | .destroyServer | .destroyLoop => inferInstanceAs (Decidable True)

/-! ### The queue -/

theorem Entered.queue_eq (h : Entered s c state l s') : s'.queue = s.queue := by
  cases h <;> rfl

theorem mem_queue_apply (hj : j ∈ (s.apply c conn l).queue) : j ∈ s.queue ∨ j.conn = c := by
  change j ∈ s.jobs ++ (s.pendingJobs ++ (queued l).map (Closure.mk c)) at hj
  rw [← List.append_assoc] at hj
  rcases List.mem_append.1 hj with hj | hj
  · exact .inl hj
  · obtain ⟨_, -, rfl⟩ := List.mem_map.1 hj
    exact .inr rfl

theorem Performed.mem_queue (h : Performed s c f s') (hj : j ∈ s'.queue) :
    j ∈ s.queue ∨ ∃ conn, s'.conns j.conn = .live conn := by
  cases h with
  | @intro conn conn' l _ hl hok he =>
    rw [he.queue_eq] at hj
    refine (mem_queue_apply hj).imp_right fun hc => ⟨conn', ?_⟩
    rw [he.conns_eq, hc]
    exact Function.update_self ..

theorem Released.queue_eq {cs : List ℕ} (h : Released s cs s') : s'.queue = s.queue := by
  cases h
  rfl

/-- A closure was in the queue, or the connection that queues it is there. -/
theorem Step.mem_queue (h : Step threadId s lab s') (hj : j ∈ s'.queue) :
    j ∈ s.queue ∨ ∃ conn, s'.conns j.conn = .live conn := by
  cases h with
  | @accept r rest fd new l hp hf ha hr h =>
    change j ∈ (s.inserted.apply s.created new l).queue at hj
    refine (mem_queue_apply hj).imp_right fun hc => ⟨new, ?_⟩
    rw [hc]
    exact Function.update_self ..
  | handle hp hf h => exact h.mem_queue hj
  | @runJob w i js _ hf hp hi h =>
    refine (h.mem_queue hj).imp_left fun hj => ?_
    show j ∈ s.jobs ++ s.pendingJobs
    rw [hi]
    exact List.mem_cons_of_mem _ hj
  | call hc h => exact h.mem_queue hj
  | ret hf h | drop hc h | endJobs hf hp hi h | destroyServer hf hp h =>
    rw [h.queue_eq] at hj
    exact .inl hj
  | destroyLoop hf hp h =>
    rw [h.queue_eq] at hj
    left
    rcases List.mem_append.1 hj with hj | hj
    · exact List.mem_append_left _ hj
    · cases hj
  | swap hf hp =>
    left
    rw [queue, List.append_nil] at hj
    exact List.mem_append_right _ hj
  | poll | skip | other | keep | leave => exact .inl hj

/-- The loop is not entered again. -/
theorem Step.inLoop (h : Step threadId s lab s') (hp' : s'.pc.inLoop = true) :
    s.pc.inLoop = true := by
  cases h with
  | poll hp hn hr => rw [hp]; rfl
  | accept hp hf ha hr h => rw [hp]; rfl
  | skip hp hf => rw [hp]; rfl
  | @handle r w c st rest _ hp hf h =>
    unfold ServerPc.stage at hp
    split at hp
    · next heq => rw [heq]; rfl
    · next heq => rw [heq]; rfl
    · cases hp
  | runJob hf hp hi h => rw [hp]; rfl
  | endJobs hf hp hi h => rw [hp]; rfl
  | swap hf hp => rw [hp]; rfl
  | leave hf hp => rw [hp]; rfl
  | call hc h => exact h.pc_eq ▸ hp'
  | ret hf h | drop hc h => exact h.pc_eq ▸ hp'
  | destroyServer hf hp h | destroyLoop hf hp h =>
    rw [h.pc_eq] at hp'
    cases hp'
  | other | keep => exact hp'

/-! ### The invariant -/

/-- As long as the loop runs, the connections of the queued closures exist. -/
def TargetsLive (s : TcpServer) : Prop :=
  s.pc.inLoop = true → ∀ j ∈ s.queue, ∃ conn, s.conns j.conn = .live conn

/-- Under the condition the last reference to the target of a bare closure does not go. -/
theorem KeepsTargets.not_bare (hk : KeepsTargets s lab) (h : Step threadId s lab s')
    (hp' : s'.pc.inLoop = true) (hl : s.LastGoes c lab) : ¬ s.Bare c := by
  intro hb
  have hp := h.inLoop hp'
  cases h with
  | ret hf h =>
    obtain ⟨hc, hn, hrefs, hh⟩ := lastGoes_ret.1 hl
    rcases hk c hc hp hb hn with hr | hr
    · omega
    · exact hh hr
  | endJobs hf hpc hi h =>
    obtain ⟨hc, hn, hrefs, hh, hfr⟩ := lastGoes_endJobs.1 hl
    rcases hk c hc hb hn with hr | hr | hr
    · omega
    · exact hh hr
    · exact hfr hr
  | drop hc h =>
    obtain ⟨rfl, hn, hrefs, hh, hfr⟩ := lastGoes_drop.1 hl
    rcases hk hp hb hn with hr | hr | hr
    · omega
    · exact hh hr
    · exact hfr hr
  | destroyServer hf hpc h | destroyLoop hf hpc h =>
    rw [h.pc_eq] at hp'
    cases hp'
  | _ => exact absurd hl.1 List.not_mem_nil

/-- A closure with a reference is an owner. -/
theorem owned_of_mem_queue (hj : j ∈ s.queue) (ho : j.job.owns = true) : s.Owned j.conn := by
  refine .inr (.inr (.inl ⟨j, ?_, rfl, ho⟩))
  rcases List.mem_append.1 hj with hj | hj
  · exact List.mem_append_left _ (List.mem_append_right _ hj)
  · exact List.mem_append_left _ (List.mem_append_left _ hj)

theorem TargetsLive.step (hs : TargetsLive s) (ha : Alive s) (hk : KeepsTargets s lab)
    (h : Step threadId s lab s') : TargetsLive s' := by
  intro hp' j hj
  cases ho : j.job.owns with
  | true => exact ha.step h j.conn (owned_of_mem_queue hj ho)
  | false =>
    rcases h.mem_queue hj with hold | hlive
    · obtain ⟨conn, hl⟩ := hs (h.inLoop hp') j hold
      rcases h.live_cases hl with hlive | ⟨hlast, -, -⟩
      · exact hlive
      · exact absurd ⟨j, hold, rfl, ho⟩ (hk.not_bare h hp' hlast)
    · exact hlive

theorem TargetsLive.of_reachable (hr : (system threadId).ReachableIf KeepsTargets s) :
    TargetsLive s := by
  refine hr.invariant_of (J := Alive) (I := TargetsLive) (fun _ h => .of_reachable h) ?_
    fun s lab s' ha hs hk h => hs.step ha hk (.of_step h)
  rintro _ ⟨wc, rfl⟩ - j hj
  cases hj

/-! ### The law -/

/-- A step of the loop without the condition leaves a queued closure without target. -/
theorem exists_bare_of_not_keepsTargets (h : Step threadId s lab s') (hk : ¬ KeepsTargets s lab) :
    ∃ j ∈ s'.queue, ∀ conn, s'.conns j.conn ≠ .live conn := by
  have hgone : ∀ c, s'.queue = s.queue → s.Bare c → s.LastGoes c lab →
      ∃ j ∈ s'.queue, ∀ conn, s'.conns j.conn ≠ .live conn := by
    rintro c hq ⟨j, hj, rfl, -⟩ hlast
    exact ⟨j, hq ▸ hj, fun conn => h.not_live_of_lastGoes hlast⟩
  cases h with
  | ret hf h =>
    simp only [KeepsTargets] at hk
    push Not at hk
    obtain ⟨c, hc, -, hb, hn, hrefs, hh⟩ := hk
    exact hgone c h.queue_eq hb (lastGoes_ret.2 ⟨hc, hn, by omega, hh⟩)
  | endJobs hf hp hi h =>
    simp only [KeepsTargets] at hk
    push Not at hk
    obtain ⟨c, hc, hb, hn, hrefs, hh, hfr⟩ := hk
    exact hgone c h.queue_eq hb (lastGoes_endJobs.2 ⟨hc, hn, by omega, hh, hfr⟩)
  | drop hc h =>
    simp only [KeepsTargets] at hk
    push Not at hk
    obtain ⟨-, hb, hn, hrefs, hh, hfr⟩ := hk
    exact hgone _ h.queue_eq hb (lastGoes_drop.2 ⟨rfl, hn, hrefs, hh, hfr⟩)
  | _ => exact absurd trivial hk

theorem TargetsLive.not_failure {w : WriteResult} (hs : TargetsLive s) :
    ¬ Failure threadId s .destroyed (.runJob w) := by
  intro h
  cases h with
  | @runJob _ j js hf hp hj h =>
    obtain ⟨conn, hl⟩ := hs (by rw [hp]; rfl) j
      (List.mem_append_left _ (hj ▸ List.mem_cons_self))
    rcases perform_failed h with ⟨hn, -⟩ | ⟨_, _, -, -, he⟩ | ⟨_, _, _, -, -, -, -, he⟩
    · exact hn conn hl
    · cases he
    · cases he

/-- **A closure is run while its connection exists.**  In every run whose steps meet the condition,
as long as the loop runs, the connections of the queued closures exist, and no closure is run for a
connection that has been destroyed.  A step of the loop leaves the queued closures their connections
exactly if it meets the condition. -/
theorem closures_run_on_live (hr : (system threadId).ReachableIf KeepsTargets s) :
    (s.pc.inLoop = true → ∀ j ∈ s.queue, ∃ conn, s.conns j.conn = .live conn) ∧
    (∀ w, (system threadId).step s (.runJob w) ≠ .failed .destroyed) ∧
    ∀ lab s', (system threadId).step s lab = .next s' → s'.pc.inLoop = true →
      (KeepsTargets s lab ↔ ∀ j ∈ s'.queue, ∃ conn, s'.conns j.conn = .live conn) := by
  have hs : TargetsLive s := .of_reachable hr
  refine ⟨hs, fun w h => hs.not_failure (.of_step h),
    fun lab s' h hp' => ⟨fun hk => ?_, fun hl => ?_⟩⟩
  · exact TargetsLive.of_reachable (hr.step hk h) hp'
  · by_contra hk
    obtain ⟨j, hj, hn⟩ := exists_bare_of_not_keepsTargets (Step.of_step h) hk
    obtain ⟨conn, hconn⟩ := hl j hj
    exact hn conn hconn

/-- A user of thread 2 calls `stopRead` for a closed connection and keeps its reference. -/
theorem closures_run_on_live_kept :
    ∃ s, (system 0).ReachableIf KeepsTargets s ∧ s.pc = .running ∧ s.connections = ∅ ∧
      s.queue = [⟨0, .stopRead⟩] ∧
      (∀ j ∈ s.queue, ∃ conn, s.conns j.conn = .live conn) ∧
      (∀ w, (system 0).step s (.runJob w) ≠ .failed .destroyed) ∧
      ∀ lab s', (system 0).step s lab = .next s' → s'.pc.inLoop = true →
        (KeepsTargets s lab ↔ ∀ j ∈ s'.queue, ∃ conn, s'.conns j.conn = .live conn) := by
  obtain ⟨s, hr, hp, hc, hq⟩ := System.exists_reachableIf (S := system 0) (C := KeepsTargets)
    (s := new false)
    (P := fun s => s.pc = .running ∧ s.connections = ∅ ∧ s.queue = [⟨0, .stopRead⟩])
    (w := [.poll [.acceptor], .accept (some (.accepted 5)), .keep 0, .ret, .swap, .endJobs,
      .poll [.channel 0 {.epollin}], .handle (.data []) (.wrote 0), .handle (.data []) (.wrote 0),
      .handle (.data []) (.wrote 0), .ret, .handle (.data []) (.wrote 0), .call 2 0 .stopRead,
      .swap]) ⟨false, rfl⟩ (by decide +kernel)
  obtain ⟨hlive, hrun, hiff⟩ := closures_run_on_live hr
  exact ⟨s, hr, hp, hc, hq, hlive (by rw [hp]; rfl), hrun, hiff⟩

/-- Thread 2 calls `stopRead` and drops its reference, the last one to a closed connection: the
closure is run after the connection has been destroyed. -/
theorem closure_outlives_target :
    ∃ s, (system 0).Reachable s ∧ s.jobs = [⟨0, .stopRead⟩] ∧ s.conns 0 = .destroyed ∧
      (system 0).step s (.runJob (.wrote 0)) = .failed .destroyed := by
  have hrun : ((system 0).exec (new false) [.poll [.acceptor], .accept (some (.accepted 5)),
      .keep 0, .ret, .swap, .endJobs, .poll [.channel 0 {.epollin}],
      .handle (.data []) (.wrote 0), .handle (.data []) (.wrote 0), .handle (.data []) (.wrote 0),
      .ret, .handle (.data []) (.wrote 0), .call 2 0 .stopRead, .drop 0, .swap]).Leads fun s =>
        s.jobs = [⟨0, .stopRead⟩] ∧ s.view 0 = .destroyed ∧
          (system 0).step s (.runJob (.wrote 0)) = .failed .destroyed := by
    decide +kernel
  obtain ⟨s, hs, hj, hv, hstep⟩ := hrun
  exact ⟨s, System.reachable_of_exec ⟨false, rfl⟩ hs, hj, Slot.map_eq_destroyed.1 hv, hstep⟩

end TcpServer
end Leven
