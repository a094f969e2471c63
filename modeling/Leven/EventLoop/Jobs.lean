import Leven.EventLoop.Basic

/-!
# The order of the queued jobs

`queueInLoop` appends to `pendingJobs_`, the swap makes the pending jobs the batch, and the batch is
run from its front; jobs queued meanwhile wait for the next swap.

* `Fifo`: the invariant of the lists;
* `Step.batch`: until the next swap the jobs run and the rest of the batch stay the same sequence;
* `Step.ran_bodies`, `ran_bodies`: the jobs run are those whose bodies `doPendingJobs` executes;
* `jobs_fifo`: the law over all runs.
-/

namespace Leven.EventLoop

open Transition

variable {threadId : Pid} {s s' s₁ s₂ s₃ : EventLoop} {lab : Label}

/-- The jobs run, those of the batch and the pending ones are the jobs pushed, and there is a batch
in `doPendingJobs` only. -/
structure Fifo (s : EventLoop) : Prop where
  order : s.pushed = s.ran ++ s.jobs ++ s.pendingJobs
  batch : s.pc ≠ .swapped → s.pc ≠ .running → s.jobs = []

theorem Fifo.queueInLoop {o : Overload} {t : Pid} {task : ℕ} (hs : Fifo s) :
    Fifo (s.queueInLoop o t task) where
  order := by
    show s.pushed ++ [⟨task, t⟩] = s.ran ++ s.jobs ++ (s.pendingJobs ++ [⟨task, t⟩])
    rw [hs.order, List.append_assoc _ s.pendingJobs]
  batch := hs.batch

theorem Fifo.step (hs : Fifo s) (h : Step threadId s lab s') : Fifo s' := by
  cases h with
  | @runQueue o t task hc h =>
    have hs' : Fifo (s.noteCall o t) := ⟨hs.order, hs.batch⟩
    exact hs'.queueInLoop
  | queue hc => exact hs.queueInLoop
  | runSync | testWakeup | wakeup | quit | storeQuit | checkThread => exact ⟨hs.order, hs.batch⟩
  | enter hc hp | leave hp | stay hp | poll hp | handleRead hc hp =>
    exact ⟨hs.order, fun _ _ => hs.batch (by simp [hp]) (by simp [hp])⟩
  | swap hc hp =>
    have hb : s.jobs = [] := hs.batch (by simp [hp]) (by simp [hp])
    refine ⟨?_, fun h _ => absurd rfl h⟩
    show s.pushed = s.ran ++ s.pendingJobs ++ []
    rw [hs.order, hb, List.append_nil, List.append_nil]
  | setDoing hp => exact ⟨hs.order, fun _ h => absurd rfl h⟩
  | @runJob j js hc hp hj =>
    refine ⟨?_, fun _ h => absurd hp h⟩
    show s.pushed = s.ran ++ [j] ++ js ++ s.pendingJobs
    rw [hs.order, hj]
    simp
  | clearDoing hc hp hj => exact ⟨hs.order, fun _ _ => hj⟩

theorem Fifo.of_reachable (hr : (system threadId).Reachable s) : Fifo s :=
  hr.invariant (fun s (h : s = new) => by subst h; exact ⟨rfl, fun _ _ => rfl⟩)
    fun _ _ _ hs _ h => hs.step (.of_step h)

/-- A step other than the swap moves jobs from the batch to the jobs run, in order. -/
theorem Step.batch (h : Step threadId s lab s') (hl : lab ≠ .swap) :
    s'.ran ++ s'.jobs = s.ran ++ s.jobs := by
  cases h with
  | swap => exact absurd rfl hl
  | @runJob j js hc hp hj =>
    show s.ran ++ [j] ++ js = s.ran ++ s.jobs
    rw [hj, List.append_assoc, List.singleton_append]
  | _ => rfl

/-- Until the next swap the batch is what was pending at the last one. -/
theorem batch_of_run (hr : (system threadId).RunIf (fun _ lab => lab ≠ .swap) s s') :
    s'.ran ++ s'.jobs = s.ran ++ s.jobs :=
  hr.invariant (I := fun t => t.ran ++ t.jobs = s.ran ++ s.jobs)
    (fun _ _ _ ht hl hs => ((Step.of_step hs).batch hl).trans ht) rfl

/-- A job is run by the execution of its body in the loop thread, which is what a step of
`doPendingJobs` does and no other step. -/
theorem Step.ran_bodies (h : Step threadId s lab s') :
    (lab = .runJob ∧ ∃ j, s'.ran = s.ran ++ [j] ∧ s'.bodies = s.bodies ++ [(j.task, threadId)]) ∨
      lab ≠ .runJob ∧ s'.ran = s.ran ∧ s.bodies <+: s'.bodies := by
  cases h with
  | @runJob j js hc hp hj => exact .inl ⟨rfl, j, rfl, rfl⟩
  | runSync hc h => exact .inr ⟨by simp, rfl, List.prefix_append _ _⟩
  | _ => exact .inr ⟨by simp, rfl, List.prefix_rfl⟩

/-- The bodies of the jobs run have been executed in the loop thread, once for each and in the order
of the jobs, among the tasks executed at once. -/
theorem ran_bodies (hr : (system threadId).Reachable s) :
    (s.ran.map fun j => (j.task, threadId)).Sublist s.bodies := by
  refine hr.invariant (I := fun s => (s.ran.map fun j => (j.task, threadId)).Sublist s.bodies)
    (fun s (h : s = new) => by subst h; exact .slnil) fun s lab s' hs _ h => ?_
  obtain ⟨-, j, hran, hbodies⟩ | ⟨-, hran, hbodies⟩ := (Step.of_step h).ran_bodies
  · rw [hran, hbodies, List.map_append]
    exact hs.append (List.Sublist.refl _)
  · rw [hran]
    exact hs.trans hbodies.sublist

/-- **Queued jobs run exactly once and in order.**  In every reachable state the jobs pushed are the
jobs run, the rest of the batch and the pending jobs, in this order; from a swap to the next one
only the jobs that were pending at the swap are run, and when `doPendingJobs` ends it has run all
of them; and the jobs run are those whose bodies have been executed by `doPendingJobs`. -/
theorem jobs_fifo (hr : (system threadId).Reachable s) :
    s.pushed = s.ran ++ s.jobs ++ s.pendingJobs ∧
      (s.ran.map fun j => (j.task, threadId)).Sublist s.bodies ∧
      ∀ s₁ s₂, (system threadId).step s .swap = .next s₁ →
        (system threadId).RunIf (fun _ lab => lab ≠ .swap) s₁ s₂ →
        s₂.ran ++ s₂.jobs = s.ran ++ s.pendingJobs ∧
          ∀ s₃, (system threadId).step s₂ .clearDoing = .next s₃ →
            s₃.ran = s.ran ++ s.pendingJobs := by
  have hs := Fifo.of_reachable hr
  refine ⟨hs.order, ran_bodies hr, fun s₁ s₂ hswap hrun => ?_⟩
  have hbatch : s₂.ran ++ s₂.jobs = s.ran ++ s.pendingJobs := by
    rw [batch_of_run hrun]
    cases Step.of_step hswap with
    | swap hc hp => rfl
  refine ⟨hbatch, fun s₃ hclear => ?_⟩
  cases Step.of_step hclear with
  | clearDoing hc hp hj => rw [← hbatch, hj, List.append_nil]

/-- The loop thread 1 swaps out a job of thread 2 and a job of its own, while thread 3 queues
another one. -/
theorem jobs_fifo_threads :
    ∃ s s₁ s₂ s₃, (system 1).Reachable s ∧ (system 1).step s .swap = .next s₁ ∧
      (system 1).RunIf (fun _ lab => lab ≠ .swap) s₁ s₂ ∧
      (system 1).step s₂ .clearDoing = .next s₃ ∧ s₃.ran = [⟨7, 2⟩, ⟨8, 1⟩] ∧
      s₃.pendingJobs = [⟨9, 3⟩] ∧ s₃.ran = s.ran ++ s.pendingJobs := by
  have hrun : ((system 1).exec new [.enter, .test, .queueInLoop .copy 2 7, .poll false,
      .queueInLoop .move 1 8, .testWakeup 1]).Leads fun s => ((system 1).step s .swap).Leads fun s₁ =>
        ((system 1).execIf (fun _ lab => lab ≠ .swap) s₁ [.setDoing, .runJob,
          .queueInLoop .copy 3 9, .runJob]).Leads fun s₂ =>
            ((system 1).step s₂ .clearDoing).Leads fun s₃ =>
              s₃.ran = [⟨7, 2⟩, ⟨8, 1⟩] ∧ s₃.pendingJobs = [⟨9, 3⟩] := by
    decide +kernel
  obtain ⟨s, hs, s₁, hs₁, s₂, hs₂, s₃, hs₃, hran, hpending⟩ := hrun
  have hr : (system 1).Reachable s := System.reachable_of_exec rfl hs
  have hrun := System.runIf_of_execIf hs₂
  exact ⟨s, s₁, s₂, s₃, hr, hs₁, hrun, hs₃, hran, hpending,
    ((jobs_fifo hr).2.2 s₁ s₂ hs₁ hrun).2 s₃ hs₃⟩

end Leven.EventLoop
