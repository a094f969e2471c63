import Leven.TcpServerThreaded.Teardown

/-!
# The loops that the destructor quits

`quit()` is four steps on an object on the stack of another thread, and the second of them lets
that thread leave `loop()` and destroy the object, when some other event wakes it.

* `Settled`: the worker finds `quit_` set only behind `quit()`;
* `used_before_destruction`: in the runs whose steps meet the condition every step of the destructor
  is on a loop that exists, and a step that does not meet the condition leads to one that is not;
* `used_after_destruction`: a run with such a step.
-/

namespace Leven.TcpServerThreaded

open Transition

variable {n i j : ℕ} {s s' : TcpServerThreaded} {lab : Label} {pc : WorkerPc} {l : EventLoop}

/-- The worker that tests `quit_`. -/
def Label.tested : Label → Option ℕ
  | .use i .test => some i
  | _ => none

/-- The worker's test of `quit_` does not find it set while the destructor is in `quit()`, between
`quit_ = true` and the write to `wakeupfd_`. -/
def Settled (s : TcpServerThreaded) (lab : Label) : Prop :=
  ∀ i ∈ lab.tested, (s.worker i).pc = .looping → (s.worker i).loop.quit = true →
    s.dtor ≠ .checking i ∧ s.dtor ≠ .waking i

instance (s : TcpServerThreaded) : DecidablePred (Settled s) := fun lab =>
  inferInstanceAs (Decidable (∀ i ∈ lab.tested, _ → _ → s.dtor ≠ _ ∧ s.dtor ≠ _))

theorem Label.tested_eq_some (h : i ∈ lab.tested) : lab = .use i .test := by
  unfold Label.tested at h
  split at h
  · cases h; rfl
  · cases h

/-- The workers behind `loop()` are those whose loops' `quit()` has returned. -/
def Released (s : TcpServerThreaded) : Prop :=
  ∀ i, (s.worker i).pc.hasLeft = true → i ∈ s.quits

/-- A worker leaves `loop()` by its test of `quit_`. -/
theorem Step.hasLeft (h : Step n s lab s') (hs : Inv s) (hl : (s'.worker i).pc.hasLeft = true) :
    (s.worker i).pc.hasLeft = true ∨
      lab = .use i .test ∧ (s.worker i).pc = .looping ∧ (s.worker i).loop.quit = true := by
  cases h with
  | @spawn k h hw =>
    simp only [goto_pc] at hl
    split_ifs at hl
    · cases hl
    · exact .inl hl
  | @move lab k pc' hm =>
    rw [goto_pc] at hl
    split_ifs at hl with hk
    · subst hk
      exact .inl (hm.facts.2.2.2 ▸ hl)
    · exact .inl hl
  | @publish k hw =>
    simp only [goto_pc] at hl
    split_ifs at hl
    · cases hl
    · exact .inl hl
  | @enter k l hw he =>
    rw [setLoop_pc, goto_pc] at hl
    split_ifs at hl
    · cases hl
    · exact .inl hl
  | @use k lab l hu hw he =>
    rw [goto_pc] at hl
    split_ifs at hl with hk
    · subst hk
      by_cases hleft : (s.worker i).pc = .looping ∧ l.pc = .outside
      · obtain ⟨hp, ho⟩ := hleft
        obtain ⟨rfl, hq⟩ := he.of_outside (hs.looping i hp) ho
        exact .inr ⟨rfl, hp, hq⟩
      · rw [afterUse, if_neg hleft] at hl
        exact .inl hl
    · rw [setLoop_pc] at hl
      exact .inl hl
  | @clear k hw =>
    simp only [goto_pc] at hl
    split_ifs at hl with hk
    · subst hk; exact .inl (by rw [hw]; rfl)
    · exact .inl hl
  | quit hd hw hl | checkThread hd hw hl | wakeup hd hw hl | storeQuit hd hw hl  =>
    exact .inl (by simpa using hl)
  | found | park | spurious | emplace | destroy | hold | skip | join | finish => exact .inl hl

theorem Step.quits_subset (h : Step n s lab s') (hi : i ∈ s.quits) : i ∈ s'.quits := by
  cases h with
  | wakeup hd hw hl => exact List.mem_append_left _ hi
  | _ => exact hi

theorem Released.of_reachable (hr : (system n).ReachableIf Settled s) : s.Released := by
  refine hr.invariant_of (fun _ hr => Inv.of_reachable hr) (fun s (h : s = start n) => ?_)
    fun s lab s' hs hi hc h i hl => ?_
  · subst h
    intro i h
    cases h
  · have h := Step.of_step h
    refine h.quits_subset ?_
    rcases h.hasLeft hs hl with hl | ⟨rfl, hp, hq⟩
    · exact hi i hl
    · have hd := hc i rfl hp hq
      exact hs.mem_quits hd.1 hd.2 hq

theorem quitStep_eq_destroyed {lab : EventLoop.Label} {d : DtorPc}
    (h : s.quitStep i lab d = .failed .destroyed) : (s.worker i).pc.hasLoop = false := by
  unfold quitStep at h
  split_ifs at h with hw
  · simp at h
  · simpa using hw

/-- Only the steps of `quit()` are on a loop that may be gone. -/
theorem target_of_destroyed (h : (system n).step s lab = .failed .destroyed) :
    ∃ i ∈ s.dtor.target, (s.worker i).pc.hasLoop = false := by
  change step n s lab = _ at h
  cases lab with
  | quit | storeQuit | checkThread =>
    simp only [step] at h
    split at h
    · exact ⟨_, by simp [*, DtorPc.target], quitStep_eq_destroyed h⟩
    · cases h
  | wakeup =>
    simp only [step] at h
    split at h
    · simp only [Outcome.bind_eq_failed, reduceCtorEq, and_false, exists_false, or_false] at h
      exact ⟨_, by simp [*, DtorPc.target], quitStep_eq_destroyed h⟩
    · cases h
  | spawn | check | spurious | emplace | testSlot | join =>
    simp only [step] at h
    split at h <;> simp at h
  | construct i | publish i | initCallback i | startServer i | enter i | use i lab | clear i
  | destroyServer i | destroyLoop i | destroy =>
    simp [step, workerStep] at h

/-- A worker behind `loop()` can destroy its loop at once. -/
theorem exec_destroyLoop (hp : (s.worker i).pc = .clearing) :
    ∃ s', (system n).exec s [.clear i, .destroyServer i, .destroyLoop i] = .next s' ∧
      s'.dtor = s.dtor ∧ (s'.worker i).pc = .done := by
  have hstep : ∀ {t : TcpServerThreaded} {pc pc' : WorkerPc}, (t.worker i).pc = pc →
      t.workerStep i pc pc' = .next (t.goto i pc') := fun h => workerStep_eq_next.2 ⟨h, rfl⟩
  refine ⟨(goto i .destroyingLoop { s.goto i .destroyingServer with
    eventLoops := Function.update s.eventLoops i false }).goto i .done, ?_, rfl, by simp⟩
  simp only [System.exec, system, step]
  rw [hstep hp]
  simp only [Outcome.bind]
  rw [hstep (by simp)]
  dsimp only
  rw [hstep (by simp)]

/-- A step of the destructor on a destroyed loop. -/
theorem step_destroyed (hd : s.dtor = .checking i ∨ s.dtor = .waking i)
    (hp : (s.worker i).pc = .done) : ∃ lab, (system n).step s lab = .failed .destroyed := by
  have hq : ∀ lab d, s.quitStep i lab d = .failed .destroyed := fun lab d => by
    simp [quitStep, hp, WorkerPc.hasLoop]
  rcases hd with hd | hd
  · exact ⟨.checkThread, by simp only [system, step, hd, hq]⟩
  · exact ⟨.wakeup, by simp only [system, step, hd, hq, Outcome.bind]⟩

/-- **The loops are used before their destruction.**  In every run in which no worker finds `quit_`
set while the destructor is still in `quit()` on its loop, no step is on a destroyed loop; and after
a step that does not meet the condition the worker alone can destroy its loop before the
destructor's next step on it. -/
theorem used_before_destruction (n : ℕ) :
    (∀ s, (system n).ReachableIf Settled s → ∀ lab, (system n).step s lab ≠ .failed .destroyed) ∧
    ∀ s lab s', ¬ Settled s lab → (system n).step s lab = .next s' →
      ∃ ls s'' lab', (system n).exec s' ls = .next s'' ∧
        (system n).step s'' lab' = .failed .destroyed := by
  refine ⟨?_, ?_⟩
  · intro s hr lab hf
    obtain ⟨i, ht, hl⟩ := target_of_destroyed hf
    have hs := Inv.of_reachable hr
    have hleft : (s.worker i).pc.hasLeft = true := by
      have hpub := hs.published i ht
      cases hp : (s.worker i).pc <;>
        simp_all [WorkerPc.hasLoop, WorkerPc.isPublished, WorkerPc.hasLeft]
    have hq := Released.of_reachable hr i hleft
    refine absurd (hs.bound i hq i ?_) (lt_irrefl i)
    cases hd : s.dtor <;> simp_all [DtorPc.target, DtorPc.index]
  · intro s lab s' hc h
    simp only [Settled, not_forall] at hc
    obtain ⟨i, hi, hp, hq, hd⟩ := hc
    cases Label.tested_eq_some hi
    cases Step.of_step h with
    | move hm => exact hm.elim
    | @use _ _ l hu hw he =>
      have hl : l.pc = .outside := by
        cases he with
        | leave => rfl
        | stay _ hq' => rw [hq] at hq'; cases hq'
      obtain ⟨s', he, hdtor, hdone⟩ :=
        exec_destroyLoop (n := n) (s := (s.setLoop i l).goto i (afterUse (s.worker i).pc l)) (i := i)
          (by simp [afterUse, hp, hl])
      obtain ⟨lab, hf⟩ := step_destroyed (n := n) (s := s') (i := i)
        (by rw [hdtor]; by_contra hd'; exact hd (not_or.1 hd')) hdone
      exact ⟨_, s', lab, he, hf⟩

/-- The worker runs an iteration for some other event. -/
def otherEvent : List Label :=
  [.use 1 (.poll false), .use 1 .swap, .use 1 .setDoing, .use 1 .clearDoing]

/-- A server of two threads, with the worker about to block. -/
def loopRun : List Label := startRun ++ [.enter 1, .use 1 .test]

/-- The destructor up to `quit_ = true`. -/
def storeRun : List Label := [.destroy, .testSlot, .testSlot, .quit, .storeQuit]

/-- The worker is woken by another event while the destructor is in `quit()`: it has not tested
`quit_` yet, and when it does so now the loop is gone before the destructor's next step. -/
theorem used_before_destruction_two :
    ∃ s s', (system 2).ReachableIf Settled s ∧ s.dtor = .checking 1 ∧
      (∀ lab, (system 2).step s lab ≠ .failed .destroyed) ∧ ¬ Settled s (.use 1 .test) ∧
      (system 2).step s (.use 1 .test) = .next s' ∧
      ∃ ls s'' lab', (system 2).exec s' ls = .next s'' ∧
        (system 2).step s'' lab' = .failed .destroyed := by
  obtain ⟨s, hr, hd, hc, s', hs', -⟩ := System.exists_reachableIf (S := system 2) (C := Settled)
    (s := start 2)
    (P := fun s => s.dtor = .checking 1 ∧ ¬ Settled s (.use 1 .test) ∧
      ((system 2).step s (.use 1 .test)).Leads fun _ => True)
    (w := loopRun ++ storeRun ++ otherEvent) rfl (by decide +kernel)
  exact ⟨s, s', hr, hd, (used_before_destruction 2).1 s hr, hc, hs',
    (used_before_destruction 2).2 s _ s' hc hs'⟩

/-- The worker destroys its loop between `quit_ = true` and `!isInLoopThread()`. -/
theorem used_after_destruction :
    ∃ s, (system 2).Reachable s ∧ s.dtor = .checking 1 ∧
      (system 2).step s .checkThread = .failed .destroyed := by
  have hrun : ((system 2).exec (start 2) (loopRun ++ storeRun ++ otherEvent ++
      [.use 1 .test, .clear 1, .destroyServer 1, .destroyLoop 1])).Leads fun s =>
        s.dtor = .checking 1 ∧ (system 2).step s .checkThread = .failed .destroyed := by
    decide +kernel
  obtain ⟨s, hs, h⟩ := hrun
  exact ⟨s, System.reachable_of_exec rfl hs, h⟩

end Leven.TcpServerThreaded
