import Leven.TimerQueue.Lifetime

/-!
# Cancelling a pending timer

The body of `cancelTimer` looks the entry up under the time that the timer has now, and `restart`
changes this time.  It finds the entry because the two agree whenever `timers_` has an entry of the
timer: `handleRead` takes the entry out before the restart and puts the new one in after it.

* `performed`: the closure that a step runs, at once or out of the queue of the loop;
* `Consistent`: the entries of `timers_` have the times of their timers, and different timers;
* `Step.heap_deleted`: a deleted timer does not come back;
* `cancel_exact`: the law.
-/

namespace Leven.TimerQueue

open Transition Container

variable {threadId t : Pid} {s s' s'' : TimerQueue} {lab : Label} {p : ℕ} {tm : Timer}
  {ts d w : ℤ} {e f : Entry} {j : TimerJob}

/-- The closure that the step runs. -/
def performed (threadId : Pid) (s : TimerQueue) : Label → Option TimerJob
  | .addTimerTask t timer ts interval => if t = threadId then some (.add timer ts interval) else none
  | .cancelTimer t timer => if t = threadId then some (.cancel timer) else none
  | .runJob => s.pendingJobs.head?
  | _ => none

/-- The entries of `timers_` have the times of their timers, and a timer has at most one. -/
structure Consistent (s : TimerQueue) : Prop where
  when_eq : ∀ e ∈ s.timers, ∃ tm, s.heap e.timer = some (.live tm) ∧ tm.when = e.when
  unique : ∀ e ∈ s.timers, ∀ f ∈ s.timers, e.timer = f.timer → e = f

theorem Owned.consistent (hs : Owned s) : Consistent s where
  when_eq e he := by
    obtain ⟨d, hd⟩ := hs.sound.live e (List.mem_append_left _ he)
    exact ⟨_, hd, rfl⟩
  unique e he f hf := hs.sound.unique (List.mem_append_left _ he) (List.mem_append_left _ hf)

/-- In the state in which a closure is run, the queue is as it is in the state before the step,
apart from the job and the record of the call. -/
theorem Step.of_performed (h : Step threadId s lab s') (hj : performed threadId s lab = some j) :
    ∃ s₁, s₁.timers = s.timers ∧ s₁.ran = s.ran ∧ (∀ p, j = .cancel p → s₁.heap p = s.heap p) ∧
      Performed s₁ j s' := by
  cases h with
  | @addNow p ts d s' hc hp h =>
    rw [performed, if_pos rfl] at hj
    cases hj
    exact ⟨s.store p (.new ts d), rfl, rfl, by simp, h⟩
  | @cancelNow p s' hc hl hn h =>
    rw [performed, if_pos rfl] at hj
    cases hj
    exact ⟨s.noteCancel p, rfl, rfl, fun _ _ => rfl, h⟩
  | addLater hc ht | cancelLater hc ht =>
    rw [performed, if_neg ht] at hj
    cases hj
  | @runJob j js s' hp hq h =>
    rw [performed, hq] at hj
    cases hj
    exact ⟨{ s with pendingJobs := js }, rfl, rfl, fun _ _ => rfl, h⟩
  | _ => cases hj

/-- The closure of `addTimerTask` puts in an entry that was not there. -/
theorem Step.of_performed_add (h : Step threadId s lab s')
    (hj : performed threadId s lab = some (.add p ts d)) :
    (⟨ts, p⟩ : Entry) ∉ s.timers ∧ (⟨ts, p⟩ : Entry) ∈ s'.timers := by
  obtain ⟨s₁, ht, -, -, h⟩ := h.of_performed hj
  cases h with
  | add hn =>
    rw [inserted_timers, ← ht]
    exact ⟨hn, SortedSet.mem_insert.2 (.inl rfl)⟩

/-- The body of `cancelTimer` takes out the entry of the timer, and deletes the timer. -/
theorem Step.of_performed_cancel (h : Step threadId s lab s') (hs : Owned s)
    (hm : (⟨w, p⟩ : Entry) ∈ s.timers) (hj : performed threadId s lab = some (.cancel p)) :
    s'.timers = s.timers.erase ⟨w, p⟩ ∧ s'.ran = s.ran ∧ s'.heap p = some .deleted := by
  obtain ⟨s₁, ht, hran, hheap, h⟩ := h.of_performed hj
  cases h with
  | @cancel _ tm hl hcan =>
    obtain ⟨tm', hl', hw⟩ := hs.consistent.when_eq _ hm
    rw [hheap p rfl, hl'] at hl
    cases hl
    subst hw
    exact ⟨congrArg (SortedSet.erase _) ht, hran, by simp [TimerQueue.drop]⟩

/-- The entries that are left are those of the other timers. -/
theorem Consistent.mem_erase (hs : Consistent s) (hm : (⟨w, p⟩ : Entry) ∈ s.timers) :
    e ∈ s.timers.erase ⟨w, p⟩ ↔ e ∈ s.timers ∧ e.timer ≠ p := by
  rw [SortedSet.mem_erase, and_comm, and_congr_right_iff]
  intro he
  refine not_congr ⟨?_, fun hp => hs.unique e he _ hm hp⟩
  rintro rfl
  rfl

/-! ### A deleted timer -/

theorem store_heap_deleted {q : ℕ} (hl : s.heap q ≠ some .deleted)
    (hp : s.heap p = some .deleted) : (s.store q tm).heap p = some .deleted := by
  have hne : p ≠ q := by
    rintro rfl
    exact hl hp
  simpa [TimerQueue.store, hne] using hp

theorem drop_heap_deleted {q : ℕ} (hp : s.heap p = some .deleted) :
    (s.drop q).heap p = some .deleted := by
  by_cases h : p = q
  · simp [TimerQueue.drop, h]
  · simpa [TimerQueue.drop, h] using hp

theorem Performed.heap_deleted (h : Performed s j s') (hp : s.heap p = some .deleted) :
    s'.heap p = some .deleted := by
  cases h with
  | add hn => rwa [inserted_heap]
  | cancel hl hc => exact drop_heap_deleted hp

/-- A deleted timer does not come back. -/
theorem Step.heap_deleted (h : Step threadId s lab s') (hp : s.heap p = some .deleted) :
    s'.heap p = some .deleted := by
  cases h with
  | addNow hc hn h => exact h.heap_deleted (store_heap_deleted (by simp [hn]) hp)
  | addLater hc ht hn => exact store_heap_deleted (by simp [hn]) hp
  | cancelNow hc hl hn h => exact h.heap_deleted hp
  | runJob hidle hj h => exact h.heap_deleted hp
  | restart hrun hl hr => exact store_heap_deleted (by simp [hl]) hp
  | skipTimer hhand hl hc => exact drop_heap_deleted hp
  | finish hrun hl hr => exact drop_heap_deleted hp
  | rearm hhand =>
    obtain ⟨fd, hfd⟩ := rearm_eq (s := s)
    rw [hfd]
    exact hp
  | destroy hidle h =>
    obtain ⟨heap, rfl, hdel, hsame⟩ := deleteAll_eq_next h
    by_cases hin : ∃ e ∈ s.timers.toList, e.timer = p
    · obtain ⟨e, he, rfl⟩ := hin
      exact hdel e he
    · exact (hsame p fun e he heq => hin ⟨e, he, heq⟩).trans hp
  | cancelLater | tick | timerfdRead | getExpired | runTimer => exact hp

/-- The calls of the callback of a timer. -/
def firings (p : ℕ) (s : TimerQueue) : List Firing := s.ran.filter (·.timer = p)

/-- The callback of a deleted timer is not called. -/
theorem Step.firings_eq (h : Step threadId s lab s') (hp : s.heap p = some .deleted) :
    s'.firings p = s.firings p := by
  obtain h | ⟨x, hx, tm, hl⟩ := h.ran_cases
  · rw [firings, firings, h]
  · have hne : x.timer ≠ p := by
      rintro rfl
      rw [hp] at hl
      cases hl
    simp [firings, hx, hne]

/-- From a state in which a timer is deleted, no run calls its callback. -/
theorem firings_of_run {C : TimerQueue → Label → Prop} (hr : (system threadId).RunIf C s s')
    (hp : s.heap p = some .deleted) : s'.firings p = s.firings p := by
  refine (hr.invariant (I := fun s' => s'.heap p = some .deleted ∧ s'.firings p = s.firings p)
    ?_ ⟨hp, rfl⟩).2
  rintro s₁ lab s₂ ⟨hdel, heq⟩ - h
  have hstep : Step threadId s₁ lab s₂ := .of_step h
  exact ⟨hstep.heap_deleted hdel, (hstep.firings_eq hdel).trans heq⟩

/-! ### The law -/

/-- **Cancelling a pending timer removes exactly it.**  In every run in which the body of
`cancelTimer` is run only for a timer whose entry is in `timers_`, the entries agree with their
timers, no step fails, and the closure of `addTimerTask` puts in a new entry; and where the entry of
a timer is in `timers_`, the body of `cancelTimer`, run by a call or out of the queue of the loop,
takes this entry out and no other, and the callback of the timer is not called in any run from
there. -/
theorem cancel_exact (hr : (system threadId).ReachableIf (CancelsPending threadId) s) :
    Consistent s ∧
    (∀ lab f, CancelsPending threadId s lab → (system threadId).step s lab ≠ .failed f) ∧
    (∀ lab s' p ts d, performed threadId s lab = some (.add p ts d) →
      (system threadId).step s lab = .next s' →
        (⟨ts, p⟩ : Entry) ∉ s.timers ∧ (⟨ts, p⟩ : Entry) ∈ s'.timers) ∧
    ∀ w p, (⟨w, p⟩ : Entry) ∈ s.timers →
      (∃ s', s.perform (.cancel p) = .next s') ∧
      ∀ lab s', performed threadId s lab = some (.cancel p) →
        (system threadId).step s lab = .next s' →
          s'.timers = s.timers.erase ⟨w, p⟩ ∧ (∀ e, e ∈ s'.timers ↔ e ∈ s.timers ∧ e.timer ≠ p) ∧
          ∀ s'', (system threadId).RunIf (fun _ _ => True) s' s'' → s''.firings p = s.firings p := by
  have hs := Owned.of_reachable hr
  refine ⟨hs.consistent, fun lab f hc => hs.step_ne_failed hc f,
    fun lab s' p ts d hj h => (Step.of_step h).of_performed_add hj,
    fun w p hm => ⟨hs.sound.perform_cancel ⟨_, hm, rfl⟩, fun lab s' hj h => ?_⟩⟩
  obtain ⟨ht, hran, hdel⟩ := (Step.of_step h).of_performed_cancel hs hm hj
  refine ⟨ht, fun e => ?_, fun s'' hrun => (firings_of_run hrun hdel).trans ?_⟩
  · rw [ht]
    exact hs.consistent.mem_erase hm
  · rw [firings, firings, hran]

/-- Timer 1 has been restarted behind its first callback, timer 2 is still to come. -/
theorem cancel_exact_restarted :
    ∃ s, (system 0).ReachableIf (CancelsPending 0) s ∧ (⟨20, 1⟩ : Entry) ∈ s.timers ∧
      performed 0 s (.cancelTimer 0 1) = some (.cancel 1) ∧
      Consistent s ∧
      (∀ lab f, CancelsPending 0 s lab → (system 0).step s lab ≠ .failed f) ∧
      (∀ lab s' p ts d, performed 0 s lab = some (.add p ts d) →
        (system 0).step s lab = .next s' →
          (⟨ts, p⟩ : Entry) ∉ s.timers ∧ (⟨ts, p⟩ : Entry) ∈ s'.timers) ∧
      ∀ w p, (⟨w, p⟩ : Entry) ∈ s.timers →
        (∃ s', s.perform (.cancel p) = .next s') ∧
        ∀ lab s', performed 0 s lab = some (.cancel p) → (system 0).step s lab = .next s' →
          s'.timers = s.timers.erase ⟨w, p⟩ ∧ (∀ e, e ∈ s'.timers ↔ e ∈ s.timers ∧ e.timer ≠ p) ∧
          ∀ s'', (system 0).RunIf (fun _ _ => True) s' s'' → s''.firings p = s.firings p := by
  obtain ⟨s, hr, hm⟩ := System.exists_reachableIf (S := system 0) (C := CancelsPending 0)
    (s := new 0) (P := fun s => (⟨20, 1⟩ : Entry) ∈ s.timers)
    (w := [.runEvery 0 0 1 10, .runAt 0 2 20, .tick 10, .timerfdRead, .getExpired, .runTimer,
      .endTimer, .rearm]) ⟨0, rfl⟩ (by decide +kernel)
  exact ⟨s, hr, hm, rfl, cancel_exact hr⟩

end Leven.TimerQueue
