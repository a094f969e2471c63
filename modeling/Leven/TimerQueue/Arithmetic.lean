import Leven.TimerQueue.Counts

/-!
# The arithmetic of the timers

The sums and the differences of the timer queue are right as long as they are counts.

* `InRange.step`, `step_spec`: the times of the queue stay counts, and a step fits and is that of
  `TimerQueue`; so a reachable state is one of `TimerQueue`;
* `durationFromNow_valid`: what `timerfdSet` hands to the kernel; `timerfd_of_step`: when it does;
* `Exact`: what a step has to do; `RunExact`, `RunFits`: all steps of a run do it, or fit;
* `arithmetic_exact_iff`: the law; `arithmetic_overflows` has a run for each overflow.
-/

namespace Leven

open Transition Container TimerQueue

/-- The kernel takes the value. -/
structure Timespec.Valid (value : Timespec) : Prop where
  sec_nonneg : 0 ≤ value.sec
  nsec_nonneg : 0 ≤ value.nsec
  nsec_lt : value.nsec < Timespec.den

/-- The duration that the value stands for. -/
def Timespec.nanoseconds (value : Timespec) : ℤ := value.sec * Timespec.den + value.nsec

namespace Counts

variable {threadId t : Pid} {s s' : TimerQueue} {lab : Label} {tlab : TimerQueue.Label} {p : ℕ}
  {tm : Timer} {ts now clock : ℤ} {j : TimerJob} {o : Overflow}

/-! ### The times stay in range -/

theorem InRange.store (hs : InRange s) (h : IsCount tm.when) : InRange (s.store p tm) where
  clock_pos := hs.clock_pos
  clock_lt := hs.clock_lt
  entry := hs.entry
  job := hs.job
  timer q tm' hq := by
    by_cases hqp : q = p
    · subst hqp
      simp only [TimerQueue.store, Function.update_self, Option.some.injEq, Cell.live.injEq] at hq
      exact hq ▸ h
    · simp only [TimerQueue.store, Function.update_of_ne hqp] at hq
      exact hs.timer q tm' hq

/-- Fewer entries, jobs and timers. -/
theorem InRange.mono (hs : InRange s) (hclock : s'.clock = s.clock)
    (hentry : ∀ e ∈ s'.timers, e ∈ s.timers) (hjob : ∀ j ∈ s'.pendingJobs, j ∈ s.pendingJobs)
    (hheap : ∀ p tm, s'.heap p = some (.live tm) → s.heap p = some (.live tm)) : InRange s' where
  clock_pos := hclock ▸ hs.clock_pos
  clock_lt := hclock ▸ hs.clock_lt
  entry e he := hs.entry e (hentry e he)
  job p ts d h := hs.job p ts d (hjob _ h)
  timer p tm h := hs.timer p tm (hheap p tm h)

theorem drop_heap_live {q : ℕ} (h : (s.drop p).heap q = some (.live tm)) :
    s.heap q = some (.live tm) := by
  by_cases hqp : q = p
  · subst hqp
    simp [TimerQueue.drop] at h
  · simpa [TimerQueue.drop, Function.update_of_ne hqp] using h

theorem InRange.performed (hs : InRange s) (h : Performed s j s')
    (hj : ∀ p ts d, j = .add p ts d → IsCount ts) : InRange s' := by
  cases h with
  | @add p ts d hn =>
    refine ⟨by simpa using hs.clock_pos, by simpa using hs.clock_lt, fun e he => ?_, ?_, ?_⟩
    · rw [inserted_timers, SortedSet.mem_insert] at he
      rcases he with rfl | he
      · exact hj p ts d rfl
      · exact hs.entry e he
    · simpa using hs.job
    · simpa using hs.timer
  | cancel hl hc =>
    refine hs.mono rfl (fun e he => ?_) (fun _ h => h) fun q tm hq => drop_heap_live hq
    exact (SortedSet.mem_erase.1 he).2

theorem InRange.new {clock : Int64} (h : 0 < clock.toInt) : InRange (.new clock.toInt) where
  clock_pos := h
  clock_lt := clock.toInt_lt
  entry e he := by simp [TimerQueue.new] at he
  job p ts d h := by simp [TimerQueue.new] at h
  timer p tm h := by simp [TimerQueue.new] at h

/-- A step of `TimerQueue` keeps the times in range, where what it brings in is. -/
theorem InRange.step (hs : InRange s) (h : Step threadId s tlab s')
    (hadd : ∀ t p ts d, tlab = .addTimerTask t p ts d → IsCount ts)
    (htick : ∀ now, tlab = .tick now → 0 < now ∧ now < limit)
    (hsum : ∀ now ele rest, tlab = .endTimer → s.pc = .running now ele rest →
      ∀ a ∈ restartAddends ele s, IsCount (a.1 + a.2)) : InRange s' := by
  cases h with
  | @addNow p ts d s' hc hp h =>
    have hts := hadd _ p ts d rfl
    have hst : InRange (s.store p (.new ts d)) := hs.store hts
    exact hst.performed h fun _ _ _ hj => by cases hj; exact hts
  | @addLater t p ts d hc ht hp =>
    have hts := hadd _ p ts d rfl
    have hst : InRange (s.store p (.new ts d)) := hs.store hts
    refine ⟨hst.clock_pos, hst.clock_lt, hst.entry, fun q ts' d' hq => ?_, hst.timer⟩
    rcases List.mem_append.1 hq with hq | hq
    · exact hs.job q ts' d' hq
    · cases List.mem_singleton.1 hq
      exact hts
  | @cancelNow p s' hc hl hn h =>
    have hnote : InRange (s.noteCancel p) :=
      hs.mono rfl (fun _ h => h) (fun _ h => h) fun _ _ h => h
    exact hnote.performed h fun _ _ _ hj => by cases hj
  | cancelLater hc ht hl hn =>
    refine ⟨hs.clock_pos, hs.clock_lt, hs.entry, fun q ts' d' hq => ?_, hs.timer⟩
    rcases List.mem_append.1 hq with hq | hq
    · exact hs.job q ts' d' hq
    · cases List.mem_singleton.1 hq
  | @runJob j js s' hp hj h =>
    have hrest : InRange { s with pendingJobs := js } :=
      hs.mono rfl (fun _ h => h) (fun _ h => hj ▸ List.mem_cons_of_mem _ h) fun _ _ h => h
    refine hrest.performed h fun p ts d he => hs.job p ts d ?_
    rw [hj, he]
    exact List.mem_cons_self
  | @tick now =>
    obtain ⟨hpos, hlt⟩ := htick now rfl
    exact ⟨hpos, hlt, hs.entry, hs.job, hs.timer⟩
  | timerfdRead hp | runTimer hp hl he hc =>
    exact ⟨hs.clock_pos, hs.clock_lt, hs.entry, hs.job, hs.timer⟩
  | getExpired hp =>
    exact hs.mono rfl (fun e he => SortedSet.mem_of_mem_notBelow he) (fun _ h => h) fun _ _ h => h
  | skipTimer hp hl hc | finish hp hl hr =>
    exact hs.mono rfl (fun _ h => h) (fun _ h => h) fun q tm hq => drop_heap_live hq
  | @restart now e rest tm hp hl hr =>
    have hwhen : IsCount (tm.when + tm.interval) := by
      refine hsum now e rest rfl hp (tm.when, tm.interval) ?_
      simp [restartAddends, hl, hr.1, Timer.repeats, hr.2]
    have hst : InRange (s.store e.timer { tm with when := tm.when + tm.interval }) := hs.store hwhen
    refine ⟨hst.clock_pos, hst.clock_lt, fun f hf => ?_, hst.job, hst.timer⟩
    rcases SortedSet.mem_insert.1 hf with rfl | hf
    · exact hwhen
    · exact hs.entry f hf
  | rearm hp =>
    obtain ⟨fd, hfd⟩ := rearm_eq (s := s)
    rw [hfd]
    exact ⟨hs.clock_pos, hs.clock_lt, hs.entry, hs.job, hs.timer⟩
  | destroy hp h =>
    obtain ⟨heap, rfl, hdel, hsame⟩ := deleteAll_eq_next h
    refine hs.mono rfl (fun e he => by simp at he) (fun _ h => h) fun q tm hq => ?_
    by_cases hin : ∃ e ∈ s.timers.toList, e.timer = q
    · obtain ⟨e, he, rfl⟩ := hin
      cases (hdel e he).symm.trans hq
    · rw [← hsame q fun e he heq => hin ⟨e, he, heq⟩]
      exact hq

/-! ### A step -/

theorem getExpired_eq_next :
    getExpired now s = .next s' ↔ IsCount (now + 1) ∧ s.getExpired now = s' := by
  simp [getExpired]

/-- A step fits and is one of `TimerQueue`, and it keeps the times in range. -/
theorem step_spec (hs : InRange s) (h : step threadId s lab = .next s') :
    Fits threadId s lab ∧ TimerQueue.step threadId s lab.timerQueue = .next s' ∧ InRange s' := by
  obtain ⟨hd, h⟩ := Outcome.guard_eq_next.1 h
  have hf : Fits threadId s lab := by
    by_contra hf
    obtain h' | ⟨o, -, h'⟩ := act_of_not_fits hd hf <;> cases h'.symm.trans h
  have hstep : TimerQueue.step threadId s lab.timerQueue = .next s' := by
    by_cases hne : lab = .getExpired
    · subst hne
      obtain ⟨hp, h⟩ := Outcome.guard_eq_next.1 h
      obtain ⟨-, rfl⟩ := getExpired_eq_next.1 h
      exact Outcome.guard_eq_next.2 ⟨hp, rfl⟩
    · rw [act_of_fits hs hd hf hne] at h
      exact Outcome.mapFailed_eq_next.1 h
  refine ⟨hf, hstep, hs.step (.of_step hstep) (fun t p ts d hl => ?_) (fun now hl => ?_)
    fun now ele rest hl hpc a ha => ?_⟩
  · cases lab with
    | call t' p' c =>
      rw [Label.timerQueue_call] at hl
      cases hl
      exact (TimerCall.isCount_expiry_iff hd).2 hf.sum
    | _ => cases hl
  · cases lab with
    | tick n => cases hl; exact ⟨hd, n.toInt_lt⟩
    | call t p c => rw [Label.timerQueue_call] at hl; cases hl
    | _ => cases hl
  · cases lab with
    | endTimer => exact hf.isCount_restart hs hpc ha
    | call t p c => rw [Label.timerQueue_call] at hl; cases hl
    | _ => cases hl

/-- A step that fits does not overflow, but for the bound of the batch. -/
theorem step_ne_overflow (hs : InRange s) (hf : Fits threadId s lab) (ho : o ≠ .bound) :
    step threadId s lab ≠ .failed (.overflow o) := by
  intro h
  obtain ⟨hd, h⟩ := Outcome.guard_eq_failed.1 h
  by_cases hne : lab = .getExpired
  · subst hne
    obtain ⟨-, h⟩ := Outcome.guard_eq_failed.1 h
    rw [getExpired, count] at h
    split_ifs at h <;> cases h
    exact ho rfl
  · rw [act_of_fits hs hd hf hne] at h
    obtain ⟨f, -, hf⟩ := Outcome.mapFailed_eq_failed.1 h
    cases hf

/-- What happens in 64 bits happens to the integers. -/
theorem reachable_timerQueue (hr : (system threadId).Reachable s) :
    InRange s ∧ (TimerQueue.system threadId).Reachable s := by
  refine hr.invariant (I := fun s => InRange s ∧ (TimerQueue.system threadId).Reachable s) ?_ ?_
  · rintro s ⟨clock, hpos, rfl⟩
    exact ⟨.new hpos, .of_init ⟨_, rfl⟩⟩
  · rintro s lab s' ⟨hs, hr⟩ - h
    obtain ⟨-, hstep, hs'⟩ := step_spec hs h
    exact ⟨hs', hr.step trivial hstep⟩

/-! ### What is programmed -/

theorem durationFromNow_of_isCount (h : IsCount (ts - clock)) :
    durationFromNow clock ts = .next (TimerQueue.durationFromNow clock ts) := by
  rw [durationFromNow, count_of_isCount h]
  rfl

/-- The quotient and the remainder of what is left, at least a millisecond. -/
theorem durationFromNow_valid : (TimerQueue.durationFromNow clock ts).Valid ∧
    TimerQueue.durationFromNow clock ts ≠ ⟨0, 0⟩ ∧
    (TimerQueue.durationFromNow clock ts).nanoseconds = max (ts - clock) millisecond := by
  have hmax : (if ts - clock < millisecond then millisecond else ts - clock) =
      max (ts - clock) millisecond := by
    split_ifs with h
    · exact (max_eq_right h.le).symm
    · exact (max_eq_left (not_lt.1 h)).symm
  have hpos : 0 < max (ts - clock) millisecond := lt_max_of_lt_right (by decide)
  have hsum : (TimerQueue.durationFromNow clock ts).nanoseconds = max (ts - clock) millisecond := by
    rw [← hmax]
    exact Int.tdiv_mul_add_tmod _ _
  refine ⟨⟨?_, ?_, ?_⟩, fun h => ?_, hsum⟩
  · simp only [TimerQueue.durationFromNow, hmax]
    exact Int.tdiv_nonneg hpos.le (by decide)
  · simp only [TimerQueue.durationFromNow, hmax]
    exact Int.tmod_nonneg _ hpos.le
  · exact Int.tmod_lt_of_pos _ (by decide)
  · rw [h] at hsum
    rw [← hsum] at hpos
    exact hpos.ne rfl

/-- A closure sets the timerfd where its entry goes to the front, and nowhere else. -/
theorem timerfd_of_performed (h : Performed s j s') :
    s'.timerfd = match jobSets j s with
      | some ts => .settime s.clock (TimerQueue.durationFromNow s.clock ts)
      | none => s.timerfd := by
  cases h with
  | @add p ts d hn =>
    simp only [TimerQueue.inserted, jobSets, hn, not_false_eq_true, true_and]
    split_ifs <;> rfl
  | cancel hl hc => rfl

/-- A step sets the timerfd for the time point that it hands to `timerfdSet`. -/
theorem timerfd_of_step (h : Step threadId s lab.timerQueue s') (hread : lab ≠ .timerfdRead)
    (htick : ∀ now, lab ≠ .tick now) :
    s'.timerfd = match sets threadId s lab with
      | some ts => .settime s.clock (TimerQueue.durationFromNow s.clock ts)
      | none => s.timerfd := by
  cases lab with
  | call t p c =>
    rw [Label.timerQueue_call] at h
    cases h with
    | addNow hc hp h =>
      have ht := timerfd_of_performed h
      rw [sets, if_pos rfl]
      exact ht
    | addLater hc ht hp => rw [sets, if_neg ht]; rfl
  | cancelTimer t p =>
    cases h with
    | cancelNow hc hl hn h => exact timerfd_of_performed h
    | cancelLater hc ht hl hn => rfl
  | runJob =>
    cases h with
    | runJob hp hj h =>
      have ht := timerfd_of_performed h
      rw [sets, hj]
      exact ht
  | tick now => exact absurd rfl (htick now)
  | timerfdRead => exact absurd rfl hread
  | getExpired => cases h with | getExpired hp => rfl
  | runTimer => cases h <;> rfl
  | endTimer => cases h <;> rfl
  | rearm =>
    cases h with
    | rearm hp =>
      simp only [TimerQueue.rearm, sets]
      cases s.timers.first <;> rfl
  | destroy =>
    cases h with
    | destroy hp h =>
      obtain ⟨heap, rfl, -⟩ := deleteAll_eq_next h
      rfl

/-! ### The law -/

/-- What a step from `s` to `s'` has to do. -/
structure Exact (threadId : Pid) (s : TimerQueue) (lab : Label) (s' : TimerQueue) : Prop where
  /-- It is a step of the integers. -/
  step : TimerQueue.step threadId s lab.timerQueue = .next s'
  /-- A call makes a timer that is due at the sum, and not before the call. -/
  expiry : ∀ t p c, lab = .call t p c → ∃ tm, s'.heap p = some (.live tm) ∧ tm.when = c.expiry ∧
    ∀ a ∈ c.addends, a.1 ≤ tm.when
  /-- A repeating timer is due an interval later. -/
  restart : ∀ now ele rest tm, lab = .endTimer → s.pc = .running now ele rest →
    s.heap ele.timer = some (.live tm) → tm.Restarts →
      s'.heap ele.timer = some (.live { tm with when := tm.when + tm.interval })
  /-- The timerfd is set to what is left, at least a millisecond. -/
  timerfd : ∀ ts ∈ sets threadId s lab, ∃ value, durationFromNow s.clock ts = .next value ∧
    s'.timerfd = .settime s.clock value ∧ value.Valid ∧ value ≠ ⟨0, 0⟩ ∧
      value.nanoseconds = max (ts - s.clock) millisecond
  /-- No other step sets it. -/
  other : sets threadId s lab = none → lab ≠ .timerfdRead → (∀ now, lab ≠ .tick now) →
    s'.timerfd = s.timerfd

/-- The run overflows nowhere but at the bound of a batch, and its steps are exact. -/
def RunExact (threadId : Pid) (s₀ : TimerQueue) (w : List Label) : Prop :=
  (∀ o, o ≠ .bound → (system threadId).exec s₀ w ≠ .failed (.overflow o)) ∧
  ∀ w₁ lab w₂ s s', w = w₁ ++ lab :: w₂ → (system threadId).exec s₀ w₁ = .next s →
    (system threadId).step s lab = .next s' → Exact threadId s lab s'

/-- The possible steps of the run fit. -/
def RunFits (threadId : Pid) (s₀ : TimerQueue) (w : List Label) : Prop :=
  ∀ w₁ lab w₂ s, w = w₁ ++ lab :: w₂ → (system threadId).exec s₀ w₁ = .next s →
    (system threadId).step s lab ≠ .blocked → Fits threadId s lab

theorem InRange.exact (hs : InRange s) (h : Counts.step threadId s lab = .next s') :
    Exact threadId s lab s' := by
  obtain ⟨hf, hstep, -⟩ := step_spec hs h
  have hd := (Outcome.guard_eq_next.1 h).1
  have hq : Step threadId s lab.timerQueue s' := .of_step hstep
  refine ⟨hstep, fun t p c hl => ?_, fun now ele rest tm hl hpc htm hr => ?_, fun ts hts => ?_,
    fun hn hread htick => ?_⟩
  · subst hl
    have hle : ∀ a ∈ c.addends, a.1 ≤ c.expiry := by
      intro a ha
      cases c with
      | runAt when => cases ha
      | runAfter now d | runEvery now d =>
        cases ha
        exact le_add_of_nonneg_right hd.2
    rw [Label.timerQueue_call] at hq
    refine ⟨.new c.expiry c.interval, ?_, rfl, hle⟩
    cases hq with
    | addNow hc hp h =>
      cases h with
      | add hn => simp [TimerQueue.store]
    | addLater hc ht hp => simp [queueInLoop, TimerQueue.store]
  · subst hl
    cases hq with
    | restart hpc' hl hr' =>
      cases hpc.symm.trans hpc'
      cases htm.symm.trans hl
      simp [goOn, restarted, TimerQueue.store]
    | finish hpc' hl hr' =>
      cases hpc.symm.trans hpc'
      cases htm.symm.trans hl
      exact absurd hr hr'
  · have hset := timerfd_of_step hq (by rintro rfl; cases hts) (by rintro n rfl; cases hts)
    rw [show sets threadId s lab = some ts from hts] at hset
    exact ⟨_, durationFromNow_of_isCount (hf.isCount_sub hs hd hts), hset, durationFromNow_valid⟩
  · have hset := timerfd_of_step hq hread htick
    rw [hn] at hset
    exact hset

theorem InRange.of_exec {s₀ : TimerQueue} {w : List Label} (h0 : InRange s₀)
    (h : (system threadId).exec s₀ w = .next s) : InRange s :=
  (System.runIf_of_exec h).invariant (fun _ _ _ hs _ h => (step_spec hs h).2.2) h0

/-- **The arithmetic of the timers is exact where the steps fit.**  A run from a time after the epoch
overflows nowhere, gives each new timer a time that is not before the call and each restarted one a
time that is an interval later, and sets the timerfd to what is left until the first expiry, at least
a millisecond, if and only if in each of its steps there is room for the sum that is computed, and
the time point that goes to `timerfdSet` is at most `2 ^ 63` nanoseconds old. -/
theorem arithmetic_exact_iff {clock : Int64} (h0 : 0 < clock.toInt) (w : List Label) :
    RunExact threadId (.new clock.toInt) w ↔ RunFits threadId (.new clock.toInt) w := by
  constructor
  · rintro ⟨hne, -⟩ w₁ lab w₂ s hw h₁ hb
    by_contra hf
    have hd : lab.InDomain := Outcome.of_guard_ne_blocked hb
    have hact : (system threadId).step s lab = act threadId s lab := if_pos hd
    obtain h | ⟨o, ho, h⟩ := act_of_not_fits hd hf
    · exact hb (hact.trans h)
    · exact hne o ho (System.exec_eq_failed.2 ⟨w₁, lab, w₂, s, hw, h₁, hact.trans h⟩)
  · intro hfits
    refine ⟨fun o ho h => ?_, fun w₁ lab w₂ s s' hw h₁ h => ?_⟩
    · obtain ⟨w₁, lab, w₂, s, hw, h₁, h⟩ := System.exec_eq_failed.1 h
      have hf := hfits w₁ lab w₂ s hw h₁ (by rw [h]; simp)
      exact step_ne_overflow (.of_exec (.new h0) h₁) hf ho h
    · exact (InRange.of_exec (.new h0) h₁).exact h

/-- A timer that repeats runs once, another is overdue from the start. -/
def repeatRun : List Label :=
  [.call 0 1 (.runEvery 1 (2 ^ 61)), .call 0 2 (.runAt (-5)), .tick (2 ^ 61 + 1), .timerfdRead,
    .getExpired, .runTimer, .endTimer, .runTimer, .endTimer, .rearm]

theorem arithmetic_exact_iff_repeat :
    ((system 0).exec (.new (1 : Int64).toInt) repeatRun).Leads (fun s =>
      s.timers.toList = [⟨2 ^ 62 + 1, 1⟩] ∧ s.timerfd = ⟨some (2 ^ 62 + 1), false⟩) ∧
    (RunExact 0 (.new (1 : Int64).toInt) repeatRun ↔
      RunFits 0 (.new (1 : Int64).toInt) repeatRun) :=
  ⟨by decide +kernel, arithmetic_exact_iff (by decide) repeatRun⟩

/-- The sum of the longest interval, the difference to the earliest time point, and the second expiry
of a timer that repeats after half of the range. -/
theorem arithmetic_overflows :
    ((system 0).exec (.new 1) [.call 0 1 (.runAfter 1 Int64.maxValue)] =
        .failed (.overflow .expiry) ∧
      (system 0).exec (.new 1) [.call 0 1 (.runAt Int64.minValue)] =
        .failed (.overflow .difference) ∧
      (system 0).exec (.new 1) [.call 0 1 (.runEvery 1 (2 ^ 62)), .tick (2 ^ 62 + 1),
        .timerfdRead, .getExpired, .runTimer, .endTimer] = .failed (.overflow .restart)) ∧
    ¬ ∀ (clock : Int64) (w : List Label), 0 < clock.toInt → RunExact 0 (.new clock.toInt) w := by
  have hexpiry : (system 0).exec (.new 1) [.call 0 1 (.runAfter 1 Int64.maxValue)] =
      .failed (.overflow .expiry) := by
    decide +kernel
  refine ⟨⟨hexpiry, by decide +kernel, by decide +kernel⟩, fun h => ?_⟩
  exact (h 1 _ (by decide)).1 .expiry (by decide) hexpiry

end Counts
end Leven
