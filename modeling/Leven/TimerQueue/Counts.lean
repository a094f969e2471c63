import Leven.TimerQueue.Lifetime

/-!
# The timer queue in 64-bit counts

`std::chrono` keeps a time point or a duration as a signed 64-bit count of nanoseconds, and nothing
looks at whether the sum or the difference of two counts is one.  `TimerQueue` computes with
integers.  Here the functions that compute with counts are written once more, so that a computation
that overflows ends the run; the rest of the queue is what it was.

* `Overflow`: the computations; `count`: the result of one, where it is a count;
* `TimerCall`: the calls of `EventLoop`, and the time point and the interval that they pass on;
* `step`, `system`: the timer queue, at times after the epoch and for intervals that are not
  negative;
* `Fits`: there is room for the sum of the step, and the time point that it hands to `timerfdSet` is
  not too long before the clock;
* `act_of_fits`, `act_of_not_fits`: with the times `InRange`, a step that fits is that of
  `TimerQueue`, and one that does not overflows.
-/

namespace Leven

open Transition Container TimerQueue

namespace Counts

/-! ### Counts -/

/-- The computations with counts. -/
inductive Overflow
  /-- `runAfter`, `runEvery`: `clock::now() + interval` -/
  | expiry
  /-- `Timer::restart`: `when_ += interval_` -/
  | restart
  /-- `durationFromNow`: `ts - clock::now()` -/
  | difference
  /-- `getExpired`: `now + 1ns` -/
  | bound
  deriving DecidableEq

/-- What ends a run. -/
inductive Failure
  | overflow (o : Overflow)
  | fault (f : Fault)
  deriving DecidableEq

/-- The counts are below it. -/
def limit : ℤ := 2 ^ 63

/-- The integer is a count. -/
def IsCount (n : ℤ) : Prop := -limit ≤ n ∧ n < limit

instance : DecidablePred IsCount := fun _ => inferInstanceAs (Decidable (_ ∧ _))

/-- The result of a computation: the overflow of a signed integer is undefined. -/
def count (o : Overflow) (n : ℤ) : Outcome Failure ℤ :=
  if IsCount n then .next n else .failed (.overflow o)

/-! ### The calls of `EventLoop` -/

/-- What `runAt` hands to `addTimerTask`: the time point and the interval. -/
def runAt (when : ℤ) : Outcome Failure (ℤ × ℤ) := .next (when, 0)

/-- What `runAfter` hands to `addTimerTask`, when `clock::now()` answers `now`. -/
def runAfter (now interval : ℤ) : Outcome Failure (ℤ × ℤ) :=
  (count .expiry (now + interval)).bind runAt

/-- What `runEvery` hands to `addTimerTask`, when `clock::now()` answers `now`. -/
def runEvery (now interval : ℤ) : Outcome Failure (ℤ × ℤ) :=
  (count .expiry (now + interval)).bind fun when => .next (when, interval)

/-- The calls, with what `clock::now()` answers. -/
inductive TimerCall
  | runAt (when : Int64)
  | runAfter (now interval : Int64)
  | runEvery (now interval : Int64)
  deriving DecidableEq

namespace TimerCall

/-- The time point and the interval that `addTimerTask` gets. -/
def args : TimerCall → Outcome Failure (ℤ × ℤ)
  | .runAt when => Counts.runAt when.toInt
  | .runAfter now interval => Counts.runAfter now.toInt interval.toInt
  | .runEvery now interval => Counts.runEvery now.toInt interval.toInt

/-- The call happens after the epoch, and its interval is not negative. -/
def InDomain : TimerCall → Prop
  | .runAt _ => True
  | .runAfter now interval | .runEvery now interval => 0 < now.toInt ∧ 0 ≤ interval.toInt

instance : DecidablePred InDomain := fun c =>
  match c with
  | .runAt _ => isTrue trivial
  | .runAfter _ _ | .runEvery _ _ => inferInstanceAs (Decidable (_ ∧ _))

/-- What `clock::now()` answers and the interval, where they are added. -/
def addends : TimerCall → Option (ℤ × ℤ)
  | .runAt _ => none
  | .runAfter now interval | .runEvery now interval => some (now.toInt, interval.toInt)

/-- The time point, as an integer. -/
def expiry : TimerCall → ℤ
  | .runAt when => when.toInt
  | .runAfter now interval | .runEvery now interval => now.toInt + interval.toInt

/-- The interval of the timer. -/
def interval : TimerCall → ℤ
  | .runAt _ | .runAfter _ _ => 0
  | .runEvery _ interval => interval.toInt

end TimerCall

/-! ### `TimerQueue` -/

/-- What is left until `ts`, at least a millisecond. -/
def durationFromNow (clock ts : ℤ) : Outcome Failure Timespec :=
  (count .difference (ts - clock)).bind fun ns =>
    let ns := if ns < millisecond then millisecond else ns
    .next ⟨ns.tdiv Timespec.den, ns.tmod Timespec.den⟩

def timerfdSet (ts : ℤ) (s : TimerQueue) : Outcome Failure TimerQueue :=
  (durationFromNow s.clock ts).bind fun value =>
    .next { s with timerfd := .settime s.clock value }

/-- The entry of a new timer goes into `timers_`; at the front it sets the timerfd. -/
def inserted (timer : ℕ) (ts interval : ℤ) (s : TimerQueue) : Outcome Failure TimerQueue :=
  let s' := { s with
    timers := s.timers.insert ⟨ts, timer⟩
    added := s.added ++ [⟨timer, ts, interval, s.rounds.length⟩] }
  if s'.timers.first = some ⟨ts, timer⟩ then timerfdSet ts s' else .next s'

/-- The closure of `addTimerTask`. -/
def addInLoop (timer : ℕ) (ts interval : ℤ) (s : TimerQueue) : Outcome Failure TimerQueue :=
  if ⟨ts, timer⟩ ∈ s.timers then .failed (.fault (.assertion .addTimerTask))
  else inserted timer ts interval s

/-- A closure is run. -/
def perform (j : TimerJob) (s : TimerQueue) : Outcome Failure TimerQueue :=
  match j with
  | .add timer ts interval => addInLoop timer ts interval s
  | .cancel timer => (s.cancelInLoop timer).mapFailed .fault

/-- `EventLoop::runInLoop(Task&&)`, called by thread `t`. -/
def runInLoop (threadId t : Pid) (j : TimerJob) (s : TimerQueue) : Outcome Failure TimerQueue :=
  if t = threadId then perform j s else .next (s.queueInLoop j)

/-- The batch goes out of `timers_`; the bound of the batch is a nanosecond later. -/
def getExpired (now : ℤ) (s : TimerQueue) : Outcome Failure TimerQueue :=
  (count .bound (now + 1)).bind fun _ => .next (s.getExpired now)

/-- `Timer::restart`. -/
def restart (timer : Timer) : Outcome Failure Timer :=
  if timer.repeats then
    (count .restart (timer.when + timer.interval)).bind fun when =>
      .next { timer with when := when }
  else .failed (.fault (.assertion .restart))

/-- Behind the callback: the timer is restarted or deleted. -/
def endTimer (now : ℤ) (ele : Entry) (rest : List Entry) (s : TimerQueue) :
    Outcome Failure TimerQueue :=
  ((s.deref ele.timer).mapFailed .fault).bind fun tm =>
    if tm.canceled = false ∧ tm.repeats = true then
      (restart tm).bind fun tm' =>
        .next (((s.store ele.timer tm').restarted ele.timer tm'.when).goOn now rest)
    else ((s.goOn now rest).delete ele.timer).mapFailed .fault

/-- `timerfdSet` for the first timer. -/
def rearm (s : TimerQueue) : Outcome Failure TimerQueue :=
  match s.timers.first with
  | some e => timerfdSet e.when s
  | none => .next s

/-! ### The system -/

/-- The steps. -/
inductive Label
  /-- a call of thread `t`, for which `addTimerTask` makes the timer `timer` -/
  | call (t : Pid) (timer : ℕ) (c : TimerCall)
  | cancelTimer (t : Pid) (timer : ℕ)
  | runJob
  | tick (now : Int64)
  | timerfdRead
  | getExpired
  | runTimer
  | endTimer
  | rearm
  | destroy
  deriving DecidableEq

namespace Label

/-- The step of `TimerQueue`. -/
def timerQueue : Label → TimerQueue.Label
  | .call t timer (.runAt when) => .runAt t timer when.toInt
  | .call t timer (.runAfter now interval) => .runAfter now.toInt t timer interval.toInt
  | .call t timer (.runEvery now interval) => .runEvery now.toInt t timer interval.toInt
  | .cancelTimer t timer => .cancelTimer t timer
  | .runJob => .runJob
  | .tick now => .tick now.toInt
  | .timerfdRead => .timerfdRead
  | .getExpired => .getExpired
  | .runTimer => .runTimer
  | .endTimer => .endTimer
  | .rearm => .rearm
  | .destroy => .destroy

/-- The time is after the epoch, and the interval is not negative. -/
def InDomain : Label → Prop
  | .call _ _ c => c.InDomain
  | .tick now => 0 < now.toInt
  | _ => True

instance : DecidablePred InDomain := fun lab =>
  match lab with
  | .call _ _ c => inferInstanceAs (Decidable c.InDomain)
  | .tick now => inferInstanceAs (Decidable (0 < now.toInt))
  | .cancelTimer .. | .runJob | .timerfdRead | .getExpired | .runTimer | .endTimer | .rearm
  | .destroy => isTrue trivial

end Label

/-- What a step does. -/
def act (threadId : Pid) (s : TimerQueue) : Label → Outcome Failure TimerQueue
  | .call t timer c =>
    .guard (s.MayCall threadId t ∧ s.heap timer = none) <|
      c.args.bind fun (ts, interval) =>
        runInLoop threadId t (.add timer ts interval) (s.store timer (.new ts interval))
  | .cancelTimer t timer =>
    .guard (s.MayCall threadId t ∧ s.IsLive timer ∧ timer ∉ s.cancelCalls) <|
      runInLoop threadId t (.cancel timer) (s.noteCancel timer)
  | .runJob =>
    match s.pendingJobs with
    | j :: js => .guard (s.pc = .idle) <| perform j { s with pendingJobs := js }
    | [] => .blocked
  | .getExpired => .guard (s.pc = .reading) <| getExpired s.clock s
  | .endTimer =>
    match s.pc with
    | .running now ele rest => endTimer now ele rest s
    | _ => .blocked
  | .rearm =>
    match s.pc with
    | .handling _ [] => (rearm s).bind fun s' => .next { s' with pc := .idle }
    | _ => .blocked
  -- no computation with counts; a timer that `runTimer` finds canceled is not restarted
  | .tick now => (TimerQueue.step threadId s (.tick now.toInt)).mapFailed .fault
  | .timerfdRead => (TimerQueue.step threadId s .timerfdRead).mapFailed .fault
  | .runTimer => (TimerQueue.step threadId s .runTimer).mapFailed .fault
  | .destroy => (TimerQueue.step threadId s .destroy).mapFailed .fault

/-- The step function. -/
def step (threadId : Pid) (s : TimerQueue) (lab : Label) : Outcome Failure TimerQueue :=
  .guard lab.InDomain (act threadId s lab)

/-- The timer queue of the loop of thread `threadId`, made at a time after the epoch. -/
def system (threadId : Pid) : System TimerQueue Label Failure where
  init s := ∃ clock : Int64, 0 < clock.toInt ∧ s = .new clock.toInt
  step := step threadId

variable {threadId t : Pid} {s s' : TimerQueue} {lab : Label} {tlab : TimerQueue.Label} {p : ℕ}
  {tm : Timer} {ts d now clock n : ℤ} {ele : Entry} {rest : List Entry} {j : TimerJob}
  {o : Overflow}

/-! ### The operations are those of `TimerQueue`, or overflow -/

@[simp] theorem count_of_isCount (h : IsCount n) : count o n = .next n := if_pos h

@[simp] theorem count_of_not_isCount (h : ¬ IsCount n) : count o n = .failed (.overflow o) :=
  if_neg h

@[simp] theorem count_eq_next {m : ℤ} : count o n = .next m ↔ IsCount n ∧ n = m := by
  unfold count
  split_ifs with h <;> simp [h]

theorem timerfdSet_of_isCount (h : IsCount (ts - s.clock)) :
    timerfdSet ts s = .next (s.timerfdSet ts) := by
  rw [timerfdSet, durationFromNow, count_of_isCount h]
  rfl

theorem timerfdSet_of_not_isCount (h : ¬ IsCount (ts - s.clock)) :
    timerfdSet ts s = .failed (.overflow .difference) := by
  rw [timerfdSet, durationFromNow, count_of_not_isCount h]
  rfl

/-- The time point that a closure hands to `timerfdSet`, where its entry goes to the front. -/
def jobSets (j : TimerJob) (s : TimerQueue) : Option ℤ :=
  match j with
  | .add timer ts _ =>
    if (⟨ts, timer⟩ : Entry) ∉ s.timers ∧ (s.timers.insert ⟨ts, timer⟩).first = some ⟨ts, timer⟩
    then some ts else none
  | .cancel _ => none

theorem perform_of_isCount (h : ∀ ts ∈ jobSets j s, IsCount (ts - s.clock)) :
    perform j s = (s.perform j).mapFailed .fault := by
  cases j with
  | add timer ts interval =>
    simp only [perform, TimerQueue.perform, addInLoop, TimerQueue.addInLoop]
    split_ifs with hm
    · rfl
    · simp only [inserted, TimerQueue.inserted]
      split_ifs with hf
      · exact timerfdSet_of_isCount (h ts (by simp [jobSets, hm, hf]))
      · rfl
  | cancel timer => rfl

theorem perform_of_not_isCount (hts : ts ∈ jobSets j s) (h : ¬ IsCount (ts - s.clock)) :
    perform j s = .failed (.overflow .difference) := by
  cases j with
  | add timer ts' interval =>
    simp only [jobSets, Option.mem_ite_none_right, Option.mem_some_iff] at hts
    obtain ⟨⟨hm, hf⟩, rfl⟩ := hts
    simp only [perform, addInLoop, if_neg hm, inserted, if_pos hf]
    exact timerfdSet_of_not_isCount h
  | cancel timer => cases hts

theorem rearm_of_isCount (h : ∀ e, s.timers.first = some e → IsCount (e.when - s.clock)) :
    rearm s = .next s.rearm := by
  unfold rearm TimerQueue.rearm
  cases hf : s.timers.first with
  | some e => exact timerfdSet_of_isCount (h e hf)
  | none => rfl

theorem rearm_of_not_isCount {e : Entry} (he : s.timers.first = some e)
    (h : ¬ IsCount (e.when - s.clock)) : rearm s = .failed (.overflow .difference) := by
  rw [rearm, he]
  exact timerfdSet_of_not_isCount h

theorem restart_of_isCount (h : IsCount (tm.when + tm.interval)) :
    restart tm = (Outcome.ofExcept tm.restart).mapFailed fun a => .fault (.assertion a) := by
  rw [restart, Timer.restart, count_of_isCount h]
  split_ifs <;> rfl

theorem restart_of_not_isCount (hr : tm.repeats = true) (h : ¬ IsCount (tm.when + tm.interval)) :
    restart tm = .failed (.overflow .restart) := by
  rw [restart, if_pos hr, count_of_not_isCount h]
  rfl

/-- The addends of the sum by which a callback's timer is restarted. -/
def restartAddends (ele : Entry) (s : TimerQueue) : Option (ℤ × ℤ) :=
  match s.heap ele.timer with
  | some (.live tm) =>
    if tm.canceled = false ∧ tm.repeats = true then some (tm.when, tm.interval) else none
  | _ => none

theorem endTimer_of_isCount (h : ∀ a ∈ restartAddends ele s, IsCount (a.1 + a.2)) :
    endTimer now ele rest s = (s.endTimer now ele rest).mapFailed .fault := by
  unfold endTimer TimerQueue.endTimer
  rw [Outcome.mapFailed_bind]
  cases hd : s.deref ele.timer with
  | next tm =>
    rw [deref_eq_next] at hd
    simp only [Outcome.mapFailed, Outcome.bind]
    split_ifs with hr
    · rw [restart_of_isCount (h (tm.when, tm.interval) (by simp [restartAddends, hd, hr]))]
      cases tm.restart <;> rfl
    · rfl
  | blocked | failed f => rfl

theorem endTimer_of_not_isCount {a : ℤ × ℤ} (ha : a ∈ restartAddends ele s)
    (h : ¬ IsCount (a.1 + a.2)) : endTimer now ele rest s = .failed (.overflow .restart) := by
  unfold restartAddends at ha
  split at ha
  case h_1 tm hl =>
    obtain ⟨hr, ha⟩ := Option.mem_ite_none_right.1 ha
    cases ha
    have hd : s.deref ele.timer = .next tm := deref_eq_next.2 hl
    simp only [endTimer, hd, Outcome.mapFailed, Outcome.bind, if_pos hr,
      restart_of_not_isCount hr.2 h]
  case h_2 => cases ha

/-! ### Steps that fit -/

/-- The addends of the time point that the step computes, if it computes one: what `clock::now()`
answers or the last expiry, and the interval. -/
def addends (s : TimerQueue) : Label → Option (ℤ × ℤ)
  | .call _ _ c => c.addends
  | .endTimer =>
    match s.pc with
    | .running _ ele _ => restartAddends ele s
    | _ => none
  | _ => none

/-- The time point that the step hands to `timerfdSet`, if it hands over one. -/
def sets (threadId : Pid) (s : TimerQueue) : Label → Option ℤ
  | .call t timer c => if t = threadId then jobSets (.add timer c.expiry c.interval) s else none
  | .runJob => s.pendingJobs.head?.bind fun j => jobSets j s
  | .rearm => s.timers.first.map Entry.when
  | _ => none

/-- The interval that the step adds to a time point leaves room below the limit, and the time point
that it hands to `timerfdSet` is not too long before the clock. -/
structure Fits (threadId : Pid) (s : TimerQueue) (lab : Label) : Prop where
  sum : ∀ a ∈ addends s lab, a.2 < limit - a.1
  difference : ∀ ts ∈ sets threadId s lab, s.clock - limit ≤ ts

/-- The times of the queue are counts, and the clock is past the epoch. -/
structure InRange (s : TimerQueue) : Prop where
  clock_pos : 0 < s.clock
  clock_lt : s.clock < limit
  entry : ∀ e ∈ s.timers, IsCount e.when
  job : ∀ timer ts interval, .add timer ts interval ∈ s.pendingJobs → IsCount ts
  timer : ∀ p tm, s.heap p = some (.live tm) → IsCount tm.when

theorem isCount_toInt (n : Int64) : IsCount n.toInt := ⟨n.le_toInt, n.toInt_lt⟩

/-- A sum of addends that are not negative is a count where there is room for it. -/
theorem isCount_add_iff {a d : ℤ} (ha : -limit ≤ a) (hd : 0 ≤ d) :
    IsCount (a + d) ↔ d < limit - a := by
  unfold IsCount
  omega

theorem TimerCall.isCount_expiry_iff {c : TimerCall} (hc : c.InDomain) :
    IsCount c.expiry ↔ ∀ a ∈ c.addends, a.2 < limit - a.1 := by
  cases c with
  | runAt when => simp [expiry, addends, isCount_toInt]
  | runAfter now d | runEvery now d =>
    have hd : 0 ≤ d.toInt := hc.2
    simpa [expiry, addends] using isCount_add_iff (isCount_toInt now).1 hd

theorem TimerCall.args_eq (c : TimerCall) :
    c.args = (count .expiry c.expiry).bind fun _ => .next (c.expiry, c.interval) := by
  cases c with
  | runAt when => rw [expiry, count_of_isCount (isCount_toInt when)]; rfl
  | runAfter now d | runEvery now d =>
    by_cases h : IsCount (now.toInt + d.toInt)
    · simp only [args, Counts.runAfter, Counts.runEvery, expiry, count_of_isCount h]
      rfl
    · simp only [args, Counts.runAfter, Counts.runEvery, expiry, count_of_not_isCount h]
      rfl

/-- With the clock past the epoch, a time point is not too far behind it. -/
theorem InRange.isCount_sub_iff (hs : InRange s) (hts : IsCount ts) :
    IsCount (ts - s.clock) ↔ s.clock - limit ≤ ts := by
  have hpos := hs.clock_pos
  unfold IsCount at *
  omega

theorem isCount_of_jobSets (h : ts ∈ jobSets j s) (hj : ∀ p ts d, j = .add p ts d → IsCount ts) :
    IsCount ts := by
  cases j with
  | add p ts' d =>
    obtain ⟨-, h⟩ := Option.mem_ite_none_right.1 h
    cases h
    exact hj p ts d rfl
  | cancel p => cases h

/-- What a step that fits hands to `timerfdSet` is a count, and so is what is left until then. -/
theorem Fits.isCount_sub (hf : Fits threadId s lab) (hs : InRange s) (hd : lab.InDomain)
    (hts : ts ∈ sets threadId s lab) : IsCount (ts - s.clock) := by
  refine (hs.isCount_sub_iff ?_).2 (hf.difference ts hts)
  cases lab with
  | call t p c =>
    obtain ⟨-, hts⟩ := Option.mem_ite_none_right.1 hts
    refine isCount_of_jobSets hts fun q ts d h => ?_
    cases h
    exact (TimerCall.isCount_expiry_iff hd).2 hf.sum
  | runJob =>
    obtain ⟨j, hj, hts⟩ := Option.bind_eq_some_iff.1 hts
    refine isCount_of_jobSets hts fun q ts d h => hs.job q ts d ?_
    exact h ▸ List.mem_of_mem_head? hj
  | rearm =>
    obtain ⟨e, he, rfl⟩ := Option.map_eq_some_iff.1 hts
    exact hs.entry e (SortedSet.mem_of_first he)
  | cancelTimer _ _ | tick _ | timerfdRead | getExpired | runTimer | endTimer | destroy => cases hts

theorem runInLoop_of_isCount (h : t = threadId → ∀ ts ∈ jobSets j s, IsCount (ts - s.clock)) :
    runInLoop threadId t j s = (s.runInLoop threadId t j).mapFailed .fault := by
  unfold runInLoop TimerQueue.runInLoop
  split_ifs with ht
  · exact perform_of_isCount (h ht)
  · rfl

theorem Label.timerQueue_call {c : TimerCall} :
    (Label.call t p c).timerQueue = .addTimerTask t p c.expiry c.interval := by
  cases c <;> rfl

/-- What a step computes with counts are counts, where it fits. -/
theorem Fits.isCount_restart {a : ℤ × ℤ} (hf : Fits threadId s .endTimer) (hs : InRange s)
    (hpc : s.pc = .running now ele rest) (ha : a ∈ restartAddends ele s) : IsCount (a.1 + a.2) := by
  have hlt : a.2 < limit - a.1 := hf.sum a (by rw [addends, hpc]; exact ha)
  unfold restartAddends at ha
  split at ha
  case h_1 tm hl =>
    obtain ⟨hr, ha⟩ := Option.mem_ite_none_right.1 ha
    cases ha
    have hpos : 0 < tm.interval := by simpa [Timer.repeats] using hr.2
    exact (isCount_add_iff (hs.timer _ _ hl).1 hpos.le).2 hlt
  case h_2 => cases ha

/-- A step that fits is that of `TimerQueue`; only the bound of the batch may still overflow. -/
theorem act_of_fits (hs : InRange s) (hd : lab.InDomain) (hf : Fits threadId s lab)
    (hne : lab ≠ .getExpired) :
    act threadId s lab = (TimerQueue.step threadId s lab.timerQueue).mapFailed .fault := by
  cases lab with
  | call t p c =>
    have hexp : IsCount c.expiry := (TimerCall.isCount_expiry_iff hd).2 hf.sum
    have hrun : runInLoop threadId t (.add p c.expiry c.interval)
        (s.store p (.new c.expiry c.interval)) =
        ((s.store p (.new c.expiry c.interval)).runInLoop threadId t
          (.add p c.expiry c.interval)).mapFailed .fault := by
      refine runInLoop_of_isCount fun ht ts hts => hf.isCount_sub hs hd ?_
      rw [sets, if_pos ht]
      exact hts
    rw [Label.timerQueue_call, TimerQueue.step, Outcome.mapFailed_guard, ← hrun, act, c.args_eq,
      count_of_isCount hexp]
    rfl
  | cancelTimer t p =>
    have hrun : runInLoop threadId t (.cancel p) (s.noteCancel p) =
        ((s.noteCancel p).runInLoop threadId t (.cancel p)).mapFailed .fault :=
      runInLoop_of_isCount fun _ ts hts => by cases hts
    rw [Label.timerQueue, TimerQueue.step, Outcome.mapFailed_guard, ← hrun, act]
  | runJob =>
    rw [Label.timerQueue, TimerQueue.step, act]
    cases hj : s.pendingJobs with
    | cons j js =>
      have hrun : perform j { s with pendingJobs := js } =
          (TimerQueue.perform j { s with pendingJobs := js }).mapFailed .fault := by
        refine perform_of_isCount fun ts hts => hf.isCount_sub hs hd ?_
        rw [sets, hj]
        exact hts
      dsimp only
      rw [Outcome.mapFailed_guard, hrun]
    | nil => rfl
  | getExpired => exact absurd rfl hne
  | endTimer =>
    rw [Label.timerQueue, TimerQueue.step, act]
    cases hpc : s.pc with
    | running now ele rest => exact endTimer_of_isCount fun a ha => hf.isCount_restart hs hpc ha
    | idle | reading | handling now rest | destroyed => rfl
  | rearm =>
    have hrun : rearm s = .next s.rearm := by
      refine rearm_of_isCount fun e he => hf.isCount_sub hs hd ?_
      simp [sets, he]
    rw [Label.timerQueue, TimerQueue.step, act]
    cases hpc : s.pc with
    | handling now rest =>
      cases rest with
      | nil => rw [hrun]; rfl
      | cons ele rest => rfl
    | idle | reading | running now ele rest | destroyed => rfl
  | tick _ | timerfdRead | runTimer | destroy => rfl

/-- A sum for which there is no room overflows. -/
theorem act_of_addends (threadId : Pid) {a : ℤ × ℤ} (ha : a ∈ addends s lab)
    (h : ¬ a.2 < limit - a.1) :
    act threadId s lab = .blocked ∨ act threadId s lab = .failed (.overflow .expiry) ∨
      act threadId s lab = .failed (.overflow .restart) := by
  have hcount : ¬ IsCount (a.1 + a.2) := by
    unfold IsCount
    omega
  cases lab with
  | call t p c =>
    have hargs : c.args = .failed (.overflow .expiry) := by
      have hexp : c.expiry = a.1 + a.2 := by
        cases c <;> cases ha <;> rfl
      rw [c.args_eq, hexp, count_of_not_isCount hcount]
      rfl
    rw [act, hargs]
    exact Outcome.guard_eq_or.imp_right .inl
  | endTimer =>
    rw [act]
    unfold addends at ha
    cases hpc : s.pc with
    | running now ele rest =>
      rw [hpc] at ha
      exact .inr (.inr (endTimer_of_not_isCount ha hcount))
    | idle | reading | handling now rest | destroyed => exact .inl rfl
  | cancelTimer _ _ | runJob | tick _ | timerfdRead | getExpired | runTimer | rearm | destroy =>
    cases ha

/-- A time point too long before the clock makes the difference overflow. -/
theorem act_of_sets (hd : lab.InDomain) (hsum : ∀ a ∈ addends s lab, a.2 < limit - a.1)
    (hts : ts ∈ sets threadId s lab) (h : ¬ s.clock - limit ≤ ts) :
    act threadId s lab = .blocked ∨ act threadId s lab = .failed (.overflow .difference) := by
  have hcount : ¬ IsCount (ts - s.clock) := by
    unfold IsCount
    omega
  cases lab with
  | call t p c =>
    obtain ⟨ht, hts⟩ := Option.mem_ite_none_right.1 hts
    have hexp : IsCount c.expiry := (TimerCall.isCount_expiry_iff hd).2 hsum
    have hrun : runInLoop threadId t (.add p c.expiry c.interval)
        (s.store p (.new c.expiry c.interval)) = .failed (.overflow .difference) := by
      rw [runInLoop, if_pos ht]
      exact perform_of_not_isCount hts hcount
    rw [act, c.args_eq, count_of_isCount hexp]
    dsimp only [Outcome.bind]
    rw [hrun]
    exact Outcome.guard_eq_or
  | runJob =>
    unfold sets at hts
    rw [act]
    cases hj : s.pendingJobs with
    | cons j js =>
      rw [hj] at hts
      have hrun : perform j { s with pendingJobs := js } = .failed (.overflow .difference) :=
        perform_of_not_isCount hts hcount
      dsimp only
      rw [hrun]
      exact Outcome.guard_eq_or
    | nil => exact .inl rfl
  | rearm =>
    obtain ⟨e, he, rfl⟩ := Option.map_eq_some_iff.1 hts
    rw [act, rearm_of_not_isCount he hcount]
    split
    · exact .inr rfl
    · exact .inl rfl
  | cancelTimer _ _ | tick _ | timerfdRead | getExpired | runTimer | endTimer | destroy => cases hts

/-- A step that does not fit is not possible, or overflows. -/
theorem act_of_not_fits (hd : lab.InDomain) (hf : ¬ Fits threadId s lab) :
    act threadId s lab = .blocked ∨
      ∃ o, o ≠ .bound ∧ act threadId s lab = .failed (.overflow o) := by
  by_cases hsum : ∀ a ∈ addends s lab, a.2 < limit - a.1
  · have hset : ∃ ts ∈ sets threadId s lab, ¬ s.clock - limit ≤ ts := by
      by_contra h
      push Not at h
      exact hf ⟨hsum, h⟩
    obtain ⟨ts, hts, h⟩ := hset
    exact (act_of_sets hd hsum hts h).imp_right fun h => ⟨.difference, by simp, h⟩
  · push Not at hsum
    obtain ⟨a, ha, h⟩ := hsum
    obtain h | h | h := act_of_addends threadId ha (not_lt.2 h)
    · exact .inl h
    · exact .inr ⟨.expiry, by simp, h⟩
    · exact .inr ⟨.restart, by simp, h⟩

end Counts
end Leven
