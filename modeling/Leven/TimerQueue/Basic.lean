import Leven.Transition.System
import Leven.Container.SortedSet
import Leven.Basic
import Mathlib.Data.Prod.Lex

/-!
# TimerQueue

The timer queue of the loop of thread `threadId`, and the threads that call it through the loop, as
a transition system.  The loop thread moves through `handleRead` callback by callback; the user code
it runs, in a callback or between two calls of `handleRead`, may call `addTimerTask` and
`cancelTimer`, and so may the other threads at any time.

* `Timer`, `Entry`: a timer, and an element of `timers_`, ordered as `std::pair` orders them;
* `Cell`: what a pointer to a timer points to; `deref` and `delete` fail on a deleted timer;
* `addInLoop`, `cancelInLoop`: the closures of `addTimerTask` and `cancelTimer`;
* `step`, `system`, and the inversion `Step.of_step`.

A timer is known by a number that no other timer of the run has, and a new timer takes any number
that is left, since the order of the pointers is the allocator's.  Time points and durations are
integers, in nanoseconds.  The lists `rounds`, `added`,
`ran`, `cancelCalls` and `cancelled` only record what has happened.
-/

namespace Leven

open Transition Container

/-- A timer, without its callback. -/
structure Timer where
  when : ℤ
  interval : ℤ
  canceled : Bool
  deriving DecidableEq

namespace Timer

/-- The constructor. -/
def new (when interval : ℤ) : Timer := ⟨when, interval, false⟩

/-- `repeat()`. -/
def repeats (timer : Timer) : Bool := decide (0 < timer.interval)

def expired (timer : Timer) (now : ℤ) : Bool := decide (timer.when ≤ now)

def restart (timer : Timer) : Except Assertion Timer :=
  if timer.repeats then .ok { timer with when := timer.when + timer.interval } else .error .restart

def cancel (timer : Timer) : Except Assertion Timer :=
  if timer.canceled then .error .cancel else .ok { timer with canceled := true }

/-- The timer repeats, and has not been cancelled. -/
def Restarts (timer : Timer) : Prop := timer.canceled = false ∧ 0 < timer.interval

end Timer

/-- An element of `timers_`. -/
structure Entry where
  when : ℤ
  timer : ℕ
  deriving DecidableEq

/-- The pair. -/
def Entry.key (e : Entry) : ℤ ×ₗ ℕ := toLex (e.when, e.timer)

theorem Entry.key_injective : Function.Injective Entry.key := by
  rintro ⟨w, p⟩ ⟨v, q⟩ h
  simpa [Entry.key] using h

instance : LinearOrder Entry := LinearOrder.lift' Entry.key Entry.key_injective

theorem Entry.lt_iff {e f : Entry} :
    e < f ↔ e.when < f.when ∨ e.when = f.when ∧ e.timer < f.timer := by
  change e.key < f.key ↔ _
  simp [Entry.key, Prod.Lex.toLex_lt_toLex]

/-- The bound `{now + 1ns, nullptr}` is above the entries that are due, and above no other. -/
theorem Entry.lt_bound_iff {e : Entry} {now : ℤ} :
    e < ⟨now + 1, 0⟩ ↔ e.when ≤ now := by
  rw [Entry.lt_iff]
  simp only [Nat.not_lt_zero, and_false, or_false]
  omega

theorem Entry.when_le_of_lt {e f : Entry} (h : e < f) : e.when ≤ f.when := by
  rcases Entry.lt_iff.1 h with h | h <;> omega

/-- What a pointer to a timer points to. -/
inductive Cell
  | live (timer : Timer)
  | deleted
  deriving DecidableEq

/-- The closures that `addTimerTask` and `cancelTimer` hand to the loop. -/
inductive TimerJob
  | add (timer : ℕ) (ts interval : ℤ)
  | cancel (timer : ℕ)
  deriving DecidableEq

/-- The entry that a closure will insert. -/
def TimerJob.entry : TimerJob → Option Entry
  | .add timer ts _ => some ⟨ts, timer⟩
  | .cancel _ => none

/-- Where the loop thread is. -/
inductive TimerPc
  /-- not in `handleRead` -/
  | idle
  /-- `handleRead`: behind `timerfdRead` -/
  | reading
  /-- `handleRead`: at the head of its loop, with the rest of the batch -/
  | handling (now : ℤ) (rest : List Entry)
  /-- `handleRead`: in the callback of the timer of `ele` -/
  | running (now : ℤ) (ele : Entry) (rest : List Entry)
  /-- behind the destructor -/
  | destroyed
  deriving DecidableEq

/-- User code runs in the loop thread in a callback, or outside of `handleRead`. -/
def TimerPc.isUserCode : TimerPc → Bool
  | .idle | .running .. => true
  | _ => false

/-- The part of the batch that `handleRead` is not done with. -/
def TimerPc.batch : TimerPc → List Entry
  | .handling _ rest => rest
  | .running _ ele rest => ele :: rest
  | _ => []

/-- The part of the batch whose callbacks have not been called. -/
def TimerPc.waiting : TimerPc → List Entry
  | .handling _ rest | .running _ _ rest => rest
  | _ => []

/-- The clock reading of the call of `handleRead`. -/
def TimerPc.now : TimerPc → Option ℤ
  | .handling now _ | .running now _ _ => some now
  | _ => none

/-- The timerfd: the time at which it expires, and an expiration that has not been read. -/
structure Timerfd where
  armed : Option ℤ
  unread : Bool
  deriving DecidableEq

/-- The timerfd at the time `now`. -/
def Timerfd.advance (now : ℤ) (fd : Timerfd) : Timerfd :=
  match fd.armed with
  | some ts => if ts ≤ now then ⟨none, true⟩ else fd
  | none => fd

/-- `struct timespec`. -/
structure Timespec where
  sec : ℤ
  nsec : ℤ
  deriving DecidableEq

/-- `std::nano::den`. -/
def Timespec.den : ℤ := 1000000000

/-- `timerfd_settime`, at the time `now`: an expiration that has not been read is cleared, and the
value zero disarms the timerfd. -/
def Timerfd.settime (now : ℤ) (value : Timespec) : Timerfd where
  armed :=
    if value.sec = 0 ∧ value.nsec = 0 then none
    else some (now + (value.sec * Timespec.den + value.nsec))
  unread := false

/-- A timer whose entry went into `timers_` when `round` calls of `handleRead` had taken their
batch. -/
structure Added where
  timer : ℕ
  when : ℤ
  interval : ℤ
  round : ℕ
  deriving DecidableEq

/-- A callback, run by the call number `round` of `handleRead` for an entry with key `expiry`. -/
structure Firing where
  round : ℕ
  timer : ℕ
  expiry : ℤ
  deriving DecidableEq

/-- The timer queue and its environment. -/
structure TimerQueue where
  timers : SortedSet Entry
  heap : ℕ → Option Cell
  pendingJobs : List TimerJob
  pc : TimerPc
  timerfd : Timerfd
  /-- what `clock::now()` answers -/
  clock : ℤ
  /-- the clock readings of the calls of `handleRead` -/
  rounds : List ℤ
  added : List Added
  ran : List Firing
  /-- the timers for which `cancelTimer` has been called -/
  cancelCalls : List ℕ
  /-- the timers for which the body of `cancelTimer` has run -/
  cancelled : List ℕ

namespace TimerQueue

/-- The steps. -/
inductive Label
  | addTimerTask (t : Pid) (timer : ℕ) (ts interval : ℤ)
  | cancelTimer (t : Pid) (timer : ℕ)
  /-- the loop runs a queued closure -/
  | runJob
  /-- the clock changes -/
  | tick (now : ℤ)
  /-- the call of `handleRead`, with `timerfdRead` -/
  | timerfdRead
  /-- `handleRead`: `clock::now()` and `getExpired` -/
  | getExpired
  /-- `handleRead`: the next timer of the batch, up to the call of its callback -/
  | runTimer
  /-- `handleRead`: the callback returns, and the timer is restarted or deleted -/
  | endTimer
  /-- `handleRead`: behind its loop -/
  | rearm
  /-- `~TimerQueue` -/
  | destroy
  deriving DecidableEq

/-- `EventLoop::runAt`. -/
def Label.runAt (t : Pid) (timer : ℕ) (when : ℤ) : Label := .addTimerTask t timer when 0

/-- `EventLoop::runAfter`, at the time `now`. -/
def Label.runAfter (now : ℤ) (t : Pid) (timer : ℕ) (interval : ℤ) : Label :=
  .addTimerTask t timer (now + interval) 0

/-- `EventLoop::runEvery`, at the time `now`. -/
def Label.runEvery (now : ℤ) (t : Pid) (timer : ℕ) (interval : ℤ) : Label :=
  .addTimerTask t timer (now + interval) interval

/-! ### The timerfd -/

/-- `1ms`. -/
def millisecond : ℤ := 1000000

/-- What is left until `ts`, at least a millisecond. -/
def durationFromNow (clock ts : ℤ) : Timespec :=
  let ns := if ts - clock < millisecond then millisecond else ts - clock
  ⟨ns.tdiv Timespec.den, ns.tmod Timespec.den⟩

/-- `timerfdSet`. -/
def timerfdSet (ts : ℤ) (s : TimerQueue) : TimerQueue :=
  { s with timerfd := .settime s.clock (durationFromNow s.clock ts) }

/-! ### The timers on the heap -/

/-- Access a timer. -/
def deref (timer : ℕ) (s : TimerQueue) : Outcome Fault Timer :=
  match s.heap timer with
  | some (.live tm) => .next tm
  | _ => .failed .destroyed

/-- Write a timer. -/
def store (timer : ℕ) (tm : Timer) (s : TimerQueue) : TimerQueue :=
  { s with heap := Function.update s.heap timer (some (.live tm)) }

/-- Mark a timer as deleted. -/
def drop (timer : ℕ) (s : TimerQueue) : TimerQueue :=
  { s with heap := Function.update s.heap timer (some .deleted) }

/-- `delete timer`. -/
def delete (timer : ℕ) (s : TimerQueue) : Outcome Fault TimerQueue :=
  match s.heap timer with
  | some (.live _) => .next (s.drop timer)
  | _ => .failed .deletedTwice

/-- `delete p.second` for each element of `timers_`. -/
def deleteAll : List Entry → TimerQueue → Outcome Fault TimerQueue
  | [], s => .next s
  | e :: es, s => (s.delete e.timer).bind (deleteAll es)

/-! ### `addTimerTask` and `cancelTimer` -/

/-- The entry of a new timer goes into `timers_`; at the front it sets the timerfd. -/
def inserted (timer : ℕ) (ts interval : ℤ) (s : TimerQueue) : TimerQueue :=
  let s' := { s with
    timers := s.timers.insert ⟨ts, timer⟩
    added := s.added ++ [⟨timer, ts, interval, s.rounds.length⟩] }
  if s'.timers.first = some ⟨ts, timer⟩ then s'.timerfdSet ts else s'

/-- The closure of `addTimerTask`. -/
def addInLoop (timer : ℕ) (ts interval : ℤ) (s : TimerQueue) : Outcome Fault TimerQueue :=
  if ⟨ts, timer⟩ ∈ s.timers then .failed (.assertion .addTimerTask)
  else .next (s.inserted timer ts interval)

/-- `timers_.erase`, in the closure of `cancelTimer`. -/
def erased (timer : ℕ) (when : ℤ) (s : TimerQueue) : TimerQueue :=
  { s with
    timers := s.timers.erase ⟨when, timer⟩
    cancelled := s.cancelled ++ [timer] }

/-- The closure of `cancelTimer`. -/
def cancelInLoop (timer : ℕ) (s : TimerQueue) : Outcome Fault TimerQueue :=
  (s.deref timer).bind fun tm =>
    ((Outcome.ofExcept tm.cancel).mapFailed Fault.assertion).bind fun tm' =>
      ((s.store timer tm').erased timer tm'.when).delete timer

/-- A closure is run. -/
def perform (j : TimerJob) (s : TimerQueue) : Outcome Fault TimerQueue :=
  match j with
  | .add timer ts interval => s.addInLoop timer ts interval
  | .cancel timer => s.cancelInLoop timer

/-- `EventLoop::queueInLoop`. -/
def queueInLoop (j : TimerJob) (s : TimerQueue) : TimerQueue :=
  { s with pendingJobs := s.pendingJobs ++ [j] }

/-- `EventLoop::runInLoop(Task&&)`, called by thread `t`. -/
def runInLoop (threadId t : Pid) (j : TimerJob) (s : TimerQueue) : Outcome Fault TimerQueue :=
  if t = threadId then s.perform j else .next (s.queueInLoop j)

/-! ### `handleRead` -/

/-- The batch goes out of `timers_`. -/
def getExpired (now : ℤ) (s : TimerQueue) : TimerQueue :=
  { s with
    -- `lower_bound` of the entry (now + 1, nullptr)
    timers := s.timers.notBelow ⟨now + 1, 0⟩
    pc := .handling now (s.timers.below ⟨now + 1, 0⟩)
    rounds := s.rounds ++ [now] }

/-- The loop of `handleRead` is at its head. -/
def goOn (now : ℤ) (rest : List Entry) (s : TimerQueue) : TimerQueue :=
  { s with pc := .handling now rest }

/-- The entry of a restarted timer goes into `timers_`. -/
def restarted (timer : ℕ) (when : ℤ) (s : TimerQueue) : TimerQueue :=
  { s with timers := s.timers.insert ⟨when, timer⟩ }

/-- Behind the callback: the timer is restarted or deleted. -/
def endTimer (now : ℤ) (ele : Entry) (rest : List Entry) (s : TimerQueue) :
    Outcome Fault TimerQueue :=
  (s.deref ele.timer).bind fun tm =>
    if tm.canceled = false ∧ tm.repeats = true then
      ((Outcome.ofExcept tm.restart).mapFailed Fault.assertion).bind fun tm' =>
        .next (((s.store ele.timer tm').restarted ele.timer tm'.when).goOn now rest)
    else (s.goOn now rest).delete ele.timer

/-- The callback of the timer of `ele` is called. -/
def called (now : ℤ) (ele : Entry) (rest : List Entry) (s : TimerQueue) : TimerQueue :=
  { s with
    pc := .running now ele rest
    ran := s.ran ++ [⟨s.rounds.length - 1, ele.timer, ele.when⟩] }

/-- The next timer of the batch. -/
def runTimer (now : ℤ) (ele : Entry) (rest : List Entry) (s : TimerQueue) :
    Outcome Fault TimerQueue :=
  (s.deref ele.timer).bind fun tm =>
    if tm.expired now = false then .failed (.assertion .timerExpired)
    -- a canceled timer is not called; what follows the callback deletes it
    else if tm.canceled then s.endTimer now ele rest
    else .next (s.called now ele rest)

/-- `timerfdSet` for the first timer. -/
def rearm (s : TimerQueue) : TimerQueue :=
  match s.timers.first with
  | some e => s.timerfdSet e.when
  | none => s

/-! ### The system -/

/-- Thread `t` may call the queue: the loop thread from user code only. -/
def MayCall (threadId t : Pid) (s : TimerQueue) : Prop :=
  s.pc ≠ .destroyed ∧ (t = threadId → s.pc.isUserCode = true)

instance (threadId t : Pid) (s : TimerQueue) : Decidable (s.MayCall threadId t) :=
  inferInstanceAs (Decidable (_ ∧ (t = threadId → _)))

/-- The timer exists. -/
def IsLive (timer : ℕ) (s : TimerQueue) : Prop := ∃ tm, s.heap timer = some (.live tm)

instance (timer : ℕ) (s : TimerQueue) : Decidable (s.IsLive timer) :=
  match h : s.heap timer with
  | some (.live tm) => isTrue ⟨tm, h⟩
  | some .deleted => isFalse fun ⟨_, h'⟩ => by simp [h] at h'
  | none => isFalse fun ⟨_, h'⟩ => by simp [h] at h'

/-- The record of a call of `cancelTimer`. -/
def noteCancel (timer : ℕ) (s : TimerQueue) : TimerQueue :=
  { s with cancelCalls := s.cancelCalls ++ [timer] }

/-- The step function.  `cancelTimer` is called at most once for a timer, and while it exists: until
its last callback is over. -/
def step (threadId : Pid) (s : TimerQueue) : Label → Outcome Fault TimerQueue
  | .addTimerTask t timer ts interval =>
    .guard (s.MayCall threadId t ∧ s.heap timer = none) <|
      (s.store timer (.new ts interval)).runInLoop threadId t (.add timer ts interval)
  | .cancelTimer t timer =>
    .guard (s.MayCall threadId t ∧ s.IsLive timer ∧ timer ∉ s.cancelCalls) <|
      (s.noteCancel timer).runInLoop threadId t (.cancel timer)
  | .runJob =>
    match s.pendingJobs with
    | j :: js => .guard (s.pc = .idle) <| { s with pendingJobs := js }.perform j
    | [] => .blocked
  -- the clock is the wall clock, which may be set back
  | .tick now => .next { s with clock := now, timerfd := s.timerfd.advance now }
  | .timerfdRead =>
    .guard (s.pc = .idle) <|
      .next { s with pc := .reading, timerfd := { s.timerfd with unread := false } }
  | .getExpired => .guard (s.pc = .reading) <| .next (s.getExpired s.clock)
  | .runTimer =>
    match s.pc with
    | .handling now (ele :: rest) => s.runTimer now ele rest
    | _ => .blocked
  | .endTimer =>
    match s.pc with
    | .running now ele rest => s.endTimer now ele rest
    | _ => .blocked
  | .rearm =>
    match s.pc with
    | .handling _ [] => .next { s.rearm with pc := .idle }
    | _ => .blocked
  | .destroy =>
    .guard (s.pc = .idle) <|
      (deleteAll s.timers.toList s).bind fun s' => .next { s' with timers := ∅, pc := .destroyed }

/-- A new timer queue, at the time `clock`. -/
def new (clock : ℤ) : TimerQueue where
  timers := ∅
  heap _ := none
  pendingJobs := []
  pc := .idle
  timerfd := ⟨none, false⟩
  clock := clock
  rounds := []
  added := []
  ran := []
  cancelCalls := []
  cancelled := []

/-- The timer queue of the loop of thread `threadId`. -/
def system (threadId : Pid) : System TimerQueue Label Fault where
  init s := ∃ clock, s = new clock
  step := step threadId

variable {threadId t : Pid} {s s' : TimerQueue} {lab : Label} {p q : ℕ} {tm tm' : Timer}
  {ts d now : ℤ} {e : Entry} {es rest : List Entry} {j : TimerJob}

/-! ### What the operations answer -/

@[simp] theorem deref_eq_next : s.deref p = .next tm ↔ s.heap p = some (.live tm) := by
  unfold deref
  split <;> simp_all

@[simp] theorem delete_eq_next : s.delete p = .next s' ↔ s.IsLive p ∧ s.drop p = s' := by
  unfold delete IsLive
  split <;> simp_all

@[simp] theorem restart_eq_ok :
    tm.restart = .ok tm' ↔ 0 < tm.interval ∧ { tm with when := tm.when + tm.interval } = tm' := by
  unfold Timer.restart Timer.repeats
  split_ifs with h <;> simp_all

@[simp] theorem cancel_eq_ok :
    tm.cancel = .ok tm' ↔ tm.canceled = false ∧ { tm with canceled := true } = tm' := by
  unfold Timer.cancel
  split_ifs with h <;> simp_all

theorem addInLoop_eq_next :
    s.addInLoop p ts d = .next s' ↔ (⟨ts, p⟩ : Entry) ∉ s.timers ∧ s.inserted p ts d = s' := by
  unfold addInLoop
  split_ifs with h <;> simp [h]

theorem cancelInLoop_eq_next :
    s.cancelInLoop p = .next s' ↔
      ∃ tm, s.heap p = some (.live tm) ∧ tm.canceled = false ∧
        (s.erased p tm.when).drop p = s' := by
  have hdrop (tm tm' : Timer) :
      ((s.store p tm').erased p tm.when).drop p = (s.erased p tm.when).drop p := by
    simp [store, erased, drop]
  have hlive (tm tm' : Timer) : ((s.store p tm').erased p tm.when).IsLive p :=
    ⟨tm', by simp [store, erased]⟩
  simp only [cancelInLoop, Outcome.bind_eq_next, deref_eq_next, Outcome.mapFailed_eq_next,
    Outcome.ofExcept_eq_next, cancel_eq_ok, delete_eq_next]
  constructor
  · rintro ⟨tm, hl, tm', ⟨hc, rfl⟩, -, rfl⟩
    exact ⟨tm, hl, hc, (hdrop tm _).symm⟩
  · rintro ⟨tm, hl, hc, rfl⟩
    exact ⟨tm, hl, _, ⟨hc, rfl⟩, hlive tm _, hdrop tm _⟩

theorem endTimer_eq_next :
    s.endTimer now e rest = .next s' ↔ ∃ tm, s.heap e.timer = some (.live tm) ∧
      (tm.Restarts ∧
          ((s.store e.timer { tm with when := tm.when + tm.interval }).restarted e.timer
            (tm.when + tm.interval)).goOn now rest = s' ∨
        ¬ tm.Restarts ∧ (s.goOn now rest).drop e.timer = s') := by
  simp only [endTimer, Outcome.bind_eq_next, deref_eq_next]
  refine exists_congr fun tm => and_congr_right fun hl => ?_
  have hgo : (s.goOn now rest).IsLive e.timer := ⟨tm, hl⟩
  by_cases hr : tm.Restarts
  · have hcond : tm.canceled = false ∧ tm.repeats = true := ⟨hr.1, by simpa [Timer.repeats] using hr.2⟩
    rw [if_pos hcond]
    simp [hr, hr.2]
  · have hcond : ¬ (tm.canceled = false ∧ tm.repeats = true) := by
      simpa [Timer.Restarts, Timer.repeats] using hr
    rw [if_neg hcond, delete_eq_next]
    simp [hr, hgo]

theorem runTimer_eq_next :
    s.runTimer now e rest = .next s' ↔ ∃ tm, s.heap e.timer = some (.live tm) ∧ tm.when ≤ now ∧
      (tm.canceled = false ∧ s.called now e rest = s' ∨
        tm.canceled = true ∧ (s.goOn now rest).drop e.timer = s') := by
  simp only [runTimer, Outcome.bind_eq_next, deref_eq_next]
  refine exists_congr fun tm => and_congr_right fun hl => ?_
  by_cases he : tm.when ≤ now
  · rw [if_neg (by simpa [Timer.expired] using he)]
    cases hc : tm.canceled
    · simp [he]
    · rw [if_pos rfl, endTimer_eq_next]
      simp [he, hl, Timer.Restarts, hc]
  · rw [if_pos (by simpa [Timer.expired] using he)]
    simp [he]

/-- The timers of `timers_` are deleted, and nothing else happens to the heap. -/
theorem deleteAll_eq_next (h : deleteAll es s = .next s') :
    ∃ heap, s' = { s with heap := heap } ∧ (∀ e ∈ es, heap e.timer = some .deleted) ∧
      ∀ p, (∀ e ∈ es, e.timer ≠ p) → heap p = s.heap p := by
  induction es generalizing s with
  | nil => cases h; exact ⟨s'.heap, rfl, by simp, fun _ _ => rfl⟩
  | cons e es ih =>
    simp only [deleteAll, Outcome.bind_eq_next, delete_eq_next] at h
    obtain ⟨s₁, ⟨-, rfl⟩, h⟩ := h
    obtain ⟨heap, rfl, hdel, hsame⟩ := ih h
    refine ⟨heap, rfl, fun f hf => ?_, fun p hp => ?_⟩
    · by_cases hin : ∃ g ∈ es, g.timer = f.timer
      · obtain ⟨g, hg, he⟩ := hin
        rw [← he]
        exact hdel g hg
      · push Not at hin
        rw [hsame f.timer hin]
        obtain rfl : f = e := (List.mem_cons.1 hf).resolve_right fun hf => hin f hf rfl
        simp [drop]
    · rw [hsame p fun f hf => hp f (List.mem_cons_of_mem _ hf)]
      simp [drop, Function.update_of_ne (hp e List.mem_cons_self).symm]

/-! ### The steps, one constructor for each kind -/

/-- The closures that are run. -/
inductive Performed (s : TimerQueue) : TimerJob → TimerQueue → Prop
  | add {p : ℕ} {ts d : ℤ} (h : (⟨ts, p⟩ : Entry) ∉ s.timers) :
      Performed s (.add p ts d) (s.inserted p ts d)
  | cancel {p : ℕ} {tm : Timer} (hl : s.heap p = some (.live tm)) (hc : tm.canceled = false) :
      Performed s (.cancel p) ((s.erased p tm.when).drop p)

theorem Performed.of_perform (h : s.perform j = .next s') : Performed s j s' := by
  cases j with
  | add p ts d =>
    obtain ⟨hn, rfl⟩ := addInLoop_eq_next.1 h
    exact .add hn
  | cancel p =>
    obtain ⟨tm, hl, hc, rfl⟩ := cancelInLoop_eq_next.1 h
    exact .cancel hl hc

/-- The steps. -/
inductive Step (threadId : Pid) (s : TimerQueue) : Label → TimerQueue → Prop
  | addNow {p : ℕ} {ts d : ℤ} {s' : TimerQueue} (hc : s.MayCall threadId threadId)
      (hp : s.heap p = none) (h : Performed (s.store p (.new ts d)) (.add p ts d) s') :
      Step threadId s (.addTimerTask threadId p ts d) s'
  | addLater {t : Pid} {p : ℕ} {ts d : ℤ} (hc : s.MayCall threadId t) (ht : t ≠ threadId)
      (hp : s.heap p = none) :
      Step threadId s (.addTimerTask t p ts d)
        ((s.store p (.new ts d)).queueInLoop (.add p ts d))
  | cancelNow {p : ℕ} {s' : TimerQueue} (hc : s.MayCall threadId threadId) (hl : s.IsLive p)
      (hn : p ∉ s.cancelCalls) (h : Performed (s.noteCancel p) (.cancel p) s') :
      Step threadId s (.cancelTimer threadId p) s'
  | cancelLater {t : Pid} {p : ℕ} (hc : s.MayCall threadId t) (ht : t ≠ threadId) (hl : s.IsLive p)
      (hn : p ∉ s.cancelCalls) :
      Step threadId s (.cancelTimer t p) ((s.noteCancel p).queueInLoop (.cancel p))
  | runJob {j : TimerJob} {js : List TimerJob} {s' : TimerQueue} (hp : s.pc = .idle)
      (hj : s.pendingJobs = j :: js) (h : Performed { s with pendingJobs := js } j s') :
      Step threadId s .runJob s'
  | tick {now : ℤ} :
      Step threadId s (.tick now) { s with clock := now, timerfd := s.timerfd.advance now }
  | timerfdRead (hp : s.pc = .idle) :
      Step threadId s .timerfdRead
        { s with pc := .reading, timerfd := { s.timerfd with unread := false } }
  | getExpired (hp : s.pc = .reading) : Step threadId s .getExpired (s.getExpired s.clock)
  | runTimer {now : ℤ} {e : Entry} {rest : List Entry} {tm : Timer}
      (hp : s.pc = .handling now (e :: rest)) (hl : s.heap e.timer = some (.live tm))
      (he : tm.when ≤ now) (hc : tm.canceled = false) :
      Step threadId s .runTimer (s.called now e rest)
  | skipTimer {now : ℤ} {e : Entry} {rest : List Entry} {tm : Timer}
      (hp : s.pc = .handling now (e :: rest)) (hl : s.heap e.timer = some (.live tm))
      (hc : tm.canceled = true) : Step threadId s .runTimer ((s.goOn now rest).drop e.timer)
  | restart {now : ℤ} {e : Entry} {rest : List Entry} {tm : Timer}
      (hp : s.pc = .running now e rest) (hl : s.heap e.timer = some (.live tm))
      (hr : tm.Restarts) :
      Step threadId s .endTimer
        (((s.store e.timer { tm with when := tm.when + tm.interval }).restarted e.timer
          (tm.when + tm.interval)).goOn now rest)
  | finish {now : ℤ} {e : Entry} {rest : List Entry} {tm : Timer}
      (hp : s.pc = .running now e rest) (hl : s.heap e.timer = some (.live tm))
      (hr : ¬ tm.Restarts) : Step threadId s .endTimer ((s.goOn now rest).drop e.timer)
  | rearm {now : ℤ} (hp : s.pc = .handling now []) :
      Step threadId s .rearm { s.rearm with pc := .idle }
  | destroy {s' : TimerQueue} (hp : s.pc = .idle) (h : deleteAll s.timers.toList s = .next s') :
      Step threadId s .destroy { s' with timers := ∅, pc := .destroyed }

theorem Step.of_step (h : (system threadId).step s lab = .next s') : Step threadId s lab s' := by
  change TimerQueue.step threadId s lab = .next s' at h
  cases lab with
  | addTimerTask t p ts d =>
    simp only [TimerQueue.step, runInLoop, Outcome.guard_eq_next] at h
    obtain ⟨⟨hc, hp⟩, h⟩ := h
    split_ifs at h with ht
    · subst ht; exact .addNow hc hp (.of_perform h)
    · cases h; exact .addLater hc ht hp
  | cancelTimer t p =>
    simp only [TimerQueue.step, runInLoop, Outcome.guard_eq_next] at h
    obtain ⟨⟨hc, hl, hn⟩, h⟩ := h
    split_ifs at h with ht
    · subst ht; exact .cancelNow hc hl hn (.of_perform h)
    · cases h; exact .cancelLater hc ht hl hn
  | runJob =>
    simp only [TimerQueue.step] at h
    split at h
    · obtain ⟨hp, h⟩ := Outcome.guard_eq_next.1 h
      exact .runJob hp ‹_› (.of_perform h)
    · cases h
  | tick now => cases h; exact .tick
  | timerfdRead | getExpired =>
    simp only [TimerQueue.step, Outcome.guard_eq_next, Outcome.next.injEq] at h
    obtain ⟨hp, rfl⟩ := h
    constructor
    exact hp
  | runTimer =>
    simp only [TimerQueue.step] at h
    split at h
    · obtain ⟨tm, hl, he, ⟨hc, rfl⟩ | ⟨hc, rfl⟩⟩ := runTimer_eq_next.1 h
      · exact .runTimer ‹_› hl he hc
      · exact .skipTimer ‹_› hl hc
    · cases h
  | endTimer =>
    simp only [TimerQueue.step] at h
    split at h
    · obtain ⟨tm, hl, ⟨hr, rfl⟩ | ⟨hr, rfl⟩⟩ := endTimer_eq_next.1 h
      · exact .restart ‹_› hl hr
      · exact .finish ‹_› hl hr
    · cases h
  | rearm =>
    simp only [TimerQueue.step] at h
    split at h
    · cases h; exact .rearm ‹_›
    · cases h
  | destroy =>
    simp only [TimerQueue.step, Outcome.guard_eq_next, Outcome.bind_eq_next] at h
    obtain ⟨hp, s₁, h, h'⟩ := h
    cases h'
    exact .destroy hp h

end TimerQueue
end Leven
