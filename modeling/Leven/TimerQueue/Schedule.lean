import Leven.TimerQueue.Lifetime

/-!
# The schedule of the timers

Without cancellations a timer runs in the first call of `handleRead` that finds it due, and a
repeating timer again in each call that finds its next run due, one run a call.  What carries the
argument is the position of each timer between its runs: in `timers_` under the key of its next run,
in the batch with no run in this call yet, in its callback, or deleted behind its only run.

* `Added.expiry`, `Added.DueAt`: the time of a run, and the runs that are due;
* `runs`, `runsIn`: the runs of a timer before a call of `handleRead`, and in it;
* `Known`, `InOrder`, `Scheduled`: the invariants;
* `fires_as_scheduled`: the law over all runs without cancellations.
-/

namespace Leven

/-- The time of the run number `k`. -/
def Added.expiry (a : Added) (k : ℕ) : ℤ := a.when + k * a.interval

/-- The timer has a run number `k`: there is one run of a timer that does not repeat. -/
def Added.HasRun (a : Added) (k : ℕ) : Prop := k = 0 ∨ 0 < a.interval

/-- The run number `k` is due at the time `now`. -/
def Added.DueAt (a : Added) (k : ℕ) (now : ℤ) : Prop := a.HasRun k ∧ a.expiry k ≤ now

instance (a : Added) (k : ℕ) : Decidable (a.HasRun k) := inferInstanceAs (Decidable (_ ∨ _))

instance (a : Added) (k : ℕ) (now : ℤ) : Decidable (a.DueAt k now) :=
  inferInstanceAs (Decidable (_ ∧ _))

@[simp] theorem Added.expiry_zero (a : Added) : a.expiry 0 = a.when := by simp [Added.expiry]

theorem Added.expiry_succ (a : Added) (k : ℕ) : a.expiry (k + 1) = a.expiry k + a.interval := by
  simp only [Added.expiry, Nat.cast_add, Nat.cast_one]
  ring

/-- The closure inserts an entry. -/
def TimerJob.IsAdd (j : TimerJob) : Prop := ∃ p ts d, j = .add p ts d

/-- The timer that a closure will insert, with its interval. -/
def TimerJob.spec : TimerJob → Option (ℕ × ℤ)
  | .add p _ d => some (p, d)
  | .cancel _ => none

namespace TimerQueue

open Transition Container

variable {threadId t : Pid} {s s' : TimerQueue} {lab : Label} {p q r : ℕ} {tm : Timer}
  {ts d now w : ℤ} {e f : Entry} {rest : List Entry} {js : List TimerJob} {a b : Added} {x : Firing}
  {l l' : List (ℕ × ℤ)} {heap : ℕ → Option Cell}

/-! ### Counting the runs -/

/-- The runs of the timer in the calls of `handleRead` before number `r`. -/
def runs (p r : ℕ) (s : TimerQueue) : ℕ := s.ran.countP fun x => x.timer = p ∧ x.round < r

/-- The runs of the timer in the call number `r` of `handleRead`. -/
def runsIn (p r : ℕ) (s : TimerQueue) : ℕ := s.ran.countP fun x => x.timer = p ∧ x.round = r

theorem countP_runs_succ (h : List Firing) :
    (h.countP fun x => x.timer = p ∧ x.round < r + 1) =
      (h.countP fun x => x.timer = p ∧ x.round < r) +
        h.countP fun x => x.timer = p ∧ x.round = r := by
  induction h with
  | nil => rfl
  | cons x h ih =>
    simp only [List.countP_cons, ih, decide_eq_true_eq]
    by_cases hp : x.timer = p
    · rcases lt_trichotomy x.round r with hr | hr | hr
      · simp [hp, hr, hr.ne, hr.trans (Nat.lt_succ_self r)]; omega
      · simp [hp, hr]; omega
      · simp [hp, hr.ne', not_lt.2 hr.le, show ¬ x.round < r + 1 by omega]
    · simp [hp]

theorem runs_succ : s.runs p (r + 1) = s.runs p r + s.runsIn p r := countP_runs_succ s.ran

/-- Where no run has a later number. -/
theorem runs_eq_of_le (h : ∀ x ∈ s.ran, x.round < r) (hr : r ≤ q) : s.runs p q = s.runs p r := by
  refine List.countP_congr fun x hx => ?_
  have hlt := h x hx
  simp only [decide_eq_true_eq]
  exact and_congr_right fun _ => ⟨fun _ => hlt, fun _ => hlt.trans_le hr⟩

theorem runsIn_eq_zero (h : ∀ x ∈ s.ran, x.round < r) : s.runsIn p r = 0 := by
  rw [runsIn, List.countP_eq_zero]
  intro x hx
  have hlt := h x hx
  simp only [decide_eq_true_eq, not_and]
  exact fun _ => hlt.ne

theorem runs_eq_zero (h : ∀ x ∈ s.ran, x.timer ≠ p) : s.runs p r = 0 := by
  rw [runs, List.countP_eq_zero]
  intro x hx
  simp [h x hx]

/-- A run in the call number `r` does not count before it. -/
theorem runs_called {n : ℕ} (hn : s.rounds.length = n + 1) (hr : r ≤ n) :
    (s.called now e rest).runs p r = s.runs p r := by
  simp only [runs, called, List.countP_append, List.countP_singleton, decide_eq_true_eq]
  rw [if_neg (by rintro ⟨-, hlt⟩; omega), Nat.add_zero]

theorem runsIn_called {n : ℕ} (hn : s.rounds.length = n + 1) :
    (s.called now e rest).runsIn p r = s.runsIn p r + if e.timer = p ∧ n = r then 1 else 0 := by
  simp only [runsIn, called, List.countP_append, List.countP_singleton, decide_eq_true_eq, hn,
    Nat.add_sub_cancel]

/-! ### Runs without cancellations -/

/-- No timer is cancelled. -/
def NoCancel (_ : TimerQueue) : Label → Prop
  | .cancelTimer .. => False
  | _ => True

theorem Step.isAdd (h : Step threadId s lab s') (hc : NoCancel s lab)
    (hj : ∀ j ∈ s.pendingJobs, j.IsAdd) : ∀ j ∈ s'.pendingJobs, j.IsAdd := by
  cases h with
  | addNow hcall hp h => cases h with | add hn => simpa [store] using hj
  | @addLater t p ts d hcall ht hp =>
    intro j hmem
    rcases List.mem_append.1 hmem with hmem | hmem
    · exact hj j hmem
    · exact ⟨p, ts, d, List.mem_singleton.1 hmem⟩
  | cancelNow | cancelLater => exact hc.elim
  | @runJob _ js _ hp hjobs h =>
    have htail : ∀ j ∈ js, j.IsAdd := fun j hmem => hj j (hjobs ▸ List.mem_cons_of_mem _ hmem)
    cases h with
    | add hn => simpa using htail
    | cancel hl hcan => exact htail
  | rearm hp =>
    obtain ⟨fd, hfd⟩ := rearm_eq (s := s)
    rw [hfd]
    exact hj
  | destroy hp h =>
    obtain ⟨heap, rfl, -, -⟩ := deleteAll_eq_next h
    exact hj
  | _ => exact hj

theorem CancelsPending.of_noCancel (hc : NoCancel s lab) (hj : ∀ j ∈ s.pendingJobs, j.IsAdd) :
    CancelsPending threadId s lab := by
  cases lab with
  | cancelTimer => exact hc.elim
  | runJob =>
    intro j hmem
    obtain ⟨p, ts, d, rfl⟩ := hj j (List.mem_of_mem_head? hmem)
    trivial
  | _ => trivial

/-- A run without cancellations is a run of the law about cancellations. -/
theorem reachable_of_noCancel (hr : (system threadId).ReachableIf NoCancel s) :
    (system threadId).ReachableIf (CancelsPending threadId) s ∧ ∀ j ∈ s.pendingJobs, j.IsAdd := by
  refine hr.invariant (I := fun s => (system threadId).ReachableIf (CancelsPending threadId) s ∧
    ∀ j ∈ s.pendingJobs, j.IsAdd) ?_ fun s lab s' ⟨hs, hj⟩ hc h => ?_
  · rintro _ ⟨clock, rfl⟩
    exact ⟨.of_init ⟨clock, rfl⟩, fun j hmem => absurd hmem List.not_mem_nil⟩
  · exact ⟨hs.step (.of_noCancel hc hj) h, (Step.of_step h).isAdd hc hj⟩

/-! ### The timers that have been added -/

/-- The timers that have been inserted or are to be inserted, with their intervals. -/
def specs (s : TimerQueue) : List (ℕ × ℤ) :=
  s.added.map (fun a => (a.timer, a.interval)) ++ s.pendingJobs.filterMap TimerJob.spec

/-- The timers are different, have been made, and keep their intervals. -/
structure Known (l : List (ℕ × ℤ)) (heap : ℕ → Option Cell) : Prop where
  nodup : (l.map Prod.fst).Nodup
  present : ∀ x ∈ l, ∃ c, heap x.1 = some c ∧ ∀ tm, c = .live tm → tm.interval = x.2

theorem Known.perm (h : Known l heap) (hp : l'.Perm l) : Known l' heap where
  nodup := (hp.map Prod.fst).nodup_iff.2 h.nodup
  present x hx := h.present x (hp.mem_iff.1 hx)

/-- A fresh timer is none of them. -/
theorem Known.ne_of_none {x : ℕ × ℤ} (h : Known l heap) (hx : x ∈ l) (hp : heap p = none) :
    x.1 ≠ p := by
  intro he
  obtain ⟨c, hc, -⟩ := h.present x hx
  rw [he, hp] at hc
  cases hc

theorem Known.interval_eq {x : ℕ × ℤ} (h : Known l heap) (hx : x ∈ l)
    (hp : heap x.1 = some (.live tm)) : tm.interval = x.2 := by
  obtain ⟨c, hc, hi⟩ := h.present x hx
  rw [hp] at hc
  exact hi tm (Option.some.inj hc).symm

/-- A new timer. -/
theorem Known.add (h : Known l heap) (hp : heap p = none) :
    Known ((p, d) :: l) (Function.update heap p (some (.live (.new ts d)))) := by
  have hne : ∀ x ∈ l, x.1 ≠ p := fun x hx => h.ne_of_none hx hp
  constructor
  · rw [List.map_cons, List.nodup_cons]
    refine ⟨fun hm => ?_, h.nodup⟩
    obtain ⟨x, hx, he⟩ := List.mem_map.1 hm
    exact hne x hx he
  · intro x hx
    rcases List.mem_cons.1 hx with rfl | hx
    · refine ⟨_, Function.update_self .., fun tm ht => ?_⟩
      cases ht
      rfl
    · rw [Function.update_of_ne (hne x hx)]
      exact h.present x hx

/-- A timer is deleted, or changed but for its interval. -/
theorem Known.update {c : Cell} (h : Known l heap) (hp : heap p = some (.live tm))
    (hc : ∀ tm', c = .live tm' → tm'.interval = tm.interval) :
    Known l (Function.update heap p (some c)) := by
  refine ⟨h.nodup, fun x hx => ?_⟩
  by_cases he : x.1 = p
  · exact ⟨c, by rw [he, Function.update_self],
      fun tm' ht => (hc tm' ht).trans (h.interval_eq hx (he ▸ hp))⟩
  · rw [Function.update_of_ne he]
    exact h.present x hx

theorem mem_specs {a : Added} (ha : a ∈ s.added) : (a.timer, a.interval) ∈ s.specs :=
  List.mem_append_left _ (List.mem_map_of_mem ha)

theorem perm_specs_inserted : (s.inserted p ts d).specs.Perm ((p, d) :: s.specs) := by
  simp only [specs, inserted_added, inserted_pendingJobs, List.map_append, List.map_cons,
    List.map_nil, List.append_assoc, List.singleton_append]
  exact List.perm_middle

theorem perm_specs_queueInLoop :
    (s.queueInLoop (.add p ts d)).specs.Perm ((p, d) :: s.specs) := by
  have h : (s.queueInLoop (.add p ts d)).specs = s.specs ++ [(p, d)] := by
    simp [specs, queueInLoop, TimerJob.spec]
  rw [h]
  exact List.perm_append_singleton _ _

theorem specs_runJob (hj : s.pendingJobs = .add p ts d :: js) :
    ({ s with pendingJobs := js }.inserted p ts d).specs = s.specs := by
  simp [specs, hj, TimerJob.spec]

theorem Known.step (hs : Known s.specs s.heap) (hc : NoCancel s lab)
    (hj : ∀ j ∈ s.pendingJobs, j.IsAdd) (h : Step threadId s lab s') : Known s'.specs s'.heap := by
  cases h with
  | @addNow p ts d s' hcall hp h =>
    cases h with
    | add hn =>
      rw [inserted_heap]
      exact (hs.add hp).perm perm_specs_inserted
  | addLater hcall ht hp => exact (hs.add hp).perm perm_specs_queueInLoop
  | cancelNow | cancelLater => exact hc.elim
  | runJob hp hjobs h =>
    cases h with
    | add hn =>
      rw [inserted_heap, specs_runJob hjobs]
      exact hs
    | @cancel p tm hl hcan =>
      obtain ⟨_, _, _, he⟩ := hj (.cancel p) (hjobs ▸ List.mem_cons_self)
      cases he
  | tick | timerfdRead | getExpired | runTimer => exact hs
  | skipTimer hp hl hcan => exact hs.update hl (by rintro tm' ⟨⟩)
  | restart hp hl hr => exact hs.update hl (by rintro tm' ⟨⟩; rfl)
  | finish hp hl hr => exact hs.update hl (by rintro tm' ⟨⟩)
  | rearm hp =>
    obtain ⟨fd, hfd⟩ := rearm_eq (s := s)
    rw [hfd]
    exact hs
  | destroy hp h =>
    obtain ⟨heap, rfl, hdel, hsame⟩ := deleteAll_eq_next h
    refine ⟨hs.nodup, fun x hx => ?_⟩
    by_cases hin : ∃ e ∈ s.timers.toList, e.timer = x.1
    · obtain ⟨e, he, heq⟩ := hin
      exact ⟨.deleted, heq ▸ hdel e he, by rintro tm ⟨⟩⟩
    · obtain ⟨c, hc, hi⟩ := hs.present x hx
      exact ⟨c, (hsame x.1 fun e he heq => hin ⟨e, he, heq⟩).trans hc, hi⟩

/-! ### The order of the runs -/

/-- The runs go on in the order of their times, within a call of `handleRead`. -/
structure InOrder (s : TimerQueue) : Prop where
  bound : ∀ a ∈ s.added, a.round ≤ s.rounds.length
  current : ∀ now, s.pc.now = some now → s.rounds.getLast? = some now
  sorted : s.pc.waiting.Pairwise fun e f => e.when ≤ f.when
  ran : ∀ x ∈ s.ran, x.round < s.rounds.length
  order : s.ran.Pairwise fun x y => x.round < y.round ∨ x.round = y.round ∧ x.expiry ≤ y.expiry
  upTo : ∀ x ∈ s.ran, x.round + 1 = s.rounds.length → ∀ e ∈ s.pc.waiting, x.expiry ≤ e.when

/-- In the loop of `handleRead` there is a last clock reading. -/
theorem InOrder.exists_length (hs : InOrder s) (hp : s.pc.now = some now) :
    ∃ n, s.rounds.length = n + 1 ∧ s.rounds[n]? = some now := by
  have hlast := hs.current now hp
  rw [List.getLast?_eq_getElem?] at hlast
  have hlt := (List.getElem?_eq_some_iff.1 hlast).1
  exact ⟨s.rounds.length - 1, by omega, hlast⟩

theorem InOrder.inserted (hs : InOrder s) : InOrder (s.inserted p ts d) where
  bound a ha := by
    rw [inserted_added, List.mem_append, List.mem_singleton] at ha
    rw [inserted_rounds]
    rcases ha with ha | rfl
    · exact hs.bound a ha
    · exact le_rfl
  current := by rw [inserted_pc, inserted_rounds]; exact hs.current
  sorted := by rw [inserted_pc]; exact hs.sorted
  ran := by rw [inserted_ran, inserted_rounds]; exact hs.ran
  order := by rw [inserted_ran]; exact hs.order
  upTo := by rw [inserted_ran, inserted_rounds, inserted_pc]; exact hs.upTo

/-- A step that adds neither a run nor a clock reading. -/
theorem InOrder.of_eq (hs : InOrder s) (ha : s'.added = s.added) (hr : s'.rounds = s.rounds)
    (hran : s'.ran = s.ran) (hnow : ∀ now, s'.pc.now = some now → s.pc.now = some now)
    (hw : s'.pc.waiting.Sublist s.pc.waiting) : InOrder s' where
  bound := by rw [ha, hr]; exact hs.bound
  current now h := by rw [hr]; exact hs.current now (hnow now h)
  sorted := hs.sorted.sublist hw
  ran := by rw [hran, hr]; exact hs.ran
  order := by rw [hran]; exact hs.order
  upTo x hx hlen e he := by
    rw [hran] at hx
    rw [hr] at hlen
    exact hs.upTo x hx hlen e (hw.subset he)

theorem InOrder.getExpired (hs : InOrder s) : InOrder (s.getExpired now) where
  bound a ha := by
    have hle := hs.bound a ha
    show a.round ≤ (s.rounds ++ [now]).length
    rw [List.length_append]
    omega
  current now' h := by
    cases h
    exact List.getLast?_concat
  sorted := SortedSet.pairwise_below.imp Entry.when_le_of_lt
  ran x hx := by
    have hlt := hs.ran x hx
    show x.round < (s.rounds ++ [now]).length
    rw [List.length_append]
    omega
  order := hs.order
  upTo x hx hlen := by
    have hlt := hs.ran x hx
    rw [show (s.getExpired now).rounds.length = s.rounds.length + 1 from List.length_append] at hlen
    omega

theorem InOrder.called (hs : InOrder s) (hp : s.pc = .handling now (e :: rest)) :
    InOrder (s.called now e rest) := by
  obtain ⟨n, hn, -⟩ := hs.exists_length (by rw [hp]; rfl : s.pc.now = some now)
  have hsorted := hs.sorted
  rw [hp] at hsorted
  obtain ⟨hle, hrest⟩ := List.pairwise_cons.1 hsorted
  have hx : s.rounds.length - 1 = n := by omega
  refine ⟨hs.bound, fun now' h => ?_, hrest, fun x hxmem => ?_, ?_, fun x hxmem hlen f hf => ?_⟩
  · exact hs.current now' (by rw [hp]; exact h)
  · rcases List.mem_append.1 hxmem with hmem | hmem
    · exact hs.ran x hmem
    · rw [List.mem_singleton.1 hmem]
      show s.rounds.length - 1 < s.rounds.length
      omega
  · refine List.pairwise_append.2 ⟨hs.order, List.pairwise_singleton _ _, fun x hxmem y hy => ?_⟩
    rw [List.mem_singleton.1 hy, hx]
    have hlt := hs.ran x hxmem
    rcases Nat.lt_or_ge x.round n with h | h
    · exact .inl h
    · have heq : x.round = n := by omega
      refine .inr ⟨heq, hs.upTo x hxmem (by omega) e ?_⟩
      rw [hp]
      exact List.mem_cons_self
  · rcases List.mem_append.1 hxmem with hmem | hmem
    · exact hs.upTo x hmem hlen f (by rw [hp]; exact List.mem_cons_of_mem _ hf)
    · rw [List.mem_singleton.1 hmem]
      exact hle f hf

theorem InOrder.step (hs : InOrder s) (h : Step threadId s lab s') : InOrder s' := by
  cases h with
  | addNow hcall hp h =>
    cases h with
    | add hn => exact InOrder.inserted (hs.of_eq rfl rfl rfl (fun _ => id) (.refl _))
  | cancelNow hcall hl hn h =>
    cases h with
    | cancel hl hcan => exact hs.of_eq rfl rfl rfl (fun _ => id) (.refl _)
  | runJob hp hj h =>
    cases h with
    | add hn => exact InOrder.inserted (hs.of_eq rfl rfl rfl (fun _ => id) (.refl _))
    | cancel hl hcan => exact hs.of_eq rfl rfl rfl (fun _ => id) (.refl _)
  | addLater | cancelLater | tick => exact hs.of_eq rfl rfl rfl (fun _ => id) (.refl _)
  | timerfdRead hp => exact hs.of_eq rfl rfl rfl (by rintro _ ⟨⟩) (List.nil_sublist _)
  | getExpired hp => exact hs.getExpired
  | runTimer hp hl he hcan => exact hs.called hp
  | skipTimer hp hl hcan =>
    refine hs.of_eq rfl rfl rfl (by rw [hp]; exact fun _ => id) ?_
    rw [hp]
    exact List.sublist_cons_self _ _
  | restart hp hl hr | finish hp hl hr =>
    refine hs.of_eq rfl rfl rfl (by rw [hp]; exact fun _ => id) ?_
    rw [hp]
    exact .refl _
  | rearm hp =>
    obtain ⟨fd, hfd⟩ := rearm_eq (s := s)
    rw [hfd]
    exact hs.of_eq rfl rfl rfl (by rintro _ ⟨⟩) (List.nil_sublist _)
  | destroy hp h =>
    obtain ⟨heap, rfl, -, -⟩ := deleteAll_eq_next h
    exact hs.of_eq rfl rfl rfl (by rintro _ ⟨⟩) (List.nil_sublist _)

/-! ### Where the timers are between their runs -/

/-- Where a timer is that has had `s.runs a.timer s.rounds.length` runs. -/
inductive Position (s : TimerQueue) (a : Added) : Prop
  /-- in `timers_`, under the time of its next run -/
  | stored (hr : a.HasRun (s.runs a.timer s.rounds.length))
      (h : ⟨a.expiry (s.runs a.timer s.rounds.length), a.timer⟩ ∈ s.timers)
  /-- in the batch, with no run in this call of `handleRead` -/
  | waiting (hr : a.HasRun (s.runs a.timer s.rounds.length))
      (h : ⟨a.expiry (s.runs a.timer s.rounds.length), a.timer⟩ ∈ s.pc.waiting)
      (hb : a.round < s.rounds.length)
      (h0 : ∀ n, s.rounds.length = n + 1 → s.runsIn a.timer n = 0)
  /-- in its callback -/
  | running {now : ℤ} {rest : List Entry} {k : ℕ} (hr : a.HasRun k)
      (hp : s.pc = .running now ⟨a.expiry k, a.timer⟩ rest)
      (hk : s.runs a.timer s.rounds.length = k + 1)
  /-- deleted behind its only run -/
  | finished (hd : a.interval ≤ 0) (hk : s.runs a.timer s.rounds.length = 1)
      (hdel : s.heap a.timer = some .deleted)

/-- The timer has one run in the call number `r` of `handleRead` if its next run was due, and none
otherwise. -/
def Fires (s : TimerQueue) (a : Added) (r : ℕ) (now : ℤ) : Prop :=
  s.runsIn a.timer r = if a.DueAt (s.runs a.timer r) now then 1 else 0

/-- The invariant. -/
structure Timeline (s : TimerQueue) : Prop where
  belongs : ∀ e ∈ s.timers.toList ++ s.pc.batch, ∃ a ∈ s.added, a.timer = e.timer
  recorded : ∀ x ∈ s.ran, ∃ a ∈ s.added, a.timer = x.timer ∧ a.round ≤ x.round ∧
    x.expiry = a.expiry (s.runs a.timer x.round) ∧
    ∃ now, s.rounds[x.round]? = some now ∧ x.expiry ≤ now
  position : s.pc ≠ .destroyed → ∀ a ∈ s.added, Position s a
  fires : ∀ a ∈ s.added, ∀ r now, s.rounds[r]? = some now → a.round ≤ r →
    Fires s a r now ∨ r + 1 = s.rounds.length ∧ ∃ e ∈ s.pc.waiting, e.timer = a.timer

theorem mem_batch_of_mem_waiting {pc : TimerPc} (h : e ∈ pc.waiting) : e ∈ pc.batch := by
  cases pc with
  | handling now rest => exact h
  | running now f rest => exact List.mem_cons_of_mem _ h
  | _ => cases h

theorem waiting_of_batch {pc : TimerPc} (h : pc.batch = []) : pc.waiting = [] := by
  cases pc with
  | handling now rest => exact h
  | running now e rest => cases h
  | _ => rfl

theorem runs_congr (h : s'.ran = s.ran) : s'.runs p r = s.runs p r := by rw [runs, runs, h]

theorem runsIn_congr (h : s'.ran = s.ran) : s'.runsIn p r = s.runsIn p r := by
  rw [runsIn, runsIn, h]

theorem Fires.congr {n : ℕ} (hf : Fires s a n now) (h : s'.ran = s.ran) : Fires s' a n now := by
  rw [Fires, runs_congr h, runsIn_congr h]
  exact hf

/-- The step is about other timers. -/
theorem Position.of_eq (h : Position s a) (hran : s'.ran = s.ran) (hround : s'.rounds = s.rounds)
    (ht : ∀ e ∈ s.timers, e.timer = a.timer → e ∈ s'.timers)
    (hw : ∀ e ∈ s.pc.waiting, e.timer = a.timer → e ∈ s'.pc.waiting)
    (hrun : ∀ now e rest, s.pc = .running now e rest → e.timer = a.timer → s'.pc = s.pc)
    (hdel : s.heap a.timer = some .deleted → s'.heap a.timer = some .deleted) : Position s' a := by
  have hK : s'.runs a.timer s'.rounds.length = s.runs a.timer s.rounds.length := by
    rw [runs_congr hran, hround]
  cases h with
  | stored hr h => exact .stored (hK ▸ hr) (hK ▸ ht _ h rfl)
  | waiting hr h hb h0 =>
    refine .waiting (hK ▸ hr) (hK ▸ hw _ h rfl) (hround ▸ hb) fun n hn => ?_
    rw [runsIn_congr hran]
    exact h0 n (hround ▸ hn)
  | running hr hp hk => exact .running hr ((hrun _ _ _ hp rfl).trans hp) (hK.trans hk)
  | finished hd hk hdel' => exact .finished hd (hK.trans hk) (hdel hdel')

/-- The steps that are about no timer. -/
theorem Timeline.of_eq (hs : Timeline s) (ha : s'.added = s.added) (hran : s'.ran = s.ran)
    (hround : s'.rounds = s.rounds) (ht : s'.timers = s.timers)
    (hp : s'.pc = s.pc ∨ s.pc.batch = [] ∧ s'.pc.batch = [] ∧ s.pc ≠ .destroyed)
    (hdel : ∀ p, s.heap p = some .deleted → s'.heap p = some .deleted) : Timeline s' := by
  have hbatch : s'.pc.batch = s.pc.batch := by
    rcases hp with hp | ⟨h, h', -⟩
    · rw [hp]
    · rw [h, h']
  have hwaiting : s'.pc.waiting = s.pc.waiting := by
    rcases hp with hp | ⟨h, h', -⟩
    · rw [hp]
    · rw [waiting_of_batch h, waiting_of_batch h']
  refine ⟨?_, ?_, ?_, ?_⟩
  · rw [ht, hbatch, ha]
    exact hs.belongs
  · rw [hran, ha, hround]
    simp only [runs_congr hran]
    exact hs.recorded
  · rw [ha]
    refine fun hd a hmem => (hs.position ?_ a hmem).of_eq hran hround (fun e he _ => ht ▸ he)
      (fun e he _ => hwaiting ▸ he) (fun now e rest hpc _ => ?_) (hdel _)
    · rcases hp with hp | ⟨-, -, h⟩
      · exact hp ▸ hd
      · exact h
    · rcases hp with hp | ⟨h, -, -⟩
      · exact hp
      · rw [hpc] at h
        cases h
  · rw [ha, hround, hwaiting]
    exact fun a hmem r now hr hle => (hs.fires a hmem r now hr hle).imp_left fun h => h.congr hran

/-- A new timer has had no run. -/
theorem Timeline.inserted (hs : Timeline s) (hp : s.pc ≠ .destroyed)
    (hnew : ∀ a ∈ s.added, a.timer ≠ p) : Timeline (s.inserted p ts d) := by
  have hran : (s.inserted p ts d).ran = s.ran := inserted_ran
  have hmem : ∀ a, a ∈ (s.inserted p ts d).added ↔
      a ∈ s.added ∨ a = ⟨p, ts, d, s.rounds.length⟩ := by
    intro a
    rw [inserted_added, List.mem_append, List.mem_singleton]
  have hzero : (s.inserted p ts d).runs p s.rounds.length = 0 := by
    refine runs_eq_zero fun x hx hxp => ?_
    obtain ⟨a, ha, hax, -⟩ := hs.recorded x (hran ▸ hx)
    exact hnew a ha (hax.trans hxp)
  refine ⟨fun e he => ?_, fun x hx => ?_, fun _ a ha => ?_, fun a ha r now hr hle => ?_⟩
  · rw [List.mem_append, inserted_timers, inserted_pc] at he
    rcases he with he | he
    · rcases SortedSet.mem_insert.1 he with rfl | he
      · exact ⟨_, (hmem _).2 (.inr rfl), rfl⟩
      · obtain ⟨a, ha, hat⟩ := hs.belongs e (List.mem_append_left _ he)
        exact ⟨a, (hmem a).2 (.inl ha), hat⟩
    · obtain ⟨a, ha, hat⟩ := hs.belongs e (List.mem_append_right _ he)
      exact ⟨a, (hmem a).2 (.inl ha), hat⟩
  · obtain ⟨a, ha, h⟩ := hs.recorded x (hran ▸ hx)
    refine ⟨a, (hmem a).2 (.inl ha), ?_⟩
    rw [runs_congr hran, inserted_rounds]
    exact h
  · rcases (hmem a).1 ha with ha | rfl
    · refine (hs.position hp a ha).of_eq hran inserted_rounds (fun e he _ => ?_) ?_ ?_ ?_
      · rw [inserted_timers]
        exact SortedSet.mem_insert.2 (.inr he)
      · rw [inserted_pc]; exact fun e he _ => he
      · exact fun _ _ _ _ _ => inserted_pc
      · rw [inserted_heap]; exact id
    · refine .stored (.inl ?_) ?_
      · rw [inserted_rounds]; exact hzero
      · rw [inserted_rounds, hzero, inserted_timers, Added.expiry_zero]
        exact SortedSet.mem_insert.2 (.inl rfl)
  · rw [inserted_rounds] at hr
    rcases (hmem a).1 ha with ha | rfl
    · rw [inserted_pc, inserted_rounds]
      exact (hs.fires a ha r now hr hle).imp_left fun h => h.congr hran
    · exact absurd (List.getElem?_eq_some_iff.1 hr).1 (not_lt.2 hle)

/-! ### A call of `handleRead` takes its batch -/

theorem getExpired_length : (s.getExpired now).rounds.length = s.rounds.length + 1 :=
  List.length_append

theorem getExpired_getElem? {r : ℕ} (hr : r < s.rounds.length) :
    (s.getExpired now).rounds[r]? = s.rounds[r]? :=
  List.getElem?_append_left hr

theorem getExpired_getElem?_length : (s.getExpired now).rounds[s.rounds.length]? = some now :=
  List.getElem?_concat_length

theorem runs_getExpired (ho : InOrder s) (p : ℕ) :
    (s.getExpired now).runs p (s.rounds.length + 1) = s.runs p s.rounds.length :=
  runs_eq_of_le (s := s) ho.ran (Nat.le_succ _)

theorem runsIn_getExpired (ho : InOrder s) (p : ℕ) :
    (s.getExpired now).runsIn p s.rounds.length = 0 :=
  runsIn_eq_zero (s := s) ho.ran

/-- The timer waits in the batch if it is due. -/
theorem Position.getExpired (h : Position s a) (ho : InOrder s) (ha : a ∈ s.added)
    (hp : s.pc = .reading) : Position (s.getExpired now) a := by
  have hK : (s.getExpired now).runs a.timer (s.rounds.length + 1) = s.runs a.timer s.rounds.length :=
    runs_getExpired ho a.timer
  cases h with
  | stored hr h =>
    by_cases hlt : (⟨a.expiry (s.runs a.timer s.rounds.length), a.timer⟩ : Entry) < ⟨now + 1, 0⟩
    · refine .waiting (by rw [getExpired_length, hK]; exact hr) ?_ ?_ fun n hn => ?_
      · rw [getExpired_length, hK]
        exact SortedSet.mem_below_iff.2 ⟨h, hlt⟩
      · rw [getExpired_length]
        exact Nat.lt_succ_of_le (ho.bound a ha)
      · obtain rfl : n = s.rounds.length := Nat.succ.inj (hn.symm.trans getExpired_length)
        exact runsIn_getExpired ho _
    · refine .stored (by rw [getExpired_length, hK]; exact hr) ?_
      rw [getExpired_length, hK]
      exact SortedSet.mem_notBelow_iff.2 ⟨h, not_lt.1 hlt⟩
  | waiting hr h => rw [hp] at h; cases h
  | running hr h => rw [hp] at h; cases h
  | finished hd hk hdel => exact .finished hd (by rw [getExpired_length, hK]; exact hk) hdel

/-- The timers that are not in the batch have no run in this call. -/
theorem Position.fires_getExpired (h : Position s a) (ho : InOrder s) (hp : s.pc = .reading) :
    Fires (s.getExpired now) a s.rounds.length now ∨
      ∃ e ∈ (s.getExpired now).pc.waiting, e.timer = a.timer := by
  have h0 : (s.getExpired now).runsIn a.timer s.rounds.length = 0 := runsIn_getExpired ho a.timer
  cases h with
  | stored hr h =>
    by_cases hlt : (⟨a.expiry (s.runs a.timer s.rounds.length), a.timer⟩ : Entry) < ⟨now + 1, 0⟩
    · exact .inr ⟨_, SortedSet.mem_below_iff.2 ⟨h, hlt⟩, rfl⟩
    · refine .inl ?_
      rw [Fires, h0, if_neg]
      exact fun hdue => hlt (Entry.lt_bound_iff.2 hdue.2)
  | waiting hr h => rw [hp] at h; cases h
  | running hr h => rw [hp] at h; cases h
  | finished hd hk hdel =>
    -- a one-shot timer has no run behind its first
    refine .inl ?_
    rw [Fires, h0, if_neg]
    rintro ⟨h | h, -⟩
    · have hk' : (s.getExpired now).runs a.timer s.rounds.length = 1 := hk
      omega
    · omega

theorem Timeline.getExpired (hs : Timeline s) (ho : InOrder s) (hp : s.pc = .reading) :
    Timeline (s.getExpired now) := by
  have hpos : ∀ a ∈ s.added, Position s a := hs.position (by rw [hp]; simp)
  refine ⟨fun e he => ?_, fun x hx => ?_, fun _ a ha => (hpos a ha).getExpired ho ha hp,
    fun a ha r now' hr hle => ?_⟩
  · refine hs.belongs e (List.mem_append_left _ ?_)
    rcases List.mem_append.1 he with he | he
    · exact SortedSet.mem_of_mem_notBelow he
    · exact SortedSet.mem_of_mem_below he
  · obtain ⟨a, ha, hat, hle, hex, now', hr, hdue⟩ := hs.recorded x hx
    refine ⟨a, ha, hat, hle, hex, now', ?_, hdue⟩
    rw [getExpired_getElem? (List.getElem?_eq_some_iff.1 hr).1, hr]
  · have hrlt : r < s.rounds.length + 1 := by
      rw [← getExpired_length]
      exact (List.getElem?_eq_some_iff.1 hr).1
    rcases Nat.lt_or_ge r s.rounds.length with hlt | hge
    · rw [getExpired_getElem? hlt] at hr
      rcases hs.fires a ha r now' hr hle with h | ⟨-, e, he, -⟩
      · exact .inl h
      · rw [hp] at he; cases he
    · obtain rfl : r = s.rounds.length := by omega
      obtain rfl : now = now' := Option.some.inj (getExpired_getElem?_length.symm.trans hr)
      exact ((hpos a ha).fires_getExpired ho hp).imp_right fun h => ⟨getExpired_length.symm, h⟩

/-! ### The callbacks of the batch -/

/-- The timer of the entry at the head of the batch. -/
theorem Position.of_handling (h : Position s a) (hs : Owned s)
    (hp : s.pc = .handling now (e :: rest)) (he : e.timer = a.timer) :
    a.HasRun (s.runs a.timer s.rounds.length) ∧
      e = ⟨a.expiry (s.runs a.timer s.rounds.length), a.timer⟩ ∧ a.round < s.rounds.length ∧
      ∀ n, s.rounds.length = n + 1 → s.runsIn a.timer n = 0 := by
  have hb : e ∈ s.pc.batch := by rw [hp]; exact List.mem_cons_self
  cases h with
  | stored hr h => exact absurd he.symm (hs.sound.timer_ne h (List.mem_append_left _ hb))
  | waiting hr h hbound h0 =>
    refine ⟨hr, ?_, hbound, h0⟩
    rw [hp] at h
    have h' : ⟨a.expiry (s.runs a.timer s.rounds.length), a.timer⟩ ∈ s.pc.batch := by
      rw [hp]; exact h
    exact hs.sound.unique (List.mem_append_right _ (List.mem_append_left _ hb))
      (List.mem_append_right _ (List.mem_append_left _ h')) he
  | running hr h hk => rw [hp] at h; cases h
  | finished hd hk hdel =>
    obtain ⟨d, hl⟩ := hs.sound.live e (List.mem_append_right _ (List.mem_append_left _ hb))
    rw [he, hdel] at hl
    cases hl

/-- The timer whose callback runs. -/
theorem Position.of_running (h : Position s a) (hs : Owned s) (hp : s.pc = .running now e rest)
    (he : e.timer = a.timer) : ∃ k, a.HasRun k ∧ e = ⟨a.expiry k, a.timer⟩ ∧
      s.runs a.timer s.rounds.length = k + 1 := by
  have hb : e ∈ s.pc.batch := by rw [hp]; exact List.mem_cons_self
  cases h with
  | stored hr h => exact absurd he.symm (hs.sound.timer_ne h (List.mem_append_left _ hb))
  | waiting hr h hbound h0 =>
    rw [hp] at h
    have hsound : Sound (e :: (s.goOn now rest).entries) s.heap := hs.sound_goOn (by rw [hp]; rfl)
    exact absurd he.symm (hsound.ne (List.mem_append_right _ (List.mem_append_left _ h)))
  | @running now' rest' k hr h hk =>
    rw [hp] at h
    cases h
    exact ⟨k, hr, rfl, hk⟩
  | finished hd hk hdel =>
    obtain ⟨d, hl⟩ := hs.sound.live e (List.mem_append_right _ (List.mem_append_left _ hb))
    rw [he, hdel] at hl
    cases hl

theorem runs_called_of_ne (hne : e.timer ≠ p) : (s.called now e rest).runs p r = s.runs p r := by
  simp [runs, called, List.countP_append, hne]

theorem Fires.called {n : ℕ} {now' : ℤ} (hf : Fires s a r now') (hn : s.rounds.length = n + 1)
    (hr : r ≤ n) (hne : e.timer = a.timer → n ≠ r) : Fires (s.called now e rest) a r now' := by
  rw [Fires, runs_called hn hr, runsIn_called hn, if_neg fun h => hne h.1 h.2]
  exact hf

/-- The timer of the head of the batch: the runs before this call of `handleRead` are all its
runs. -/
theorem Position.of_head {n : ℕ} (h : Position s a) (hown : Owned s)
    (hp : s.pc = .handling now (e :: rest)) (hn : s.rounds.length = n + 1)
    (he : e.timer = a.timer) : a.HasRun (s.runs a.timer n) ∧
      e = ⟨a.expiry (s.runs a.timer n), a.timer⟩ ∧ a.round < n + 1 ∧ s.runsIn a.timer n = 0 ∧
      s.runs a.timer (n + 1) = s.runs a.timer n := by
  obtain ⟨hr, heq, hb, h0⟩ := h.of_handling hown hp he
  have hsucc : s.runs a.timer (n + 1) = s.runs a.timer n := by rw [runs_succ, h0 n hn]; rfl
  rw [hn, hsucc] at hr heq
  exact ⟨hr, heq, hn ▸ hb, h0 n hn, hsucc⟩

theorem mem_rest_of_ne {f : Entry} (hp : s.pc = .handling now (e :: rest)) (hf : f ∈ s.pc.waiting)
    (hne : f.timer ≠ e.timer) : f ∈ rest := by
  rw [hp] at hf
  rcases List.mem_cons.1 hf with rfl | hf
  · exact absurd rfl hne
  · exact hf

/-- The timer of the head is in its callback, the others are where they were. -/
theorem Position.called {n : ℕ} (h : Position s a) (hown : Owned s)
    (hp : s.pc = .handling now (e :: rest)) (hn : s.rounds.length = n + 1) :
    Position (s.called now e rest) a := by
  by_cases he : e.timer = a.timer
  · obtain ⟨hr, heq, -, h0, -⟩ := h.of_head hown hp hn he
    refine .running hr (by rw [← heq]; rfl) ?_
    show (s.called now e rest).runs a.timer s.rounds.length = _
    rw [hn, runs_succ, runs_called hn le_rfl, runsIn_called hn, h0, if_pos ⟨he, rfl⟩]
  · have hK : (s.called now e rest).runs a.timer s.rounds.length =
        s.runs a.timer s.rounds.length := runs_called_of_ne he
    cases h with
    | stored hr h => exact .stored (by rw [← hK] at hr; exact hr) (by rw [← hK] at h; exact h)
    | waiting hr h hb h0 =>
      refine .waiting (by rw [← hK] at hr; exact hr) ?_ hb fun m hm => ?_
      · rw [← hK] at h
        exact mem_rest_of_ne hp h (Ne.symm he)
      · rw [runsIn_called hn, if_neg fun h => he h.1]
        exact h0 m hm
    | running hr h hk => rw [hp] at h; cases h
    | finished hd hk hdel => exact .finished hd (hK.trans hk) hdel

/-- A callback is called. -/
theorem Timeline.called (hs : Timeline s) (hown : Owned s) (ho : InOrder s)
    (hp : s.pc = .handling now (e :: rest)) : Timeline (s.called now e rest) := by
  obtain ⟨n, hn, hnow⟩ := ho.exists_length (by rw [hp]; rfl : s.pc.now = some now)
  have hpos : ∀ a ∈ s.added, Position s a := hs.position (by rw [hp]; simp)
  have hdue : e.when ≤ now := by
    have hd := hown.due
    rw [hp] at hd
    exact hd e List.mem_cons_self
  have hbatch : s.pc.batch = e :: rest := by rw [hp]; rfl
  refine ⟨?_, fun x hx => ?_, fun _ a ha => (hpos a ha).called hown hp hn,
    fun a ha r now' hr hle => ?_⟩
  · rw [show (s.called now e rest).pc.batch = s.pc.batch from hbatch.symm]
    exact hs.belongs
  · rcases List.mem_append.1 hx with hx | hx
    · have hlt := ho.ran x hx
      obtain ⟨a, ha, hat, hle, hex, hr⟩ := hs.recorded x hx
      refine ⟨a, ha, hat, hle, ?_, hr⟩
      rw [runs_called hn (by omega)]
      exact hex
    · rw [List.mem_singleton.1 hx, show s.rounds.length - 1 = n by omega]
      obtain ⟨a, ha, hat⟩ := hs.belongs e (List.mem_append_right _ (hbatch ▸ List.mem_cons_self))
      obtain ⟨-, heq, hb, -, -⟩ := (hpos a ha).of_head hown hp hn hat.symm
      refine ⟨a, ha, hat, Nat.le_of_lt_succ hb, ?_, now, hnow, hdue⟩
      show e.when = _
      rw [runs_called hn le_rfl, heq]
  · have hlt : r < n + 1 := hn ▸ (List.getElem?_eq_some_iff.1 hr).1
    -- in this call of `handleRead` the timer has its one run now
    by_cases hcur : e.timer = a.timer ∧ n = r
    · obtain ⟨he, rfl⟩ := hcur
      obtain ⟨hrun, heq, -, h0, -⟩ := (hpos a ha).of_head hown hp hn he
      obtain rfl : now = now' := Option.some.inj (hnow.symm.trans hr)
      refine .inl ?_
      rw [Fires, runs_called hn le_rfl, runsIn_called hn, h0, if_pos ⟨he, rfl⟩, if_pos]
      exact ⟨hrun, by rw [heq] at hdue; exact hdue⟩
    · have hne : e.timer = a.timer → n ≠ r := fun he hr => hcur ⟨he, hr⟩
      rcases hs.fires a ha r now' hr hle with h | ⟨hr', f, hf, hfa⟩
      · exact .inl (h.called hn (by omega) hne)
      · refine .inr ⟨hr', f, mem_rest_of_ne hp hf fun hfe => ?_, hfa⟩
        exact hne (hfe.symm.trans hfa) (by omega)

/-- A callback is over, and its timer has gone where `hpos` says. -/
theorem Timeline.ended (hs : Timeline s) (hp : s.pc = .running now e rest)
    (ha : s'.added = s.added) (hran : s'.ran = s.ran) (hround : s'.rounds = s.rounds)
    (hpc : s'.pc = .handling now rest) (ht : ∀ f ∈ s.timers, f ∈ s'.timers)
    (ht' : ∀ f ∈ s'.timers, f ∈ s.timers ∨ f.timer = e.timer)
    (hdel : ∀ p, s.heap p = some .deleted → s'.heap p = some .deleted)
    (hpos : ∀ a ∈ s.added, e.timer = a.timer → Position s' a) : Timeline s' := by
  have hbatch : s.pc.batch = e :: rest := by rw [hp]; rfl
  have hwaiting : s'.pc.waiting = s.pc.waiting := by rw [hp, hpc]; rfl
  refine ⟨fun f hf => ?_, ?_, fun hd a hmem => ?_, ?_⟩
  · rw [ha]
    rw [hpc] at hf
    rcases List.mem_append.1 hf with hf | hf
    · rcases ht' f hf with hf | hf
      · exact hs.belongs f (List.mem_append_left _ hf)
      · rw [hf]
        exact hs.belongs e (List.mem_append_right _ (hbatch ▸ List.mem_cons_self))
    · exact hs.belongs f (List.mem_append_right _ (hbatch ▸ List.mem_cons_of_mem _ hf))
  · rw [hran, ha, hround]
    simp only [runs_congr hran]
    exact hs.recorded
  · rw [ha] at hmem
    by_cases he : e.timer = a.timer
    · exact hpos a hmem he
    · refine (hs.position (by rw [hp]; simp) a hmem).of_eq hran hround (fun f hf _ => ht f hf)
        (fun f hf _ => hwaiting ▸ hf) (fun now' f rest' hpc' hf => ?_) (hdel _)
      rw [hp] at hpc'
      cases hpc'
      exact absurd hf he
  · rw [ha, hround, hwaiting]
    exact fun a hmem r now hr hle => (hs.fires a hmem r now hr hle).imp_left fun h => h.congr hran

/-- The timer is restarted. -/
theorem Timeline.restarted (hs : Timeline s) (hown : Owned s) (hk : Known s.specs s.heap)
    (hp : s.pc = .running now e rest) (hl : s.heap e.timer = some (.live tm)) (hr : tm.Restarts) :
    Timeline (((s.store e.timer { tm with when := tm.when + tm.interval }).restarted e.timer
      (tm.when + tm.interval)).goOn now rest) := by
  have hb : e ∈ s.pc.batch := by rw [hp]; exact List.mem_cons_self
  have hwhen := (hown.timer_eq hb hl).1
  refine hs.ended hp rfl rfl rfl rfl (fun f hf => SortedSet.mem_insert.2 (.inr hf))
    (fun f hf => ?_) (fun p hdel => ?_) fun a ha he => ?_
  · exact (SortedSet.mem_insert.1 hf).symm.imp_right fun h => by rw [h]
  · have hne : p ≠ e.timer := by
      rintro rfl
      rw [hdel] at hl
      cases hl
    simpa [goOn, TimerQueue.restarted, store, hne] using hdel
  · obtain ⟨k, -, heq, hcount⟩ :=
      (hs.position (by rw [hp]; simp) a ha).of_running hown hp he
    have hint : tm.interval = a.interval := hk.interval_eq (mem_specs ha) (he ▸ hl)
    have hrepeat : 0 < a.interval := hint ▸ hr.2
    have hentry : (⟨a.expiry (k + 1), a.timer⟩ : Entry) = ⟨tm.when + tm.interval, e.timer⟩ := by
      rw [Added.expiry_succ, hwhen, hint, heq]
    have hmem : (⟨a.expiry (k + 1), a.timer⟩ : Entry) ∈
        s.timers.insert ⟨tm.when + tm.interval, e.timer⟩ := SortedSet.mem_insert.2 (.inl hentry)
    rw [← hcount] at hmem
    exact .stored (.inr hrepeat) hmem

/-- The timer is deleted behind its only run. -/
theorem Timeline.dropped (hs : Timeline s) (hown : Owned s) (hk : Known s.specs s.heap)
    (hp : s.pc = .running now e rest) (hl : s.heap e.timer = some (.live tm)) (hr : ¬ tm.Restarts) :
    Timeline ((s.goOn now rest).drop e.timer) := by
  have hb : e ∈ s.pc.batch := by rw [hp]; exact List.mem_cons_self
  refine hs.ended hp rfl rfl rfl rfl (fun f hf => hf) (fun f hf => .inl hf) (fun p hdel => ?_)
    fun a ha he => ?_
  · by_cases hpe : p = e.timer
    · rw [hpe]; simp [drop]
    · simpa [goOn, drop, hpe] using hdel
  · obtain ⟨k, hrun, heq, hcount⟩ :=
      (hs.position (by rw [hp]; simp) a ha).of_running hown hp he
    have hint : tm.interval = a.interval := hk.interval_eq (mem_specs ha) (he ▸ hl)
    have hle : a.interval ≤ 0 := by
      rw [← hint]
      exact not_lt.1 fun h => hr ⟨(hown.timer_eq hb hl).2, h⟩
    have hzero : k = 0 := hrun.resolve_right (not_lt.2 hle)
    refine .finished hle ?_ (by rw [← he]; simp [drop])
    show s.runs a.timer s.rounds.length = 1
    rw [hcount, hzero]

theorem Timeline.step (hs : Timeline s) (hown : Owned s) (hk : Known s.specs s.heap)
    (ho : InOrder s) (hc : NoCancel s lab) (hj : ∀ j ∈ s.pendingJobs, j.IsAdd)
    (h : Step threadId s lab s') : Timeline s' := by
  cases h with
  | @addNow p ts d s' hcall hp h =>
    have hs' : Timeline (s.store p (.new ts d)) :=
      hs.of_eq rfl rfl rfl rfl (.inl rfl) fun q hq => deleted_store hp hq
    cases h with
    | add hn => exact hs'.inserted hcall.1 fun a ha => hk.ne_of_none (mem_specs ha) hp
  | @addLater t p ts d hcall ht hp =>
    exact hs.of_eq rfl rfl rfl rfl (.inl rfl) fun q hq => deleted_store hp hq
  | cancelNow | cancelLater => exact hc.elim
  | @runJob j js s' hp hjobs h =>
    cases h with
    | @add p ts d hn =>
      have hs' : Timeline { s with pendingJobs := js } :=
        hs.of_eq rfl rfl rfl rfl (.inl rfl) fun _ => id
      refine hs'.inserted (by show s.pc ≠ .destroyed; rw [hp]; simp) fun a ha he => ?_
      have hnd := hk.nodup
      rw [specs, hjobs, List.map_append, List.nodup_append] at hnd
      refine hnd.2.2 p ?_ p ?_ rfl
      · rw [List.map_map, ← he]
        exact List.mem_map_of_mem (f := Prod.fst ∘ fun a : Added => (a.timer, a.interval)) ha
      · exact List.mem_cons_self
    | @cancel p tm hl hcan =>
      obtain ⟨_, _, _, he⟩ := hj (.cancel p) (hjobs ▸ List.mem_cons_self)
      cases he
  | tick => exact hs.of_eq rfl rfl rfl rfl (.inl rfl) fun _ => id
  | timerfdRead hp =>
    exact hs.of_eq rfl rfl rfl rfl (.inr ⟨by rw [hp]; rfl, rfl, by rw [hp]; simp⟩) fun _ => id
  | getExpired hp => exact hs.getExpired ho hp
  | runTimer hp hl he hcan => exact hs.called hown ho hp
  | skipTimer hp hl hcan =>
    have hfalse := (hown.timer_eq (by rw [hp]; exact List.mem_cons_self) hl).2
    rw [hcan] at hfalse
    cases hfalse
  | restart hp hl hr => exact hs.restarted hown hk hp hl hr
  | finish hp hl hr => exact hs.dropped hown hk hp hl hr
  | rearm hp =>
    obtain ⟨fd, hfd⟩ := rearm_eq (s := s)
    rw [hfd]
    exact hs.of_eq rfl rfl rfl rfl (.inr ⟨by rw [hp]; rfl, rfl, by rw [hp]; simp⟩) fun _ => id
  | destroy hp h =>
    obtain ⟨heap, rfl, -, -⟩ := deleteAll_eq_next h
    refine ⟨by rintro e ⟨⟩, hs.recorded, fun hd => absurd rfl hd, fun a ha r now hr hle => ?_⟩
    rcases hs.fires a ha r now hr hle with h | ⟨-, e, he, -⟩
    · exact .inl h
    · rw [hp] at he
      cases he

/-- The invariants of the runs without cancellations. -/
structure Scheduled (s : TimerQueue) : Prop where
  owned : Owned s
  known : Known s.specs s.heap
  inOrder : InOrder s
  timeline : Timeline s

theorem Scheduled.of_reachable (hr : (system threadId).ReachableIf NoCancel s) : Scheduled s := by
  refine hr.invariant_of (fun _ hr => reachable_of_noCancel hr) ?_ fun s lab s' hj hs hc h => ?_
  · rintro _ ⟨clock, rfl⟩
    have hinit : (system threadId).ReachableIf (CancelsPending threadId) (new clock) :=
      .of_init ⟨clock, rfl⟩
    refine ⟨.of_reachable hinit, ⟨.nil, by rintro x ⟨⟩⟩, ?_, ?_⟩
    · exact ⟨by rintro a ⟨⟩, by rintro now ⟨⟩, .nil, by rintro x ⟨⟩, .nil, by rintro x ⟨⟩⟩
    · exact ⟨by rintro e ⟨⟩, by rintro x ⟨⟩, by rintro - a ⟨⟩, by rintro a ⟨⟩⟩
  · have h' := Step.of_step h
    exact ⟨hs.owned.step (.of_noCancel hc hj.2) h', hs.known.step hc hj.2 h', hs.inOrder.step h',
      hs.timeline.step hs.owned hs.known hs.inOrder hc hj.2 h'⟩

/-! ### The law -/

/-- The timer is not in the part of the batch that `handleRead` is not done with. -/
def NotInBatch (s : TimerQueue) (a : Added) : Prop := ∀ e ∈ s.pc.batch, e.timer ≠ a.timer

/-- The timers have fired as scheduled. -/
structure OnSchedule (s : TimerQueue) : Prop where
  /-- every callback is one of a timer that has been inserted -/
  known : ∀ x ∈ s.ran, ∃ a ∈ s.added, a.timer = x.timer
  /-- a callback is run by a call of `handleRead` that started after the insertion, as the next run
  of its timer, and not before the time of this run -/
  next : ∀ a ∈ s.added, ∀ x ∈ s.ran, x.timer = a.timer → a.round ≤ x.round ∧
    x.expiry = a.expiry (s.runs a.timer x.round) ∧
    ∃ now, s.rounds[x.round]? = some now ∧ x.expiry ≤ now
  /-- a call of `handleRead` that started after the insertion, and is over, has run the timer once if
  its next run was due, and not at all otherwise -/
  fires : ∀ a ∈ s.added, ∀ r now, s.rounds[r]? = some now → a.round ≤ r →
    (r + 1 < s.rounds.length ∨ s.pc.batch = []) →
    s.runsIn a.timer r = if a.DueAt (s.runs a.timer r) now then 1 else 0
  /-- within a call of `handleRead` the callbacks are run in the order of their times -/
  order : s.ran.Pairwise fun x y => x.round < y.round ∨ x.round = y.round ∧ x.expiry ≤ y.expiry
  /-- outside of the batch, a timer with a next run is in `timers_` under the time of this run -/
  stored : s.pc ≠ .destroyed → ∀ a ∈ s.added, NotInBatch s a → ∀ w,
    (⟨w, a.timer⟩ : Entry) ∈ s.timers ↔ a.HasRun (s.runs a.timer s.rounds.length) ∧
      w = a.expiry (s.runs a.timer s.rounds.length)
  /-- outside of the batch, a timer without a next run is deleted -/
  removed : s.pc ≠ .destroyed → ∀ a ∈ s.added, NotInBatch s a →
    ¬ a.HasRun (s.runs a.timer s.rounds.length) → s.heap a.timer = some .deleted

/-- A timer is inserted once. -/
theorem Known.added_unique (h : Known s.specs s.heap) (ha : a ∈ s.added) (hb : b ∈ s.added)
    (he : a.timer = b.timer) : a = b := by
  have hnd := h.nodup
  rw [specs, List.map_append, List.map_map] at hnd
  exact List.inj_on_of_nodup_map hnd.of_append_left ha hb he

theorem Scheduled.onSchedule (hs : Scheduled s) : OnSchedule s where
  known x hx := by
    obtain ⟨a, ha, hat, -⟩ := hs.timeline.recorded x hx
    exact ⟨a, ha, hat⟩
  next a ha x hx hxa := by
    obtain ⟨b, hb, hbt, h⟩ := hs.timeline.recorded x hx
    obtain rfl : b = a := hs.known.added_unique hb ha (hbt.trans hxa)
    exact h
  fires a ha r now hr hle hover := by
    rcases hs.timeline.fires a ha r now hr hle with h | ⟨hlen, e, he, -⟩
    · exact h
    · rcases hover with hlt | hbatch
      · omega
      · rw [waiting_of_batch hbatch] at he
        cases he
  order := hs.inOrder.order
  stored hd a ha hb w := by
    have hmem (v : ℤ) (hv : (⟨v, a.timer⟩ : Entry) ∈ s.timers) :
        (⟨v, a.timer⟩ : Entry) ∈ s.entries :=
      List.mem_append_left _ hv
    cases hs.timeline.position hd a ha with
    | stored hr h =>
      constructor
      · intro hw
        have he := hs.owned.sound.unique (hmem _ hw) (hmem _ h) rfl
        cases he
        exact ⟨hr, rfl⟩
      · rintro ⟨-, rfl⟩
        exact h
    | waiting hr h => exact absurd rfl (hb _ (mem_batch_of_mem_waiting h))
    | running hr hp => exact absurd rfl (hb _ (by rw [hp]; exact List.mem_cons_self))
    | finished hle hk hdel =>
      constructor
      · intro hw
        obtain ⟨d, hl⟩ := hs.owned.sound.live _ (hmem _ hw)
        rw [hdel] at hl
        cases hl
      · rintro ⟨hrun | hrun, -⟩ <;> omega
  removed hd a ha hb hrun := by
    cases hs.timeline.position hd a ha with
    | stored hr h => exact absurd hr hrun
    | waiting hr h => exact absurd hr hrun
    | running hr hp => exact absurd rfl (hb _ (by rw [hp]; exact List.mem_cons_self))
    | finished hle hk hdel => exact hdel

/-- **The timers fire as scheduled.**  In every run without cancellations, whatever the clock answers,
the callbacks run are those of the schedule, and no step fails. -/
theorem fires_as_scheduled (hr : (system threadId).ReachableIf NoCancel s) :
    OnSchedule s ∧ ∀ lab f, NoCancel s lab → (system threadId).step s lab ≠ .failed f := by
  have hs := Scheduled.of_reachable hr
  have hj := (reachable_of_noCancel hr).2
  refine ⟨hs.onSchedule, fun lab f hc => ?_⟩
  have hpending : CancelsPending threadId s lab := .of_noCancel hc hj
  exact hs.owned.step_ne_failed hpending f

instance : Decidable (NoCancel s lab) :=
  match lab with
  | .cancelTimer .. => isFalse fun h => h
  | .addTimerTask .. | .runJob | .tick _ | .timerfdRead | .getExpired | .runTimer | .endTimer
  | .rearm | .destroy => isTrue trivial

/-- A call of `handleRead` with one timer in its batch. -/
def handleOne : List Label := [.timerfdRead, .getExpired, .runTimer, .endTimer, .rearm]

/-- Timer 1 repeats and is late: it runs once in each of three calls, under the times 10, 20 and 30.
Timer 2 is added by its first callback, for a time that is over, and runs in the second call. -/
theorem fires_as_scheduled_late :
    ∃ s, (system 0).ReachableIf NoCancel s ∧ s.rounds = [35, 35, 35] ∧
      s.ran = [⟨0, 1, 10⟩, ⟨1, 2, 5⟩, ⟨1, 1, 20⟩, ⟨2, 1, 30⟩] ∧ OnSchedule s ∧
      ∀ lab f, NoCancel s lab → (system 0).step s lab ≠ .failed f := by
  obtain ⟨s, hr, hrounds, hran⟩ := System.exists_reachableIf (S := system 0) (C := NoCancel)
    (s := new 0) (P := fun s => s.rounds = [35, 35, 35] ∧
      s.ran = [⟨0, 1, 10⟩, ⟨1, 2, 5⟩, ⟨1, 1, 20⟩, ⟨2, 1, 30⟩])
    (w := [.runEvery 0 0 1 10, .tick 35, .timerfdRead, .getExpired, .runTimer, .runAt 0 2 5,
      .endTimer, .rearm, .timerfdRead, .getExpired, .runTimer, .endTimer, .runTimer, .endTimer,
      .rearm] ++ handleOne) ⟨0, rfl⟩ (by decide +kernel)
  exact ⟨s, hr, hrounds, hran, fires_as_scheduled hr⟩

end TimerQueue
end Leven
