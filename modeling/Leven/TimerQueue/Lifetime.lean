import Leven.TimerQueue.Basic

/-!
# The lifetime of the timers

A timer belongs to `timers_`, to the batch of `handleRead` or to the queued closure that will insert
it, and both `handleRead` and the body of `cancelTimer` delete it.  The body is right for a timer in
`timers_`: it takes the entry out of the only place that knows the timer.  Run for a timer of the
batch (from a callback), before the insertion, or after the last callback, it leaves a pointer
behind to what it deletes, or deletes what is gone.

* `entries`: the entries of the three places; `Sound`: they belong to different timers, each of
  which exists, has the time of its entry and is not cancelled;
* `Owned`: the invariant of the runs whose cancellations meet `CancelsPending`;
* `cancel_safe`: the law over these runs.
-/

namespace Leven.TimerQueue

open Transition Container

variable {threadId t : Pid} {s s' : TimerQueue} {lab : Label} {p : ℕ} {tm : Timer}
  {ts d now w : ℤ} {e : Entry} {l l' es rest : List Entry} {j : TimerJob} {js : List TimerJob}
  {c : Cell}
  {heap : ℕ → Option Cell}

/-! ### The entries -/

/-- The entries of the timers in `timers_`, in the batch, and in the queued closures. -/
def entries (s : TimerQueue) : List Entry :=
  s.timers.toList ++ (s.pc.batch ++ s.pendingJobs.filterMap TimerJob.entry)

/-- The entries belong to different timers, each of which exists, has the time of its entry and is
not cancelled. -/
structure Sound (l : List Entry) (heap : ℕ → Option Cell) : Prop where
  nodup : (l.map Entry.timer).Nodup
  live : ∀ e ∈ l, ∃ d, heap e.timer = some (.live ⟨e.when, d, false⟩)

theorem Sound.perm (h : Sound l heap) (hp : l'.Perm l) : Sound l' heap where
  nodup := (hp.map Entry.timer).nodup_iff.2 h.nodup
  live e he := h.live e (hp.mem_iff.1 he)

theorem Sound.sublist (h : Sound l heap) (hp : l'.Sublist l) : Sound l' heap where
  nodup := h.nodup.sublist (hp.map Entry.timer)
  live e he := h.live e (hp.subset he)

theorem Sound.ne (h : Sound (e :: l) heap) {f : Entry} (hf : f ∈ l) : f.timer ≠ e.timer := by
  have hn := h.nodup
  rw [List.map_cons, List.nodup_cons] at hn
  intro he
  exact hn.1 (he ▸ List.mem_map_of_mem hf)

theorem Sound.unique (h : Sound l heap) {f : Entry} (he : e ∈ l) (hf : f ∈ l)
    (heq : e.timer = f.timer) : e = f :=
  List.inj_on_of_nodup_map h.nodup he hf heq

/-- A new timer. -/
theorem Sound.add (h : Sound l heap) (hp : heap p = none) :
    Sound (⟨ts, p⟩ :: l) (Function.update heap p (some (.live (.new ts d)))) := by
  have hne : ∀ e ∈ l, e.timer ≠ p := by
    intro e he hep
    obtain ⟨d, hd⟩ := h.live e he
    rw [hep, hp] at hd
    cases hd
  constructor
  · rw [List.map_cons, List.nodup_cons]
    refine ⟨fun hm => ?_, h.nodup⟩
    obtain ⟨e, he, hep⟩ := List.mem_map.1 hm
    exact hne e he hep
  · intro e he
    rcases List.mem_cons.1 he with rfl | he
    · exact ⟨d, by simp [Timer.new]⟩
    · rw [Function.update_of_ne (hne e he)]
      exact h.live e he

/-- The timer of an entry that is not kept may change. -/
theorem Sound.tail (h : Sound (e :: l) heap) :
    Sound l (Function.update heap e.timer (some c)) := by
  constructor
  · have hn := h.nodup
    rw [List.map_cons, List.nodup_cons] at hn
    exact hn.2
  · intro f hf
    rw [Function.update_of_ne (h.ne hf)]
    exact h.live f (List.mem_cons_of_mem _ hf)

/-- A timer is restarted. -/
theorem Sound.restart (h : Sound (e :: l) heap) :
    Sound (⟨w, e.timer⟩ :: l) (Function.update heap e.timer (some (.live ⟨w, d, false⟩))) := by
  have ht := h.tail (c := .live ⟨w, d, false⟩)
  constructor
  · exact h.nodup
  · intro f hf
    rcases List.mem_cons.1 hf with rfl | hf
    · exact ⟨d, by simp⟩
    · exact ht.live f hf

/-! ### What the operations do to the entries -/

@[simp] theorem inserted_timers : (s.inserted p ts d).timers = s.timers.insert ⟨ts, p⟩ := by
  unfold inserted; dsimp only; split <;> rfl

@[simp] theorem inserted_heap : (s.inserted p ts d).heap = s.heap := by
  unfold inserted; dsimp only; split <;> rfl

@[simp] theorem inserted_pc : (s.inserted p ts d).pc = s.pc := by
  unfold inserted; dsimp only; split <;> rfl

@[simp] theorem inserted_clock : (s.inserted p ts d).clock = s.clock := by
  unfold inserted; dsimp only; split <;> rfl

@[simp] theorem inserted_pendingJobs : (s.inserted p ts d).pendingJobs = s.pendingJobs := by
  unfold inserted; dsimp only; split <;> rfl

@[simp] theorem inserted_cancelled : (s.inserted p ts d).cancelled = s.cancelled := by
  unfold inserted; dsimp only; split <;> rfl

@[simp] theorem inserted_ran : (s.inserted p ts d).ran = s.ran := by
  unfold inserted; dsimp only; split <;> rfl

@[simp] theorem inserted_rounds : (s.inserted p ts d).rounds = s.rounds := by
  unfold inserted; dsimp only; split <;> rfl

@[simp] theorem inserted_added :
    (s.inserted p ts d).added = s.added ++ [⟨p, ts, d, s.rounds.length⟩] := by
  unfold inserted; dsimp only; split <;> rfl

theorem rearm_eq : ∃ fd, s.rearm = { s with timerfd := fd } := by
  unfold rearm
  split
  · exact ⟨_, rfl⟩
  · exact ⟨s.timerfd, rfl⟩

theorem perm_inserted (h : (⟨ts, p⟩ : Entry) ∉ s.timers) :
    (s.inserted p ts d).entries.Perm (⟨ts, p⟩ :: s.entries) := by
  simp only [entries, inserted_timers, inserted_pc, inserted_pendingJobs]
  exact (SortedSet.perm_insert h).append_right _

theorem perm_erased (h : (⟨w, p⟩ : Entry) ∈ s.timers) :
    s.entries.Perm (⟨w, p⟩ :: (s.erased p w).entries) :=
  (SortedSet.perm_erase h).append_right _

theorem perm_queueInLoop_add :
    (s.queueInLoop (.add p ts d)).entries.Perm (⟨ts, p⟩ :: s.entries) := by
  have h : (s.queueInLoop (.add p ts d)).entries = s.entries ++ [⟨ts, p⟩] := by
    simp [entries, queueInLoop, TimerJob.entry]
  rw [h]
  exact List.perm_append_singleton _ _

theorem entries_queueInLoop_cancel : (s.queueInLoop (.cancel p)).entries = s.entries := by
  simp [entries, queueInLoop, TimerJob.entry]

theorem perm_getExpired (hp : s.pc = .reading) : (s.getExpired now).entries.Perm s.entries := by
  simp only [entries, getExpired, TimerPc.batch, hp, List.nil_append]
  rw [← SortedSet.below_append_notBelow ⟨now + 1, 0⟩ s.timers, ← List.append_assoc]
  exact List.perm_append_comm.append_right _

theorem perm_restarted (h : (⟨w, e.timer⟩ : Entry) ∉ s.timers) :
    ((s.restarted e.timer w).goOn now rest).entries.Perm
      (⟨w, e.timer⟩ :: (s.goOn now rest).entries) :=
  (SortedSet.perm_insert h).append_right _

theorem perm_goOn (hp : s.pc.batch = e :: rest) :
    s.entries.Perm (e :: (s.goOn now rest).entries) := by
  rw [entries, hp]
  exact List.perm_middle

/-! ### The invariant -/

/-- The entry of the timer is in `timers_`. -/
def IsPending (p : ℕ) (s : TimerQueue) : Prop := ∃ e ∈ s.timers.toList, e.timer = p

instance : Decidable (s.IsPending p) :=
  inferInstanceAs (Decidable (∃ e ∈ s.timers.toList, e.timer = p))

/-- The closure is not a cancellation, or cancels a timer whose entry is in `timers_`. -/
def CancelsPendingJob (s : TimerQueue) : TimerJob → Prop
  | .add .. => True
  | .cancel p => s.IsPending p

/-- The body of `cancelTimer`, where it is run, is run for a timer whose entry is in `timers_`. -/
def CancelsPending (threadId : Pid) (s : TimerQueue) : Label → Prop
  | .cancelTimer t p => t = threadId → s.IsPending p
  | .runJob => ∀ j ∈ s.pendingJobs.head?, s.CancelsPendingJob j
  | _ => True

instance : Decidable (s.CancelsPendingJob j) :=
  match j with
  | .add .. => inferInstanceAs (Decidable True)
  | .cancel p => inferInstanceAs (Decidable (s.IsPending p))

instance : Decidable (CancelsPending threadId s lab) :=
  match lab with
  | .cancelTimer t p => inferInstanceAs (Decidable (t = threadId → s.IsPending p))
  | .runJob =>
    match h : s.pendingJobs with
    | [] => isTrue (by simp [CancelsPending, h])
    | j :: _ => decidable_of_iff (s.CancelsPendingJob j) (by simp [CancelsPending, h])
  | .addTimerTask .. | .tick _ | .timerfdRead | .getExpired | .runTimer | .endTimer | .rearm
  | .destroy => inferInstanceAs (Decidable True)

/-- The timers of the batch are due. -/
def TimerPc.Due : TimerPc → Prop
  | .handling now rest | .running now _ rest => ∀ e ∈ rest, e.when ≤ now
  | _ => True

/-- The invariant. -/
structure Owned (s : TimerQueue) : Prop where
  sound : Sound s.entries s.heap
  due : TimerPc.Due s.pc
  deleted : ∀ p ∈ s.cancelled, s.heap p = some .deleted

theorem Sound.notMem_timers (h : Sound (⟨ts, p⟩ :: s.entries) heap) :
    (⟨w, p⟩ : Entry) ∉ s.timers :=
  fun hm => h.ne (List.mem_append_left _ hm) rfl

theorem Sound.mem_timers (h : Sound s.entries s.heap) (hp : s.IsPending p)
    (hl : s.heap p = some (.live tm)) : (⟨tm.when, p⟩ : Entry) ∈ s.timers := by
  obtain ⟨⟨w, q⟩, he, rfl⟩ := hp
  obtain ⟨d, hd⟩ := h.live _ (List.mem_append_left _ he)
  rw [hl] at hd
  cases hd
  exact he

/-- The closure of `addTimerTask`, when the only trace of the timer is the closure. -/
theorem Owned.inserted (hs : Sound (⟨ts, p⟩ :: s.entries) s.heap) (hd : TimerPc.Due s.pc)
    (hc : ∀ p ∈ s.cancelled, s.heap p = some .deleted) : Owned (s.inserted p ts d) where
  sound := by
    rw [inserted_heap]
    exact hs.perm (perm_inserted hs.notMem_timers)
  due := by rw [inserted_pc]; exact hd
  deleted := by rw [inserted_cancelled, inserted_heap]; exact hc

/-- A timer whose entry is not kept is deleted. -/
theorem Sound.drop (h : Sound (⟨w, p⟩ :: s.entries) s.heap) :
    Sound (s.drop p).entries (s.drop p).heap :=
  h.tail (c := .deleted)

theorem deleted_drop (hc : ∀ p ∈ s.cancelled, s.heap p = some .deleted) (q : ℕ)
    (hq : q ∈ s.cancelled) : (s.drop p).heap q = some .deleted := by
  by_cases he : q = p
  · simp [TimerQueue.drop, he]
  · simpa [TimerQueue.drop, he] using hc q hq

theorem Owned.erased (hs : Owned s) (hm : (⟨w, p⟩ : Entry) ∈ s.timers) :
    Owned ((s.erased p w).drop p) where
  sound := (hs.sound.perm (perm_erased hm).symm).drop
  due := hs.due
  deleted q hq := by
    by_cases he : q = p
    · simp [TimerQueue.drop, he]
    · have hq : q ∈ s.cancelled := by simpa [TimerQueue.drop, TimerQueue.erased, he] using hq
      simpa [TimerQueue.drop, TimerQueue.erased, he] using hs.deleted q hq

/-- A new timer does not take the place of a deleted one. -/
theorem deleted_store (hp : s.heap p = none) (hq : s.heap q = some .deleted) :
    (s.store p tm).heap q = some .deleted := by
  have hne : q ≠ p := by
    rintro rfl
    rw [hq] at hp
    cases hp
  simpa [TimerQueue.store, hne] using hq

theorem perm_runJob_add (hj : s.pendingJobs = .add p ts d :: js) :
    s.entries.Perm (⟨ts, p⟩ :: { s with pendingJobs := js }.entries) := by
  simp only [entries, hj, List.filterMap_cons, TimerJob.entry, ← List.append_assoc]
  exact List.perm_middle

theorem entries_runJob_cancel (hj : s.pendingJobs = .cancel p :: js) :
    s.entries = { s with pendingJobs := js }.entries := by
  rw [entries, hj]
  rfl

/-- Apart from the entry that is being processed, the entries are those behind it. -/
theorem Owned.sound_goOn (hs : Owned s) (hp : s.pc.batch = e :: rest) :
    Sound (e :: (s.goOn now rest).entries) s.heap :=
  hs.sound.perm (perm_goOn hp).symm

/-- The timer of an entry. -/
theorem Owned.timer_eq (hs : Owned s) (he : e ∈ s.pc.batch)
    (hl : s.heap e.timer = some (.live tm)) :
    tm.when = e.when ∧ tm.canceled = false := by
  obtain ⟨d, hd⟩ := hs.sound.live e (List.mem_append_right _ (List.mem_append_left _ he))
  rw [hl] at hd
  cases hd
  exact ⟨rfl, rfl⟩

/-- The timers of `timers_` are in no other place. -/
theorem Sound.timer_ne {f : Entry} (h : Sound s.entries heap) (he : e ∈ s.timers.toList)
    (hf : f ∈ s.pc.batch ++ s.pendingJobs.filterMap TimerJob.entry) : e.timer ≠ f.timer := by
  have hn := h.nodup
  rw [entries, List.map_append, List.nodup_append] at hn
  exact hn.2.2 _ (List.mem_map_of_mem he) _ (List.mem_map_of_mem hf)

/-- `~TimerQueue` deletes the timers of `timers_`. -/
theorem Owned.destroyed (hs : Owned s) (hp : s.pc = .idle)
    (hdel : ∀ e ∈ s.timers.toList, heap e.timer = some .deleted)
    (hsame : ∀ p, (∀ e ∈ s.timers.toList, e.timer ≠ p) → heap p = s.heap p) :
    Owned { s with heap := heap, timers := ∅, pc := .destroyed } := by
  have hsub := hs.sound.sublist (List.sublist_append_right s.timers.toList _)
  rw [hp] at hsub
  refine ⟨⟨hsub.nodup, fun e he => ?_⟩, trivial, fun q hq => ?_⟩
  · obtain ⟨d, hd⟩ := hsub.live e he
    have he' : e ∈ s.pc.batch ++ s.pendingJobs.filterMap TimerJob.entry :=
      List.mem_append_right _ he
    exact ⟨d, (hsame e.timer fun f hf => hs.sound.timer_ne hf he').trans hd⟩
  · by_cases hin : ∃ e ∈ s.timers.toList, e.timer = q
    · obtain ⟨e, he, rfl⟩ := hin
      exact hdel e he
    · exact (hsame q fun e he heq => hin ⟨e, he, heq⟩).trans (hs.deleted q hq)

theorem Owned.step (hs : Owned s) (hc : CancelsPending threadId s lab) (h : Step threadId s lab s') :
    Owned s' := by
  cases h with
  | @addNow p ts d s' hcall hp h =>
    cases h with
    | add hn =>
      exact .inserted (hs.sound.add hp) hs.due fun q hq => deleted_store hp (hs.deleted q hq)
  | addLater hcall ht hp =>
    exact ⟨(hs.sound.add hp).perm perm_queueInLoop_add, hs.due,
      fun q hq => deleted_store hp (hs.deleted q hq)⟩
  | @cancelNow p s' hcall hl hn h =>
    have hs' : Owned (s.noteCancel p) := ⟨hs.sound, hs.due, hs.deleted⟩
    cases h with
    -- the timer is still in `timers_`, as the condition asks, so the erase takes its entry
    | cancel hl hcan => exact hs'.erased (hs.sound.mem_timers (hc rfl) hl)
  | cancelLater hcall ht hl hn =>
    refine ⟨?_, hs.due, hs.deleted⟩
    rw [entries_queueInLoop_cancel]
    exact hs.sound
  | @runJob j js s' hp hj h =>
    cases h with
    | @add p ts d hn => exact .inserted (hs.sound.perm (perm_runJob_add hj).symm) hs.due hs.deleted
    | @cancel p tm hl hcan =>
      have hs' : Owned { s with pendingJobs := js } :=
        ⟨entries_runJob_cancel hj ▸ hs.sound, hs.due, hs.deleted⟩
      have hpend : s.IsPending p := hc (.cancel p) (by rw [hj]; rfl)
      exact hs'.erased (hs.sound.mem_timers hpend hl)
  | tick => exact ⟨hs.sound, hs.due, hs.deleted⟩
  | timerfdRead hp =>
    refine ⟨?_, trivial, hs.deleted⟩
    have hs' := hs.sound
    rw [entries, hp] at hs'
    exact hs'
  | getExpired hp =>
    refine ⟨hs.sound.perm (perm_getExpired hp), fun e he => ?_, hs.deleted⟩
    exact Entry.lt_bound_iff.1 (SortedSet.lt_of_mem_below he)
  | @runTimer now e rest tm hp hl he hcan =>
    have hdue := hs.due
    have hsound := hs.sound
    rw [hp] at hdue
    rw [entries, hp] at hsound
    exact ⟨hsound, fun f hf => hdue f (List.mem_cons_of_mem e hf), hs.deleted⟩
  | @skipTimer now e rest tm hp hl hcan =>
    have hfalse := (hs.timer_eq (by rw [hp]; exact List.mem_cons_self) hl).2
    rw [hcan] at hfalse
    cases hfalse
  | @restart now e rest tm hp hl hr =>
    have hdue := hs.due
    rw [hp] at hdue
    have hsound : Sound (e :: (s.goOn now rest).entries) s.heap := hs.sound_goOn (by rw [hp]; rfl)
    have hnot := hsound.notMem_timers (w := tm.when + tm.interval)
    obtain ⟨w, d, _⟩ := tm
    cases hr.1
    refine ⟨(hsound.restart).perm (perm_restarted hnot), hdue, fun q hq => ?_⟩
    have hne : q ≠ e.timer := by
      rintro rfl
      rw [hs.deleted _ hq] at hl
      cases hl
    simpa [TimerQueue.goOn, TimerQueue.restarted, TimerQueue.store, hne] using hs.deleted q hq
  | @finish now e rest tm hp hl hr =>
    have hdue := hs.due
    rw [hp] at hdue
    have hsound : Sound (e :: (s.goOn now rest).entries) s.heap := hs.sound_goOn (by rw [hp]; rfl)
    exact ⟨hsound.drop, hdue, deleted_drop hs.deleted⟩
  | rearm hp =>
    obtain ⟨fd, hfd⟩ := rearm_eq (s := s)
    rw [hfd]
    have hs' := hs.sound
    rw [entries, hp] at hs'
    exact ⟨hs', trivial, hs.deleted⟩
  | destroy hp h =>
    obtain ⟨heap, rfl, hdel, hsame⟩ := deleteAll_eq_next h
    exact hs.destroyed hp hdel hsame

theorem Owned.of_reachable (hr : (system threadId).ReachableIf (CancelsPending threadId) s) :
    Owned s := by
  refine hr.invariant ?_ fun _ _ _ hs hc h => hs.step hc (.of_step h)
  rintro _ ⟨clock, rfl⟩
  exact ⟨⟨List.nodup_nil, by rintro e ⟨⟩⟩, trivial, by rintro p ⟨⟩⟩

/-! ### No step fails -/

theorem perform_add (h : (⟨ts, p⟩ : Entry) ∉ s.timers) :
    s.perform (.add p ts d) = .next (s.inserted p ts d) :=
  addInLoop_eq_next.2 ⟨h, rfl⟩

theorem Sound.perform_cancel (h : Sound s.entries s.heap) (hp : s.IsPending p) :
    ∃ s', s.perform (.cancel p) = .next s' := by
  obtain ⟨e, he, rfl⟩ := hp
  obtain ⟨d, hd⟩ := h.live e (List.mem_append_left _ he)
  exact ⟨_, cancelInLoop_eq_next.2 ⟨_, hd, rfl, rfl⟩⟩

theorem Owned.endTimer (hs : Owned s) (he : e ∈ s.pc.batch) :
    ∃ s', s.endTimer now e rest = .next s' := by
  obtain ⟨d, hd⟩ := hs.sound.live e (List.mem_append_right _ (List.mem_append_left _ he))
  by_cases hr : Timer.Restarts ⟨e.when, d, false⟩
  · exact ⟨_, endTimer_eq_next.2 ⟨_, hd, .inl ⟨hr, rfl⟩⟩⟩
  · exact ⟨_, endTimer_eq_next.2 ⟨_, hd, .inr ⟨hr, rfl⟩⟩⟩

theorem Owned.runTimer (hs : Owned s) (hp : s.pc = .handling now (e :: rest)) :
    s.runTimer now e rest = .next (s.called now e rest) := by
  have he : e ∈ s.pc.batch := by rw [hp]; exact List.mem_cons_self
  have hdue := hs.due
  rw [hp] at hdue
  obtain ⟨d, hd⟩ := hs.sound.live e (List.mem_append_right _ (List.mem_append_left _ he))
  exact runTimer_eq_next.2 ⟨_, hd, hdue e List.mem_cons_self, .inl ⟨rfl, rfl⟩⟩

/-- Different timers that exist can all be deleted. -/
theorem exists_deleteAll (hn : (es.map Entry.timer).Nodup) (hl : ∀ e ∈ es, s.IsLive e.timer) :
    ∃ s', deleteAll es s = .next s' := by
  induction es generalizing s with
  | nil => exact ⟨s, rfl⟩
  | cons e es ih =>
    rw [List.map_cons, List.nodup_cons] at hn
    obtain ⟨s', hs'⟩ := ih (s := s.drop e.timer) hn.2 fun f hf => by
      obtain ⟨tm, htm⟩ := hl f (List.mem_cons_of_mem _ hf)
      have hne : f.timer ≠ e.timer := fun he => hn.1 (he ▸ List.mem_map_of_mem hf)
      exact ⟨tm, by simpa [TimerQueue.drop, hne] using htm⟩
    refine ⟨s', ?_⟩
    rw [deleteAll, Outcome.bind_eq_next]
    exact ⟨_, delete_eq_next.2 ⟨hl e List.mem_cons_self, rfl⟩, hs'⟩

theorem Owned.step_ne_failed (hs : Owned s) (hc : CancelsPending threadId s lab) (f : Fault) :
    (system threadId).step s lab ≠ .failed f := by
  intro h
  change TimerQueue.step threadId s lab = .failed f at h
  cases lab with
  | addTimerTask t p ts d =>
    simp only [TimerQueue.step, Outcome.guard_eq_failed, runInLoop] at h
    obtain ⟨⟨-, hp⟩, h⟩ := h
    have hsound : Sound (⟨ts, p⟩ :: s.entries) (s.store p (.new ts d)).heap := hs.sound.add hp
    split_ifs at h
    rw [perform_add (Sound.notMem_timers (s := s.store p (.new ts d)) hsound)] at h
    cases h
  | cancelTimer t p =>
    simp only [TimerQueue.step, Outcome.guard_eq_failed, runInLoop] at h
    obtain ⟨-, h⟩ := h
    split_ifs at h with ht
    obtain ⟨s', hs'⟩ := Sound.perform_cancel (s := s.noteCancel p) hs.sound (hc ht)
    rw [hs'] at h
    cases h
  | runJob =>
    simp only [TimerQueue.step] at h
    split at h
    next j js hj =>
      obtain ⟨-, h⟩ := Outcome.guard_eq_failed.1 h
      cases j with
      | add p ts d =>
        have hsound := hs.sound.perm (perm_runJob_add hj).symm
        rw [perform_add (Sound.notMem_timers (s := { s with pendingJobs := js }) hsound)] at h
        cases h
      | cancel p =>
        obtain ⟨s', hs'⟩ := Sound.perform_cancel (s := { s with pendingJobs := js })
          (entries_runJob_cancel hj ▸ hs.sound) (hc (.cancel p) (by rw [hj]; rfl))
        rw [hs'] at h
        cases h
    next => cases h
  | runTimer =>
    simp only [TimerQueue.step] at h
    split at h
    next now e rest hp => rw [hs.runTimer hp] at h; cases h
    next => cases h
  | endTimer =>
    simp only [TimerQueue.step] at h
    split at h
    next now e rest hp =>
      have hend : ∃ s', s.endTimer now e rest = .next s' :=
        hs.endTimer (by rw [hp]; exact List.mem_cons_self)
      obtain ⟨s', hs'⟩ := hend
      rw [hs'] at h
      cases h
    next => cases h
  | rearm =>
    simp only [TimerQueue.step] at h
    split at h <;> cases h
  | destroy =>
    have hsub := hs.sound.sublist (List.sublist_append_left s.timers.toList _)
    obtain ⟨s', hs'⟩ := exists_deleteAll hsub.nodup fun e he =>
      (hsub.live e he).elim fun d hd => ⟨_, hd⟩
    simp only [TimerQueue.step, Outcome.guard_eq_failed, hs', Outcome.bind] at h
    cases h.2
  | tick now | timerfdRead | getExpired => simp [TimerQueue.step] at h

/-- A step calls at most one callback, of a timer that exists. -/
theorem Step.ran_cases (h : Step threadId s lab s') :
    s'.ran = s.ran ∨ ∃ x, s'.ran = s.ran ++ [x] ∧ s.IsLive x.timer := by
  cases h with
  | runTimer hp hl he hcan => exact .inr ⟨_, rfl, _, hl⟩
  | addNow hc hp h => cases h; exact .inl inserted_ran
  | cancelNow hc hl hn h => cases h; exact .inl rfl
  | runJob hp hj h =>
    cases h with
    | add hn => exact .inl inserted_ran
    | cancel hl hcan => exact .inl rfl
  | rearm hp =>
    obtain ⟨fd, hfd⟩ := rearm_eq (s := s)
    rw [hfd]
    exact .inl rfl
  | destroy hp h =>
    obtain ⟨heap, rfl, -, -⟩ := deleteAll_eq_next h
    exact .inl rfl
  | _ => exact .inl rfl

/-- A callback is called of a timer that exists. -/
theorem Step.isLive_of_ran {x : Firing} (h : Step threadId s lab s')
    (hx : s'.ran = s.ran ++ [x]) : s.IsLive x.timer := by
  obtain h | ⟨y, hy, hl⟩ := h.ran_cases
  · simp [h] at hx
  · cases List.append_cancel_left (hy.symm.trans hx)
    exact hl

/-! ### The law -/

/-- **A timer is deleted once, and not used afterwards.**  In every run in which the body of
`cancelTimer` is run only for a timer whose entry is in `timers_`, no step accesses a deleted timer,
deletes one again or trips an assertion, and no step calls the callback of a timer for which the body
of `cancelTimer` has run. -/
theorem cancel_safe (hr : (system threadId).ReachableIf (CancelsPending threadId) s) :
    (∀ lab f, CancelsPending threadId s lab → (system threadId).step s lab ≠ .failed f) ∧
    ∀ lab s' x, (system threadId).step s lab = .next s' → s'.ran = s.ran ++ [x] →
      x.timer ∉ s.cancelled := by
  have hs := Owned.of_reachable hr
  refine ⟨fun lab f hc => hs.step_ne_failed hc f, fun lab s' x h hx hcan => ?_⟩
  obtain ⟨tm, hl⟩ := (Step.of_step h).isLive_of_ran hx
  rw [hs.deleted _ hcan] at hl
  cases hl

/-- The callback of timer 2 cancels timer 1, which is in `timers_`. -/
theorem cancel_safe_two :
    ∃ s, (system 0).ReachableIf (CancelsPending 0) s ∧ s.cancelled = [1] ∧
      s.pc = .running 0 ⟨0, 2⟩ [] ∧
      (∀ lab f, CancelsPending 0 s lab → (system 0).step s lab ≠ .failed f) ∧
      ∀ lab s' x, (system 0).step s lab = .next s' → s'.ran = s.ran ++ [x] →
        x.timer ∉ s.cancelled := by
  obtain ⟨s, hr, hcan, hp⟩ := System.exists_reachableIf (S := system 0) (C := CancelsPending 0)
    (s := new 0) (P := fun s => s.cancelled = [1] ∧ s.pc = .running 0 ⟨0, 2⟩ [])
    (w := [.runEvery 0 0 1 10, .runAt 0 2 0, .timerfdRead, .getExpired, .runTimer,
      .cancelTimer 0 1]) ⟨0, rfl⟩ (by decide +kernel)
  exact ⟨s, hr, hcan, hp, cancel_safe hr⟩

/-- The callback of a timer cancels this timer: the closure deletes it, and `handleRead` goes on with
it when the callback returns. -/
theorem cancelled_in_callback :
    ∃ s, (system 0).Reachable s ∧ s.pc = .running 0 ⟨0, 1⟩ [] ∧ s.cancelled = [1] ∧
      (system 0).step s .endTimer = .failed .destroyed := by
  have hrun : ((system 0).exec (new 0) [.runAt 0 1 0, .timerfdRead, .getExpired, .runTimer,
      .cancelTimer 0 1]).Leads fun s => s.pc = .running 0 ⟨0, 1⟩ [] ∧ s.cancelled = [1] ∧
        (system 0).step s .endTimer = .failed .destroyed := by
    decide +kernel
  obtain ⟨s, hs, h⟩ := hrun
  exact ⟨s, System.reachable_of_exec ⟨0, rfl⟩ hs, h⟩

end Leven.TimerQueue
