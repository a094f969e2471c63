import Leven.TimerQueue.Lifetime

/-!
# The timerfd is armed

Nobody looks at `timers_` until the timerfd expires: a timer that the timerfd does not know of is
forgotten.  The timerfd is set when an entry goes to the front and at the end of `handleRead`, and it
is not set when the front is cancelled.

* `Timerfd.Covers`: the timerfd has an expiration to read, or expires in time;
* `settime_durationFromNow`: the value is never zero;
* `Armed`: the timerfd covers the first timer, outside of `handleRead`;
* `timerfd_armed`: the law.
-/

namespace Leven

open Transition Container

/-! ### The timerfd -/

namespace Timerfd

variable {clock now ts ts' : ℤ} {fd : Timerfd}

/-- At the time `clock`, the timerfd has an expiration to read, or it expires no later than at the
time `ts`, or within a millisecond. -/
def Covers (fd : Timerfd) (clock ts : ℤ) : Prop :=
  fd.unread = true ∨ ∃ x, fd.armed = some x ∧ x ≤ max ts (clock + TimerQueue.millisecond)

/-- A later time is covered, too. -/
theorem Covers.mono (h : fd.Covers clock ts) (hclock : clock ≤ now) (hts : ts ≤ ts') :
    fd.Covers now ts' := by
  refine h.imp_right fun ⟨x, hx, hle⟩ => ⟨x, hx, hle.trans ?_⟩
  exact max_le_max hts (add_le_add_left hclock _)

/-- When the clock passes the expiry there is an expiration to read. -/
theorem Covers.advance (h : fd.Covers clock ts) (hclock : clock ≤ now) :
    (fd.advance now).Covers now ts := by
  unfold Timerfd.advance
  split
  · split_ifs
    · exact .inl rfl
    · exact h.mono hclock le_rfl
  · exact h.mono hclock le_rfl

end Timerfd

namespace TimerQueue

variable {threadId : Pid} {s s' : TimerQueue} {lab : Label} {p : ℕ} {ts w d clock : ℤ}
  {j : TimerJob}

/-- At least a millisecond is left, so the value is not zero and the timerfd is armed. -/
theorem settime_durationFromNow :
    Timerfd.settime clock (durationFromNow clock ts) =
      ⟨some (max ts (clock + millisecond)), false⟩ := by
  have hsum : ∀ ns : ℤ, ns.tdiv Timespec.den * Timespec.den + ns.tmod Timespec.den = ns :=
    fun ns => Int.tdiv_mul_add_tmod ns Timespec.den
  have hset : ∀ ns : ℤ, 0 < ns →
      Timerfd.settime clock ⟨ns.tdiv Timespec.den, ns.tmod Timespec.den⟩ =
        ⟨some (clock + ns), false⟩ := by
    intro ns hns
    have hne : ¬ (ns.tdiv Timespec.den = 0 ∧ ns.tmod Timespec.den = 0) := by
      rintro ⟨hdiv, hmod⟩
      have h := hsum ns
      rw [hdiv, hmod] at h
      omega
    rw [Timerfd.settime, if_neg hne, hsum]
  have hms : (0 : ℤ) < millisecond := by decide
  unfold durationFromNow
  split_ifs with h
  · rw [hset _ hms, max_eq_right (by omega)]
  · rw [hset _ (by omega), max_eq_left (by omega)]
    congr 2
    omega

theorem timerfdSet_timerfd :
    (s.timerfdSet ts).timerfd = ⟨some (max ts (s.clock + millisecond)), false⟩ :=
  settime_durationFromNow

theorem timerfdSet_covers : (s.timerfdSet ts).timerfd.Covers s.clock ts := by
  rw [timerfdSet_timerfd]
  exact .inr ⟨_, rfl, le_rfl⟩

/-! ### The invariant -/

/-- The clock does not go back. -/
def ClockMonotone (s : TimerQueue) : Label → Prop
  | .tick now => s.clock ≤ now
  | _ => True

instance : Decidable (ClockMonotone s lab) :=
  match lab with
  | .tick now => inferInstanceAs (Decidable (s.clock ≤ now))
  | .addTimerTask .. | .cancelTimer .. | .runJob | .timerfdRead | .getExpired | .runTimer
  | .endTimer | .rearm | .destroy => inferInstanceAs (Decidable True)

/-- The timerfd covers the first timer. -/
def Covered (s : TimerQueue) : Prop :=
  ∀ e, s.timers.first = some e → s.timerfd.Covers s.clock e.when

/-- Outside of `handleRead` the timerfd covers the first timer. -/
def Armed (s : TimerQueue) : Prop := s.pc = .idle → s.Covered

/-- The timerfd is set for the new entry, or the first entry is what it was. -/
theorem Covered.inserted (hs : s.Covered) : (s.inserted p ts d).Covered := by
  intro e he
  unfold TimerQueue.inserted at he ⊢
  dsimp only at he ⊢
  -- `addTimerTask` sets the timerfd when its entry comes first
  split_ifs at he ⊢ with hfirst
  · have hew : e = ⟨ts, p⟩ := Option.some.inj (he.symm.trans hfirst)
    subst hew
    exact timerfdSet_covers
  · have he' : (s.timers.insert ⟨ts, p⟩).first = some e := he
    rw [SortedSet.first_insert hfirst] at he'
    exact hs e he'

/-- Without one entry the first one may be later: the timerfd expires too early. -/
theorem Covered.erased (hs : s.Covered) : (s.erased p w).Covered := by
  intro e he
  have hmem : e ∈ s.timers := (SortedSet.mem_erase.1 (SortedSet.mem_of_first he)).2
  obtain ⟨f, hf⟩ := Option.ne_none_iff_exists'.1 (SortedSet.first_ne_none hmem)
  refine (hs f hf).mono le_rfl ?_
  rcases (SortedSet.first_le hf hmem).lt_or_eq with hlt | rfl
  · exact Entry.when_le_of_lt hlt
  · exact le_rfl

theorem Covered.performed (hs : s.Covered) (h : Performed s j s') : s'.Covered := by
  cases h with
  | add hn => exact hs.inserted
  | @cancel p tm hl hc => exact hs.erased (p := p) (w := tm.when)

theorem rearm_covered : s.rearm.Covered := by
  intro e he
  unfold TimerQueue.rearm at he ⊢
  split at he
  · next f hf =>
    have hef : f = e := Option.some.inj (hf.symm.trans he)
    subst hef
    exact timerfdSet_covers
  · next hf => exact absurd (hf.symm.trans he) (by simp)

theorem Performed.pc_eq (h : Performed s j s') : s'.pc = s.pc := by
  cases h with
  | add hn => exact inserted_pc
  | cancel hl hc => rfl

theorem Armed.step (hs : Armed s) (hc : ClockMonotone s lab) (h : Step threadId s lab s') :
    Armed s' := by
  intro hp'
  cases h with
  | @addNow p ts d _ hcall hn h =>
    rw [h.pc_eq] at hp'
    have hstore : (s.store p (.new ts d)).Covered := hs hp'
    exact hstore.performed h
  | @cancelNow p _ hcall hl hn h =>
    rw [h.pc_eq] at hp'
    have hnote : (s.noteCancel p).Covered := hs hp'
    exact hnote.performed h
  | @runJob j js _ hp hj h =>
    have hrest : { s with pendingJobs := js }.Covered := hs hp
    exact hrest.performed h
  | tick => exact fun e he => (hs hp' e he).advance hc
  | addLater | cancelLater => exact hs hp'
  | rearm hp => exact rearm_covered (s := s)
  | timerfdRead | getExpired | runTimer | skipTimer | restart | finish | destroy => cases hp'

theorem Armed.of_reachable (hr : (system threadId).ReachableIf ClockMonotone s) : Armed s := by
  refine hr.invariant (I := Armed) ?_ fun s lab s' hs hc h => hs.step hc (Step.of_step h)
  rintro _ ⟨clock, rfl⟩ - e he
  cases he

/-! ### The timerfd is not disarmed -/

theorem inserted_armed (ha : s.timerfd.armed ≠ none) :
    (s.inserted p ts d).timerfd.armed ≠ none := by
  unfold TimerQueue.inserted
  dsimp only
  split_ifs
  · rw [timerfdSet_timerfd]
    exact Option.some_ne_none _
  · exact ha

theorem Performed.armed (h : Performed s j s') (ha : s.timerfd.armed ≠ none) :
    s'.timerfd.armed ≠ none := by
  cases h with
  | add hn => exact inserted_armed ha
  | cancel hl hc => exact ha

theorem rearm_armed (ha : s.timerfd.armed ≠ none) : s.rearm.timerfd.armed ≠ none := by
  unfold TimerQueue.rearm
  split
  · rw [timerfdSet_timerfd]
    exact Option.some_ne_none _
  · exact ha

/-- An armed timerfd stays armed until it expires. -/
theorem Step.armed (h : Step threadId s lab s') (ha : s.timerfd.armed ≠ none) :
    s'.timerfd.armed ≠ none ∨ s'.timerfd.unread = true := by
  cases h with
  | addNow hcall hn h => exact .inl (h.armed ha)
  | cancelNow hcall hl hn h => exact .inl (h.armed ha)
  | runJob hp hj h => exact .inl (h.armed ha)
  | @tick now =>
    show (s.timerfd.advance now).armed ≠ none ∨ (s.timerfd.advance now).unread = true
    unfold Timerfd.advance
    split
    · split_ifs
      · exact .inr rfl
      · exact .inl ha
    · exact .inl ha
  | rearm hp => exact .inl (rearm_armed ha)
  | destroy hp h =>
    obtain ⟨heap, rfl, -, -⟩ := deleteAll_eq_next h
    exact .inl ha
  | _ => exact .inl ha

/-! ### The law -/

/-- **No timer is forgotten.**  In every run, with a clock that does not go back, outside of
`handleRead` the timerfd has an expiration to read or expires no later than when the first timer of
`timers_` is due, or within a millisecond; and no step disarms it before it has expired. -/
theorem timerfd_armed (hr : (system threadId).ReachableIf ClockMonotone s) :
    (s.pc = .idle → ∀ e, s.timers.first = some e →
      s.timerfd.unread = true ∨
        ∃ ts, s.timerfd.armed = some ts ∧ ts ≤ max e.when (s.clock + millisecond)) ∧
    ∀ lab s', (system threadId).step s lab = .next s' → s.timerfd.armed ≠ none →
      s'.timerfd.armed ≠ none ∨ s'.timerfd.unread = true :=
  ⟨Armed.of_reachable hr, fun _ _ h ha => (Step.of_step h).armed ha⟩

/-- The front has been cancelled, and the timer behind it has fired and is in `timers_` again. -/
theorem timerfd_armed_again :
    ∃ s, (system 0).ReachableIf ClockMonotone s ∧ s.pc = .idle ∧
      s.timers.first = some ⟨3000000, 2⟩ ∧
      (s.timerfd.unread = true ∨
        ∃ ts, s.timerfd.armed = some ts ∧ ts ≤ max 3000000 (s.clock + millisecond)) := by
  obtain ⟨s, hr, hp, hf⟩ := System.exists_reachableIf (S := system 0) (C := ClockMonotone)
    (s := new 0) (P := fun s => s.pc = .idle ∧ s.timers.first = some ⟨3000000, 2⟩)
    (w := [.runAt 0 1 5, .runEvery 0 0 2 1500000, .cancelTimer 0 1, .tick 2500000, .timerfdRead,
      .getExpired, .runTimer, .endTimer, .rearm]) ⟨0, rfl⟩ (by decide +kernel)
  exact ⟨s, hr, hp, hf, (timerfd_armed hr).1 hp _ hf⟩

end TimerQueue
end Leven
