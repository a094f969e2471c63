import Leven.Transition.History
import Leven.Transition.System

/-!
# Back-pressure by a high-water mark

What is received is passed on through a buffer.  When the buffer grows across a mark, or is drained,
a notice is put into a queue; when its turn comes, the one stops the reader and the other starts it.
Between a change of the buffer and its notice other things may happen to the buffer, so the two
notices can be waiting at once, and the buffer may have been drained when the reader is stopped.

* `State`, `step`, `system`: the reader, the level of the buffer and the notices that wait;
* `Balanced`: the invariant, kept by every step (`Balanced.step`);
* `Balanced.resumes`: a reader that is stopped will be started, since the buffer is not empty or the
  notice that it is drained is waiting;
* `level_lt`: the level is below the mark and one more reception, if the reader respects the stop.
-/

namespace Transition.Backpressure

open Transition

/-- What waits in the queue. -/
inductive Notice
  | high
  | drained
  deriving DecidableEq

structure State where
  reading : Bool
  level : ℕ
  notices : List Notice

/-- The steps: a reception whose rest goes to the buffer, one that is passed on at once, a write
that leaves something in the buffer, the last one, and the notice at the head of the queue. -/
inductive Label
  | receive (n : ℕ)
  | relay
  | write (n : ℕ)
  | drain
  | notice

/-- The notice of a step across the mark. -/
def crossing (mark oldLen newLen : ℕ) : List Notice :=
  if oldLen < mark ∧ mark ≤ newLen then [.high] else []

/-- The step function.  Nothing is received while a notice is waiting. -/
def step (mark : ℕ) (s : State) : Label → Outcome Empty State
  | .receive n =>
    .guard (0 < n ∧ s.notices = []) <|
      .next { s with level := s.level + n, notices := crossing mark s.level (s.level + n) }
  | .relay => .guard (s.level = 0 ∧ s.notices = []) <| .next { s with notices := [.drained] }
  | .write n => .guard (n < s.level) <| .next { s with level := s.level - n }
  | .drain =>
    .guard (0 < s.level) <| .next { s with level := 0, notices := s.notices ++ [.drained] }
  | .notice =>
    match s.notices with
    | .high :: q => .next { s with reading := false, notices := q }
    | .drained :: q => .next { s with reading := true, notices := q }
    | [] => .blocked

def system (mark : ℕ) : System State Label Empty where
  init s := s = ⟨true, 0, []⟩
  step := step mark

variable {mark n : ℕ} {s s' : State} {lab : Label}

/-- The reader, the level and the notices fit together. -/
structure Balanced (mark : ℕ) (s : State) : Prop where
  /-- the reader is not stopped for nothing -/
  followed : ∀ q₁ q₂, s.notices = q₁ ++ .high :: q₂ → 0 < s.level ∨ .drained ∈ q₂
  drained : .drained ∈ s.notices → s.level = 0
  marked : s.reading = true → mark ≤ s.level → .high ∈ s.notices
  resumes : s.reading = false → 0 < s.level ∨ .drained ∈ s.notices

theorem Balanced.of_init (hpos : 0 < mark) (h : (system mark).init s) : Balanced mark s := by
  obtain rfl : s = ⟨true, 0, []⟩ := h
  exact ⟨by simp, by simp, fun _ hm => absurd hm (not_le.2 hpos), by simp⟩

theorem mem_crossing {a : Notice} {i j : ℕ} :
    a ∈ crossing mark i j ↔ a = .high ∧ i < mark ∧ mark ≤ j := by
  unfold crossing
  split_ifs with h <;> simp [h]

theorem Balanced.receive (hs : Balanced mark s) (hn : 0 < n) (hq : s.notices = []) :
    Balanced mark
      { s with level := s.level + n, notices := crossing mark s.level (s.level + n) } := by
  constructor
  · exact fun q₁ q₂ _ => .inl (Nat.add_pos_right s.level hn)
  · intro hd
    exact absurd (mem_crossing.1 hd).1 (by decide)
  · intro hr hm
    refine mem_crossing.2 ⟨rfl, ?_, hm⟩
    by_contra hlt
    have := hs.marked hr (not_lt.1 hlt)
    simp [hq] at this
  · exact fun _ => .inl (Nat.add_pos_right s.level hn)

/-- The notice that the buffer is drained comes behind all that wait. -/
theorem Balanced.drain (hpos : 0 < mark) :
    Balanced mark { s with level := 0, notices := s.notices ++ [.drained] } := by
  constructor
  · intro q₁ q₂ he
    obtain ⟨g, -, rfl⟩ | ⟨g, -, hg⟩ := append_eq_append_cons he
    · exact .inr (by simp)
    · have hmem : Notice.high ∈ [Notice.drained] := hg ▸ by simp
      simp at hmem
  · exact fun _ => rfl
  · exact fun _ hm => absurd hm (not_le.2 hpos)
  · exact fun _ => .inr (by simp)

theorem Balanced.write (hs : Balanced mark s) (hn : n < s.level) :
    Balanced mark { s with level := s.level - n } := by
  have hpos : 0 < s.level - n := Nat.sub_pos_of_lt hn
  constructor
  · exact fun _ _ _ => .inl hpos
  · intro hd
    have := hs.drained hd
    omega
  · intro hr hm
    exact hs.marked hr (hm.trans (Nat.sub_le _ _))
  · exact fun _ => .inl hpos

/-- What follows the notice at the head is still to come, so the stop is not the last word. -/
theorem Balanced.stop {q : List Notice} (hs : Balanced mark s) (hq : s.notices = .high :: q) :
    Balanced mark { s with reading := false, notices := q } := by
  constructor
  · intro q₁ q₂ he
    exact hs.followed (.high :: q₁) q₂ (by rw [hq, show q = _ from he]; rfl)
  · intro hd
    exact hs.drained (by rw [hq]; exact List.mem_cons_of_mem _ hd)
  · exact fun hr => by cases hr
  · exact fun _ => hs.followed [] q hq

theorem Balanced.start {q : List Notice} (hpos : 0 < mark) (hs : Balanced mark s)
    (hq : s.notices = .drained :: q) : Balanced mark { s with reading := true, notices := q } := by
  have hlevel : s.level = 0 := hs.drained (by rw [hq]; exact List.mem_cons_self)
  constructor
  · intro q₁ q₂ he
    exact hs.followed (.drained :: q₁) q₂ (by rw [hq, show q = _ from he]; rfl)
  · exact fun _ => hlevel
  · intro _ hm
    change mark ≤ s.level at hm
    omega
  · exact fun hr => by cases hr

theorem Balanced.step (hpos : 0 < mark) (hs : Balanced mark s)
    (h : (system mark).step s lab = .next s') : Balanced mark s' := by
  cases lab with
  | receive n =>
    obtain ⟨⟨hn, hq⟩, h⟩ := Outcome.guard_eq_next.1 h
    cases h
    exact hs.receive hn hq
  | relay =>
    obtain ⟨⟨hl, hq⟩, h⟩ := Outcome.guard_eq_next.1 h
    cases h
    have hd := Balanced.drain (s := s) hpos
    rwa [hq, List.nil_append, ← hl] at hd
  | write n =>
    obtain ⟨hn, h⟩ := Outcome.guard_eq_next.1 h
    cases h
    exact hs.write hn
  | drain =>
    obtain ⟨-, h⟩ := Outcome.guard_eq_next.1 h
    cases h
    exact Balanced.drain hpos
  | notice =>
    simp only [system, Backpressure.step] at h
    split at h
    · cases h
      exact hs.stop ‹_›
    · cases h
      exact hs.start hpos ‹_›
    · cases h

variable {C : State → Label → Prop}

theorem Balanced.of_reachable (hpos : 0 < mark) (hr : (system mark).ReachableIf C s) :
    Balanced mark s :=
  hr.invariant (fun _ => Balanced.of_init hpos) fun _ _ _ hs _ h => hs.step hpos h

/-- Nothing is received while the reader is stopped, and at most `bound` at once. -/
def Heeded (bound : ℕ) (s : State) : Label → Prop
  | .receive n => s.reading = true ∧ n ≤ bound
  | _ => True

/-- A reader that respects the stop receives nothing more above the mark. -/
theorem level_lt {bound : ℕ} (hpos : 0 < mark) (hr : (system mark).ReachableIf (Heeded bound) s) :
    s.level < mark + bound := by
  refine hr.invariant_of (I := fun s => s.level < mark + bound)
    (fun _ => Balanced.of_reachable hpos) ?_ ?_
  · rintro s rfl
    exact Nat.add_pos_left hpos bound
  · intro s lab s' hs hlt hc h
    cases lab with
    | receive n =>
      obtain ⟨⟨-, hq⟩, h⟩ := Outcome.guard_eq_next.1 h
      cases h
      obtain ⟨hr, hn⟩ := hc
      have hbelow : s.level < mark := by
        by_contra hm
        have := hs.marked hr (not_lt.1 hm)
        simp [hq] at this
      change s.level + n < mark + bound
      omega
    | relay | write n | drain =>
      obtain ⟨-, h⟩ := Outcome.guard_eq_next.1 h
      cases h
      dsimp only
      omega
    | notice =>
      simp only [system, Backpressure.step] at h
      split at h
      · cases h
        exact hlt
      · cases h
        exact hlt
      · cases h

end Transition.Backpressure
