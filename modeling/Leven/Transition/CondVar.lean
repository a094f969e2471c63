import Mathlib.Tactic
import Mathlib.Data.Finset.Card

/-!
# Condition variables

A condition variable is the set of the threads parked on it and the set of the threads that have
been woken, by a notification or spuriously, and have not taken the mutex again.  No thread is in
both.

* `wait`, `wake`, `notifyOne`, `notifyAll`, `resume`: the operations, for one thread;
* `Covers k`: while a thread is parked, at least `k` threads are woken.  This is what a protocol
  with one `notifyOne` for each new item keeps true: the lemmas say how `k` may change with each
  operation.
-/

namespace Transition

/-- A condition variable. -/
structure CondVar (α : Type*) where
  parked : Finset α
  woken : Finset α
  disjoint : Disjoint parked woken

namespace CondVar

variable {α : Type*} {cv : CondVar α} {t u : α} {o : Option α} {j k : ℕ}

/-- No thread waits. -/
def idle : CondVar α := ⟨∅, ∅, Finset.disjoint_empty_left _⟩

/-- While a thread is parked, at least `k` threads are woken. -/
def Covers (cv : CondVar α) (k : ℕ) : Prop := cv.parked.Nonempty → k ≤ cv.woken.card

/-- A thread that `notify_one` may wake: any parked one, and none only if no thread is parked. -/
def MayNotify (cv : CondVar α) : Option α → Prop
  | some t => t ∈ cv.parked
  | none => cv.parked = ∅

variable [DecidableEq α]

instance : Decidable (cv.MayNotify o) :=
  match o with
  | some t => inferInstanceAs (Decidable (t ∈ cv.parked))
  | none => inferInstanceAs (Decidable (cv.parked = ∅))

/-- The threads in `wait`. -/
def waiters (cv : CondVar α) : Finset α := cv.parked ∪ cv.woken

/-- Thread `t` parks. -/
def wait (cv : CondVar α) (t : α) : CondVar α where
  parked := insert t cv.parked
  woken := cv.woken.erase t
  disjoint := by
    rw [Finset.disjoint_insert_left]
    exact ⟨Finset.notMem_erase t _, cv.disjoint.mono_right (Finset.erase_subset t _)⟩

/-- The parked thread `t` is woken. -/
def wake (cv : CondVar α) (t : α) : CondVar α where
  parked := cv.parked.erase t
  woken := if t ∈ cv.parked then insert t cv.woken else cv.woken
  disjoint := by
    split_ifs
    · rw [Finset.disjoint_insert_right]
      exact ⟨Finset.notMem_erase t _, cv.disjoint.mono_left (Finset.erase_subset t _)⟩
    · exact cv.disjoint.mono_left (Finset.erase_subset t _)

/-- `notify_one`, with the thread it wakes. -/
def notifyOne (cv : CondVar α) : Option α → CondVar α
  | some t => cv.wake t
  | none => cv

/-- `notify_all`. -/
def notifyAll (cv : CondVar α) : CondVar α :=
  ⟨∅, cv.waiters, Finset.disjoint_empty_left _⟩

/-- The woken thread `t` takes the mutex and returns from `wait`. -/
def resume (cv : CondVar α) (t : α) : CondVar α where
  parked := cv.parked
  woken := cv.woken.erase t
  disjoint := cv.disjoint.mono_right (Finset.erase_subset t _)

@[simp] theorem mem_waiters : t ∈ cv.waiters ↔ t ∈ cv.parked ∨ t ∈ cv.woken := Finset.mem_union

@[simp] theorem waiters_idle : (idle : CondVar α).waiters = ∅ := rfl

theorem waiters_wait : (cv.wait t).waiters = insert t cv.waiters := by
  ext u
  simp only [mem_waiters, wait, Finset.mem_insert, Finset.mem_erase]
  tauto

@[simp] theorem waiters_wake : (cv.wake t).waiters = cv.waiters := by
  ext u
  simp only [mem_waiters, wake, Finset.mem_erase]
  split_ifs with h
  · rw [Finset.mem_insert]
    by_cases hu : u = t
    · subst hu; simp [h]
    · simp [hu]
  · have hu : u ∈ cv.parked → u ≠ t := by rintro hu rfl; exact h hu
    tauto

@[simp] theorem waiters_notifyOne : (cv.notifyOne o).waiters = cv.waiters := by
  cases o with
  | none => rfl
  | some t => exact waiters_wake

@[simp] theorem waiters_notifyAll : cv.notifyAll.waiters = cv.waiters := by
  ext u; simp [notifyAll]

theorem waiters_resume (ht : t ∉ cv.parked) : (cv.resume t).waiters = cv.waiters.erase t := by
  ext u
  simp only [mem_waiters, resume, Finset.mem_erase]
  have hu : u ∈ cv.parked → u ≠ t := by rintro hu rfl; exact ht hu
  tauto

omit [DecidableEq α] in
theorem notMem_parked_of_woken (ht : t ∈ cv.woken) : t ∉ cv.parked :=
  Finset.disjoint_right.1 cv.disjoint ht

theorem parked_wake_of_eq_empty (h : cv.parked = ∅) : (cv.wake t).parked = ∅ := by
  show cv.parked.erase t = ∅
  rw [h, Finset.erase_empty]

theorem parked_notifyOne_of_eq_empty (h : cv.parked = ∅) : (cv.notifyOne o).parked = ∅ := by
  cases o with
  | none => exact h
  | some t => exact parked_wake_of_eq_empty h

theorem card_waiters : cv.waiters.card = cv.parked.card + cv.woken.card :=
  Finset.card_union_of_disjoint cv.disjoint

/-! ### The counting invariant -/

omit [DecidableEq α] in
theorem covers_of_eq_zero (h : k = 0) : cv.Covers k := fun _ => h ▸ Nat.zero_le _

omit [DecidableEq α] in
theorem covers_of_parked_eq_empty (h : cv.parked = ∅) : cv.Covers k :=
  fun hne => absurd h hne.ne_empty

omit [DecidableEq α] in
theorem Covers.mono (h : cv.Covers k) (hjk : j ≤ k) : cv.Covers j := fun hne => hjk.trans (h hne)

/-- One more thread is woken. -/
theorem Covers.wake (h : cv.Covers k) (ht : t ∈ cv.parked) : (cv.wake t).Covers (k + 1) := by
  intro _
  have hw : t ∉ cv.woken := Finset.disjoint_left.1 cv.disjoint ht
  show k + 1 ≤ (if t ∈ cv.parked then insert t cv.woken else cv.woken).card
  rw [if_pos ht, Finset.card_insert_of_notMem hw]
  exact Nat.succ_le_succ (h ⟨t, ht⟩)

/-- A notification makes up for one new item. -/
theorem Covers.notifyOne (h : cv.Covers k) (ho : cv.MayNotify o) :
    (cv.notifyOne o).Covers (k + 1) := by
  cases o with
  | none => exact covers_of_parked_eq_empty ho
  | some t => exact h.wake ho

/-- A thread that returns from `wait` takes one item with it. -/
theorem Covers.resume (h : cv.Covers k) : (cv.resume t).Covers (k - 1) := by
  intro hne
  have hk := h hne
  have hcard := Finset.pred_card_le_card_erase (s := cv.woken) (a := t)
  show k - 1 ≤ (cv.woken.erase t).card
  omega

theorem covers_notifyAll : cv.notifyAll.Covers k := covers_of_parked_eq_empty rfl

/-! ### The number of woken threads -/

omit [DecidableEq α] in
/-- `notify_one` always has somebody to wake, or nobody is parked. -/
theorem exists_mayNotify (cv : CondVar α) : ∃ o, cv.MayNotify o := by
  rcases cv.parked.eq_empty_or_nonempty with h | ⟨t, ht⟩
  · exact ⟨none, h⟩
  · exact ⟨some t, ht⟩

theorem card_woken_wait_le : (cv.wait t).woken.card ≤ cv.woken.card :=
  Finset.card_le_card (Finset.erase_subset t _)

theorem card_woken_notifyOne_le : (cv.notifyOne o).woken.card ≤ cv.woken.card + 1 := by
  cases o with
  | none => exact Nat.le_succ _
  | some t =>
    show (if t ∈ cv.parked then insert t cv.woken else cv.woken).card ≤ _
    split_ifs
    · exact Finset.card_insert_le t _
    · exact Nat.le_succ _

theorem card_woken_resume (ht : t ∈ cv.woken) : (cv.resume t).woken.card + 1 = cv.woken.card :=
  Finset.card_erase_add_one ht

end CondVar
end Transition
