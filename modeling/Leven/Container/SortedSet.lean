import Mathlib.Tactic
import Mathlib.Data.List.Sort
import Mathlib.Data.List.TakeWhile

/-!
# Ordered sets

A set kept in increasing order, as `std::set` keeps one: `SortedSet` is a list with the proof that
it is strictly increasing.

* `insert`, `erase`, `first`: one element goes in or out; the first element;
* `below`, `notBelow`: the elements before a bound, as a list in order, and the set of the others.

`perm_insert`, `perm_erase` and `below_append_notBelow` say what each operation does to the list, the
`mem` lemmas what it does to the set.
-/

namespace Container

/-- A finite set, listed in increasing order. -/
structure SortedSet (α : Type*) [LinearOrder α] where
  toList : List α
  sorted : toList.Pairwise (· < ·)

namespace SortedSet

variable {α : Type*} [LinearOrder α] {s : SortedSet α} {a b : α}

instance : Membership α (SortedSet α) where
  mem s a := a ∈ s.toList

theorem mem_def : a ∈ s ↔ a ∈ s.toList := Iff.rfl

instance : Decidable (a ∈ s) := inferInstanceAs (Decidable (a ∈ s.toList))

instance : EmptyCollection (SortedSet α) where
  emptyCollection := ⟨[], .nil⟩

@[simp] theorem toList_empty : (∅ : SortedSet α).toList = [] := rfl

@[simp] theorem notMem_empty : a ∉ (∅ : SortedSet α) := List.not_mem_nil

theorem nodup (s : SortedSet α) : s.toList.Nodup := s.sorted.imp ne_of_lt

/-- Put `a` in its place, unless it is there. -/
def insert (a : α) (s : SortedSet α) : SortedSet α where
  toList := if a ∈ s.toList then s.toList else s.toList.orderedInsert (· ≤ ·) a
  sorted := by
    split_ifs with h
    · exact s.sorted
    · have hle : (s.toList.orderedInsert (· ≤ ·) a).Pairwise (· ≤ ·) :=
        (s.sorted.imp le_of_lt).orderedInsert a _
      have hne : (s.toList.orderedInsert (· ≤ ·) a).Nodup :=
        (List.perm_orderedInsert (· ≤ ·) a s.toList).nodup_iff.2 (List.nodup_cons.2 ⟨h, s.nodup⟩)
      exact hle.and hne |>.imp fun hab => lt_of_le_of_ne hab.1 hab.2

/-- Take `a` out. -/
def erase (a : α) (s : SortedSet α) : SortedSet α where
  toList := s.toList.erase a
  sorted := s.sorted.sublist List.erase_sublist

/-- The least element. -/
def first (s : SortedSet α) : Option α := s.toList.head?

/-- The elements less than `b`, in order. -/
def below (b : α) (s : SortedSet α) : List α := s.toList.takeWhile (· < b)

/-- The elements that are not less than `b`. -/
def notBelow (b : α) (s : SortedSet α) : SortedSet α where
  toList := s.toList.dropWhile (· < b)
  sorted := s.sorted.sublist (List.dropWhile_sublist _)

theorem perm_insert (h : a ∉ s) : (s.insert a).toList.Perm (a :: s.toList) := by
  simp only [insert, if_neg (show a ∉ s.toList from h)]
  exact List.perm_orderedInsert _ _ _

@[simp] theorem mem_insert : b ∈ s.insert a ↔ b = a ∨ b ∈ s := by
  by_cases h : a ∈ s
  · simp only [mem_def, insert, if_pos (show a ∈ s.toList from h)]
    exact ⟨Or.inr, fun hb => hb.elim (fun e => e ▸ h) id⟩
  · rw [mem_def, (perm_insert h).mem_iff, List.mem_cons, mem_def]

/-- A new element that is not the first leaves the first one where it is. -/
theorem first_insert (h : (s.insert a).first ≠ some a) : (s.insert a).first = s.first := by
  obtain ⟨l, hs⟩ := s
  by_cases ha : a ∈ l
  · simp only [first, insert, if_pos ha]
  · simp only [first, insert, if_neg ha] at h ⊢
    cases l with
    | nil => exact absurd rfl h
    | cons b l =>
      rw [List.orderedInsert_cons] at h ⊢
      split_ifs at h ⊢ with hab
      · exact absurd rfl h
      · rfl

theorem perm_erase (h : a ∈ s) : s.toList.Perm (a :: (s.erase a).toList) :=
  List.perm_cons_erase h

@[simp] theorem mem_erase : b ∈ s.erase a ↔ b ≠ a ∧ b ∈ s := s.nodup.mem_erase_iff

theorem mem_of_first (h : s.first = some a) : a ∈ s := List.mem_of_mem_head? h

/-- The first element is the least one. -/
theorem first_le {b : α} (h : s.first = some a) (hb : b ∈ s) : a ≤ b := by
  obtain ⟨l, hs⟩ := s
  cases l with
  | nil => cases h
  | cons c l =>
    cases h
    rcases List.mem_cons.1 hb with rfl | hb
    · exact le_rfl
    · exact ((List.pairwise_cons.1 hs).1 b hb).le

theorem first_ne_none (hb : b ∈ s) : s.first ≠ none := by
  intro h
  rw [mem_def, List.head?_eq_none_iff.1 h] at hb
  cases hb

theorem below_append_notBelow (b : α) (s : SortedSet α) :
    s.below b ++ (s.notBelow b).toList = s.toList :=
  List.takeWhile_append_dropWhile

theorem mem_of_mem_below (h : a ∈ s.below b) : a ∈ s := by
  rw [mem_def, ← below_append_notBelow b s]
  exact List.mem_append_left _ h

theorem lt_of_mem_below (h : a ∈ s.below b) : a < b := by
  simpa using List.mem_takeWhile_imp h

/-- What is left is not less than the bound. -/
theorem le_of_mem_notBelow (h : a ∈ s.notBelow b) : b ≤ a := by
  obtain ⟨l, hs⟩ := s
  change a ∈ l.dropWhile (· < b) at h
  induction l with
  | nil => cases h
  | cons c l ih =>
    rw [List.pairwise_cons] at hs
    by_cases hc : c < b
    · rw [List.dropWhile_cons_of_pos (by simpa using hc)] at h
      exact ih hs.2 h
    · rw [List.dropWhile_cons_of_neg (by simpa using hc)] at h
      rcases List.mem_cons.1 h with rfl | h
      · exact not_lt.1 hc
      · exact (not_lt.1 hc).trans (hs.1 a h).le

theorem mem_of_mem_notBelow (h : a ∈ s.notBelow b) : a ∈ s := by
  rw [mem_def, ← below_append_notBelow b s]
  exact List.mem_append_right _ h

/-- An element is on the side of the bound it belongs to. -/
theorem mem_below_iff : a ∈ s.below b ↔ a ∈ s ∧ a < b := by
  refine ⟨fun h => ⟨mem_of_mem_below h, lt_of_mem_below h⟩, fun ⟨h, hlt⟩ => ?_⟩
  rw [mem_def, ← below_append_notBelow b s, List.mem_append] at h
  exact h.resolve_right fun h => not_lt.2 (le_of_mem_notBelow h) hlt

theorem mem_notBelow_iff : a ∈ s.notBelow b ↔ a ∈ s ∧ b ≤ a := by
  refine ⟨fun h => ⟨mem_of_mem_notBelow h, le_of_mem_notBelow h⟩, fun ⟨h, hle⟩ => ?_⟩
  rw [mem_def, ← below_append_notBelow b s, List.mem_append] at h
  exact h.resolve_left fun h => not_lt.2 hle (lt_of_mem_below h)

theorem pairwise_below : (s.below b).Pairwise (· < ·) :=
  s.sorted.sublist (List.takeWhile_sublist _)

end SortedSet
end Container
