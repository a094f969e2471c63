import Mathlib.Tactic
import Mathlib.Data.List.TakeDrop

/-!
# Slices of an array

An array as the list of its elements, the elements between two positions, and the ways to write some
of them.

* `slice i j l`: the elements at the positions from `i` on and before `j`;
* `overwrite p as l`: the elements `as` are copied to the positions from `p` on, one by one;
* `copyDown src dst n l`: `n` elements of the array are copied within it, the first one first, as
  `std::copy` does; the ranges may overlap where `dst ≤ src`;
* `List.takeD n l a`, as `std::vector::resize` makes it: the array of length `n`, with `a` in the
  new places.

Each operation has a lemma that gives the element at a position (`getElem?_overwrite`,
`getElem?_copyDown`, `getElem?_takeD`); from it and `slice_eq_slice` follows what it does to a slice.
-/

namespace Container

variable {α : Type*} {i j k m n p q : ℕ} {a : α} {as l l' : List α}

/-- The elements at the positions from `i` on and before `j`. -/
def slice (i j : ℕ) (l : List α) : List α := (l.drop i).take (j - i)

/-- Copy `as` to the positions from `p` on. -/
def overwrite : ℕ → List α → List α → List α
  | _, [], l => l
  | p, a :: as, l => overwrite (p + 1) as (l.set p a)

/-- Copy `n` elements from the positions from `src` on to those from `dst` on. -/
def copyDown : ℕ → ℕ → ℕ → List α → List α
  | _, _, 0, l => l
  | src, dst, n + 1, l =>
    copyDown (src + 1) (dst + 1) n (match l[src]? with
      | some a => l.set dst a
      | none => l)

/-! ### Slices -/

theorem getElem?_slice : (slice i j l)[k]? = if i + k < j then l[i + k]? else none := by
  rw [slice, List.getElem?_take, List.getElem?_drop]
  by_cases h : i + k < j
  · rw [if_pos h, if_pos (by omega)]
  · rw [if_neg h, if_neg (by omega)]

theorem length_slice (h : j ≤ l.length) : (slice i j l).length = j - i := by
  rw [slice, List.length_take, List.length_drop]
  omega

@[simp] theorem slice_self : slice i i l = [] := by simp [slice]

/-- Slices of one length with the same elements. -/
theorem slice_eq_slice (h : ∀ k < n, l[p + k]? = l'[q + k]?) :
    slice p (p + n) l = slice q (q + n) l' := by
  apply List.ext_getElem?
  intro k
  rw [getElem?_slice, getElem?_slice]
  by_cases hk : k < n
  · rw [if_pos (by omega), if_pos (by omega), h k hk]
  · rw [if_neg (by omega), if_neg (by omega)]

/-- Arrays that agree on the positions of a slice. -/
theorem slice_congr (h : ∀ k, i ≤ k → k < j → l[k]? = l'[k]?) : slice i j l = slice i j l' := by
  apply List.ext_getElem?
  intro k
  rw [getElem?_slice, getElem?_slice]
  by_cases hk : i + k < j
  · rw [if_pos hk, if_pos hk, h (i + k) (by omega) hk]
  · rw [if_neg hk, if_neg hk]

theorem slice_append_slice (hi : i ≤ j) (hj : j ≤ k) (hk : j ≤ l.length) :
    slice i j l ++ slice j k l = slice i k l := by
  apply List.ext_getElem?
  intro m
  rw [List.getElem?_append, length_slice hk, getElem?_slice, getElem?_slice, getElem?_slice]
  by_cases hm : m < j - i
  · rw [if_pos hm, if_pos (by omega), if_pos (by omega)]
  · rw [if_neg hm, show j + (m - (j - i)) = i + m by omega]

theorem drop_slice : (slice i j l).drop n = slice (i + n) j l := by
  apply List.ext_getElem?
  intro k
  rw [List.getElem?_drop, getElem?_slice, getElem?_slice, Nat.add_assoc]

theorem take_slice (h : i + n ≤ j) : (slice i j l).take n = slice i (i + n) l := by
  apply List.ext_getElem?
  intro k
  rw [List.getElem?_take, getElem?_slice, getElem?_slice]
  by_cases hk : k < n
  · rw [if_pos hk, if_pos (by omega), if_pos (by omega)]
  · rw [if_neg hk, if_neg (by omega)]

/-! ### Copying into the array -/

@[simp] theorem length_overwrite : (overwrite p as l).length = l.length := by
  induction as generalizing p l with
  | nil => rfl
  | cons a as ih => rw [overwrite, ih, List.length_set]

/-- What is outside of the target stays. -/
theorem getElem?_overwrite_of_not_mem (h : k < p ∨ p + as.length ≤ k) :
    (overwrite p as l)[k]? = l[k]? := by
  induction as generalizing p l with
  | nil => rfl
  | cons a as ih =>
    rw [List.length_cons] at h
    rw [overwrite, ih (by omega), List.getElem?_set_ne (by omega)]

/-- The target has the elements of the source. -/
theorem getElem?_overwrite (hk : k < as.length) (h : p + as.length ≤ l.length) :
    (overwrite p as l)[p + k]? = as[k]? := by
  induction as generalizing p k l with
  | nil => cases hk
  | cons a as ih =>
    rw [List.length_cons] at hk h
    rw [overwrite]
    cases k with
    | zero =>
      rw [getElem?_overwrite_of_not_mem (by omega), Nat.add_zero, List.getElem?_set_self (by omega)]
      rfl
    | succ k =>
      rw [show p + (k + 1) = p + 1 + k by omega, ih (by omega) (by rw [List.length_set]; omega)]
      rfl

theorem slice_overwrite (h : p + as.length ≤ l.length) :
    slice p (p + as.length) (overwrite p as l) = as := by
  have hl : slice p (p + as.length) (overwrite p as l) = slice 0 (0 + as.length) as := by
    refine slice_eq_slice fun k hk => ?_
    rw [Nat.zero_add, getElem?_overwrite hk h]
  rw [hl, slice, List.drop_zero]
  exact List.take_of_length_le (by omega)

/-- What has been copied to the front. -/
theorem take_overwrite (h : as.length ≤ l.length) : (overwrite 0 as l).take as.length = as := by
  have hslice := slice_overwrite (p := 0) (as.length.zero_add.trans_le h)
  rwa [Nat.zero_add, slice, List.drop_zero, Nat.sub_zero] at hslice

theorem slice_overwrite_of_disjoint (h : j ≤ p ∨ p + as.length ≤ i) :
    slice i j (overwrite p as l) = slice i j l :=
  slice_congr fun _ _ _ => getElem?_overwrite_of_not_mem (by omega)

/-! ### Copying within the array -/

@[simp] theorem length_copyDown : (copyDown p q n l).length = l.length := by
  induction n generalizing p q l with
  | zero => rfl
  | succ n ih =>
    rw [copyDown, ih]
    split
    · rw [List.length_set]
    · rfl

/-- What is outside of the target stays. -/
theorem getElem?_copyDown_of_not_mem (h : k < q ∨ q + n ≤ k) : (copyDown p q n l)[k]? = l[k]? := by
  induction n generalizing p q l with
  | zero => rfl
  | succ n ih =>
    rw [copyDown, ih (by omega)]
    split
    · rw [List.getElem?_set_ne (by omega)]
    · rfl

/-- The target has the elements that the source had before, also where the two overlap. -/
theorem getElem?_copyDown (hk : k < n) (hq : q ≤ p) (h : p + n ≤ l.length) :
    (copyDown p q n l)[q + k]? = l[p + k]? := by
  induction n generalizing p q k l with
  | zero => cases hk
  | succ n ih =>
    have hp : p < l.length := by omega
    rw [copyDown, List.getElem?_eq_getElem hp]
    cases k with
    | zero =>
      rw [getElem?_copyDown_of_not_mem (by omega), Nat.add_zero, Nat.add_zero,
        List.getElem?_set_self (by omega), List.getElem?_eq_getElem hp]
    | succ k =>
      rw [show q + (k + 1) = q + 1 + k by omega,
        ih (by omega) (by omega) (by rw [List.length_set]; omega),
        -- the place that has been written is before the rest of the source
        List.getElem?_set_ne (by omega), show p + 1 + k = p + (k + 1) by omega]

theorem slice_copyDown (hq : q ≤ p) (h : p + n ≤ l.length) :
    slice q (q + n) (copyDown p q n l) = slice p (p + n) l :=
  slice_eq_slice fun _ hk => getElem?_copyDown hk hq h

/-! ### Resizing the array -/

theorem getElem?_takeD (hk : k < n) (h : k < l.length) : (List.takeD n l a)[k]? = l[k]? := by
  induction n generalizing k l with
  | zero => cases hk
  | succ n ih =>
    cases l with
    | nil => cases h
    | cons b l =>
      cases k with
      | zero => rfl
      | succ k =>
        rw [List.length_cons] at h
        exact ih (k := k) (l := l) (by omega) (by omega)

theorem slice_takeD (hn : j ≤ n) (h : j ≤ l.length) : slice i j (List.takeD n l a) = slice i j l :=
  slice_congr fun _ _ hk => getElem?_takeD (by omega) (by omega)

end Container
