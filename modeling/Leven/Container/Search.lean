import Mathlib.Tactic
import Mathlib.Data.List.Infix

/-!
# The first occurrence of a word

* `Occurs pat xs n`: the word `pat` stands at the position `n` of a list;
* `FirstAt pat xs n`: it does, and nowhere before;
* `search`: where it stands first, or the end of the list; `search_eq_iff`, `search_eq_length_iff`;
* `FirstAt.append`: what is appended does not change what was found;
* `search_eq_add`: a search may start behind places where there is no occurrence.
-/

namespace Container

variable {α : Type*} {pat xs ys : List α} {k n : ℕ}

/-- The word `pat` stands at the position `n`. -/
def Occurs (pat xs : List α) (n : ℕ) : Prop := pat <+: xs.drop n

/-- The first occurrence. -/
structure FirstAt (pat xs : List α) (n : ℕ) : Prop where
  here : Occurs pat xs n
  before : ∀ i < n, ¬ Occurs pat xs i

theorem Occurs.add_length_le (h : Occurs pat xs n) (hpat : pat ≠ []) :
    n + pat.length ≤ xs.length := by
  have hlen := List.IsPrefix.length_le h
  have hpos := List.length_pos_iff.2 hpat
  rw [List.length_drop] at hlen
  omega

/-- What stands before the end of a list stands there in a longer one, and the other way round. -/
theorem occurs_append (hn : n + pat.length ≤ xs.length) :
    Occurs pat (xs ++ ys) n ↔ Occurs pat xs n := by
  have hdrop : (xs ++ ys).drop n = xs.drop n ++ ys := List.drop_append_of_le_length (by omega)
  have hlen : pat.length ≤ (xs.drop n).length := by
    rw [List.length_drop]
    omega
  unfold Occurs
  rw [hdrop]
  constructor
  · intro h
    exact List.prefix_of_prefix_length_le h (List.prefix_append _ _) hlen
  · intro h
    exact h.trans (List.prefix_append _ _)

/-- What is appended does not change what was found. -/
theorem FirstAt.append (h : FirstAt pat xs n) (hpat : pat ≠ []) (ys : List α) :
    FirstAt pat (xs ++ ys) n := by
  have hle := h.here.add_length_le hpat
  refine ⟨(occurs_append hle).2 h.here, fun i hi ho => ?_⟩
  exact h.before i hi ((occurs_append (by omega)).1 ho)

/-- A list is cut at the first occurrence. -/
theorem FirstAt.eq_append (h : FirstAt pat xs n) :
    xs = xs.take n ++ pat ++ xs.drop (n + pat.length) := by
  obtain ⟨rest, hrest⟩ := h.here
  calc xs = xs.take n ++ xs.drop n := (List.take_append_drop n xs).symm
    _ = xs.take n ++ (pat ++ rest) := by rw [hrest]
    _ = xs.take n ++ pat ++ xs.drop (n + pat.length) := by
      rw [List.append_assoc, ← List.drop_drop, ← hrest, List.drop_left]

variable [DecidableEq α]

instance : Decidable (Occurs pat xs n) := inferInstanceAs (Decidable (_ <+: _))

/-- Where `pat` stands first, or the length of the list. -/
def search (pat : List α) : List α → ℕ
  | [] => 0
  | x :: xs => if pat <+: x :: xs then 0 else search pat xs + 1

theorem search_le : search pat xs ≤ xs.length := by
  induction xs with
  | nil => exact le_rfl
  | cons x xs ih =>
    rw [search]
    split_ifs
    · exact Nat.zero_le _
    · exact Nat.succ_le_succ ih

theorem not_occurs_of_lt_search {i : ℕ} (hi : i < search pat xs) : ¬ Occurs pat xs i := by
  induction xs generalizing i with
  | nil => cases hi
  | cons x xs ih =>
    rw [search] at hi
    split_ifs at hi with h
    · cases hi
    · cases i with
      | zero => exact h
      | succ i => exact ih (Nat.lt_of_succ_lt_succ hi)

theorem occurs_search (h : search pat xs < xs.length) : Occurs pat xs (search pat xs) := by
  induction xs with
  | nil => cases h
  | cons x xs ih =>
    rw [search] at h ⊢
    split_ifs at h ⊢ with hp
    · exact hp
    · exact ih (Nat.lt_of_succ_lt_succ h)

theorem firstAt_search (h : search pat xs < xs.length) : FirstAt pat xs (search pat xs) :=
  ⟨occurs_search h, fun _ hi => not_occurs_of_lt_search hi⟩

/-- The search finds the first occurrence. -/
theorem search_eq_of_firstAt (h : FirstAt pat xs n) (hpat : pat ≠ []) : search pat xs = n := by
  have hlen := h.here.add_length_le hpat
  have hpos := List.length_pos_iff.2 hpat
  rcases lt_trichotomy (search pat xs) n with hlt | heq | hgt
  · exact absurd (occurs_search (by omega)) (h.before _ hlt)
  · exact heq
  · exact absurd h.here (not_occurs_of_lt_search hgt)

/-- The search comes to the end exactly if there is no occurrence. -/
theorem search_eq_length_iff (hpat : pat ≠ []) :
    search pat xs = xs.length ↔ ∀ i, ¬ Occurs pat xs i := by
  constructor
  · intro h i ho
    have hlen := ho.add_length_le hpat
    have hpos := List.length_pos_iff.2 hpat
    exact not_occurs_of_lt_search (by omega) ho
  · intro h
    by_contra hne
    exact h _ (occurs_search (lt_of_le_of_ne search_le hne))

/-- A search may start behind places without an occurrence. -/
theorem search_eq_add (hk : k ≤ xs.length) (h : ∀ i < k, ¬ Occurs pat xs i) :
    search pat xs = k + search pat (xs.drop k) := by
  induction k generalizing xs with
  | zero => simp
  | succ k ih =>
    cases xs with
    | nil => cases hk
    | cons x xs =>
      have hrest := ih (Nat.le_of_succ_le_succ hk) fun i hi ho => h (i + 1) (Nat.succ_lt_succ hi) ho
      have hzero : ¬ pat <+: x :: xs := h 0 (Nat.succ_pos k)
      rw [search, if_neg hzero, hrest, List.drop_succ_cons]
      omega

end Container
