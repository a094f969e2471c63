import Leven.Transition.System
import Mathlib.Algebra.BigOperators.Group.Finset.Piecewise

/-!
# Work that comes to an end

Some of the labels of a system are its own business, and the others are requests from outside.  When
every step of the first kind makes a measure smaller, what is left to do after the last request is
done in as many steps as the measure says, whatever their order, and then the system is quiet.

* `Quiet P`: no label of the kind `P` leads on;
* `exec_length_add_le`: the number of steps of the kind `P`;
* `exists_exec_quiet`: they can be made until the system is quiet;
* `sum_move_add`: a measure that adds up what each thread has to do, when one thread moves.
-/

namespace Transition

variable {σ ι κ α : Type*}

/-- A sum over threads, when one of them moves. -/
theorem sum_move_add [DecidableEq ι] {A : Finset ι} {g : ι → κ} {i : ι} (f : κ → ℕ) (x : κ)
    (hi : i ∈ A) :
    ∑ j ∈ A, f (Function.update g i x j) + f (g i) = ∑ j ∈ A, f (g j) + f x := by
  have hmove : (fun j => f (Function.update g i x j)) = Function.update (fun j => f (g j)) i (f x) :=
    Function.comp_update f g i x
  have hsplit := Finset.sum_sdiff (Finset.singleton_subset_iff.2 hi) (f := fun j => f (g j))
  rw [Finset.sum_singleton] at hsplit
  rw [hmove, Finset.sum_update_of_mem hi]
  omega

/-- A guarded step that is blocked has a guard that does not hold. -/
theorem Outcome.not_of_guard_eq_blocked {p : Prop} [Decidable p] {s : σ}
    (h : Outcome.guard p (.next s : Outcome α σ) = .blocked) : ¬ p := by
  intro hp
  rw [guard, if_pos hp] at h
  cases h

namespace System

variable {S : System σ ι α} {P : ι → Prop} {I : σ → Prop} {f : σ → ℕ} {s t : σ}

/-- No label of the kind `P` leads on. -/
def Quiet (S : System σ ι α) (P : ι → Prop) (s : σ) : Prop := ∀ l, P l → S.step s l = .blocked

/-- Steps that make a measure smaller are no more than the measure. -/
theorem exec_length_add_le (hI : ∀ s l s', I s → P l → S.step s l = .next s' → I s')
    (hf : ∀ s l s', I s → P l → S.step s l = .next s' → f s' < f s) {w : List ι}
    (hw : ∀ l ∈ w, P l) (hs : I s) (h : S.exec s w = .next t) : w.length + f t ≤ f s := by
  induction w generalizing s with
  | nil =>
    cases h
    simp
  | cons l w ih =>
    obtain ⟨u, hu, h⟩ := Outcome.bind_eq_next.1 h
    have hl := hw l List.mem_cons_self
    have hlt := hf s l u hs hl hu
    have hle := ih (fun l' hl' => hw l' (List.mem_cons_of_mem l hl')) (hI s l u hs hl hu) h
    rw [List.length_cons]
    omega

/-- Steps that make a measure smaller and do not fail lead to a quiet state. -/
theorem exists_exec_quiet (hI : ∀ s l s', I s → P l → S.step s l = .next s' → I s')
    (hf : ∀ s l s', I s → P l → S.step s l = .next s' → f s' < f s)
    (hne : ∀ s l a, P l → S.step s l ≠ .failed a) (hs : I s) :
    ∃ w t, (∀ l ∈ w, P l) ∧ S.exec s w = .next t ∧ S.Quiet P t := by
  induction hn : f s using Nat.strong_induction_on generalizing s with
  | _ n ih =>
    subst hn
    by_cases hq : S.Quiet P s
    · exact ⟨[], s, by simp, rfl, hq⟩
    simp only [Quiet, not_forall] at hq
    obtain ⟨l, hl, hstep⟩ := hq
    cases hu : S.step s l with
    | blocked => exact absurd hu hstep
    | failed a => exact absurd hu (hne s l a hl)
    | next u =>
      obtain ⟨w, t, hw, hrun, hquiet⟩ := ih (f u) (hf s l u hs hl hu) (hI s l u hs hl hu) rfl
      exact ⟨l :: w, t, List.forall_mem_cons.2 ⟨hl, hw⟩, (exec_cons hu).trans hrun, hquiet⟩

end System
end Transition
