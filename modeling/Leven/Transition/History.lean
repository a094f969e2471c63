import Mathlib.Tactic
import Mathlib.Data.List.Basic

/-!
# Histories

The history of a run is the list of its events, oldest first.  Two kinds of statement about a
history are used: `Whenever p Q h`, at each event of `h` that satisfies `p` the events before it
satisfy `Q`; and `[a, b].Sublist h`, an event `a` is followed by an event `b`.  Both are computed
from the history before a step and the events of that step.
-/

namespace Transition

variable {ε : Type*} {p : ε → Prop} {Q R : List ε → Prop} {h l : List ε} {a b x : ε}

/-- At each event that satisfies `p`, the events before it satisfy `Q`. -/
def Whenever (p : ε → Prop) (Q : List ε → Prop) (h : List ε) : Prop :=
  ∀ h₁ x h₂, h = h₁ ++ x :: h₂ → p x → Q h₁

@[simp] theorem whenever_nil : Whenever p Q [] := by
  intro h₁ x h₂ he
  simp at he

/-- An event of a history that has grown is an old one or one of the step. -/
theorem append_eq_append_cons {h₁ h₂ : List ε} (he : h ++ l = h₁ ++ x :: h₂) :
    (∃ g, h = h₁ ++ x :: g ∧ h₂ = g ++ l) ∨ ∃ g, h₁ = h ++ g ∧ l = g ++ x :: h₂ := by
  rcases List.append_eq_append_iff.1 he with ⟨g, rfl, hg⟩ | ⟨g, rfl, hg⟩
  · exact .inr ⟨g, rfl, hg⟩
  · cases g with
    | nil => exact .inr ⟨[], by simp, hg.symm⟩
    | cons y g =>
      rw [List.cons_append, List.cons.injEq] at hg
      obtain ⟨rfl, rfl⟩ := hg
      exact .inl ⟨g, rfl, rfl⟩

/-- The events of a step `l` are judged against the history `h` before it. -/
theorem whenever_append :
    Whenever p Q (h ++ l) ↔ Whenever p Q h ∧ Whenever p (fun g => Q (h ++ g)) l := by
  constructor
  · refine fun hw => ⟨fun h₁ x h₂ he hx => ?_, fun l₁ x l₂ he hx => ?_⟩
    · exact hw h₁ x (h₂ ++ l) (by rw [he]; simp) hx
    · exact hw (h ++ l₁) x l₂ (by rw [he]; simp) hx
  · rintro ⟨hh, hl⟩ h₁ x h₂ he hx
    rcases append_eq_append_cons he with ⟨g, rfl, -⟩ | ⟨g, rfl, hg⟩
    · exact hh h₁ x g rfl hx
    · exact hl g x h₂ hg hx

@[simp] theorem whenever_cons :
    Whenever p Q (x :: l) ↔ (p x → Q []) ∧ Whenever p (fun g => Q (x :: g)) l := by
  constructor
  · refine fun hw => ⟨fun hx => hw [] x l rfl hx, fun l₁ y l₂ he hy => ?_⟩
    exact hw (x :: l₁) y l₂ (by rw [he]; rfl) hy
  · rintro ⟨hx, hl⟩ h₁ y h₂ he hy
    cases h₁ with
    | nil =>
      rw [List.nil_append, List.cons.injEq] at he
      exact hx (he.1 ▸ hy)
    | cons z h₁ =>
      rw [List.cons_append, List.cons.injEq] at he
      obtain ⟨rfl, he⟩ := he
      exact hl h₁ y h₂ he hy

/-- A step without such an event adds no obligation. -/
theorem whenever_of_forall_not (hp : ∀ x ∈ l, ¬ p x) : Whenever p Q l := by
  rintro h₁ x h₂ rfl hx
  exact absurd hx (hp x (by simp))

/-- A history can be checked event by event. -/
def decideWhenever [DecidablePred p] :
    (h : List ε) → (Q : List ε → Prop) → (∀ g, Decidable (Q g)) → Decidable (Whenever p Q h)
  | [], _, _ => isTrue whenever_nil
  | x :: l, Q, hQ =>
    have := decideWhenever l (fun g => Q (x :: g)) fun g => hQ (x :: g)
    have := hQ []
    decidable_of_iff' ((p x → Q []) ∧ Whenever p (fun g => Q (x :: g)) l) whenever_cons

instance [DecidablePred p] [DecidablePred Q] : Decidable (Whenever p Q h) :=
  decideWhenever h Q fun _ => inferInstance

theorem Whenever.mono (hQR : ∀ g, Q g → R g) (hw : Whenever p Q h) : Whenever p R h :=
  fun h₁ x h₂ he hx => hQR _ (hw h₁ x h₂ he hx)

/-- A step without `b` does not add a `b` after `a`. -/
theorem pair_sublist_append_of_notMem (hb : b ∉ l) :
    [a, b].Sublist (h ++ l) ↔ [a, b].Sublist h := by
  refine ⟨fun hs => ?_, fun hs => hs.trans (List.sublist_append_left h l)⟩
  obtain ⟨g₁, g₂, he, h₁, h₂⟩ := List.sublist_append_iff.1 hs
  cases g₂ with
  | nil => rw [he]; simpa using h₁
  | cons y g₂ =>
    have hlast : b ∈ y :: g₂ := by
      have h3 : (g₁ ++ y :: g₂).getLast (by simp) = b := by
        simp only [← he]; rfl
      rw [List.getLast_append_of_ne_nil _ (List.cons_ne_nil y g₂)] at h3
      exact h3 ▸ List.getLast_mem (List.cons_ne_nil y g₂)
    exact absurd (h₂.subset hlast) hb

/-- A step that is the event `b` follows every `a` of the history. -/
theorem pair_sublist_concat : [a, b].Sublist (h ++ [b]) ↔ a ∈ h := by
  rw [show [a, b] = [a] ++ [b] from rfl, List.append_sublist_append_right, List.singleton_sublist]

end Transition
