import Mathlib.Tactic
import Mathlib.Logic.Relation

/-!
# Transition systems whose steps may trip an assertion

A program built with assertions does one of three things when it is asked for a step: it moves to
a new state, the step is not possible where it stands, or an assertion fails and the process
stops.  `Outcome` is the answer, `System` a set of initial states with a step function.

* `StepIf C`, `RunIf C`, `ReachableIf C`: steps, runs and states of the runs all of whose steps
  meet a condition `C` on the state before the step and the label; `Reachable` is the case of no
  condition.
* `ReachableIf.invariant` is the induction rule: what holds initially and is kept by every step
  that meets `C` holds of every state of such a run.  `ReachableIf.invariant_of` lets the step
  lemma use an invariant proved before.
* `exec` runs a list of labels, `execIf` also checks the condition; both compute, and
  `reachable_of_exec`, `exists_reachableIf` turn a computation into a run.
* `exec_invariant`, `exec_eq_failed`, `exec_simulates`: what holds along a computation, where it
  fails, and how another one is simulated.
-/

namespace Transition

variable {σ ι α : Type*}

/-- What a step comes to: a successor state, no step, or a failed assertion. -/
inductive Outcome (α σ : Type*)
  | next (s : σ)
  | blocked
  | failed (a : α)

namespace Outcome

/-- Continue from a successor state. -/
def bind {τ : Type*} (o : Outcome α σ) (f : σ → Outcome α τ) : Outcome α τ :=
  match o with
  | .next s => f s
  | .blocked => .blocked
  | .failed a => .failed a

/-- Rename the failures. -/
def mapFailed {β : Type*} (f : α → β) : Outcome α σ → Outcome β σ
  | .next s => .next s
  | .blocked => .blocked
  | .failed a => .failed (f a)

/-- A computation that can only fail by an assertion. -/
def ofExcept : Except α σ → Outcome α σ
  | .ok s => .next s
  | .error a => .failed a

/-- The outcome `o` where `p` holds, no step elsewhere. -/
def guard (p : Prop) [Decidable p] (o : Outcome α σ) : Outcome α σ :=
  if p then o else .blocked

/-- A successor state that satisfies `P`. -/
def Leads (o : Outcome α σ) (P : σ → Prop) : Prop := ∃ s, o = .next s ∧ P s

instance {o : Outcome α σ} {P : σ → Prop} [DecidablePred P] : Decidable (o.Leads P) :=
  match o with
  | .next s => decidable_of_iff (P s) (by simp [Leads])
  | .blocked => isFalse (by simp [Leads])
  | .failed _ => isFalse (by simp [Leads])

instance {o : Outcome α σ} : Decidable (o = .blocked) :=
  match o with
  | .next _ => isFalse (by simp)
  | .blocked => isTrue rfl
  | .failed _ => isFalse (by simp)

instance [DecidableEq α] {o : Outcome α σ} {a : α} : Decidable (o = .failed a) :=
  match o with
  | .next _ => isFalse (by simp)
  | .blocked => isFalse (by simp)
  | .failed b => decidable_of_iff (b = a) (by simp)

@[simp] theorem bind_eq_next {τ : Type*} {o : Outcome α σ} {f : σ → Outcome α τ} {t : τ} :
    o.bind f = .next t ↔ ∃ s, o = .next s ∧ f s = .next t := by
  cases o <;> simp [bind]

@[simp] theorem bind_eq_failed {τ : Type*} {o : Outcome α σ} {f : σ → Outcome α τ} {a : α} :
    o.bind f = .failed a ↔ o = .failed a ∨ ∃ s, o = .next s ∧ f s = .failed a := by
  cases o <;> simp [bind]

@[simp] theorem mapFailed_eq_next {β : Type*} {f : α → β} {o : Outcome α σ} {s : σ} :
    o.mapFailed f = .next s ↔ o = .next s := by
  cases o <;> simp [mapFailed]

@[simp] theorem mapFailed_eq_failed {β : Type*} {f : α → β} {o : Outcome α σ} {b : β} :
    o.mapFailed f = .failed b ↔ ∃ a, o = .failed a ∧ f a = b := by
  cases o <;> simp [mapFailed]

@[simp] theorem ofExcept_eq_next {r : Except α σ} {s : σ} :
    ofExcept r = .next s ↔ r = .ok s := by
  cases r <;> simp [ofExcept]

@[simp] theorem ofExcept_eq_failed {r : Except α σ} {a : α} :
    ofExcept r = .failed a ↔ r = .error a := by
  cases r <;> simp [ofExcept]

@[simp] theorem guard_eq_next {p : Prop} [Decidable p] {o : Outcome α σ} {s : σ} :
    guard p o = .next s ↔ p ∧ o = .next s := by
  unfold guard; split_ifs with h <;> simp [h]

@[simp] theorem guard_eq_failed {p : Prop} [Decidable p] {o : Outcome α σ} {a : α} :
    guard p o = .failed a ↔ p ∧ o = .failed a := by
  unfold guard; split_ifs with h <;> simp [h]

theorem mapFailed_bind {τ β : Type*} {g : α → β} {o : Outcome α σ} {f : σ → Outcome α τ} :
    (o.bind f).mapFailed g = (o.mapFailed g).bind fun s => (f s).mapFailed g := by
  cases o <;> rfl

theorem mapFailed_guard {β : Type*} {g : α → β} {p : Prop} [Decidable p] {o : Outcome α σ} :
    (guard p o).mapFailed g = guard p (o.mapFailed g) := by
  unfold guard; split_ifs <;> rfl

theorem guard_eq_or {p : Prop} [Decidable p] {o : Outcome α σ} :
    guard p o = .blocked ∨ guard p o = o := by
  unfold guard; split_ifs
  · exact .inr rfl
  · exact .inl rfl

theorem of_guard_ne_blocked {p : Prop} [Decidable p] {o : Outcome α σ}
    (h : guard p o ≠ .blocked) : p := by
  by_contra hp
  exact h (if_neg hp)

end Outcome

/-- A transition system with labelled steps. -/
structure System (σ ι α : Type*) where
  init : σ → Prop
  step : σ → ι → Outcome α σ

namespace System

variable {S : System σ ι α} {C D : σ → ι → Prop} {I J : σ → Prop} {s s' : σ} {l : ι}

/-- A step that meets the condition `C`. -/
def StepIf (S : System σ ι α) (C : σ → ι → Prop) (s s' : σ) : Prop :=
  ∃ l, C s l ∧ S.step s l = .next s'

/-- A run all of whose steps meet the condition `C`. -/
def RunIf (S : System σ ι α) (C : σ → ι → Prop) : σ → σ → Prop :=
  Relation.ReflTransGen (S.StepIf C)

/-- The states of the runs, from an initial state, all of whose steps meet the condition `C`. -/
def ReachableIf (S : System σ ι α) (C : σ → ι → Prop) (s : σ) : Prop :=
  ∃ s₀, S.init s₀ ∧ S.RunIf C s₀ s

/-- The reachable states. -/
abbrev Reachable (S : System σ ι α) : σ → Prop := S.ReachableIf fun _ _ => True

theorem ReachableIf.of_init (h : S.init s) : S.ReachableIf C s := ⟨s, h, .refl⟩

theorem ReachableIf.step (hr : S.ReachableIf C s) (hc : C s l) (hs : S.step s l = .next s') :
    S.ReachableIf C s' := by
  obtain ⟨s₀, h0, hrun⟩ := hr
  exact ⟨s₀, h0, hrun.tail ⟨l, hc, hs⟩⟩

theorem ReachableIf.run (hr : S.ReachableIf C s) (hs : S.RunIf C s s') : S.ReachableIf C s' := by
  obtain ⟨s₀, h0, hrun⟩ := hr
  exact ⟨s₀, h0, hrun.trans hs⟩

theorem RunIf.mono (h : ∀ s l, C s l → D s l) (hr : S.RunIf C s s') : S.RunIf D s s' :=
  Relation.ReflTransGen.mono (fun _ _ ⟨l, hc, hs⟩ => ⟨l, h _ _ hc, hs⟩) _ _ hr

theorem ReachableIf.mono (h : ∀ s l, C s l → D s l) (hr : S.ReachableIf C s) :
    S.ReachableIf D s := by
  obtain ⟨s₀, h0, hrun⟩ := hr
  exact ⟨s₀, h0, hrun.mono h⟩

/-- What holds at the start of a run and every step that meets `C` keeps holds at its end. -/
theorem RunIf.invariant (hstep : ∀ s l s', I s → C s l → S.step s l = .next s' → I s')
    (hs : I s) (hr : S.RunIf C s s') : I s' := by
  induction hr with
  | refl => exact hs
  | tail _ hstep' ih =>
    obtain ⟨l, hc, hl⟩ := hstep'
    exact hstep _ l _ ih hc hl

/-- What the initial states satisfy and every step that meets `C` keeps holds of every state of
a run whose steps meet `C`. -/
theorem ReachableIf.invariant (h0 : ∀ s, S.init s → I s)
    (hstep : ∀ s l s', I s → C s l → S.step s l = .next s' → I s')
    (hr : S.ReachableIf C s) : I s := by
  obtain ⟨s₀, hi, hrun⟩ := hr
  exact hrun.invariant hstep (h0 s₀ hi)

/-- The induction rule with an invariant `J` that is already known. -/
theorem ReachableIf.invariant_of (hJ : ∀ s, S.ReachableIf C s → J s) (h0 : ∀ s, S.init s → I s)
    (hstep : ∀ s l s', J s → I s → C s l → S.step s l = .next s' → I s')
    (hr : S.ReachableIf C s) : I s := by
  refine (ReachableIf.invariant (S := S) (C := C) (I := fun s => S.ReachableIf C s ∧ I s)
    (fun s h => ⟨.of_init h, h0 s h⟩) ?_ hr).2
  rintro s l s' ⟨hr, hi⟩ hc hs
  exact ⟨hr.step hc hs, hstep s l s' (hJ s hr) hi hc hs⟩

/-- Steps that move up along a preorder make runs that do. -/
theorem RunIf.monotone {β : Type*} [Preorder β] {f : σ → β}
    (hI : ∀ s l s', I s → C s l → S.step s l = .next s' → I s')
    (hf : ∀ s l s', I s → C s l → S.step s l = .next s' → f s ≤ f s')
    (hs : I s) (hr : S.RunIf C s s') : f s ≤ f s' := by
  have h : I s' ∧ f s ≤ f s' := by
    induction hr with
    | refl => exact ⟨hs, le_rfl⟩
    | tail _ hstep ih =>
      obtain ⟨l, hc, hl⟩ := hstep
      exact ⟨hI _ l _ ih.1 hc hl, ih.2.trans (hf _ l _ ih.1 hc hl)⟩
  exact h.2

/-! ### Computed runs -/

/-- The outcome of a list of labels. -/
def exec (S : System σ ι α) : σ → List ι → Outcome α σ
  | s, [] => .next s
  | s, l :: w => (S.step s l).bind fun s' => S.exec s' w

/-- The outcome of a list of labels whose steps are checked against the condition `C`. -/
def execIf (S : System σ ι α) (C : σ → ι → Prop) [∀ s l, Decidable (C s l)] :
    σ → List ι → Outcome α σ
  | s, [] => .next s
  | s, l :: w => .guard (C s l) ((S.step s l).bind fun s' => S.execIf C s' w)

theorem runIf_of_execIf [∀ s l, Decidable (C s l)] {w : List ι}
    (h : S.execIf C s w = .next s') : S.RunIf C s s' := by
  induction w generalizing s with
  | nil => cases h; exact .refl
  | cons l w ih =>
    simp only [execIf, Outcome.guard_eq_next, Outcome.bind_eq_next] at h
    obtain ⟨hc, t, ht, hrest⟩ := h
    exact (ih hrest).head ⟨l, hc, ht⟩

theorem exec_of_execIf [∀ s l, Decidable (C s l)] {w : List ι}
    (h : S.execIf C s w = .next s') : S.exec s w = .next s' := by
  induction w generalizing s with
  | nil => exact h
  | cons l w ih =>
    simp only [execIf, Outcome.guard_eq_next, Outcome.bind_eq_next] at h
    obtain ⟨-, t, ht, hrest⟩ := h
    rw [exec, ht]
    exact ih hrest

/-- A checked computation reaches a state that satisfies `P`. -/
theorem exists_reachableIf [∀ s l, Decidable (C s l)] {P : σ → Prop} {w : List ι} (h0 : S.init s)
    (h : (S.execIf C s w).Leads P) : ∃ s', S.ReachableIf C s' ∧ P s' := by
  obtain ⟨s', hs, hp⟩ := h
  exact ⟨s', ⟨s, h0, runIf_of_execIf hs⟩, hp⟩

theorem runIf_of_exec {w : List ι} (h : S.exec s w = .next s') :
    S.RunIf (fun _ _ => True) s s' := by
  induction w generalizing s with
  | nil => cases h; exact .refl
  | cons l w ih =>
    simp only [exec, Outcome.bind_eq_next] at h
    obtain ⟨t, ht, hrest⟩ := h
    exact (ih hrest).head ⟨l, trivial, ht⟩

theorem exec_cons {w : List ι} (h : S.step s l = .next s') : S.exec s (l :: w) = S.exec s' w := by
  rw [exec, h]
  rfl

theorem exec_append {w w' : List ι} :
    S.exec s (w ++ w') = (S.exec s w).bind fun t => S.exec t w' := by
  induction w generalizing s with
  | nil => rfl
  | cons l w ih =>
    simp only [List.cons_append, exec]
    cases S.step s l with
    | next t => exact ih
    | blocked | failed a => rfl

theorem exec_append_of_exec {w w' : List ι} (h : S.exec s w = .next s') :
    S.exec s (w ++ w') = S.exec s' w' := by
  rw [exec_append, h]
  rfl

theorem exec_concat {w : List ι} :
    S.exec s (w ++ [l]) = .next s' ↔ ∃ t, S.exec s w = .next t ∧ S.step t l = .next s' := by
  simp [exec_append, exec]

/-- What holds before a computation, and of its labels and its state after each step if it did so
before, holds at its end. -/
theorem exec_invariant {K : List ι → σ → Prop} {w : List ι} (h0 : K [] s)
    (hstep : ∀ w l t t', K w t → S.step t l = .next t' → K (w ++ [l]) t')
    (h : S.exec s w = .next s') : K w s' := by
  induction w using List.reverseRecOn generalizing s' with
  | nil => cases h; exact h0
  | append_singleton w l ih =>
    obtain ⟨t, ht, hl⟩ := exec_concat.1 h
    exact hstep w l t s' (ih ht) hl

theorem exec_ne_blocked {w : List ι} (h : ∀ l ∈ w, ∀ s, S.step s l ≠ .blocked) :
    S.exec s w ≠ .blocked := by
  induction w generalizing s with
  | nil => simp [exec]
  | cons l w ih =>
    rw [exec]
    cases hl : S.step s l with
    | next t => exact ih fun l' hl' => h l' (List.mem_cons_of_mem l hl')
    | blocked => exact absurd hl (h l List.mem_cons_self s)
    | failed a => simp [Outcome.bind]

/-- A computation of `T` that is simulated step by step is simulated, unless `S` comes to a stop. -/
theorem exec_simulates {τ β : Type*} {T : System τ ι β} {R : σ → τ → Prop} {t t' : τ} {w : List ι}
    (hstep : ∀ s t l t', R s t → T.step t l = .next t' → S.step s l ≠ .blocked →
      ∃ s', S.step s l = .next s' ∧ R s' t')
    (hR : R s t) (h : T.exec t w = .next t') (hne : S.exec s w ≠ .blocked) :
    ∃ s', S.exec s w = .next s' ∧ R s' t' := by
  induction w generalizing s t with
  | nil =>
    cases h
    exact ⟨s, rfl, hR⟩
  | cons l w ih =>
    obtain ⟨u, hu, hw⟩ := Outcome.bind_eq_next.1 h
    rw [exec] at hne ⊢
    have hl : S.step s l ≠ .blocked := by
      intro hl
      rw [hl] at hne
      exact hne rfl
    obtain ⟨v, hv, hR'⟩ := hstep s t l u hR hu hl
    rw [hv] at hne ⊢
    exact ih hR' hw hne

/-- A computation fails where one of its steps does. -/
theorem exec_eq_failed {w : List ι} {a : α} :
    S.exec s w = .failed a ↔
      ∃ w₁ l w₂ t, w = w₁ ++ l :: w₂ ∧ S.exec s w₁ = .next t ∧ S.step t l = .failed a := by
  constructor
  · intro h
    induction w generalizing s with
    | nil => cases h
    | cons l w ih =>
      rw [exec, Outcome.bind_eq_failed] at h
      obtain h | ⟨t, ht, h⟩ := h
      · exact ⟨[], l, w, s, rfl, rfl, h⟩
      · obtain ⟨w₁, l', w₂, t', rfl, h₁, h₂⟩ := ih h
        exact ⟨l :: w₁, l', w₂, t', rfl, by rw [exec, ht]; exact h₁, h₂⟩
  · rintro ⟨w₁, l, w₂, t, rfl, h₁, h₂⟩
    rw [exec_append_of_exec h₁]
    change (S.step t l).bind _ = _
    rw [h₂]
    rfl

/-- A computation does not fail where no step from a state with the invariant does. -/
theorem exec_ne_failed {w : List ι} {a : α} (hs : I s)
    (hstep : ∀ s l s', I s → S.step s l = .next s' → I s')
    (hne : ∀ s l, I s → S.step s l ≠ .failed a) : S.exec s w ≠ .failed a := by
  intro h
  obtain ⟨w₁, l, w₂, t, -, ht, hl⟩ := exec_eq_failed.1 h
  exact hne t l ((runIf_of_exec ht).invariant (fun s l s' hs _ h => hstep s l s' hs h) hs) hl

/-- A computation from an initial state ends in a reachable state. -/
theorem reachable_of_exec {w : List ι} (h0 : S.init s) (h : S.exec s w = .next s') :
    S.Reachable s' :=
  ⟨s, h0, runIf_of_exec h⟩

end System
end Transition
