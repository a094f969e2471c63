import Leven.Transition.System

/-!
# Components that come and go

A system is made of components, each of which does the runs of a system of its own.  A component
comes into being in some step of the whole and may go again; while it is there, every step of the
whole is one step of the component or none.

* `stepOpt`: a step or none;
* `Projects`: what has to be known about the steps of the whole;
* `Projects.exists_reachable`: the component is where one of its own runs leads.
-/

namespace Transition.System

variable {σ ι α τ κ β : Type*} {S : System σ ι α} {T : System τ κ β} {C : σ → ι → Prop}
  {D : τ → κ → Prop} {s s' : σ} {t t' : τ} {o : Option κ}

/-- A step or none. -/
def stepOpt (T : System τ κ β) (t : τ) : Option κ → Outcome β τ
  | none => .next t
  | some k => T.step t k

theorem ReachableIf.stepOpt (hr : T.ReachableIf D t) (hd : ∀ k ∈ o, D t k)
    (h : T.stepOpt t o = .next t') : T.ReachableIf D t' := by
  cases o with
  | none =>
    cases h
    exact hr
  | some k => exact hr.step (hd k rfl) h

/-- The component that is there in the states `E` does what `T` does: it starts in a reachable state
of `T`, and a step of the whole is the step `project` of the component, if it has one. -/
structure Projects (S : System σ ι α) (T : System τ κ β) (C : σ → ι → Prop) (D : τ → κ → Prop)
    (E : σ → Prop) (R : σ → τ → Prop) (project : σ → ι → Option κ) : Prop where
  init : ∀ s, S.init s → ¬ E s
  start : ∀ s i s', S.ReachableIf C s → C s i → S.step s i = .next s' → ¬ E s → E s' →
    ∃ t, T.ReachableIf D t ∧ R s' t
  step : ∀ s i s' t, S.ReachableIf C s → C s i → S.step s i = .next s' → E s → R s t → E s' →
    ∃ t', T.stepOpt t (project s i) = .next t' ∧ R s' t'
  cond : ∀ s i t, C s i → R s t → ∀ k ∈ project s i, D t k

variable {E : σ → Prop} {R : σ → τ → Prop} {project : σ → ι → Option κ}

/-- A component that is there is where one of its own runs leads. -/
theorem Projects.exists_reachable (hp : Projects S T C D E R project) (hr : S.ReachableIf C s)
    (he : E s) : ∃ t, T.ReachableIf D t ∧ R s t := by
  refine hr.invariant_of (J := S.ReachableIf C) (I := fun s => E s → ∃ t, T.ReachableIf D t ∧ R s t)
    (fun _ h => h) (fun s h he => absurd he (hp.init s h)) ?_ he
  intro s i s' hs ih hc h he'
  by_cases he : E s
  · obtain ⟨t, ht, hR⟩ := ih he
    obtain ⟨t', hstep, hR'⟩ := hp.step s i s' t hs hc h he hR he'
    exact ⟨t', ht.stepOpt (hp.cond s i t hc hR) hstep, hR'⟩
  · exact hp.start s i s' hs hc h he he'

end Transition.System
