import Mathlib.Tactic
import Mathlib.Logic.Function.Basic

/-!
# Heaps of counted objects

Objects that live as long as they have an owner.  Who owns an object is not part of the heap: it is
a predicate `owned`, and when owners have gone, `releaseAll` looks at the objects they owned and
runs the destructor of those that `owned` does not hold of any more.  A destructor can fail.

* `Slot`, `RefHeap`: what an identifier stands for, and a heap;
* `release`, `releaseAll`: one owner has gone, or one of each object of a list;
* `Collected`: what `releaseAll` does to the heap; `collected_of_releaseAll`, and
  `exists_of_releaseAll_error` for its failures.
-/

namespace Container

/-- What an identifier stands for. -/
inductive Slot (α : Type*)
  | free
  | live (a : α)
  | destroyed
  deriving DecidableEq

/-- A view of the objects. -/
def Slot.map {α β : Type*} (f : α → β) : Slot α → Slot β
  | .free => .free
  | .live a => .live (f a)
  | .destroyed => .destroyed

@[simp] theorem Slot.map_eq_live {α β : Type*} {f : α → β} {x : Slot α} {b : β} :
    x.map f = .live b ↔ ∃ a, x = .live a ∧ f a = b := by
  cases x <;> simp [Slot.map]

@[simp] theorem Slot.map_eq_free {α β : Type*} {f : α → β} {x : Slot α} :
    x.map f = .free ↔ x = .free := by
  cases x <;> simp [Slot.map]

@[simp] theorem Slot.map_eq_destroyed {α β : Type*} {f : α → β} {x : Slot α} :
    x.map f = .destroyed ↔ x = .destroyed := by
  cases x <;> simp [Slot.map]

/-- A heap. -/
abbrev RefHeap (ι α : Type*) := ι → Slot α

namespace RefHeap

variable {ι α ε : Type*} {owned : ι → Prop} {dtor : α → Except ε Unit} {h h' : RefHeap ι α} {i : ι}
  {is : List ι} {a : α} {e : ε}

/-- The heap `h'` is `h` without objects that nobody owned and whose destructor has run, and those
of the list are among them. -/
structure Collected (owned : ι → Prop) (dtor : α → Except ε Unit) (is : List ι)
    (h h' : RefHeap ι α) : Prop where
  kept : ∀ i, h' i = h i ∨
    ¬ owned i ∧ i ∈ is ∧ (∃ a, h i = .live a ∧ dtor a = .ok ()) ∧ h' i = .destroyed
  gone : ∀ i ∈ is, ¬ owned i → ∀ a, h' i ≠ .live a

theorem Collected.nil : Collected owned dtor [] h h :=
  ⟨fun _ => .inl rfl, fun _ hi => absurd hi List.not_mem_nil⟩

/-- An object that is there afterwards was there before. -/
theorem Collected.live (hc : Collected owned dtor is h h') (hi : h' i = .live a) :
    h i = .live a := by
  rcases hc.kept i with he | ⟨-, -, -, hd⟩
  · rw [← he]; exact hi
  · rw [hd] at hi; cases hi

/-- An object with an owner stays. -/
theorem Collected.eq_of_owned (hc : Collected owned dtor is h h') (ho : owned i) : h' i = h i :=
  (hc.kept i).resolve_right fun hd => hd.1 ho

/-- Owners are owners of objects that are there. -/
theorem Collected.exists_live (hc : Collected owned dtor is h h')
    (hl : ∀ i, owned i → ∃ a, h i = .live a) (ho : owned i) : ∃ a, h' i = .live a := by
  rw [hc.eq_of_owned ho]
  exact hl i ho

theorem Collected.cons {h₁ : RefHeap ι α} (h1 : Collected owned dtor [i] h h₁)
    (h2 : Collected owned dtor is h₁ h') : Collected owned dtor (i :: is) h h' where
  kept j := by
    rcases h2.kept j with he | ⟨hn, hj, ⟨a, ha, hd⟩, he⟩
    · rw [he]
      exact (h1.kept j).imp_right fun ⟨hn, hj, hl, hd⟩ =>
        ⟨hn, List.mem_cons.2 (.inl (List.mem_singleton.1 hj)), hl, hd⟩
    · exact .inr ⟨hn, List.mem_cons_of_mem _ hj, ⟨a, h1.live ha, hd⟩, he⟩
  gone j hj hn a ha := by
    rcases List.mem_cons.1 hj with rfl | hj
    · exact h1.gone j (List.mem_singleton_self _) hn a (h2.live ha)
    · exact h2.gone j hj hn a ha

section Release

variable [DecidableEq ι] [DecidablePred owned]

/-- One owner of `i` has gone: without another one the object is destroyed. -/
def release (owned : ι → Prop) [DecidablePred owned] (dtor : α → Except ε Unit) (i : ι)
    (h : RefHeap ι α) : Except ε (RefHeap ι α) :=
  match h i with
  | .live a => if owned i then .ok h else (dtor a).map fun _ => Function.update h i .destroyed
  | _ => .ok h

/-- One owner of each object of the list has gone. -/
def releaseAll (owned : ι → Prop) [DecidablePred owned] (dtor : α → Except ε Unit) :
    List ι → RefHeap ι α → Except ε (RefHeap ι α)
  | [], h => .ok h
  | i :: is, h => (release owned dtor i h).bind (releaseAll owned dtor is)

theorem release_live (hi : h i = .live a) :
    release owned dtor i h =
      if owned i then .ok h else (dtor a).map fun _ => Function.update h i .destroyed := by
  simp only [release, hi]

theorem release_not_live (hi : ∀ a, h i ≠ .live a) : release owned dtor i h = .ok h := by
  unfold release
  split
  · next a ha => exact absurd ha (hi a)
  · rfl

theorem collected_of_release (hr : release owned dtor i h = .ok h') :
    Collected owned dtor [i] h h' := by
  by_cases hl : ∃ a, h i = .live a
  · obtain ⟨a, ha⟩ := hl
    rw [release_live ha] at hr
    split_ifs at hr with ho
    · cases hr
      refine ⟨fun _ => .inl rfl, fun j hj hn => ?_⟩
      obtain rfl := List.mem_singleton.1 hj
      exact absurd ho hn
    · cases hd : dtor a with
      | error e => rw [hd] at hr; cases hr
      | ok u =>
        rw [hd] at hr
        cases hr
        refine ⟨fun j => ?_, fun j hj _ b hb => ?_⟩
        · by_cases hj : j = i
          · subst hj
            exact .inr ⟨ho, List.mem_singleton_self _, ⟨a, ha, hd⟩, Function.update_self ..⟩
          · exact .inl (Function.update_of_ne hj _ _)
        · obtain rfl := List.mem_singleton.1 hj
          have hdes : Function.update h j .destroyed j = .live b := hb
          rw [Function.update_self] at hdes
          cases hdes
  · have hn : ∀ a, h i ≠ .live a := fun a ha => hl ⟨a, ha⟩
    rw [release_not_live hn] at hr
    cases hr
    refine ⟨fun _ => .inl rfl, fun j hj _ a => ?_⟩
    rw [List.mem_singleton.1 hj]
    exact hn a

theorem collected_of_releaseAll (hr : releaseAll owned dtor is h = .ok h') :
    Collected owned dtor is h h' := by
  induction is generalizing h with
  | nil => cases hr; exact .nil
  | cons i is ih =>
    unfold releaseAll at hr
    cases h1 : release owned dtor i h with
    | error e => rw [h1] at hr; cases hr
    | ok h₁ =>
      rw [h1] at hr
      exact (collected_of_release h1).cons (ih hr)

theorem exists_of_release_error (hr : release owned dtor i h = .error e) :
    ¬ owned i ∧ ∃ a, h i = .live a ∧ dtor a = .error e := by
  by_cases hl : ∃ a, h i = .live a
  · obtain ⟨a, ha⟩ := hl
    rw [release_live ha] at hr
    split_ifs at hr with ho
    refine ⟨ho, a, ha, ?_⟩
    cases hd : dtor a with
    | error e' => rw [hd] at hr; cases hr; rfl
    | ok u => rw [hd] at hr; cases hr
  · rw [release_not_live fun a ha => hl ⟨a, ha⟩] at hr
    cases hr

/-- A failure is the failure of the destructor of an object of the list that nobody owns. -/
theorem exists_of_releaseAll_error (hr : releaseAll owned dtor is h = .error e) :
    ∃ i ∈ is, ¬ owned i ∧ ∃ a, h i = .live a ∧ dtor a = .error e := by
  induction is generalizing h with
  | nil => cases hr
  | cons i is ih =>
    unfold releaseAll at hr
    cases h1 : release owned dtor i h with
    | error e' =>
      rw [h1] at hr
      cases hr
      exact ⟨i, List.mem_cons_self, exists_of_release_error h1⟩
    | ok h₁ =>
      rw [h1] at hr
      obtain ⟨j, hj, hn, a, ha, hd⟩ := ih hr
      exact ⟨j, List.mem_cons_of_mem _ hj, hn, a, (collected_of_release h1).live ha, hd⟩

end Release

end RefHeap
end Container
