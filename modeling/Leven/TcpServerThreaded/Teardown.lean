import Leven.TcpServerThreaded.Basic

/-!
# Tearing a threaded server down

The destructor calls `quit()` on every published loop and joins the workers.  A worker publishes its
loop before it calls `loop()`, and `loop()` starts with `quit_ = false`.

* `Inv`: what holds in every run;
* `LostQuit`, `Stranded`: the states from which the teardown, or the start, cannot go on;
* `Unasked`: `loop()` is entered only before `quit()` is called on it;
* `no_lost_quit`: no run reaches a state of the second kind, and the runs whose steps meet the
  condition reach none of the first;
* `lost_quit`: a run that does.
-/

namespace Leven.TcpServerThreaded

open Transition

variable {n i j : ℕ} {s s' : TcpServerThreaded} {lab : Label} {w : Worker} {l : EventLoop}
  {ts : List ℕ}

/-- `quit_ = true` has been executed on the loop of worker `i`. -/
def Asked (i : ℕ) (s : TcpServerThreaded) : Prop :=
  i ∈ s.quits ∨ s.dtor = .checking i ∨ s.dtor = .waking i

/-- The invariant of all runs. -/
structure Inv (s : TcpServerThreaded) : Prop where
  early : s.starter ≠ .returned → s.dtor = .notStarted
  fresh : s.dtor = .notStarted → s.quits = []
  bound : ∀ i ∈ s.quits, ∀ j ∈ s.dtor.index, i < j
  published : ∀ i ∈ s.dtor.target, (s.worker i).pc.isPublished = true
  slot : ∀ i, s.eventLoops i = (s.worker i).pc.inSlot
  looping : ∀ i, (s.worker i).pc = .looping → (s.worker i).loop.pc ≠ .outside
  left : ∀ i, (s.worker i).pc.hasLeft = true → (s.worker i).loop.quit = true
  asked : ∀ i, (s.worker i).loop.quit = true → s.Asked i
  parked : ∀ i, s.starter = .parked i → (s.worker i).pc.isPublished = false

theorem index_quitFrom (h : j ∈ (quitFrom n i ts).index) : j = i := by
  unfold quitFrom at h
  split_ifs at h
  · simpa [DtorPc.index, eq_comm] using h
  · simp [DtorPc.index] at h

@[simp] theorem quitFrom_ne_checking : quitFrom n i ts ≠ .checking j := by
  unfold quitFrom; split_ifs <;> simp

@[simp] theorem quitFrom_ne_waking : quitFrom n i ts ≠ .waking j := by
  unfold quitFrom; split_ifs <;> simp

@[simp] theorem target_quitFrom : (quitFrom n i ts).target = none := by
  unfold quitFrom; split_ifs <;> rfl

theorem quitFrom_ne : quitFrom n i ts ≠ .notStarted := by
  unfold quitFrom; split_ifs <;> simp

/-- A slot is empty before the worker publishes its loop, and behind `loop()`. -/
theorem isPublished_of_inSlot {pc : WorkerPc} (h : pc.inSlot = false) (hl : pc.hasLeft = false) :
    pc.isPublished = false := by
  cases pc <;> simp_all [WorkerPc.inSlot, WorkerPc.isPublished, WorkerPc.hasLeft]

theorem isPublished_of_slot {pc : WorkerPc} (h : pc.inSlot = true) : pc.isPublished = true := by
  cases pc <;> simp_all [WorkerPc.inSlot, WorkerPc.isPublished]

/-- The steps of a loop in use leave `quit_` alone. -/
theorem quit_eq_of_use {e : EventLoop} {lab : EventLoop.Label} (hu : lab.isUse = true)
    (h : EventLoop.Step i e lab l) : l.quit = e.quit := by
  refine h.quit_eq (fun t ht => ?_) fun ht => ?_ <;> subst ht <;> cases hu

/-- Until the destructor stores `quit_`, the loops asked to quit are those whose `quit()` has
returned. -/
theorem Inv.mem_quits (hs : Inv s) (h1 : s.dtor ≠ .checking i) (h2 : s.dtor ≠ .waking i)
    (hq : (s.worker i).loop.quit = true) : i ∈ s.quits := by
  simpa [Asked, h1, h2] using hs.asked i hq

/-- The destructor runs behind `startInLoop`. -/
theorem Inv.returned (hs : Inv s) (h : s.dtor ≠ .notStarted) : s.starter = .returned :=
  by_contra fun h' => h (hs.early h')

/-- While the server is being started no loop has been left. -/
theorem Inv.hasLeft_of_starting (hs : Inv s) (h : s.starter ≠ .returned) (i : ℕ) :
    (s.worker i).pc.hasLeft = false := by
  by_contra hl
  have hd := hs.early h
  have ha := hs.asked i (hs.left i (by simpa using hl))
  simp [Asked, hd, hs.fresh hd] at ha

/-- A step of worker `i`, and of the starting thread. -/
theorem Inv.workerStep (hs : Inv s) (hw : s'.worker = Function.update s.worker i w)
    (he : s'.eventLoops = Function.update s.eventLoops i w.pc.inSlot) (hd : s'.dtor = s.dtor)
    (hq : s'.quits = s.quits) (hst : s.starter = .returned → s'.starter = .returned)
    (hparked : ∀ j, s'.starter = .parked j → s.starter = .parked j)
    (hp : s.starter = .parked i → w.pc.isPublished = true → s'.starter ≠ .parked i)
    (hpub : (s.worker i).pc.isPublished = true → w.pc.isPublished = true)
    (hloop : w.pc = .looping → w.loop.pc ≠ .outside)
    (hleft : w.pc.hasLeft = true → w.loop.quit = true)
    (hquit : w.loop.quit = true → (s.worker i).loop.quit = true) : Inv s' where
  early h := by rw [hd]; exact hs.early fun h' => h (hst h')
  fresh h := by rw [hq]; exact hs.fresh (hd ▸ h)
  bound := by rw [hq, hd]; exact hs.bound
  published j hj := by
    rw [hd] at hj
    by_cases h : j = i
    · subst h; simpa [hw] using hpub (hs.published j hj)
    · simpa [hw, h] using hs.published j hj
  slot j := by
    by_cases h : j = i
    · subst h; simp [hw, he]
    · simpa [hw, he, h] using hs.slot j
  looping j := by
    by_cases h : j = i
    · subst h; simpa [hw] using hloop
    · simpa [hw, h] using hs.looping j
  left j := by
    by_cases h : j = i
    · subst h; simpa [hw] using hleft
    · simpa [hw, h] using hs.left j
  asked j hj := by
    have hj' : (s.worker j).loop.quit = true := by
      by_cases h : j = i
      · subst h; exact hquit (by simpa [hw] using hj)
      · simpa [hw, h] using hj
    simpa [Asked, hd, hq] using hs.asked j hj'
  parked j hj := by
    by_cases h : j = i
    · subst h
      rw [hw, Function.update_self]
      by_contra hc
      exact hp (hparked j hj) (by simpa using hc) hj
    · simpa [hw, h] using hs.parked j (hparked j hj)

/-- A step of the destructor. -/
theorem Inv.dtorStep (hs : Inv s) (hst : s.starter = .returned) (hst' : s'.starter = s.starter)
    (hpc : ∀ j, (s'.worker j).pc = (s.worker j).pc)
    (hlpc : ∀ j, (s'.worker j).loop.pc = (s.worker j).loop.pc)
    (he : s'.eventLoops = s.eventLoops)
    (hquit : ∀ j, (s.worker j).loop.quit = true → (s'.worker j).loop.quit = true)
    (hd : s'.dtor ≠ .notStarted) (hbound : ∀ i ∈ s'.quits, ∀ j ∈ s'.dtor.index, i < j)
    (hpub : ∀ i ∈ s'.dtor.target, (s.worker i).pc.isPublished = true)
    (hasked : ∀ i, (s'.worker i).loop.quit = true → s'.Asked i) : Inv s' where
  early h := absurd (hst'.trans hst) h
  fresh h := absurd h hd
  bound := hbound
  published i hi := by rw [hpc]; exact hpub i hi
  slot i := by rw [he, hpc]; exact hs.slot i
  looping i := by rw [hpc, hlpc]; exact hs.looping i
  left i hi := hquit i (hs.left i (hpc i ▸ hi))
  asked := hasked
  parked i hi := by rw [hst', hst] at hi; cases hi

/-- A step of the starting thread alone. -/
theorem Inv.starterStep {st : StarterPc} (hs : Inv s) (hne : s.starter ≠ .returned)
    (hp : ∀ i, st = .parked i → (s.worker i).pc.isPublished = false) :
    Inv { s with starter := st, threads := ts } :=
  { hs with early := fun _ => hs.early hne, parked := hp }

/-- A step of the destructor outside `quit()`. -/
theorem Inv.dtorMove {d : DtorPc} (hs : Inv s) (hst : s.starter = .returned)
    (h1 : ∀ i, s.dtor ≠ .checking i) (h2 : ∀ i, s.dtor ≠ .waking i) (hd : d ≠ .notStarted)
    (hbound : ∀ i ∈ s.quits, ∀ j ∈ d.index, i < j)
    (hpub : ∀ i ∈ d.target, (s.worker i).pc.isPublished = true) : Inv { s with dtor := d } :=
  hs.dtorStep hst rfl (fun _ => rfl) (fun _ => rfl) rfl (fun _ => id) hd hbound hpub
    fun i hi => .inl (hs.mem_quits (h1 i) (h2 i) hi)

/-- A step of worker `i` alone. -/
theorem Inv.move (hs : Inv s) (hpub : w.pc.isPublished = (s.worker i).pc.isPublished)
    (hloop : w.pc = .looping → w.loop.pc ≠ .outside)
    (hleft : w.pc.hasLeft = true → w.loop.quit = true)
    (hquit : w.loop.quit = true → (s.worker i).loop.quit = true) :
    Inv { s with
      worker := Function.update s.worker i w
      eventLoops := Function.update s.eventLoops i w.pc.inSlot } :=
  hs.workerStep rfl rfl rfl rfl id (fun _ => id)
    (fun h hw _ => by rw [hpub, hs.parked i h] at hw; cases hw) (fun h => hpub ▸ h) hloop hleft
    hquit

/-- The slots are as they are while the worker stays on one side of the clearing. -/
theorem Inv.update_slot (hs : Inv s) {p : WorkerPc} (h : p.inSlot = (s.worker i).pc.inSlot) :
    s.eventLoops = Function.update s.eventLoops i p.inSlot := by
  rw [h, ← hs.slot i, Function.update_eq_self]

theorem setLoop_eq {P : EventLoop → Prop} (h : P ((s.setLoop i l).worker j).loop) :
    j = i ∧ P l ∨ j ≠ i ∧ P (s.worker j).loop := by
  by_cases hj : j = i
  · subst hj; exact .inl ⟨rfl, by simpa using h⟩
  · exact .inr ⟨hj, by simpa [setLoop_worker_of_ne hj] using h⟩

/-- A step of the destructor in `quit()` on the loop of worker `i`. -/
theorem Inv.quitStep {d : DtorPc} {qs : List ℕ} (hs : Inv s) (ht : s.dtor.target = some i)
    (hpc : l.pc = (s.worker i).loop.pc) (hq : (s.worker i).loop.quit = true → l.quit = true)
    (hd : d ≠ .notStarted) (hbound : ∀ a ∈ qs, ∀ b ∈ d.index, a < b)
    (htarget : ∀ j ∈ d.target, j = i)
    (hself : l.quit = true → i ∈ qs ∨ d = .checking i ∨ d = .waking i)
    (hsub : ∀ j ∈ s.quits, j ∈ qs) : Inv { s.setLoop i l with dtor := d, quits := qs } := by
  refine hs.dtorStep (hs.returned fun h => ?_) rfl (fun _ => setLoop_pc) (fun j => ?_) rfl
    (fun j => ?_) hd hbound (fun j hj => ?_) (fun j hj => ?_)
  · rw [h] at ht; cases ht
  · exact setLoop_loop (P := fun e e' => e'.pc = e.pc) hpc (fun _ => rfl) j
  · exact setLoop_loop (P := fun e e' => e.quit = true → e'.quit = true) hq (fun _ => id) j
  · rw [htarget j hj]; exact hs.published i ht
  · rcases setLoop_eq (P := fun e => e.quit = true) hj with ⟨rfl, h⟩ | ⟨hne, h⟩
    · exact hself h
    · refine .inl (hsub j (hs.mem_quits (fun h' => ?_) (fun h' => ?_) h)) <;>
        exact hne (by simpa [h', DtorPc.target] using ht)

/-- A step that stays in `quit()` on the loop of worker `i`. -/
theorem Inv.quitWithin {d : DtorPc} (hs : Inv s) (ht : s.dtor.target = some i)
    (hi : s.dtor.index = some i) (ht' : d.target = some i) (hi' : d.index = some i)
    (hpc : l.pc = (s.worker i).loop.pc) (hq : (s.worker i).loop.quit = true → l.quit = true)
    (hself : l.quit = true → i ∈ s.quits ∨ d = .checking i ∨ d = .waking i) :
    Inv { s.setLoop i l with dtor := d } := by
  refine hs.quitStep ht hpc hq ?_ (fun a ha b hb => ?_) (fun j hj => ?_) hself fun _ => id
  · rintro rfl
    cases ht'
  · obtain rfl : i = b := Option.some.inj (hi'.symm.trans hb)
    exact hs.bound a ha i hi
  · exact Option.some.inj (hj.symm.trans ht')

/-- A step of the thread of worker `i` in its loop. -/
theorem Inv.useStep {lab : EventLoop.Label} (hs : Inv s) (hu : lab.isUse = true)
    (hl : EventLoop.Step i (s.worker i).loop lab l) :
    Inv ((s.setLoop i l).goto i (afterUse (s.worker i).pc l)) := by
  have hq := quit_eq_of_use hu hl
  suffices h : (afterUse (s.worker i).pc l).isPublished = (s.worker i).pc.isPublished ∧
      (afterUse (s.worker i).pc l).inSlot = (s.worker i).pc.inSlot ∧
      (afterUse (s.worker i).pc l = .looping → l.pc ≠ .outside) ∧
      ((afterUse (s.worker i).pc l).hasLeft = true → l.quit = true) by
    have hs' := hs.move (i := i) (w := ⟨afterUse (s.worker i).pc l, l⟩) h.1 h.2.2.1 h.2.2.2
      (fun h => hq ▸ h)
    rw [← hs.update_slot h.2.1] at hs'
    simpa [goto, setLoop] using hs'
  by_cases hpc : (s.worker i).pc = .looping
  · by_cases ho : l.pc = .outside
    · -- the loop is left, which it is only when `quit_` is set
      have hset := (hl.of_outside (hs.looping i hpc) ho).2
      simp [afterUse, hpc, ho, hq, hset, WorkerPc.isPublished, WorkerPc.inSlot]
    · simp [afterUse, hpc, ho, WorkerPc.hasLeft]
  · simpa [afterUse, hpc, hq] using hs.left i

/-- The steps in which the worker neither publishes its loop nor enters or leaves it. -/
theorem Moves.facts {pc pc' : WorkerPc} (hm : Moves lab i pc pc') :
    pc'.isPublished = pc.isPublished ∧ pc'.inSlot = pc.inSlot ∧ pc' ≠ .looping ∧
      pc'.hasLeft = pc.hasLeft := by
  cases lab with
  | construct j | initCallback j | startServer j | destroyServer j | destroyLoop j =>
    obtain ⟨-, rfl, rfl⟩ := hm
    simp [WorkerPc.isPublished, WorkerPc.inSlot, WorkerPc.hasLeft]
  | _ => exact hm.elim

theorem Inv.step (hs : Inv s) (h : Step n s lab s') : Inv s' := by
  cases h with
  | @spawn i h hw =>
    refine hs.workerStep rfl (hs.update_slot (p := .constructing) (by rw [hw]; rfl)) rfl rfl
      (fun h' => ?_) (fun j hj => ?_) (fun _ hp => ?_) (fun hp => ?_) (fun hl => ?_)
      (fun hl => ?_) id
    · rw [h] at h'; cases h'
    · cases hj
    · cases hp
    · rw [hw] at hp; cases hp
    · cases hl
    · cases hl
  | @found i h hl => exact hs.starterStep (by simp [h]) fun j hj => by cases hj
  | @park i h hl =>
    have hne : s.starter ≠ .returned := by simp [h]
    refine hs.starterStep hne fun j hj => ?_
    cases hj
    exact isPublished_of_inSlot ((hs.slot i).symm.trans hl) (hs.hasLeft_of_starting hne i)
  | @spurious i h => exact hs.starterStep (by simp [h]) fun j hj => by cases hj
  | @emplace i h =>
    refine hs.starterStep (by simp [h]) fun j hj => ?_
    simp only [startFrom] at hj
    split_ifs at hj
  | @move lab i pc' hm =>
    obtain ⟨hpub, hslot, hne, hleft⟩ := hm.facts
    -- the slot is as it was, since none of these steps publishes or clears it
    have hs' := hs.move (i := i) (w := { s.worker i with pc := pc' }) hpub (fun h => absurd h hne)
      (fun h => hs.left i (hleft ▸ h)) id
    rwa [← hs.update_slot hslot] at hs'
  | @publish i hw =>
    refine hs.workerStep (w := { s.worker i with pc := .initializing }) rfl rfl rfl rfl
      (fun h => ?_) (fun j hj => ?_) (fun h _ => ?_) (fun _ => rfl) (fun h => ?_) (fun h => ?_) id
    · simp [h, StarterPc.notified]
    · cases hst : s.starter <;> simp_all [StarterPc.notified]
    · simp [h, StarterPc.notified]
    · cases h
    · cases h
  | @enter i l hw hl =>
    have hl' : l.pc = .testing ∧ l.quit = false := by cases hl; exact ⟨rfl, rfl⟩
    have hs' := hs.move (i := i) (w := ⟨.looping, l⟩) (by rw [hw]; rfl) (fun _ => by simp [hl'.1])
      (fun h => by cases h) (fun h => by simp [hl'.2] at h)
    rw [← hs.update_slot (by rw [hw]; rfl)] at hs'
    simpa [goto, setLoop] using hs'
  | @use i lab l hu hw hl => exact hs.useStep hu hl
  | @clear i hw =>
    have hq := hs.left i (by rw [hw]; rfl)
    exact hs.move (i := i) (w := { s.worker i with pc := .destroyingServer }) (by rw [hw]; rfl)
      (fun h => by cases h) (fun _ => hq) id
  | destroy h hd =>
    refine hs.dtorMove h (by simp [hd]) (by simp [hd]) quitFrom_ne ?_ (by simp)
    simp [hs.fresh hd]
  | @hold i hd hl =>
    refine hs.dtorMove (hs.returned (by simp [hd])) (by simp [hd]) (by simp [hd]) (by simp) ?_ ?_
    · simpa [hd, DtorPc.index] using hs.bound
    · rintro _ ⟨⟩
      exact isPublished_of_slot ((hs.slot i).symm.trans hl)
  | @skip i hd hl =>
    refine hs.dtorMove (hs.returned (by simp [hd])) (by simp [hd]) (by simp [hd]) quitFrom_ne
      (fun j hj k hk => ?_) (by simp)
    rw [index_quitFrom hk]
    exact (hs.bound j hj i (by rw [hd]; rfl)).trans (Nat.lt_succ_self i)
  | @quit i l hd hw hl =>
    have hq : l.pc = (s.worker i).loop.pc ∧ l.quit = (s.worker i).loop.quit := by
      cases hl; exact ⟨rfl, rfl⟩
    exact hs.quitWithin (by rw [hd]; rfl) (by rw [hd]; rfl) rfl rfl hq.1 (fun h => hq.2.trans h)
      fun h => .inl (hs.mem_quits (by simp [hd]) (by simp [hd]) (hq.2 ▸ h))
  | @storeQuit i l hd hw hl =>
    have hq : l.pc = (s.worker i).loop.pc ∧ l.quit = true := by cases hl; exact ⟨rfl, rfl⟩
    exact hs.quitWithin (by rw [hd]; rfl) (by rw [hd]; rfl) rfl rfl hq.1 (fun _ => hq.2)
      fun _ => .inr (.inl rfl)
  | @checkThread i l hd hw hl =>
    have hq : l.pc = (s.worker i).loop.pc ∧ l.quit = (s.worker i).loop.quit := by
      cases hl; exact ⟨rfl, rfl⟩
    exact hs.quitWithin (by rw [hd]; rfl) (by rw [hd]; rfl) rfl rfl hq.1 (fun h => hq.2.trans h)
      fun _ => .inr (.inr rfl)
  | @wakeup i l hd hw hl =>
    have hq : l.pc = (s.worker i).loop.pc ∧ l.quit = (s.worker i).loop.quit := by
      cases hl; exact ⟨rfl, rfl⟩
    refine hs.quitStep (by rw [hd]; rfl) hq.1 (fun h => hq.2.trans h) quitFrom_ne
      (fun j hj k hk => ?_) (by simp) (fun _ => .inl (by simp)) (fun j hj => by simp [hj])
    rw [index_quitFrom hk]
    rcases List.mem_append.1 hj with hj | hj
    · exact (hs.bound j hj i (by rw [hd]; rfl)).trans (Nat.lt_succ_self i)
    · rw [List.mem_singleton.1 hj]; exact Nat.lt_succ_self i
  | @join i is hd hw =>
    exact hs.dtorMove (hs.returned (by simp [hd])) (by simp [hd]) (by simp [hd]) (by simp)
      (by simp [DtorPc.index]) (by simp [DtorPc.target])
  | finish hd =>
    exact hs.dtorMove (hs.returned (by simp [hd])) (by simp [hd]) (by simp [hd]) (by simp)
      (by simp [DtorPc.index]) (by simp [DtorPc.target])

theorem Inv.of_start : Inv (start n) where
  early _ := rfl
  fresh _ := rfl
  bound _ h := absurd h List.not_mem_nil
  published _ h := by cases h
  slot _ := rfl
  looping _ h := by cases h
  left _ h := by cases h
  asked _ h := by cases h
  parked _ _ := rfl

theorem Inv.of_reachable {C : TcpServerThreaded → Label → Prop} (hr : (system n).ReachableIf C s) :
    Inv s :=
  hr.invariant (fun s (h : s = start n) => h ▸ .of_start) fun _ _ _ hs _ h => hs.step (.of_step h)

/-! ### Quit requests -/

/-- The destructor waits for a worker that is in `loop()` with `quit_ == false`, though `quit()` on
its loop has returned. -/
def LostQuit (s : TcpServerThreaded) : Prop :=
  ∃ i is, s.dtor = .joining (i :: is) ∧ i ∈ s.quits ∧ (s.worker i).pc = .looping ∧
    (s.worker i).loop.quit = false

/-- The starting thread waits for a worker that has published its loop and notified. -/
def Stranded (s : TcpServerThreaded) : Prop :=
  ∃ i, s.starter = .parked i ∧ (s.worker i).pc.isPublished = true

/-- `quit_ = false` at the start of `loop()` is executed only while `quit_` is false. -/
def Unasked (s : TcpServerThreaded) : Label → Prop
  | .enter i => (s.worker i).loop.quit = false
  | _ => True

instance (s : TcpServerThreaded) : DecidablePred (Unasked s) := fun lab =>
  match lab with
  | .enter i => inferInstanceAs (Decidable ((s.worker i).loop.quit = false))
  | .spawn | .check | .spurious | .emplace | .construct _ | .publish _ | .initCallback _
  | .startServer _ | .use .. | .clear _ | .destroyServer _ | .destroyLoop _ | .destroy | .testSlot
  | .quit | .storeQuit | .checkThread | .wakeup | .join => isTrue trivial

/-- A step that meets the condition does not reset `quit_`. -/
theorem Step.quit_mono (h : Step n s lab s') (hc : Unasked s lab)
    (hq : (s.worker i).loop.quit = true) : (s'.worker i).loop.quit = true := by
  have hset : ∀ {j : ℕ} {l : EventLoop}, ((s.worker j).loop.quit = true → l.quit = true) →
      ((s.setLoop j l).worker i).loop.quit = true := fun hl =>
    setLoop_loop (P := fun e e' => e.quit = true → e'.quit = true) hl (fun _ => id) i hq
  cases h with
  | @enter j l hw hl =>
    have hne : i ≠ j := by rintro rfl; exact absurd hc (by simp [Unasked, hq])
    simpa [setLoop_worker_of_ne hne] using hq
  | use hu hw hl =>
    rw [goto_loop]
    exact hset fun h => (quit_eq_of_use hu hl).trans h
  | quit hd hw hl | checkThread hd hw hl | wakeup hd hw hl =>
    exact hset fun h => by cases hl; exact h
  | storeQuit hd hw hl => exact hset fun _ => by cases hl; rfl
  | found | park | spurious | emplace | destroy | hold | skip | join | finish => exact hq
  | spawn | move | publish | clear => simpa using hq

/-- A loop is asked to quit by `quit_ = true`. -/
theorem Step.asked (h : Step n s lab s') (ha : s'.Asked i) :
    s.Asked i ∨ (s'.worker i).loop.quit = true := by
  cases h with
  | storeQuit hd hw hl =>
    rcases ha with ha | ha | ha
    · exact .inl (.inl ha)
    · cases ha
      refine .inr ?_
      cases hl
      simp
    · cases ha
  | checkThread hd hw hl =>
    refine .inl ?_
    rcases ha with ha | ha | ha
    · exact .inl ha
    · cases ha
    · cases ha; exact .inr (.inl hd)
  | wakeup hd hw hl =>
    refine .inl ?_
    rcases ha with ha | ha | ha
    · rcases List.mem_append.1 ha with ha | ha
      · exact .inl ha
      · rw [List.mem_singleton.1 ha]; exact .inr (.inr hd)
    · simp at ha
    · simp at ha
  | found | park | spurious | emplace | spawn | move | publish | enter | use | clear =>
    exact .inl ha
  | destroy | hold | skip | quit | join | finish =>
    refine .inl (.inl ?_)
    rcases ha with ha | ha | ha
    · exact ha
    · simp at ha
    · simp at ha

/-- No quit request has been lost. -/
def Kept (s : TcpServerThreaded) : Prop := ∀ i, s.Asked i → (s.worker i).loop.quit = true

theorem Kept.of_reachable (hr : (system n).ReachableIf Unasked s) : s.Kept := by
  refine hr.invariant (fun s (h : s = start n) => ?_) fun s l s' hs hc h i hi => ?_
  · subst h
    rintro i (h | h | h) <;> cases h
  · exact (Step.asked (.of_step h) hi).elim (fun ha => (Step.of_step h).quit_mono hc (hs i ha)) id

/-- **No quit request is lost.**  In no run does the starting thread wait for a worker that has
published its loop; and in every run in which `loop()` is entered only while `quit_` is false, the
destructor never waits for a worker whose `quit_` is false again. -/
theorem no_lost_quit (hr : (system n).Reachable s) :
    ¬ s.Stranded ∧ ((system n).ReachableIf Unasked s → ¬ s.LostQuit) := by
  constructor
  · rintro ⟨i, hp, hpub⟩
    rw [Inv.of_reachable hr |>.parked i hp] at hpub
    cases hpub
  · rintro hu ⟨i, is, -, hq, -, hf⟩
    rw [Kept.of_reachable hu i (.inl hq)] at hf
    cases hf

/-- A server of two threads is started, and its worker runs up to the call of `loop()`. -/
def startRun : List Label :=
  [.spawn, .construct 1, .check, .publish 1, .check, .emplace, .initCallback 1, .startServer 1]

/-- The destructor up to `join`. -/
def quitRun : List Label :=
  [.destroy, .testSlot, .testSlot, .quit, .storeQuit, .checkThread, .wakeup]

/-- The worker enters `loop()` before the server is destroyed. -/
theorem no_lost_quit_two :
    ∃ s, (system 2).ReachableIf Unasked s ∧ s.dtor = .joining [1] ∧ (s.worker 1).pc = .looping ∧
      ¬ s.Stranded ∧ ¬ s.LostQuit := by
  obtain ⟨s, hr, hd, hw⟩ := System.exists_reachableIf (S := system 2) (C := Unasked) (s := start 2)
    (P := fun s => s.dtor = .joining [1] ∧ (s.worker 1).pc = .looping)
    (w := startRun ++ [.enter 1] ++ quitRun) rfl (by decide +kernel)
  obtain ⟨hstranded, hlost⟩ := no_lost_quit (hr.mono fun _ _ _ => trivial)
  exact ⟨s, hr, hd, hw, hstranded, hlost hr⟩

/-- The worker enters `loop()` behind `quit()`, and the destructor waits for it. -/
theorem lost_quit : ∃ s, (system 2).Reachable s ∧ s.LostQuit := by
  have hrun : ((system 2).exec (start 2) (startRun ++ quitRun ++ [.enter 1])).Leads fun s =>
      s.dtor = .joining [1] ∧ 1 ∈ s.quits ∧ (s.worker 1).pc = .looping ∧
        (s.worker 1).loop.quit = false := by decide +kernel
  obtain ⟨s, hs, h⟩ := hrun
  exact ⟨s, System.reachable_of_exec rfl hs, 1, [], h⟩

end Leven.TcpServerThreaded
