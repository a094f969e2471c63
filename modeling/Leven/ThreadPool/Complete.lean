import Leven.ThreadPool.Stop

/-!
# The tasks accepted before `stop()`

A worker leaves at its first test of `running_` behind `stop()`, whatever is left in `taskQueue_`.

* `Accepted`: the tasks accepted are a prefix of the tasks pushed;
* `Emptied`: the last worker leaves no task in the queue that was accepted before `stop()`;
* `ran_perm`: what the workers that have left were handed has been executed;
* `Inline`: the pool without threads;
* `completes`, `incomplete`: the runs whose steps meet the condition, and a run that loses a task.
-/

namespace Leven.ThreadPool

open Transition

variable {numThread maxQueueSize i : ℕ} {t : Pid} {o : Option ℕ} {s s' : ThreadPool} {lab : Label}
  {c : Section}

/-! ### The tasks accepted before `stop()` -/

/-- The task pushed whose `runTask` has not returned. -/
def Section.pushed : Section → Option (Option ℕ)
  | .runNotify _ task => some task
  | _ => none

/-- The tasks accepted are those pushed, in order, and those due were accepted first. -/
structure Accepted (s : ThreadPool) : Prop where
  order : s.pushed = s.accepted ++ (s.mutex.bind Section.pushed).toList
  due : s.due <+: s.accepted

theorem Accepted.of_eq (hs : Accepted s) (hp : s'.pushed = s.pushed) (ha : s'.accepted = s.accepted)
    (hm : s'.mutex.bind Section.pushed = s.mutex.bind Section.pushed) (hd : s'.due = s.due) :
    Accepted s' := ⟨by rw [hp, ha, hm]; exact hs.order, by rw [hd, ha]; exact hs.due⟩

theorem Accepted.step (hn : 1 ≤ numThread) (hs : Accepted s)
    (h : Step numThread maxQueueSize s lab s') : Accepted s' := by
  cases h with
  | critical h =>
    cases h with
    | runPush hm =>
      refine ⟨?_, hs.due⟩
      show s.pushed ++ [_] = s.accepted ++ [_]
      rw [hs.order, hm]
      simp [Section.pushed]
    | runNotify hm =>
      refine ⟨?_, hs.due.trans (List.prefix_append _ _)⟩
      show s.pushed = s.accepted ++ [_] ++ []
      rw [hs.order, hm, List.append_nil]
      rfl
    | takeEmpty hm | takeReady hm | takeWait hm | takeNone hm | takePop hm | takeNotify hm
    | runFull hm | runRoom hm | runWait hm | stopNotify hm =>
      exact hs.of_eq rfl rfl (by rw [hm]; rfl) rfl
  | runInline _ _ h0 => omega
  | stop => exact ⟨hs.order, List.prefix_rfl⟩
  | lockProducer _ hm | resumeProducer _ hm | lockWorker _ hm | resumeWorker _ hm
  | lockStopper _ hm => exact hs.of_eq rfl rfl (by rw [hm]; rfl) rfl
  | _ => exact hs.of_eq rfl rfl rfl rfl

theorem Accepted.of_reachable {C : ThreadPool → Label → Prop} (hn : 1 ≤ numThread)
    (hr : (system numThread maxQueueSize).ReachableIf C s) : Accepted s := by
  refine hr.invariant (fun s (h : s = new numThread) => ?_)
    fun _ _ _ hs _ h => Accepted.step hn hs (.of_step h)
  subst h
  exact ⟨rfl, List.prefix_rfl⟩

/-- When the last worker leaves, it has been handed every task that was accepted before `stop()`. -/
def Emptied (numThread : ℕ) (s : ThreadPool) (lab : Label) : Prop :=
  ∀ i ∈ lab.tested, s.running = false → (∀ j < numThread, j ≠ i → s.worker j = .exited) →
    s.due.length ≤ s.handed.length

instance (s : ThreadPool) : DecidablePred (Emptied numThread s) := fun lab =>
  inferInstanceAs (Decidable (∀ i ∈ lab.tested, _ → _ → _ ≤ _))

/-- When no worker is left, the tasks due have been handed out. -/
def Handed (numThread : ℕ) (s : ThreadPool) : Prop :=
  s.AllExited numThread → s.due.length ≤ s.handed.length

theorem Handed.step (hn : 1 ≤ numThread) (hs : Handed numThread s) (hend : Ended numThread s)
    (hc : Emptied numThread s lab) (h : Step numThread maxQueueSize s lab s') :
    Handed numThread s' := by
  intro he
  rcases allExited_of_step h he with he | ⟨i, hi, rfl, hr, hj⟩
  · have hdue := hs he
    cases h with
    | stop _ hr => rw [hend.stopped 0 hn (he 0 hn)] at hr; cases hr
    | critical h =>
      cases h with
      | takePop hm =>
        show s.due.length ≤ (s.handed ++ [_]).length
        rw [List.length_append]
        omega
      | _ => exact hdue
    | _ => exact hdue
  · have hdue := hc i rfl hr hj
    cases h with
    | goOn | leave => exact hdue

theorem Handed.of_reachable (hn : 1 ≤ numThread)
    (hr : (system numThread maxQueueSize).ReachableIf (Emptied numThread) s) :
    Handed numThread s := by
  refine hr.invariant_of (J := fun s => Ended numThread s) (fun _ hr => .of_reachable hr)
    (fun s (h : s = new numThread) _ => ?_)
    fun _ _ _ hend hs hc h => Handed.step hn hs hend hc (.of_step h)
  subst h
  exact Nat.zero_le _

/-- A pair occurs as often as its second component among the pairs with its first one. -/
theorem count_eq_count_filter {α β : Type*} [DecidableEq α] [DecidableEq β] (l : List (α × β))
    (a : α) (b : β) : l.count (a, b) = ((l.filter (·.1 = a)).map Prod.snd).count b := by
  induction l with
  | nil => rfl
  | cons e l ih =>
    obtain ⟨a', b'⟩ := e
    by_cases ha : a' = a
    · subst ha
      by_cases hb : b' = b
      · subst hb; simpa using ih
      · simpa [hb] using ih
    · simpa [ha] using ih

/-- The tasks handed to the workers, each with its thread. -/
def handedTasks (s : ThreadPool) : List (PoolThread × ℕ) :=
  s.handed.filterMap fun e => e.2.map (.worker e.1, ·)

theorem handedTasks_snd : s.handedTasks.map Prod.snd = (s.handed.map Prod.snd).filterMap id := by
  unfold handedTasks
  induction s.handed with
  | nil => rfl
  | cons e l ih =>
    obtain ⟨i, task⟩ := e
    cases task <;> simpa using ih

theorem handedTasks_worker (i : ℕ) :
    (s.handedTasks.filter (·.1 = .worker i)).map Prod.snd = s.handedTo i := by
  unfold handedTasks handedTo
  induction s.handed with
  | nil => rfl
  | cons e l ih =>
    obtain ⟨j, task⟩ := e
    cases task with
    | none => by_cases hj : j = i <;> simpa [hj] using ih
    | some k => by_cases hj : j = i <;> simpa [hj] using ih

/-- When no worker has a task in its hands, the tasks executed are those handed out. -/
theorem ran_perm_of_inHand (hn : 1 ≤ numThread) {C : ThreadPool → Label → Prop}
    (hr : (system numThread maxQueueSize).ReachableIf C s) (hh : ∀ i, s.inHand i = []) :
    s.handedTasks.Perm s.ran := by
  rw [List.perm_iff_count]
  rintro ⟨th, k⟩
  rw [count_eq_count_filter, count_eq_count_filter]
  cases th with
  | worker i =>
    have hi := Hands.of_reachable hr i
    rw [hh] at hi
    rw [handedTasks_worker, hi]
    simp [ranBy]
  | producer t | stopper =>
    have hl : ∀ e ∈ s.handedTasks, ∃ i, e.1 = .worker i := by
      intro e h
      obtain ⟨⟨i, task⟩, -, h⟩ := List.mem_filterMap.1 h
      obtain ⟨k, -, rfl⟩ := Option.map_eq_some_iff.1 h
      exact ⟨i, rfl⟩
    have hr' := ran_of_reachable hn hr
    rw [List.filter_eq_nil_iff.2, List.filter_eq_nil_iff.2]
    · intro e h
      obtain ⟨i, hi⟩ := hr' e h
      simp [hi]
    · intro e h
      obtain ⟨i, hi⟩ := hl e h
      simp [hi]

/-- When all workers have left, the tasks executed are those handed out. -/
theorem ran_perm (hn : 1 ≤ numThread) {C : ThreadPool → Label → Prop}
    (hr : (system numThread maxQueueSize).ReachableIf C s) (he : s.AllExited numThread) :
    s.handedTasks.Perm s.ran := by
  have ho : Owned s := .of_reachable hr
  have hend : Ended numThread s := .of_reachable hr
  refine ran_perm_of_inHand hn hr fun i => ?_
  have hw : s.worker i = .exited := by
    rcases lt_or_ge i numThread with hi | hi
    · exact he i hi
    · exact hend.absent i hi
  -- a worker that has left has nothing in its hands
  rw [inHand, hw, ho.taken_eq_none (by simp [hw])]
  rfl

/-! ### A pool without threads -/

/-- In a pool without threads the callers of `runTask` execute their tasks. -/
structure Inline (s : ThreadPool) : Prop where
  worker : ∀ i, s.worker i = .exited
  producer : ∀ t, s.producer t = .idle
  mutex : ∀ c, s.mutex = some c → c = .stopNotify
  order : s.ran.map Prod.snd = s.accepted.filterMap id
  due : s.due <+: s.accepted

theorem Inline.step (hs : Inline s) (h : Step 0 maxQueueSize s lab s') : Inline s' := by
  cases h with
  | @runInline _ t task =>
    refine ⟨hs.worker, hs.producer, hs.mutex, ?_, hs.due.trans (List.prefix_append _ _)⟩
    show (s.ran ++ _).map Prod.snd = (s.accepted ++ [task]).filterMap id
    rw [List.map_append, List.filterMap_append, hs.order]
    cases task <;> rfl
  | runTask _ _ h0 => exact absurd rfl h0
  | lockProducer hp | resumeProducer hp => rw [hs.producer] at hp; cases hp
  | initCallback hw | goOn hw | leave hw | lockWorker hw | resumeWorker hw | run hw =>
    rw [hs.worker] at hw; cases hw
  | stop => exact ⟨hs.worker, hs.producer, hs.mutex, hs.order, List.prefix_rfl⟩
  | lockStopper => exact ⟨hs.worker, hs.producer, by rintro c ⟨⟩; rfl, hs.order, hs.due⟩
  | critical h =>
    cases h with
    | stopNotify => exact ⟨hs.worker, hs.producer, by rintro c ⟨⟩, hs.order, hs.due⟩
    | takeEmpty hm | takeReady hm | takeWait hm | takeNone hm | takePop hm | takeNotify hm
    | runFull hm | runRoom hm | runWait hm | runPush hm | runNotify hm => cases hs.mutex _ hm
  | wakeProducer | wakeWorker | stopped | store | join | joined =>
    exact ⟨hs.worker, hs.producer, hs.mutex, hs.order, hs.due⟩

theorem Inline.of_reachable {C : ThreadPool → Label → Prop}
    (hr : (system 0 maxQueueSize).ReachableIf C s) : Inline s := by
  refine hr.invariant (fun s (h : s = new 0) => ?_) fun _ _ _ hs _ h => Inline.step hs (.of_step h)
  subst h
  exact ⟨fun _ => rfl, fun _ => rfl, fun c h => (by cases h), rfl, List.prefix_rfl⟩

/-- **The pool completes what it accepted.**  In every run in which the last worker leaves no task in
the queue that was accepted before `stop()` began, every such task that is not empty has been
executed, as often as it was accepted, when `stop()` returns. -/
theorem completes (hr : (system numThread maxQueueSize).ReachableIf (Emptied numThread) s)
    (hst : s.stopper = .returned) :
    (s.due.filterMap id).Subperm (s.ran.map Prod.snd) := by
  rcases Nat.eq_zero_or_pos numThread with rfl | hn
  · have hs : Inline s := .of_reachable hr
    rw [hs.order]
    exact (hs.due.sublist.filterMap id).subperm
  · have hend : Ended numThread s := .of_reachable hr
    have he := hend.joined hst
    have hacc : Accepted s := .of_reachable hn hr
    have hfifo : Fifo maxQueueSize s := .of_reachable hr
    have hpre : s.due <+: s.handed.map Prod.snd := by
      have hdue : s.due <+: s.pushed := hacc.due.trans ⟨_, hacc.order.symm⟩
      have hhanded : s.handed.map Prod.snd <+: s.pushed := ⟨_, hfifo.order.symm⟩
      refine List.prefix_of_prefix_length_le hdue hhanded ?_
      rw [List.length_map]
      exact Handed.of_reachable hn hr he
    rw [← ((ran_perm hn hr he).map Prod.snd).subperm_left, handedTasks_snd]
    exact (hpre.sublist.filterMap id).subperm

/-- The worker executes the task of thread 5 before it leaves. -/
theorem completes_one :
    ∃ s, (system 1 1).ReachableIf (Emptied 1) s ∧ s.stopper = .returned ∧ s.due = [some 7] ∧
      (s.due.filterMap id).Subperm (s.ran.map Prod.snd) := by
  obtain ⟨s, hr, hst, hd⟩ := System.exists_reachableIf (S := system 1 1) (C := Emptied 1)
    (s := new 1) (P := fun s => s.stopper = .returned ∧ s.due = [some 7])
    (w := pushRun 5 7 ++ [.initCallback 0, .test 0, .lockWorker 0, .critical none, .critical none,
      .critical none] ++ stopRun ++ [.run 0, .test 0, .join, .join]) rfl (by decide +kernel)
  exact ⟨s, hr, hst, hd, completes hr hst⟩

/-- The worker leaves at its first test of `running_`, with the task of thread 5 in the queue. -/
theorem incomplete :
    ∃ s, (system 1 1).Reachable s ∧ s.stopper = .returned ∧ s.due = [some 7] ∧ s.ran = [] := by
  have hrun : ((system 1 1).exec (new 1) (pushRun 5 7 ++ stopRun ++
      [.initCallback 0, .test 0, .join, .join])).Leads fun s =>
        s.stopper = .returned ∧ s.due = [some 7] ∧ s.ran = [] := by
    decide +kernel
  obtain ⟨s, hs, h⟩ := hrun
  exact ⟨s, System.reachable_of_exec rfl hs, h⟩

end Leven.ThreadPool
