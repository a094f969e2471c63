import Leven.TcpConnection.Run

/-!
# The outgoing byte stream

* `issued`, `executed`, `waiting`: the calls of `send` of one thread, those whose `sendInLoop`
  has run, and those whose closure is still queued;
* `Order`: the calls of a thread are executed in the order of the thread, and a closure of
  `sendInLoop` never belongs to the loop thread;
* `stream_intact`: while the connection is not disconnected, what the kernel has accepted and
  what waits in the output buffer is the concatenation of the payloads, in execution order.
-/

namespace Leven

open Transition

/-- The calls of `send` of thread `t`: number and payload. -/
def issued (t : Pid) (l : List Event) : List (ℕ × Bytes) :=
  l.filterMap fun
    | .send u k data => if u = t then some (k, data) else none
    | _ => none

/-- The calls of `send` of thread `t` whose `sendInLoop` has run. -/
def executed (t : Pid) (l : List Event) : List (ℕ × Bytes) :=
  l.filterMap fun
    | .sendInLoop u k data => if u = t then some (k, data) else none
    | _ => none

/-- The calls of `send` of thread `t` whose closure is queued. -/
def waiting (t : Pid) (js : List Job) : List (ℕ × Bytes) :=
  js.filterMap fun
    | .sendInLoop u k data => if u = t then some (k, data) else none
    | _ => none

section Lists

variable {t : Pid} {l m : List Event} {js ks : List Job}

@[simp] theorem issued_append : issued t (l ++ m) = issued t l ++ issued t m := by simp [issued]

@[simp] theorem executed_append : executed t (l ++ m) = executed t l ++ executed t m := by
  simp [executed]

@[simp] theorem waiting_append : waiting t (js ++ ks) = waiting t js ++ waiting t ks := by
  simp [waiting]

@[simp] theorem issued_send {u : Pid} {k : ℕ} {d : Bytes} :
    issued t (.send u k d :: l) = (if u = t then [(k, d)] else []) ++ issued t l := by
  by_cases h : u = t <;> simp [issued, h]

@[simp] theorem issued_sendInLoop {u : Pid} {k : ℕ} {d : Bytes} :
    issued t (.sendInLoop u k d :: l) = issued t l := rfl

@[simp] theorem issued_queueInLoop {j : Job} : issued t (.queueInLoop j :: l) = issued t l := rfl

@[simp] theorem executed_send {u : Pid} {k : ℕ} {d : Bytes} :
    executed t (.send u k d :: l) = executed t l := rfl

@[simp] theorem executed_sendInLoop {u : Pid} {k : ℕ} {d : Bytes} :
    executed t (.sendInLoop u k d :: l) = (if u = t then [(k, d)] else []) ++ executed t l := by
  by_cases h : u = t <;> simp [executed, h]

@[simp] theorem executed_queueInLoop {j : Job} :
    executed t (.queueInLoop j :: l) = executed t l := rfl

@[simp] theorem waiting_sendInLoop {u : Pid} {k : ℕ} {d : Bytes} :
    waiting t (.sendInLoop u k d :: js) = (if u = t then [(k, d)] else []) ++ waiting t js := by
  by_cases h : u = t <;> simp [waiting, h]

@[simp] theorem issued_nil : issued t [] = [] := rfl

@[simp] theorem executed_nil : executed t [] = [] := rfl

@[simp] theorem waiting_nil : waiting t [] = [] := rfl

/-- What `f` tells of one element only. -/
theorem mem_filterMap_of_iff {α β : Type*} {f : α → Option β} {as : List α} {a : α} {b : β}
    (h : ∀ x, f x = some b ↔ x = a) : b ∈ as.filterMap f ↔ a ∈ as := by
  simp only [List.mem_filterMap, h, exists_eq_right]

theorem mem_issued {k : ℕ} {d : Bytes} : (k, d) ∈ issued t l ↔ .send t k d ∈ l :=
  mem_filterMap_of_iff fun e => by cases e <;> simp

theorem mem_executed {k : ℕ} {d : Bytes} : (k, d) ∈ executed t l ↔ .sendInLoop t k d ∈ l :=
  mem_filterMap_of_iff fun e => by cases e <;> simp

theorem mem_waiting {k : ℕ} {d : Bytes} : (k, d) ∈ waiting t js ↔ .sendInLoop t k d ∈ js :=
  mem_filterMap_of_iff fun j => by cases j <;> simp

/-- Neither a call of `send`, nor its execution, nor its closure. -/
@[simp] def Event.noSend : Event → Bool
  | .send .. | .sendInLoop .. | .queueInLoop (.sendInLoop ..) => false
  | _ => true

theorem noSend_facts (hl : ∀ e ∈ l, e.noSend = true) :
    issued t l = [] ∧ executed t l = [] ∧ waiting t (queued l) = [] := by
  induction l with
  | nil => exact ⟨rfl, rfl, rfl⟩
  | cons e l ih =>
    obtain ⟨he, hl⟩ := List.forall_mem_cons.1 hl
    obtain ⟨h1, h2, h3⟩ := ih hl
    cases e with
    | queueInLoop j => cases j <;> first | exact ⟨h1, h2, h3⟩ | simp at he
    | _ => first | exact ⟨h1, h2, h3⟩ | simp at he

theorem noSend_of_ofSend {e : Event} (h : e.ofSend = true) : e.noSend = true := by
  cases e with
  | queueInLoop j => cases j <;> first | rfl | simp at h
  | _ => first | rfl | simp at h

theorem noSend_of_ofCall {u : Pid} {e : Event} (h : e.ofCall u = true) : e.noSend = true := by
  cases e with
  | queueInLoop j => cases j <;> first | rfl | simp at h
  | _ => first | rfl | simp at h

theorem noSend_of_ofJob {e : Event} (h : e.ofJob = true) : e.noSend = true := by
  cases e <;> first | rfl | simp at h

theorem noSend_of_ofHandler {e : Event} (h : e.ofHandler = true) : e.noSend = true := by
  cases e with
  | queueInLoop j => cases j <;> first | rfl | simp at h
  | _ => first | rfl | simp at h

end Lists

namespace Connection

variable {threadId : Pid} {s s' : Run} {lab : Label} {C : Run → Label → Prop}

/-- The calls of a thread are executed in their order, and the loop thread has none waiting. -/
structure Order (threadId : Pid) (s : Run) : Prop where
  order : ∀ t, issued t s.history = executed t s.history ++ waiting t s.queue
  loop : waiting threadId s.queue = []

/-- Events without a send keep the order. -/
theorem Order.apply {c : TcpConnection} {l : List Event} (hs : Order threadId s)
    (hl : ∀ e ∈ l, e.noSend = true) : Order threadId (s.apply c l) where
  order t := by
    obtain ⟨h1, h2, h3⟩ := noSend_facts (t := t) hl
    simp [h1, h2, h3, hs.order]
  loop := by
    obtain ⟨-, -, h3⟩ := noSend_facts (t := threadId) hl
    simp [h3, hs.loop]

theorem Order.of_init (h : Init s) : Order threadId s := by
  obtain ⟨k, fd, writeComplete, highWater, mark, -, rfl⟩ := init_iff.1 h
  exact ⟨fun t => rfl, rfl⟩

/-- A call of `send` is executed at once by the loop thread, and queued by any other thread. -/
theorem Order.send {t : Pid} {k : ℕ} {d : Bytes} {w : WriteResult} {c : TcpConnection}
    {l : List Event} (hs : Order threadId s)
    (h : s.conn.send (t = threadId) t k d w = .ok (c, l)) : Order threadId (s.apply c l) := by
  obtain ⟨-, -, rfl⟩ | ⟨-, ht, m, -, rfl, hm⟩ | ⟨-, ht, -, rfl⟩ := TcpConnection.send_cases h
  · exact hs.apply (by simp)
  · -- the loop thread has nothing waiting that this call could overtake
    have ht : t = threadId := by simpa using ht
    subst ht
    have hm' : ∀ e ∈ m, e.noSend = true := fun e he => noSend_of_ofSend (hm e he)
    refine ⟨fun u => ?_, ?_⟩
    · obtain ⟨h1, h2, h3⟩ := noSend_facts (t := u) hm'
      by_cases hu : t = u
      · subst hu
        simp [h1, h2, h3, hs.loop, hs.order t]
      · simp [h1, h2, h3, hu, hs.order u]
    · obtain ⟨-, -, h3⟩ := noSend_facts (t := t) hm'
      simp [h3, hs.loop]
  · have ht : t ≠ threadId := by simpa using ht
    refine ⟨fun u => ?_, ?_⟩
    · by_cases hu : t = u <;> simp [hu, hs.order u]
    · simp [ht, hs.loop]

theorem Order.runJob {j : Job} {js : List Job} {w : WriteResult} {c : TcpConnection}
    {l : List Event} (hs : Order threadId s) (hj : s.jobs = j :: js)
    (h : s.conn.runJob j w = .ok (c, l)) : Order threadId ({ s with jobs := js }.apply c l) := by
  have hq : s.queue = [j] ++ (js ++ s.pendingJobs) := by simp [Run.queue, hj]
  have hloop := hs.loop
  rw [hq, waiting_append, List.append_eq_nil_iff] at hloop
  by_cases hsend : ∃ u i d, j = .sendInLoop u i d
  · -- the closure leaves the queue and its payload joins the executed ones
    obtain ⟨v, i, d, rfl⟩ := hsend
    obtain ⟨m, rfl, hm⟩ := TcpConnection.sendInLoop_events h
    have hm' : ∀ e ∈ m, e.noSend = true := fun e he => noSend_of_ofSend (hm e he)
    refine ⟨fun u => ?_, ?_⟩
    · obtain ⟨h1, h2, h3⟩ := noSend_facts (t := u) hm'
      have ho := hs.order u
      rw [hq] at ho
      by_cases hu : v = u <;> simpa [h1, h2, h3, hu, Run.queue] using ho
    · obtain ⟨-, -, h3⟩ := noSend_facts (t := threadId) hm'
      simpa [h3, Run.queue] using hloop.2
  · push Not at hsend
    have hl : ∀ e ∈ l, e.noSend = true := fun e he =>
      noSend_of_ofJob (TcpConnection.runJob_events hsend h e he)
    have hj0 : ∀ u, waiting u [j] = [] := fun u => by
      cases j <;> first | rfl | exact absurd rfl (hsend _ _ _)
    refine Order.apply ⟨fun u => ?_, hloop.2⟩ hl
    have ho := hs.order u
    rwa [hq, waiting_append, hj0, List.nil_append] at ho

theorem Order.step (hi : Inv s) (hs : Order threadId s) (h : Step threadId s lab s') :
    Order threadId s' := by
  cases h with
  | @call t op c l ht h =>
    have hs' : Order threadId { s with calls := s.calls + 1 } := ⟨hs.order, hs.loop⟩
    by_cases hop : ∃ d w, op = .send d w
    · obtain ⟨d, w, rfl⟩ := hop
      exact hs'.send h
    · push Not at hop
      exact hs'.apply fun e he => noSend_of_ofCall (TcpConnection.call_events hop h e he)
  | idle hp => exact ⟨by simpa [issued, executed, Run.queue] using hs.order, hs.loop⟩
  | poll hp hm =>
    exact ⟨by simpa [issued, executed, Run.queue, Run.setRevents] using hs.order, hs.loop⟩
  | @handle r w st c l hp h =>
    have hs' : Order threadId { s with phase := .dispatch st.next } := ⟨hs.order, hs.loop⟩
    exact hs'.apply fun e he => noSend_of_ofHandler (TcpConnection.handleStage_events h e he)
  | swap hp =>
    have hb : s.jobs = [] := hi.batch (by simp [hp])
    exact ⟨by simpa [Run.queue, hb] using hs.order, by simpa [Run.queue, hb] using hs.loop⟩
  | runJob hp hj h => exact hs.runJob hj h
  | endJobs hp hj => exact ⟨hs.order, hs.loop⟩

theorem Order.of_reachable (hr : (system threadId).ReachableIf C s) : Order threadId s :=
  hr.invariant_of (fun _ => Inv.of_reachable) (fun _ => Order.of_init)
    fun _ _ _ hi hs _ h => hs.step hi (.of_step h)

/-! ### The stream -/

/-- The write of a `sendInLoop` would fail with `EPIPE` or `ECONNRESET`. -/
def Label.isFault : Label → Bool
  | .call _ (.send _ (.error e)) | .runJob (.error e) => decide e.isFault
  | _ => false

/-- No write of `sendInLoop` fails with `EPIPE` or `ECONNRESET`. -/
def NoFault (_ : Run) (lab : Label) : Prop := lab.isFault = false

instance (s : Run) (lab : Label) : Decidable (NoFault s lab) := inferInstanceAs (Decidable (_ = _))

end Connection

namespace TcpConnection

variable {c c' : TcpConnection} {l : List Event} {t : Pid} {k : ℕ} {d : Bytes} {w : WriteResult}

/-- A payload is given up only when the write fails with `EPIPE` or `ECONNRESET`. -/
theorem sendInLoop_faultError (hw : ∀ e, w = .error e → ¬ e.isFault)
    (h : c.sendInLoop t k d w = .ok (c', l)) : .faultError ∉ l := by
  unfold sendInLoop at h
  split_ifs at h with hd
  · cases h; simp
  cases hwd : c.writeDirect d w with
  | error a => simp [hwd] at h
  | ok p =>
    obtain ⟨n, faultError, m⟩ := p
    have hm : .faultError ∉ m := by
      unfold writeDirect at hwd
      split_ifs at hwd with h1 h2
      · cases hwd; simp
      · cases w with
        | error e => dsimp only at hwd; rw [if_neg (hw e rfl)] at hwd; cases hwd; simp
        | wrote n => dsimp only at hwd; split_ifs at hwd <;> cases hwd <;> simp
    simp only [hwd] at h
    split_ifs at h with hr
    · obtain ⟨m', hb, rfl⟩ := Result.after_eq_ok.1 h
      obtain ⟨-, rfl⟩ := bufferRest_cases hb
      rcases highWater_cases (d.drop n) c with he | ⟨len, he⟩ <;> simp [he, hm]
    · cases h; simp [hm]

end TcpConnection

namespace Connection

variable {threadId : Pid} {s s' : Run} {lab : Label} {a : Assertion} {t : Pid} {k : ℕ} {d : Bytes}

theorem faultError_notMem (hf : .faultError ∉ s.history) (hc : NoFault s lab)
    (h : Step threadId s lab s') : .faultError ∉ s'.history := by
  cases h with
  | @call t op c l ht h =>
    have hl : .faultError ∉ l := by
      cases op with
      | send d w =>
        obtain ⟨-, -, rfl⟩ | ⟨-, -, m, hm, rfl, -⟩ | ⟨-, -, -, rfl⟩ := TcpConnection.send_cases h
        · simp
        · have hw : ∀ e, w = .error e → ¬ e.isFault := by
            rintro e rfl
            simpa [NoFault, Label.isFault] using hc
          simpa using TcpConnection.sendInLoop_faultError hw hm
        · simp
      | _ => exact fun he => by simpa using TcpConnection.call_events (by simp) h _ he
    simpa [hf] using hl
  | idle hp => simpa using hf
  | poll hp hm => simpa [Run.setRevents] using hf
  | @handle r w st c l hp h =>
    have hl : .faultError ∉ l := fun he => by simpa using TcpConnection.handleStage_events h _ he
    simpa [hf] using hl
  | swap hp => exact hf
  | @runJob w j js c l hp hj h =>
    have hl : .faultError ∉ l := by
      cases j with
      | sendInLoop u i d =>
        have hw : ∀ e, w = .error e → ¬ e.isFault := by
          rintro e rfl
          simpa [NoFault, Label.isFault] using hc
        exact TcpConnection.sendInLoop_faultError hw h
      | _ => exact fun he => by simpa using TcpConnection.runJob_events (by simp) h _ he
    simpa [hf] using hl
  | endJobs hp hj => exact hf

theorem NoFault.of_reachable (hr : (system threadId).ReachableIf NoFault s) :
    .faultError ∉ s.history := by
  refine hr.invariant (I := fun s => .faultError ∉ s.history) (fun s h => ?_)
    fun s lab s' hs hc h => faultError_notMem hs hc (.of_step h)
  obtain ⟨k, fd, writeComplete, highWater, mark, -, rfl⟩ := init_iff.1 h
  simp [Run.start]

/-- **The outgoing byte stream.**  In every run in which no write of `sendInLoop` fails with
`EPIPE` or `ECONNRESET`: while the connection is not disconnected, the bytes the kernel has
accepted and the output buffer are together the concatenation of the payloads of `sendInLoop` in
the order of execution, each payload is contiguous in it, and the channel is writing exactly while
the output buffer is not empty; the payloads of a thread are executed in the order of its calls;
and the assertions of `sendInLoop` and of `handleWrite` do not fail. -/
theorem stream_intact (hr : (system threadId).ReachableIf NoFault s) :
    (s.conn.state ≠ .kDisconnected →
      accepted s.history ++ s.conn.outputBuffer = sent s.history ∧
      (∀ h₁ h₂ t k d, s.history = h₁ ++ .sendInLoop t k d :: h₂ →
        accepted s.history ++ s.conn.outputBuffer = sent h₁ ++ d ++ sent h₂) ∧
      (s.conn.channel.isWriting ↔ s.conn.outputBuffer ≠ [])) ∧
    (∀ t, executed t s.history <+: issued t s.history) ∧
    ∀ lab a, (system threadId).step s lab = .failed a →
      a ≠ .sendInLoop ∧ a ≠ .handleWriteReadable ∧ a ≠ .handleWriteWriting := by
  have hi : Inv s := .of_reachable hr
  refine ⟨fun hd => ?_, fun t => ?_, fun lab a h => ?_⟩
  · have hst := hi.stream hd (NoFault.of_reachable hr)
    refine ⟨hst, fun h₁ h₂ t k d he => ?_, (hi.sound hd).2.2⟩
    rw [hst, he]
    simp
  · rw [(Order.of_reachable hr).order t]
    exact List.prefix_append _ _
  · obtain ⟨-, rfl | rfl | rfl⟩ := hi.failed h <;> simp

/-- Thread 2 and the loop thread 1 send; the kernel takes the payload of thread 2 in two pieces. -/
theorem stream_intact_twoThreads :
    ∃ s, (system 1).ReachableIf NoFault s ∧ s.conn.state = .kConnected ∧
      accepted s.history = [9, 1, 2, 3] ∧
      accepted s.history ++ s.conn.outputBuffer = sent s.history := by
  obtain ⟨s, hr, hd, ha⟩ := System.exists_reachableIf (S := system 1) (C := NoFault)
    (P := fun s => s.conn.state = .kConnected ∧ accepted s.history = [9, 1, 2, 3])
    (w := [.call 2 (.send [1, 2, 3] (.wrote 0)), .call 1 (.send [9] (.wrote 1)), .swap,
      .runJob (.wrote 2), .runJob (.wrote 0), .endJobs, .poll (some {.epollout}),
      .handle (.data []) (.wrote 0), .handle (.data []) (.wrote 0), .handle (.data []) (.wrote 0),
      .handle (.data []) (.wrote 1)])
    (start_init 5 true false 0) (by decide +kernel)
  exact ⟨s, hr, hd, ha, ((stream_intact hr).1 (by simp [hd])).1⟩

end Connection
end Leven
