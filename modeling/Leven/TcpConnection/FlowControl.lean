import Leven.TcpConnection.Stream

/-!
# Write-complete and high-water-mark jobs

A write-complete job is queued by `sendInLoop` when it writes the whole payload at once, and by
`handleWrite` when it drains the output buffer; a high-water-mark job is queued by `sendInLoop`,
which compares the sizes of the buffer before and after its append with the mark.

* `highWaterMarks l`: the arguments of the high-water-mark jobs among the events `l`;
* `Flow mark c c' l`: what every member function does about the two jobs, with a lemma for each of
  the three kinds of calls;
* `Steady mark`: both callbacks are set and the mark is `mark`;
* `Completed`, `FlowInv`: what of this the histories of runs keep;
* `flowControl_exact`: the notifications are exact.
-/

namespace Leven

open Transition

/-- The arguments of the high-water-mark jobs. -/
def highWaterMarks (l : List Event) : List ℕ :=
  l.filterMap fun
    | .queueInLoop (.highWaterMark len) => some len
    | _ => none

@[simp] theorem highWaterMarks_nil : highWaterMarks [] = [] := rfl

@[simp] theorem highWaterMarks_append (l m : List Event) :
    highWaterMarks (l ++ m) = highWaterMarks l ++ highWaterMarks m := List.filterMap_append

@[simp] theorem highWaterMarks_cons (e : Event) (l : List Event) :
    highWaterMarks (e :: l) =
      (match e with | .queueInLoop (.highWaterMark len) => [len] | _ => []) ++
        highWaterMarks l := by
  cases e with
  | queueInLoop j => cases j <;> rfl
  | _ => rfl

@[simp] theorem mem_highWaterMarks {l : List Event} {len : ℕ} :
    len ∈ highWaterMarks l ↔ .queueInLoop (.highWaterMark len) ∈ l := by
  simp only [highWaterMarks, List.mem_filterMap]
  constructor
  · rintro ⟨e, he, h⟩
    split at h
    · cases h; exact he
    · cases h
  · exact fun h => ⟨_, h, rfl⟩

/-- Events other than the bodies of `sendInLoop`, the written bytes and the two jobs. -/
@[simp] def Event.noFlow : Event → Bool
  | .sendInLoop .. | .write _ => false
  | .queueInLoop .writeComplete | .queueInLoop (.highWaterMark _) => false
  | _ => true

/-- A write-complete job has been queued, and no byte has been written since. -/
def Completed (h : List Event) : Prop :=
  ∃ g g', h = g ++ .queueInLoop .writeComplete :: g' ∧ accepted g' = []

/-- What a member function of a connection with both callbacks does about the jobs. -/
structure Flow (mark : ℕ) (c c' : TcpConnection) (l : List Event) : Prop where
  /-- A high-water-mark job comes with the step across the mark. -/
  crossing : highWaterMarks l =
    if c.outputBuffer.length < mark ∧ mark ≤ c'.outputBuffer.length then [c'.outputBuffer.length]
    else []
  append : highWaterMarks l ≠ [] →
    c.outputBuffer <+: c'.outputBuffer ∧ ∃ t k d, .sendInLoop t k d ∈ l
  /-- A write-complete job comes with the empty buffer, as the last event. -/
  complete : .queueInLoop .writeComplete ∈ l →
    c'.outputBuffer = [] ∧ ∃ g, l = g ++ [.queueInLoop .writeComplete]
  moment : Whenever (· = .queueInLoop .writeComplete)
    (fun g => c.state ≠ .kDisconnected ∧ accepted g = c.outputBuffer ++ sent g) l
  /-- Without a write-complete job the buffer is empty only if it was, and nothing was sent. -/
  idle : .queueInLoop .writeComplete ∉ l → c'.outputBuffer = [] → c.outputBuffer = [] ∧
    accepted l = [] ∧ ∀ t k d, .sendInLoop t k d ∈ l → d = [] ∨ c.state = .kDisconnected

section Flow

variable {mark : ℕ} {c c' : TcpConnection} {l m : List Event} {b : Bool} {t : Pid} {k : ℕ}
  {d : Bytes} {r : ReadResult} {w : WriteResult}

theorem noFlow_facts (hl : ∀ e ∈ l, e.noFlow = true) :
    highWaterMarks l = [] ∧ .queueInLoop .writeComplete ∉ l ∧ accepted l = [] ∧ sent l = [] ∧
      ∀ t k d, .sendInLoop t k d ∉ l := by
  refine ⟨?_, fun h => by simpa using hl _ h, ?_, ?_, fun t k d h => by simpa using hl _ h⟩
  · refine List.filterMap_eq_nil_iff.2 fun e he => ?_
    split
    · have := hl _ he
      simp at this
    · rfl
  · refine List.flatMap_eq_nil_iff.2 fun e he => ?_
    split
    · have := hl _ he
      simp at this
    · rfl
  · refine List.flatMap_eq_nil_iff.2 fun e he => ?_
    split
    · have := hl _ he
      simp at this
    · rfl

theorem Completed.append (h : Completed l) (hm : accepted m = []) : Completed (l ++ m) := by
  obtain ⟨g, g', rfl, hg⟩ := h
  refine ⟨g, g' ++ m, by simp, ?_⟩
  rw [accepted_append, hg, hm, List.append_nil]

/-- Events that neither write nor send leave the output buffer as it is. -/
theorem Flow.same (hl : ∀ e ∈ l, e.noFlow = true) (hb : c'.outputBuffer = c.outputBuffer) :
    Flow mark c c' l := by
  obtain ⟨h1, h2, h3, -, h5⟩ := noFlow_facts hl
  constructor
  · rw [h1, hb, if_neg (by omega)]
  · intro h
    exact absurd h1 h
  · intro h
    exact absurd h h2
  · exact whenever_of_forall_not fun x hx he => h2 (he ▸ hx)
  · intro _ hb'
    exact ⟨hb ▸ hb', h3, fun t k d h => absurd h (h5 t k d)⟩

/-- Such events may come before a call. -/
theorem Flow.after (hm : ∀ e ∈ m, e.noFlow = true) (h : Flow mark c c' l) :
    Flow mark c c' (m ++ l) := by
  obtain ⟨h1, h2, h3, h4, h5⟩ := noFlow_facts hm
  constructor
  · rw [highWaterMarks_append, h1]
    exact h.crossing
  · rw [highWaterMarks_append, h1]
    intro hne
    obtain ⟨hb, t, k, d, hs⟩ := h.append hne
    exact ⟨hb, t, k, d, List.mem_append_right _ hs⟩
  · intro hw
    obtain ⟨hb, g, rfl⟩ := h.complete ((List.mem_append.1 hw).resolve_left h2)
    exact ⟨hb, m ++ g, (List.append_assoc ..).symm⟩
  · refine whenever_append.2 ⟨whenever_of_forall_not fun x hx he => h2 (he ▸ hx), ?_⟩
    simpa [h3, h4] using h.moment
  · intro hw hb
    obtain ⟨h6, h7, h8⟩ := h.idle (fun hmem => hw (List.mem_append_right _ hmem)) hb
    refine ⟨h6, by rw [accepted_append, h3, h7]; rfl, fun t k d hs => ?_⟩
    exact h8 t k d ((List.mem_append.1 hs).resolve_left (h5 t k d))

namespace TcpConnection

/-- What `sendInLoop` does with its payload: nothing, all of it written at once, or the rest of it
buffered. -/
theorem sendInLoop_cases (hs : c.Sound) (hcb : c.writeCompleteCallback = true)
    (hw : ∀ e, w = .error e → ¬ e.isFault) (h : c.sendInLoop t k d w = .ok (c', l)) :
    (c' = c ∧ (d = [] ∨ c.state = .kDisconnected) ∧
      ∃ m, l = .sendInLoop t k d :: m ∧ ∀ e ∈ m, e.noFlow = true) ∨
    (c' = c ∧ c.state ≠ .kDisconnected ∧ c.outputBuffer = [] ∧
      l = [.sendInLoop t k d, .write d, .queueInLoop .writeComplete]) ∨
    (c.state ≠ .kDisconnected ∧ ∃ n m ctl, n < d.length ∧
      c'.outputBuffer = c.outputBuffer ++ d.drop n ∧
      highWaterMarks m = [] ∧ .queueInLoop .writeComplete ∉ m ∧
      l = .sendInLoop t k d :: m ++ (c.highWater (d.drop n) ++ [.epollCtl ctl])) := by
  unfold sendInLoop at h
  split_ifs at h with hd
  · cases h
    exact .inl ⟨rfl, .inr hd, [], rfl, by simp⟩
  have hb : ¬ c.channel.isWriting → c.outputBuffer = [] := fun hwr => by
    by_contra hne
    exact hwr ((hs hd).2.2.2 hne)
  -- the end of `sendInLoop`, once the direct write has taken `n` bytes
  have hrest : ∀ n m, n ≤ d.length → highWaterMarks m = [] →
      .queueInLoop .writeComplete ∉ m → (n = d.length → n = 0 ∧ ∀ e ∈ m, e.noFlow = true) →
      (if d.length - n > 0 then (c.bufferRest (d.drop n)).after (.sendInLoop t k d :: m)
        else .ok (c, .sendInLoop t k d :: m)) = .ok (c', l) →
      (c' = c ∧ (d = [] ∨ c.state = .kDisconnected) ∧
        ∃ m, l = .sendInLoop t k d :: m ∧ ∀ e ∈ m, e.noFlow = true) ∨
      (c.state ≠ .kDisconnected ∧ ∃ n m ctl, n < d.length ∧
        c'.outputBuffer = c.outputBuffer ++ d.drop n ∧
        highWaterMarks m = [] ∧ .queueInLoop .writeComplete ∉ m ∧
        l = .sendInLoop t k d :: m ++ (c.highWater (d.drop n) ++ [.epollCtl ctl])) := by
    intro n m hn hm hwc hend h
    split_ifs at h with hpos
    · obtain ⟨m', hbuf, rfl⟩ := Result.after_eq_ok.1 h
      obtain ⟨rfl, rfl⟩ := bufferRest_cases hbuf
      exact .inr ⟨hd, n, m, _, by omega, rfl, hm, hwc, rfl⟩
    · cases h
      obtain ⟨h0, hq⟩ := hend (by omega)
      exact .inl ⟨rfl, .inl (List.eq_nil_of_length_eq_zero (by omega)), m, rfl, hq⟩
  cases hwd : c.writeDirect d w with
  | error a => simp [hwd] at h
  | ok p =>
    obtain ⟨n, faultError, m⟩ := p
    simp only [hwd] at h
    unfold writeDirect at hwd
    split_ifs at hwd with h1 h2
    · cases hwd
      simp only [true_and] at h
      exact (hrest 0 [] (Nat.zero_le _) rfl (by simp) (fun _ => ⟨rfl, by simp⟩) h).imp_right .inr
    · have h0 := hb h1
      cases w with
      | error e =>
        dsimp only at hwd
        rw [if_neg (hw e rfl)] at hwd
        cases hwd
        simp only [true_and] at h
        exact (hrest 0 _ (Nat.zero_le _) rfl (by simp) (fun _ => ⟨rfl, by simp⟩) h).imp_right .inr
      | wrote i =>
        dsimp only at hwd
        split_ifs at hwd with hall
        · -- all of the payload is written
          obtain ⟨hall, -⟩ := hall
          cases hwd
          rw [if_neg (by omega)] at h
          cases h
          rw [hall, List.take_length]
          exact .inr (.inl ⟨rfl, hd, h0, rfl⟩)
        · cases hwd
          simp only [true_and] at h
          refine (hrest _ _ (Nat.min_le_right ..) rfl (by simp) (fun hn => ?_) h).imp_right .inr
          exact absurd ⟨hn, hcb⟩ hall

theorem sendInLoop_flow (hs : c.Sound) (hcb : c.writeCompleteCallback = true)
    (hhw : c.highWaterMarkCallback = true) (hmark : c.highWaterMark = mark)
    (hw : ∀ e, w = .error e → ¬ e.isFault) (h : c.sendInLoop t k d w = .ok (c', l)) :
    Flow mark c c' l := by
  obtain ⟨rfl, hnil, m, rfl, hm⟩ | ⟨rfl, hd, hb, rfl⟩ |
    ⟨hd, n, m, ctl, hn, hb, hm, hwc, rfl⟩ := sendInLoop_cases hs hcb hw h
  · obtain ⟨h1, h2, h3, -, h5⟩ := noFlow_facts hm
    constructor
    · simp [h1]
    · simp [h1]
    · simp [h2]
    · exact whenever_of_forall_not fun x hx he => by simp [he, h2] at hx
    · intro _ hb
      refine ⟨hb, by simp [h3], fun t' k' d' hmem => ?_⟩
      simp only [List.mem_cons, h5, or_false, Event.sendInLoop.injEq] at hmem
      rw [hmem.2.2]
      exact hnil
  · constructor
    · rw [if_neg (by omega)]
      rfl
    · simp
    · intro _
      exact ⟨hb, [.sendInLoop t k d, .write d], rfl⟩
    · simp [hd, hb]
    · simp
  · have hlen : c'.outputBuffer.length = c.outputBuffer.length + (d.drop n).length := by
      rw [hb, List.length_append]
    have hne : c'.outputBuffer ≠ [] := by
      rw [hb]
      simp [hn]
    have hwater : highWaterMarks (c.highWater (d.drop n)) =
        if c.outputBuffer.length < mark ∧ mark ≤ c'.outputBuffer.length then
          [c'.outputBuffer.length] else [] := by
      unfold highWater
      simp only [hhw, hmark, hlen, true_and, ge_iff_le]
      split_ifs <;> rfl
    have hnone : .queueInLoop .writeComplete ∉ c.highWater (d.drop n) := by
      rcases highWater_cases (d.drop n) c with he | ⟨len, he⟩ <;> simp [he]
    constructor
    · simp [hm, hwater]
    · intro _
      exact ⟨hb ▸ List.prefix_append _ _, t, k, d, by simp⟩
    · simp [hwc, hnone]
    · exact whenever_of_forall_not fun x hx he => by simp [he, hwc, hnone] at hx
    · intro _ hb'
      exact absurd hb' hne

theorem handleWrite_flow (hpos : 0 < mark) (hcb : c.writeCompleteCallback = true)
    (h : c.handleWrite w = .ok (c', l)) : Flow mark c c' l := by
  obtain ⟨-, rfl, rfl⟩ | ⟨hd, -, ⟨e, -, rfl, rfl⟩ | ⟨m, -, hm, rfl, rfl⟩ | ⟨m, -, -, rfl, rfl⟩⟩ :=
    handleWrite_cases h
  · exact .same (by simp) rfl
  · exact .same (by simp) rfl
  · have hlen : (c.outputBuffer.drop m).length = c.outputBuffer.length - m := List.length_drop
    constructor
    · rw [if_neg (by rw [hlen]; omega)]
      rfl
    · simp
    · simp
    · simp
    · intro _ hb
      have hb' : (c.outputBuffer.drop m).length = 0 := congrArg List.length hb
      omega
  · have h0 : ¬ (c.outputBuffer.length < mark ∧ mark ≤ ([] : Bytes).length) := by
      rw [List.length_nil]
      omega
    rw [hcb, if_pos rfl]
    constructor
    · refine Eq.trans ?_ (if_neg h0).symm
      split_ifs <;> rfl
    · split_ifs <;> simp
    · intro _
      exact ⟨rfl, _ :: _ :: _, rfl⟩
    · split_ifs <;> simp [hd]
    · simp

theorem noFlow_of_ofCall {e : Event} (h : e.ofCall t = true) : e.noFlow = true := by
  cases e with
  | queueInLoop j => cases j <;> first | rfl | simp at h
  | _ => first | rfl | simp at h

theorem noFlow_of_ofJob {e : Event} (h : e.ofJob = true) : e.noFlow = true := by
  cases e <;> first | rfl | simp at h

theorem call_outputBuffer {op : Op} (hop : ∀ data w, op ≠ .send data w)
    (h : c.call b t k op = .ok (c', l)) : c'.outputBuffer = c.outputBuffer := by
  cases op with
  | send data w => exact absurd rfl (hop data w)
  | shutdown => obtain ⟨-, rfl, -⟩ := shutdown_cases h; rfl
  | forceClose => obtain ⟨-, rfl, -⟩ | ⟨-, rfl, -⟩ := forceClose_cases h <;> rfl
  | stopRead =>
    obtain ⟨-, h⟩ | ⟨-, rfl, -⟩ := stopRead_cases h
    · obtain ⟨-, rfl, -⟩ | ⟨-, rfl, -⟩ := stopReadInLoop_cases h <;> rfl
    · rfl
  | startRead =>
    obtain ⟨-, h⟩ | ⟨-, rfl, -⟩ := startRead_cases h
    · obtain ⟨-, rfl, -⟩ | ⟨-, rfl, -⟩ := startReadInLoop_cases h <;> rfl
    · rfl
  | setWriteCompleteCallback | setHighWaterMarkCallback mark | retrieveInput n => cases h; rfl

theorem runJob_outputBuffer {j : Job} (hj : ∀ u i d, j ≠ .sendInLoop u i d)
    (h : c.runJob j w = .ok (c', l)) : c'.outputBuffer = c.outputBuffer := by
  cases j with
  | sendInLoop u i d => exact absurd rfl (hj u i d)
  | shutdownInLoop => obtain ⟨rfl, -⟩ := shutdownInLoop_cases h; rfl
  | forceCloseInLoop =>
    obtain ⟨-, h⟩ | ⟨-, rfl, -⟩ := forceCloseInLoop_cases h
    · obtain ⟨-, rfl, -⟩ := handleClose_cases h; rfl
    · rfl
  | writeComplete | highWaterMark len => cases h; rfl
  | stopRead => obtain ⟨-, rfl, -⟩ | ⟨-, rfl, -⟩ := stopReadInLoop_cases h <;> rfl
  | startRead => obtain ⟨-, rfl, -⟩ | ⟨-, rfl, -⟩ := startReadInLoop_cases h <;> rfl

/-- The writes of the member functions do not fail with `EPIPE` or `ECONNRESET`. -/
theorem call_flow {op : Op} (hs : c.Sound) (hcb : c.writeCompleteCallback = true)
    (hhw : c.highWaterMarkCallback = true) (hmark : c.highWaterMark = mark)
    (hop : ∀ data e, op = .send data (.error e) → ¬ e.isFault)
    (h : c.call b t k op = .ok (c', l)) : Flow mark c c' l := by
  by_cases hsend : ∃ data w, op = .send data w
  · obtain ⟨data, w, rfl⟩ := hsend
    obtain ⟨-, rfl, rfl⟩ | ⟨-, -, m, hm, rfl, -⟩ | ⟨-, -, rfl, rfl⟩ := send_cases h
    · exact .same (by simp) rfl
    · have hw : ∀ e, w = .error e → ¬ e.isFault := by
        rintro e rfl
        exact hop data e rfl
      exact (sendInLoop_flow hs hcb hhw hmark hw hm).after (m := [_]) (by simp)
    · exact .same (by simp) rfl
  · push Not at hsend
    exact .same (fun e he => noFlow_of_ofCall (call_events hsend h e he))
      (call_outputBuffer hsend h)

theorem runJob_flow {j : Job} (hs : c.Sound) (hcb : c.writeCompleteCallback = true)
    (hhw : c.highWaterMarkCallback = true) (hmark : c.highWaterMark = mark)
    (hw : ∀ e, w = .error e → ¬ e.isFault) (h : c.runJob j w = .ok (c', l)) :
    Flow mark c c' l := by
  by_cases hsend : ∃ u i d, j = .sendInLoop u i d
  · obtain ⟨u, i, d, rfl⟩ := hsend
    exact sendInLoop_flow hs hcb hhw hmark hw h
  · push Not at hsend
    exact .same (fun e he => noFlow_of_ofJob (runJob_events hsend h e he))
      (runJob_outputBuffer hsend h)

theorem handleStage_flow {st : Stage} (hpos : 0 < mark) (hcb : c.writeCompleteCallback = true)
    (h : c.handleStage st r w = .ok (c', l)) : Flow mark c c' l := by
  cases StageStep.of_handleStage h with
  | idle => exact .same (by simp) rfl
  | close _ h =>
    obtain ⟨-, rfl, rfl⟩ := handleClose_cases h
    exact .same (by simp) rfl
  | read _ h =>
    obtain ⟨-, ⟨rfl, rfl⟩ | ⟨m, hm, rfl⟩ | ⟨bytes, rfl, rfl⟩⟩ := handleRead_cases h
    · exact .same (by simp) rfl
    · obtain ⟨-, rfl, rfl⟩ := handleClose_cases hm
      exact .same (by simp) rfl
    · exact .same (by simp) rfl
  | write _ h => exact { handleWrite_flow hpos hcb h with }

end TcpConnection

end Flow

/-! ### Histories -/

/-- A payload that is not empty has been handed to `sendInLoop` before the connection closed. -/
def Sending (h : List Event) : Prop :=
  ∃ t k d g g', h = g ++ .sendInLoop t k d :: g' ∧ d ≠ [] ∧ .closed ∉ g

/-- Each high-water-mark job has a write-complete job behind it. -/
def Resumed (h : List Event) : Prop :=
  ∀ len g g', h = g ++ .queueInLoop (.highWaterMark len) :: g' → .queueInLoop .writeComplete ∈ g'

namespace Connection

variable {threadId : Pid} {s s' : Run} {lab : Label} {mark : ℕ} {l : List Event}

/-- Both callbacks are set, with the mark `mark`, and the write of the step does not fail with
`EPIPE` or `ECONNRESET`. -/
def Steady (mark : ℕ) (s : Run) (lab : Label) : Prop :=
  s.conn.writeCompleteCallback = true ∧ s.conn.highWaterMarkCallback = true ∧
    s.conn.highWaterMark = mark ∧ NoFault s lab

instance (mark : ℕ) (s : Run) (lab : Label) : Decidable (Steady mark s lab) :=
  inferInstanceAs (Decidable (_ ∧ _ ∧ _ ∧ _))

/-- The history of a run tells when its jobs have been queued. -/
structure FlowInv (s : Run) : Prop where
  moment : Whenever (· = .queueInLoop .writeComplete) (fun g => accepted g = sent g) s.history
  completed : s.conn.outputBuffer = [] → Sending s.history → Completed s.history
  resumed : s.conn.outputBuffer = [] → Resumed s.history

/-- A step that crosses the mark leaves the buffer full. -/
theorem Flow.highWaterMark_notMem {c c' : TcpConnection} (hpos : 0 < mark) (h : Flow mark c c' l)
    (hb : c'.outputBuffer = []) {len : ℕ} : .queueInLoop (.highWaterMark len) ∉ l := by
  intro hmem
  have hlen := mem_highWaterMarks.2 hmem
  rw [h.crossing, hb, if_neg (by simp; omega)] at hlen
  cases hlen

/-- A step keeps what the histories tell, whatever it does about the jobs. -/
theorem FlowInv.of_flow (hpos : 0 < mark) (hi : Inv s) (hfault : .faultError ∉ s.history)
    (hs : FlowInv s) (hh : s'.history = s.history ++ l) (h : Flow mark s.conn s'.conn l) :
    FlowInv s' where
  moment := by
    rw [hh]
    refine whenever_append.2 ⟨hs.moment, h.moment.mono ?_⟩
    rintro g ⟨hd, hg⟩
    rw [accepted_append, sent_append, hg, ← List.append_assoc, hi.stream hd hfault]
  completed hb hsend := by
    rw [hh] at hsend ⊢
    by_cases hwc : .queueInLoop .writeComplete ∈ l
    · obtain ⟨-, g, rfl⟩ := h.complete hwc
      exact ⟨s.history ++ g, [], by simp, rfl⟩
    · obtain ⟨hb', hacc, hnone⟩ := h.idle hwc hb
      obtain ⟨t, k, d, g, g', he, hd, hcl⟩ := hsend
      rcases append_eq_append_cons he with ⟨a, ha, -⟩ | ⟨a, rfl, ha⟩
      · exact (hs.completed hb' ⟨t, k, d, g, a, ha, hd, hcl⟩).append hacc
      · -- the payload of this step would have been buffered, or written with a job behind it
        rcases hnone t k d (by simp [ha]) with hnil | hdis
        · exact absurd hnil hd
        · exact absurd (List.mem_append_left a (hi.closed.2 hdis)) hcl
  resumed hb len g g' he := by
    rw [hh] at he
    have hhw : .queueInLoop (.highWaterMark len) ∉ l := Flow.highWaterMark_notMem hpos h hb
    rcases append_eq_append_cons he with ⟨a, ha, rfl⟩ | ⟨a, -, ha⟩
    · by_cases hwc : .queueInLoop .writeComplete ∈ l
      · exact List.mem_append_right a hwc
      · exact List.mem_append_left l (hs.resumed (h.idle hwc hb).1 len g a ha)
    · exact absurd (by simp [ha]) hhw

theorem Step.flow (hpos : 0 < mark) (hi : Inv s) (hc : Steady mark s lab)
    (h : Step threadId s lab s') :
    ∃ l, s'.history = s.history ++ l ∧ Flow mark s.conn s'.conn l := by
  obtain ⟨hcb, hhw, hmark, hfault⟩ := hc
  cases h with
  | @call t op c l ht h =>
    refine ⟨l, rfl, TcpConnection.call_flow hi.sound hcb hhw hmark ?_ h⟩
    rintro d e rfl
    simpa [NoFault, Label.isFault] using hfault
  | idle hp => exact ⟨[.poll], rfl, .same (by simp) rfl⟩
  | poll hp hm => exact ⟨[.poll], rfl, .same (by simp) rfl⟩
  | @handle r w st c l hp h => exact ⟨l, rfl, TcpConnection.handleStage_flow hpos hcb h⟩
  | swap hp => exact ⟨[], (List.append_nil _).symm, .same (by simp) rfl⟩
  | @runJob w j js c l hp hj h =>
    refine ⟨l, rfl, TcpConnection.runJob_flow hi.sound hcb hhw hmark ?_ h⟩
    rintro e rfl
    simpa [NoFault, Label.isFault] using hfault
  | endJobs hp hj => exact ⟨[], (List.append_nil _).symm, .same (by simp) rfl⟩

theorem Steady.faultError_notMem (hr : (system threadId).ReachableIf (Steady mark) s) :
    .faultError ∉ s.history :=
  NoFault.of_reachable (hr.mono fun _ _ hc => hc.2.2.2)

theorem FlowInv.of_reachable (hpos : 0 < mark) (hr : (system threadId).ReachableIf (Steady mark) s) :
    FlowInv s := by
  refine hr.invariant_of (J := fun s => Inv s ∧ .faultError ∉ s.history)
    (fun _ hr => ⟨.of_reachable hr, Steady.faultError_notMem hr⟩) (fun s h0 => ?_) ?_
  · obtain ⟨i, fd, writeComplete, highWater, m, -, rfl⟩ := init_iff.1 h0
    constructor
    · simp [Run.start]
    · rintro - ⟨t, k, d, g, g', he, -⟩
      have hmem : .sendInLoop t k d ∈ (Run.start i fd writeComplete highWater m).history := by
        rw [he]
        simp
      simp [Run.start] at hmem
    · intro _ len g g' he
      have hmem : .queueInLoop (.highWaterMark len) ∈
          (Run.start i fd writeComplete highWater m).history := by
        rw [he]
        simp
      simp [Run.start] at hmem
  · rintro s lab s' ⟨hi, hfault⟩ hs hc h
    obtain ⟨l, hh, hflow⟩ := (Step.of_step h).flow hpos hi hc
    exact hs.of_flow hpos hi hfault hh hflow

/-- **Flow control.**  In every run with both callbacks set, a fixed mark `mark > 0` and no write of
`sendInLoop` that fails with `EPIPE` or `ECONNRESET`:
a write-complete job is queued only when all that has been handed to `sendInLoop` is written and
the output buffer is empty; whenever the buffer is empty and something has been sent, such a job
has been queued since the last byte, and behind every high-water-mark job;
a step queues a high-water-mark job exactly if an append of `sendInLoop` takes the size of the
buffer across the mark, with the size behind it;
and between two of these the size has been below the mark. -/
theorem flowControl_exact (hpos : 0 < mark) (hr : (system threadId).ReachableIf (Steady mark) s) :
    Whenever (· = .queueInLoop .writeComplete) (fun g => accepted g = sent g) s.history ∧
    (s.conn.outputBuffer = [] → Sending s.history → Completed s.history) ∧
    (s.conn.outputBuffer = [] → Resumed s.history) ∧
    ∀ lab s', Steady mark s lab → (system threadId).step s lab = .next s' →
      ∃ l, s'.history = s.history ++ l ∧
      (.queueInLoop .writeComplete ∈ l →
        s'.conn.outputBuffer = [] ∧ accepted s'.history = sent s'.history) ∧
      highWaterMarks l = (if s.conn.outputBuffer.length < mark ∧ mark ≤ s'.conn.outputBuffer.length
        then [s'.conn.outputBuffer.length] else []) ∧
      (highWaterMarks l ≠ [] →
        s.conn.outputBuffer <+: s'.conn.outputBuffer ∧ ∃ t k d, .sendInLoop t k d ∈ l) ∧
      ∀ s₁ lab₁ s₂ l₁, highWaterMarks l ≠ [] → (system threadId).RunIf (Steady mark) s' s₁ →
        Steady mark s₁ lab₁ → (system threadId).step s₁ lab₁ = .next s₂ →
        s₂.history = s₁.history ++ l₁ → highWaterMarks l₁ ≠ [] →
        ∃ r, (system threadId).RunIf (Steady mark) s' r ∧
          (system threadId).RunIf (Steady mark) r s₁ ∧ r.conn.outputBuffer.length < mark := by
  have hf : FlowInv s := .of_reachable hpos hr
  refine ⟨hf.moment, hf.completed, hf.resumed, fun lab s' hc h => ?_⟩
  have hr' : (system threadId).ReachableIf (Steady mark) s' := hr.step hc h
  obtain ⟨l, hh, hflow⟩ := (Step.of_step h).flow hpos (.of_reachable hr) hc
  refine ⟨l, hh, fun hwc => ?_, hflow.crossing, hflow.append, ?_⟩
  · obtain ⟨hb, g, rfl⟩ := hflow.complete hwc
    have hf' : FlowInv s' := .of_reachable hpos hr'
    have hall := hf'.moment (s.history ++ g) _ [] (by rw [hh, List.append_assoc]) rfl
    refine ⟨hb, ?_⟩
    rw [hh, ← List.append_assoc, accepted_append, sent_append, hall]
    rfl
  · intro s₁ lab₁ s₂ l₁ _ hrun hc₁ h₁ hh₁ hne
    have hr₁ : (system threadId).ReachableIf (Steady mark) s₁ := hr'.run hrun
    obtain ⟨l', hh', hflow₁⟩ := (Step.of_step h₁).flow hpos (.of_reachable hr₁) hc₁
    obtain rfl : l₁ = l' := List.append_cancel_left (hh₁.symm.trans hh')
    refine ⟨s₁, hrun, .refl, ?_⟩
    by_contra hlt
    rw [hflow₁.crossing, if_neg (by omega)] at hne
    exact hne rfl

/-- The kernel takes nothing of a payload of three bytes at first, and all of it when the socket is
writable; the mark is 2. -/
theorem flowControl_exact_drained :
    ∃ s, (system 1).ReachableIf (Steady 2) s ∧ .queueInLoop (.highWaterMark 3) ∈ s.history ∧
      Whenever (· = .queueInLoop .writeComplete) (fun g => accepted g = sent g) s.history ∧
      Completed s.history ∧ Resumed s.history := by
  obtain ⟨s, hr, hb, hw, hs, hcl⟩ := System.exists_reachableIf (S := system 1) (C := Steady 2)
    (P := fun s => s.conn.outputBuffer = [] ∧ .queueInLoop (.highWaterMark 3) ∈ s.history ∧
      s.history = s.history.take 3 ++ .sendInLoop 1 0 [1, 2, 3] :: s.history.drop 4 ∧
      .closed ∉ s.history.take 3)
    (w := [.call 1 (.send [1, 2, 3] (.wrote 0)), .swap, .runJob (.wrote 0), .endJobs,
      .poll (some {.epollout}), .handle (.data []) (.wrote 0), .handle (.data []) (.wrote 0),
      .handle (.data []) (.wrote 0), .handle (.data []) (.wrote 3)])
    (start_init 5 true true 2) (by decide +kernel)
  obtain ⟨hm, hc, hd, -⟩ := flowControl_exact (by decide) hr
  exact ⟨s, hr, hw, hm, hc hb ⟨1, 0, [1, 2, 3], _, _, hs, by decide, hcl⟩, hd hb⟩

end Connection
end Leven
