import Leven.Buffer.Basic
import Leven.Transition.System
import Mathlib.Logic.Equiv.Basic

/-!
# Buffer as a byte deque

What a buffer is for: bytes are put in at the back, some at the front, and taken out at the front.
This is `Deques`, a family of byte lists; `Buffers` is the family of buffers that stands for it, and
the two run side by side.

* `DequeOp`: the operations of a deque; `BufferOp.deque`: the one that a member function stands for;
* `BufferOp.spec`: each member function does what its deque operation does, whatever the layout;
* `byte_deque`: the law, over any sequence of calls on any number of buffers.
-/

namespace Leven

open Transition Container

/-- The operations of a deque. -/
inductive DequeOp (α : Type*)
  | pushBack (as : List α)
  | pushFront (as : List α)
  | dropFront (n : ℕ)

def DequeOp.apply {α : Type*} : DequeOp α → List α → List α
  | .pushBack as, l => l ++ as
  | .pushFront as, l => as ++ l
  | .dropFront n, l => l.drop n

/-- The calls on a buffer. -/
inductive BufferOp
  | append (data : Bytes)
  | prepend (data : Bytes)
  | retrieve (len : ℕ)
  /-- `retrieveUntil(peek() + len)` -/
  | retrieveUntil (len : ℕ)
  | retrieveAsString (len : ℕ)
  | retrieveAllAsString
  | retrieveAll
  | ensureWritableBytes (len : ℕ)
  /-- `data` is written to `beginWrite()`, and `hasWritten` is called -/
  | hasWritten (data : Bytes)
  deriving DecidableEq

namespace BufferOp

/-- What the caller has to see to. -/
def Allowed (b : Buffer) : BufferOp → Prop
  | .prepend data => data.length ≤ b.prependableBytes
  | .retrieve len | .retrieveUntil len | .retrieveAsString len => len ≤ b.readableBytes
  | .hasWritten data => data.length ≤ b.writableBytes
  | .append _ | .retrieveAllAsString | .retrieveAll | .ensureWritableBytes _ => True

instance (b : Buffer) : DecidablePred (Allowed b) := fun op =>
  match op with
  | .prepend data => inferInstanceAs (Decidable (data.length ≤ b.prependableBytes))
  | .retrieve len | .retrieveUntil len | .retrieveAsString len =>
    inferInstanceAs (Decidable (len ≤ b.readableBytes))
  | .hasWritten data => inferInstanceAs (Decidable (data.length ≤ b.writableBytes))
  | .append _ | .retrieveAllAsString | .retrieveAll | .ensureWritableBytes _ => isTrue trivial

/-- The call: the buffer afterwards, and the string that is answered, if it is one that answers. -/
def run (b : Buffer) : BufferOp → Except Buffer.Assertion (Buffer × List Bytes)
  | .append data => (b.append data).map (·, [])
  | .prepend data => (b.prepend data).map (·, [])
  | .retrieve len => (b.retrieve len).map (·, [])
  | .retrieveUntil len => (b.retrieveUntil (b.peek + len)).map (·, [])
  | .retrieveAsString len => (b.retrieveAsString len).map fun (b, result) => (b, [result])
  | .retrieveAllAsString => b.retrieveAllAsString.map fun (b, result) => (b, [result])
  | .retrieveAll => .ok (b.retrieveAll, [])
  | .ensureWritableBytes len => (b.ensureWritableBytes len).map (·, [])
  | .hasWritten data => ((b.copyToBeginWrite data).hasWritten data.length).map (·, [])

/-- The number of bytes that the call asks space for. -/
def room : BufferOp → Option ℕ
  | .append data => some data.length
  | .ensureWritableBytes len => some len
  | _ => none

/-- What the call is to a deque that contains `q`. -/
def deque (q : Bytes) : BufferOp → DequeOp UInt8
  | .append data | .hasWritten data => .pushBack data
  | .prepend data => .pushFront data
  | .retrieve len | .retrieveUntil len | .retrieveAsString len => .dropFront len
  | .retrieveAllAsString | .retrieveAll => .dropFront q.length
  | .ensureWritableBytes _ => .pushBack []

/-- The string that the call answers, when the deque contains `q`. -/
def answer (q : Bytes) : BufferOp → List Bytes
  | .retrieveAsString len => [q.take len]
  | .retrieveAllAsString => [q]
  | _ => []

end BufferOp

/-! ### Families of buffers -/

/-- Buffers, and the strings that have been retrieved. -/
structure Buffers (ι : Type*) where
  buffer : ι → Buffer
  strings : List Bytes

/-- Deques, and the strings that have been retrieved. -/
@[ext]
structure Deques (ι : Type*) where
  content : ι → Bytes
  strings : List Bytes

variable {ι : Type*} [DecidableEq ι]

/-- A call on one buffer, or the exchange of two. -/
inductive Buffers.Label (ι : Type*)
  | op (i : ι) (o : BufferOp)
  | swap (i j : ι)

namespace Deques

def empty : Deques ι := ⟨fun _ => [], []⟩

/-- What a call is to the deques. -/
def step (q : Deques ι) : Buffers.Label ι → Deques ι
  | .op i o =>
    { content := Function.update q.content i ((o.deque (q.content i)).apply (q.content i))
      strings := q.strings ++ o.answer (q.content i) }
  | .swap i j => { q with content := q.content ∘ Equiv.swap i j }

end Deques

namespace Buffers

/-- The family after the call of `swap` on buffer `i` with buffer `j`. -/
def swap (i j : ι) (s : Buffers ι) : Buffers ι :=
  let (b, rhs) := (s.buffer i).swap (s.buffer j)
  { s with buffer := Function.update (Function.update s.buffer i b) j rhs }

def step (s : Buffers ι) : Label ι → Outcome Buffer.Assertion (Buffers ι)
  | .op i o =>
    .guard (o.Allowed (s.buffer i)) <| .ofExcept <| (o.run (s.buffer i)).map fun (b, strings) =>
      { buffer := Function.update s.buffer i b, strings := s.strings ++ strings }
  | .swap i j => .next (s.swap i j)

/-- Buffers, each of them fresh from the constructor. -/
def Init (s : Buffers ι) : Prop :=
  (∀ i, ∃ n, Buffer.new n = .ok (s.buffer i)) ∧ s.strings = []

variable (ι) in
def system : System (Buffers ι) (Label ι) Buffer.Assertion where
  init := Init
  step := step

/-- The deques that the buffers stand for. -/
def deques (s : Buffers ι) : Deques ι := ⟨fun i => (s.buffer i).content, s.strings⟩

/-- All buffers are well formed. -/
def WellFormed (s : Buffers ι) : Prop := ∀ i, (s.buffer i).WellFormed

end Buffers

/-! ### One call -/

/-- The storage has the size that it had, unless the call asks for more space than there is. -/
def BufferOp.KeepsSize (o : BufferOp) (b b' : Buffer) : Prop :=
  b'.buffer.length = b.buffer.length ∨ ∃ len, o.room = some len ∧ b.Grows len

/-- The calls that answer nothing. -/
theorem BufferOp.spec_of_leaves {b : Buffer} {r : Except Buffer.Assertion Buffer} {c : Bytes}
    {g : Prop} {o : BufferOp} (h : Buffer.Leaves b r c g) (hg : g → ∃ len, o.room = some len ∧ b.Grows len) :
    ∃ b', r.map (·, ([] : List Bytes)) = .ok (b', []) ∧ b'.WellFormed ∧ b'.content = c ∧
      o.KeepsSize b b' := by
  obtain ⟨b', rfl, hb, hc, hlen⟩ := h
  exact ⟨b', rfl, hb, hc, hlen.imp_right hg⟩

/-- An allowed call comes back, and does what it is to the deque. -/
theorem BufferOp.spec {b : Buffer} (h : b.WellFormed) {o : BufferOp} (ho : o.Allowed b) :
    ∃ b', o.run b = .ok (b', o.answer b.content) ∧ b'.WellFormed ∧
      b'.content = (o.deque b.content).apply b.content ∧ o.KeepsSize b b' := by
  cases o with
  | append data => exact spec_of_leaves (h.append data) fun hg => ⟨data.length, rfl, hg⟩
  | prepend data => exact spec_of_leaves (h.prepend ho) False.elim
  | retrieve len => exact spec_of_leaves (h.retrieve ho) False.elim
  | retrieveUntil len => exact spec_of_leaves (h.retrieveUntil ho) False.elim
  | hasWritten data => exact spec_of_leaves (h.hasWritten ho) False.elim
  | retrieveAsString len =>
    obtain ⟨b', hb, hw, hc, hlen⟩ := h.retrieveAsString ho
    exact ⟨b', by rw [run, hb]; rfl, hw, hc, hlen.imp_right False.elim⟩
  | retrieveAllAsString =>
    obtain ⟨b', hb, hw, hc, hlen⟩ := h.retrieveAsString (le_refl b.readableBytes)
    refine ⟨b', ?_, hw, ?_, hlen.imp_right False.elim⟩
    · rw [run, Buffer.retrieveAllAsString, hb, ← h.length_content, List.take_length]
      rfl
    · rw [hc, ← h.length_content]
      rfl
  | retrieveAll =>
    refine ⟨b.retrieveAll, rfl, h.retrieveAll, ?_, .inl rfl⟩
    exact Buffer.content_retrieveAll.trans (List.drop_length).symm
  | ensureWritableBytes len =>
    obtain ⟨b', hb, hw, hc, -, hgrow⟩ := h.ensureWritableBytes len
    refine ⟨b', by rw [run, hb]; rfl, hw, ?_, hgrow.imp_right fun hg => ⟨len, rfl, hg⟩⟩
    rw [hc]
    exact (List.append_nil _).symm

/-! ### A sequence of calls -/

namespace Buffers

variable {s s' : Buffers ι} {lab : Label ι} {i j : ι} {o : BufferOp}

theorem swap_buffer : (s.swap i j).buffer = s.buffer ∘ Equiv.swap i j := by
  funext k
  simp only [swap, Buffer.swap_eq, Function.update_apply, Function.comp_apply,
    Equiv.swap_apply_def]
  split_ifs <;> simp_all

theorem deques_swap : (s.swap i j).deques = s.deques.step (.swap i j) := by
  simp only [deques, swap_buffer]
  rfl

/-- A call that is allowed is made, and does to the buffers what it is to the deques. -/
theorem step_op (hs : s.WellFormed) (ho : o.Allowed (s.buffer i)) :
    ∃ s', (system ι).step s (.op i o) = .next s' ∧ s'.WellFormed ∧ s'.deques = s.deques.step (.op i o) ∧
      o.KeepsSize (s.buffer i) (s'.buffer i) := by
  obtain ⟨b, hrun, hw, hc, hlen⟩ := BufferOp.spec (hs i) ho
  refine ⟨⟨Function.update s.buffer i b, s.strings ++ o.answer (s.buffer i).content⟩, ?_, ?_, ?_, ?_⟩
  · change Outcome.guard _ _ = _
    rw [hrun, Outcome.guard, if_pos ho]
    rfl
  · intro k
    by_cases hk : k = i
    · subst hk
      simpa using hw
    · simpa [hk] using hs k
  · refine Deques.ext (funext fun k => ?_) rfl
    by_cases hk : k = i
    · subst hk
      simpa [deques, Deques.step] using hc
    · simp [deques, Deques.step, hk]
  · simpa using hlen

theorem allowed_of_step (h : (system ι).step s (.op i o) ≠ .blocked) : o.Allowed (s.buffer i) :=
  Outcome.of_guard_ne_blocked h

theorem step_spec (hs : s.WellFormed) (h : (system ι).step s lab = .next s') :
    s'.WellFormed ∧ s'.deques = s.deques.step lab := by
  cases lab with
  | op i o =>
    obtain ⟨t, ht, hw, hd, -⟩ := step_op hs (allowed_of_step (by rw [h]; simp))
    cases ht.symm.trans h
    exact ⟨hw, hd⟩
  | swap i j =>
    cases h
    refine ⟨fun k => ?_, deques_swap⟩
    rw [swap_buffer]
    exact hs _

theorem keepsSize_of_step (hs : s.WellFormed) (h : (system ι).step s (.op i o) = .next s') :
    o.KeepsSize (s.buffer i) (s'.buffer i) := by
  obtain ⟨t, ht, -, -, hlen⟩ := step_op hs (allowed_of_step (by rw [h]; simp))
  cases ht.symm.trans h
  exact hlen

theorem step_ne_failed (hs : s.WellFormed) (a : Buffer.Assertion) :
    (system ι).step s lab ≠ .failed a := by
  intro h
  cases lab with
  | op i o =>
    obtain ⟨t, ht, -⟩ := step_op hs (allowed_of_step (by rw [h]; simp))
    cases ht.symm.trans h
  | swap i j => cases h

omit [DecidableEq ι] in
theorem Init.wellFormed (h : Init s) : s.WellFormed ∧ s.deques = Deques.empty := by
  obtain ⟨hb, hstr⟩ := h
  have hfresh : ∀ i, (s.buffer i).WellFormed ∧ (s.buffer i).content = [] := by
    intro i
    obtain ⟨n, hn⟩ := hb i
    exact Buffer.WellFormed.new hn
  exact ⟨fun i => (hfresh i).1, Deques.ext (funext fun i => (hfresh i).2) hstr⟩

/-- **Buffer is a byte deque.**  Take fresh buffers of any sizes, and any sequence of calls on them
that keep within the bytes and the space there are.  No assertion fails; and behind the calls the
indices of the buffers are in order, their readable bytes are those of the deques that have gone
through the same calls, and so are the strings that have been retrieved.  A further
`ensureWritableBytes` leaves the readable bytes alone, and a call that changes the size of the
storage asks for more than the writable and the prependable bytes without `kCheapPrepend` of them. -/
theorem byte_deque {s₀ : Buffers ι} (h0 : s₀.Init) (w : List (Label ι)) :
    (∀ a, (system ι).exec s₀ w ≠ .failed a) ∧
    ∀ s, (system ι).exec s₀ w = .next s →
      (∀ i, (s.buffer i).readerIndex ≤ (s.buffer i).writerIndex ∧
        (s.buffer i).writerIndex ≤ (s.buffer i).buffer.length) ∧
      s.deques = w.foldl Deques.step Deques.empty ∧
      (∀ i len s', (system ι).step s (.op i (.ensureWritableBytes len)) = .next s' →
        (s'.buffer i).content = (s.buffer i).content) ∧
      ∀ i o s', (system ι).step s (.op i o) = .next s' →
        (s'.buffer i).buffer.length ≠ (s.buffer i).buffer.length →
          ∃ len, o.room = some len ∧
            (s.buffer i).writableBytes + (s.buffer i).prependableBytes < len + Buffer.kCheapPrepend := by
  obtain ⟨hw₀, hd₀⟩ := h0.wellFormed
  refine ⟨fun a => System.exec_ne_failed hw₀ (fun s lab s' hs h => (step_spec hs h).1)
    fun s lab hs => step_ne_failed hs a, fun s hrun => ?_⟩
  obtain ⟨hw, hd⟩ := System.exec_invariant (S := system ι)
    (K := fun w s => s.WellFormed ∧ s.deques = w.foldl Deques.step Deques.empty) ⟨hw₀, hd₀⟩
    (fun w lab t t' ht h => by
      obtain ⟨hw', hd'⟩ := step_spec ht.1 h
      rw [List.foldl_append, ← ht.2]
      exact ⟨hw', hd'⟩) hrun
  refine ⟨fun i => ⟨(hw i).reader_le, (hw i).writer_le⟩, hd, fun i len s' h => ?_,
    fun i o s' h hne => (keepsSize_of_step hw h).resolve_left hne⟩
  have hc : (s'.buffer i).content = (s.deques.step (.op i (.ensureWritableBytes len))).content i :=
    congrFun (congrArg Deques.content (step_spec hw h).2) i
  rw [hc]
  simp only [Deques.step, Function.update_self]
  exact List.append_nil _

/-- Fresh buffers of given sizes. -/
def fresh (n : ι → ℕ) : Buffers ι :=
  ⟨fun i => ⟨List.replicate (Buffer.kCheapPrepend + n i) 0, Buffer.kCheapPrepend,
    Buffer.kCheapPrepend⟩, []⟩

omit [DecidableEq ι] in
theorem fresh_init (n : ι → ℕ) : (fresh n).Init := ⟨fun i => ⟨n i, Buffer.new_eq⟩, rfl⟩

/-- In a buffer of size 4 the readable bytes move to the front, and a prepend makes the next append
move the end of the storage. -/
theorem byte_deque_four :
    (∃ s, (system Bool).exec (fresh fun _ => 4) [.op true (.append [1, 2, 3]),
        .op true (.retrieve 2), .op true (.append [4, 5, 6]), .op true (.prepend [7, 8]),
        .op true (.append [9]), .swap true false, .op false (.retrieveAsString 2)] = .next s ∧
      (s.buffer false).content = [3, 4, 5, 6, 9] ∧ (s.buffer true).content = [] ∧
      s.strings = [[7, 8]] ∧ (s.buffer false).buffer.length = 13) ∧
    ∀ w : List (Label Bool), (∀ a, (system Bool).exec (fresh fun _ => 4) w ≠ .failed a) ∧
      ∀ s, (system Bool).exec (fresh fun _ => 4) w = .next s →
        (∀ i, (s.buffer i).readerIndex ≤ (s.buffer i).writerIndex ∧
          (s.buffer i).writerIndex ≤ (s.buffer i).buffer.length) ∧
        s.deques = w.foldl Deques.step Deques.empty ∧
        (∀ i len s', (system Bool).step s (.op i (.ensureWritableBytes len)) = .next s' →
          (s'.buffer i).content = (s.buffer i).content) ∧
        ∀ i o s', (system Bool).step s (.op i o) = .next s' →
          (s'.buffer i).buffer.length ≠ (s.buffer i).buffer.length →
            ∃ len, o.room = some len ∧ (s.buffer i).writableBytes +
              (s.buffer i).prependableBytes < len + Buffer.kCheapPrepend := by
  refine ⟨?_, byte_deque (fresh_init fun _ => 4)⟩
  have hrun : ((system Bool).exec (fresh fun _ => 4) [.op true (.append [1, 2, 3]),
      .op true (.retrieve 2), .op true (.append [4, 5, 6]), .op true (.prepend [7, 8]),
      .op true (.append [9]), .swap true false, .op false (.retrieveAsString 2)]).Leads
      fun s => (s.buffer false).content = [3, 4, 5, 6, 9] ∧ (s.buffer true).content = [] ∧
        s.strings = [[7, 8]] ∧ (s.buffer false).buffer.length = 13 := by
    decide +kernel
  exact hrun

end Buffers

end Leven
