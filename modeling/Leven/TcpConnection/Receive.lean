import Leven.Buffer.Basic
import Leven.TcpConnection.Effect
import Leven.Transition.System

/-!
# The incoming byte stream

`handleRead` with the input buffer as it lies in memory, and the runs of it: `::readv` answers what
it likes within the areas it is offered, the message callback retrieves what it likes of the readable
bytes, and between two calls anything may happen to the rest of the connection.

* `Receiver`: a connection with its `Buffer`, and records of what has gone in and out;
* `handleRead_eq`: `handleRead` on the buffer is `TcpConnection.handleRead` on its readable bytes;
* `Receiver.Kept`: nothing is lost, doubled or out of order;
* `received_in_order`: the law.
-/

namespace Leven

open Transition

/-- What `::readv` delivers. -/
def ReadResult.bytes : ReadResult → Bytes
  | .error _ => []
  | .data bytes => bytes

/-- What ends a run. -/
inductive ReceiveFault
  | connection (a : Assertion)
  | buffer (a : Buffer.Assertion)
  deriving DecidableEq

/-- A connection whose input buffer is a `Buffer`: of `conn` the other members count. -/
structure Receiver where
  conn : TcpConnection
  inputBuffer : Buffer
  /-- what `::readv` has delivered -/
  delivered : Bytes
  /-- what the message callbacks have retrieved -/
  retrieved : Bytes

namespace Receiver

/-- The steps. -/
inductive Label
  /-- `handleRead`, with the answer of `::readv` and the lengths that the message callback retrieves -/
  | handleRead (extrabuf : Buffer.ExtraBuf) (r : ReadResult) (lens : List ℕ)
  /-- the other members change -/
  | other (conn : TcpConnection)

/-- The connection, with the readable bytes for the buffer. -/
def connection (s : Receiver) : TcpConnection := { s.conn with inputBuffer := s.inputBuffer.content }

/-- A member function that leaves the input buffer alone. -/
def onConn (f : TcpConnection → TcpConnection.Result) (s : Receiver) :
    Outcome ReceiveFault (Receiver × List Event) :=
  (Outcome.ofExcept ((f s.conn).map fun (c, l) => ({ s with conn := c }, l))).mapFailed .connection

/-- `TcpConnection::handleRead`, up to the message callback. -/
def handleRead (extrabuf : Buffer.ExtraBuf) (r : ReadResult) (s : Receiver) :
    Outcome ReceiveFault (Receiver × List Event) :=
  if s.conn.state = .kDisconnected then .failed (.connection .handleRead)
  else ((Outcome.ofExcept (s.inputBuffer.readFd extrabuf r)).mapFailed ReceiveFault.buffer).bind
    fun (b, n) =>
      let s := { s with inputBuffer := b, delivered := s.delivered ++ r.bytes }
      if n = -1 then s.onConn fun c => c.handleError.after [.readFd]
      else if n = 0 then s.onConn fun c => c.handleClose.after [.readFd]
      else .next (s, [.readFd, .messageCallback])

/-- A message callback that retrieves strings of the lengths `lens`. -/
def messageCallback : List ℕ → Receiver → Outcome ReceiveFault Receiver
  | [], s => .next s
  | len :: lens, s =>
    ((Outcome.ofExcept (s.inputBuffer.retrieveAsString len)).mapFailed ReceiveFault.buffer).bind
      fun (b, result) =>
        messageCallback lens { s with inputBuffer := b, retrieved := s.retrieved ++ result }

/-- The step function.  `::readv` answers at most what it is offered, and the callback retrieves at
most what is readable. -/
def step (s : Receiver) : Label → Outcome ReceiveFault Receiver
  | .handleRead extrabuf r lens =>
    .guard (r.bytes.length ≤ s.inputBuffer.offered ∧
        lens.sum ≤ s.inputBuffer.readableBytes + r.bytes.length) <|
      (s.handleRead extrabuf r).bind fun (s, l) =>
        if .messageCallback ∈ l then s.messageCallback lens else .next s
  | .other conn => .next { s with conn := conn }

/-- Any layout of the input buffer. -/
def Init (s : Receiver) : Prop :=
  s.inputBuffer.WellFormed ∧ s.delivered = [] ∧ s.retrieved = []

def system : System Receiver Label ReceiveFault where
  init := Init
  step := step

variable {s s' s₀ : Receiver} {lab : Label} {r : ReadResult}
  {lens : List ℕ} {l : List Event} {bytes : Bytes} {f : TcpConnection → TcpConnection.Result}

/-! ### `handleRead` -/

/-- The outcome `o` is that of the connection, and `P` holds of the state afterwards. -/
def Follows (o : Outcome ReceiveFault (Receiver × List Event)) (r : TcpConnection.Result)
    (P : Receiver → Prop) : Prop :=
  match r with
  | .ok (c, l) => ∃ s, o = .next (s, l) ∧ s.connection = c ∧ P s
  | .error a => o = .failed (.connection a)

theorem Follows.mono {o : Outcome ReceiveFault (Receiver × List Event)} {r : TcpConnection.Result}
    {P Q : Receiver → Prop} (h : Follows o r P) (hpq : ∀ s, P s → Q s) : Follows o r Q := by
  cases r with
  | error a => exact h
  | ok p =>
    obtain ⟨s, ho, hc, hp⟩ := h
    exact ⟨s, ho, hc, hpq s hp⟩

/-- A member function that does not look at the input buffer does on the rest of the connection what
it does on the whole of it. -/
theorem onConn_follows (hf : ∀ c q, f { c with inputBuffer := q } =
    (f c).map fun (c, l) => ({ c with inputBuffer := q }, l)) :
    Follows (s.onConn f) (f s.connection) fun s' => s' = { s with conn := s'.conn } := by
  rw [connection, hf]
  unfold onConn
  cases f s.conn with
  | error a => rfl
  | ok p => exact ⟨{ s with conn := p.1 }, rfl, rfl, rfl⟩

theorem handleError_inputBuffer (c : TcpConnection) (q : Bytes) :
    { c with inputBuffer := q }.handleError.after [.readFd] =
      (c.handleError.after [.readFd]).map fun (c, l) => ({ c with inputBuffer := q }, l) := rfl

theorem handleClose_inputBuffer (c : TcpConnection) (q : Bytes) :
    { c with inputBuffer := q }.handleClose.after [.readFd] =
      (c.handleClose.after [.readFd]).map fun (c, l) => ({ c with inputBuffer := q }, l) := by
  simp only [TcpConnection.handleClose, TcpConnection.onChannel]
  split_ifs with hc
  · cases Channel.disableAll c.channel <;> rfl
  · rfl

/-- `handleRead` with the buffer is `handleRead` with its readable bytes. -/
theorem handleRead_follows (h : s.inputBuffer.WellFormed)
    (hn : r.bytes.length ≤ s.inputBuffer.offered) (extrabuf : Buffer.ExtraBuf) :
    Follows (s.handleRead extrabuf r) (s.connection.handleRead r) fun s' =>
      s'.inputBuffer.WellFormed ∧ s'.inputBuffer.content = s.inputBuffer.content ++ r.bytes ∧
        s'.delivered = s.delivered ++ r.bytes ∧ s'.retrieved = s.retrieved := by
  unfold handleRead TcpConnection.handleRead
  by_cases hd : s.conn.state = .kDisconnected
  · rw [if_pos hd, if_pos (show s.connection.state = _ from hd)]
    rfl
  rw [if_neg hd, if_neg (show s.connection.state ≠ _ from hd)]
  cases r with
  | error e =>
    refine (onConn_follows (s := { s with delivered := s.delivered ++ [] })
      (f := fun c => c.handleError.after [.readFd]) handleError_inputBuffer).mono fun s' hs' => ?_
    rw [hs']
    exact ⟨h, (List.append_nil _).symm, rfl, rfl⟩
  | data bytes =>
    have hread : ∃ b, s.inputBuffer.readFd extrabuf (.data bytes) = .ok (b, bytes.length) ∧
        b.WellFormed ∧ b.content = s.inputBuffer.content ++ bytes := h.readFd hn extrabuf
    obtain ⟨b, hb, hw, hc⟩ := hread
    rw [hb]
    cases bytes with
    | nil =>
      have hconn : s.connection = { s with inputBuffer := b }.connection := by
        rw [connection, connection, hc]
        exact congrArg (fun q => { s.conn with inputBuffer := q }) (List.append_nil _).symm
      simp only [hconn]
      refine (onConn_follows (s := { s with inputBuffer := b, delivered := s.delivered ++ [] })
        (f := fun c => c.handleClose.after [.readFd]) handleClose_inputBuffer).mono fun s' hs' => ?_
      rw [hs']
      exact ⟨hw, hc, rfl, rfl⟩
    | cons a as =>
      refine ⟨{ s with inputBuffer := b, delivered := s.delivered ++ a :: as }, ?_, ?_, hw, hc, rfl,
        rfl⟩
      · have hneg : (((a :: as).length : ℕ) : ℤ) ≠ -1 := by omega
        have hpos : (((a :: as).length : ℕ) : ℤ) ≠ 0 := by
          rw [List.length_cons]
          omega
        simp only [Outcome.ofExcept, Outcome.mapFailed, Outcome.bind, if_neg hneg, if_neg hpos]
        rfl
      · rw [connection, hc]
        rfl

/-! ### The runs -/

/-- Nothing is lost, doubled or out of order since the state `s₀`. -/
structure Kept (s₀ s : Receiver) : Prop where
  wellFormed : s.inputBuffer.WellFormed
  bytes : s.retrieved ++ s.inputBuffer.content = s₀.inputBuffer.content ++ s.delivered

/-- The message callback moves bytes from the buffer to its own. -/
theorem messageCallback_spec (h : s.inputBuffer.WellFormed)
    (hlens : lens.sum ≤ s.inputBuffer.readableBytes) :
    ∃ s', s.messageCallback lens = .next s' ∧ s'.inputBuffer.WellFormed ∧
      s'.delivered = s.delivered ∧
      s'.retrieved ++ s'.inputBuffer.content = s.retrieved ++ s.inputBuffer.content := by
  induction lens generalizing s with
  | nil => exact ⟨s, rfl, h, rfl, rfl⟩
  | cons len lens ih =>
    rw [List.sum_cons] at hlens
    obtain ⟨b, hb, hw, hc, -⟩ := h.retrieveAsString (show len ≤ _ by omega)
    have hrest : lens.sum ≤ b.readableBytes := by
      rw [← hw.length_content, hc, List.length_drop, h.length_content]
      omega
    obtain ⟨s', hs', hw', hd', he'⟩ := ih (s := { s with
      inputBuffer := b, retrieved := s.retrieved ++ s.inputBuffer.content.take len }) hw hrest
    refine ⟨s', ?_, hw', hd', ?_⟩
    · rw [messageCallback, hb]
      exact hs'
    · rw [he', hc, List.append_assoc, List.take_append_drop]

/-- The outcome keeps the bytes, or is an assertion of the connection. -/
def Keeps (s₀ : Receiver) : Outcome ReceiveFault Receiver → Prop
  | .next s => Kept s₀ s
  | .blocked => True
  | .failed f => ∃ a, f = .connection a

theorem Kept.messageCallback (hk : Kept s₀ s) (hlens : lens.sum ≤ s.inputBuffer.readableBytes) :
    Keeps s₀ (s.messageCallback lens) := by
  obtain ⟨s', hs', hw, hd, he⟩ := messageCallback_spec hk.wellFormed hlens
  rw [hs']
  exact ⟨hw, by rw [he, hd, hk.bytes]⟩

theorem Kept.step (hk : Kept s₀ s) (lab : Label) : Keeps s₀ (s.step lab) := by
  cases lab with
  | other conn => exact ⟨hk.wellFormed, hk.bytes⟩
  | handleRead extrabuf r lens =>
    rw [Receiver.step, Outcome.guard]
    split_ifs with hg
    · have hf := handleRead_follows (r := r) hk.wellFormed hg.1 extrabuf
      cases hr : s.connection.handleRead r with
      | error a =>
        rw [hr] at hf
        rw [hf]
        exact ⟨a, rfl⟩
      | ok p =>
        rw [hr] at hf
        obtain ⟨s₁, hs₁, -, hw, hc, hd, he⟩ := hf
        have hk₁ : Kept s₀ s₁ :=
          ⟨hw, by rw [he, hc, hd, ← List.append_assoc, hk.bytes, List.append_assoc]⟩
        have hlens : lens.sum ≤ s₁.inputBuffer.readableBytes := by
          rw [← hw.length_content, hc, List.length_append, hk.wellFormed.length_content]
          exact hg.2
        rw [hs₁]
        simp only [Outcome.bind]
        split_ifs
        · exact hk₁.messageCallback hlens
        · exact hk₁
    · trivial

theorem Kept.of_run (h0 : s₀.Init) (hr : system.RunIf (fun _ _ => True) s₀ s) : Kept s₀ s := by
  obtain ⟨hw, hd, he⟩ := h0
  refine hr.invariant (I := Kept s₀) (fun t lab t' ht _ h => ?_) ⟨hw, by rw [hd, he]; simp⟩
  have hkeeps := ht.step lab
  rwa [show t.step lab = .next t' from h] at hkeeps

/-- **Incoming bytes reach the application once and in order.**  In every run from any layout of the
input buffer: what the message callbacks have retrieved, followed by the readable bytes, is what was
readable at the start, followed by what `::readv` has delivered; no assertion of the buffer fails;
and on the readable bytes `readFd` does what `append` does, or nothing when `::readv` fails. -/
theorem received_in_order (h0 : s₀.Init) (hr : system.RunIf (fun _ _ => True) s₀ s) :
    s.retrieved ++ s.inputBuffer.content = s₀.inputBuffer.content ++ s.delivered ∧
    (∀ lab a, system.step s lab ≠ .failed (.buffer a)) ∧
    (∀ extrabuf bytes, bytes.length ≤ s.inputBuffer.offered →
      ∃ b b', s.inputBuffer.readFd extrabuf (.data bytes) = .ok (b, bytes.length) ∧
        s.inputBuffer.append bytes = .ok b' ∧ b.content = b'.content) ∧
    ∀ extrabuf e, s.inputBuffer.readFd extrabuf (.error e) = .ok (s.inputBuffer, -1) := by
  have hk := Kept.of_run h0 hr
  refine ⟨hk.bytes, fun lab a h => ?_, fun extrabuf bytes hn => ?_, fun _ _ => rfl⟩
  · have hkeeps := hk.step lab
    rw [show s.step lab = _ from h] at hkeeps
    obtain ⟨b, hb⟩ := hkeeps
    cases hb
  · obtain ⟨b, hb, -, hc⟩ := hk.wellFormed.readFd hn extrabuf
    obtain ⟨b', hb', -, hc', -⟩ := hk.wellFormed.append bytes
    exact ⟨b, b', hb, hb', hc.trans hc'.symm⟩

/-- A connection whose input buffer has one readable byte and two that are writable. -/
def narrow : Receiver where
  conn := { TcpConnection.new 5 false false 0 with state := .kConnected }
  inputBuffer := ⟨[0, 0, 0, 0, 0, 0, 0, 1, 0, 0], 7, 8⟩
  delivered := []
  retrieved := []

/-- Five bytes are read into it, of which three make a detour over the stack. -/
theorem received_in_order_narrow :
    ∃ s, narrow.Init ∧ system.RunIf (fun _ _ => True) narrow s ∧
      s.retrieved = [1, 2, 3] ∧ s.inputBuffer.content = [4, 5, 6] ∧
      s.delivered = [2, 3, 4, 5, 6] ∧
      s.retrieved ++ s.inputBuffer.content = narrow.inputBuffer.content ++ s.delivered ∧
      (∀ lab a, system.step s lab ≠ .failed (.buffer a)) ∧
      (∀ extrabuf bytes, bytes.length ≤ s.inputBuffer.offered →
        ∃ b b', s.inputBuffer.readFd extrabuf (.data bytes) = .ok (b, bytes.length) ∧
          s.inputBuffer.append bytes = .ok b' ∧ b.content = b'.content) ∧
      ∀ extrabuf e, s.inputBuffer.readFd extrabuf (.error e) = .ok (s.inputBuffer, -1) := by
  have hinit : narrow.Init := ⟨⟨by decide, by decide, by decide⟩, rfl, rfl⟩
  have hrun : (system.exec narrow [.handleRead ⟨List.replicate Buffer.sizeofExtrabuf 0,
      List.length_replicate⟩ (.data [2, 3, 4, 5, 6]) [2, 1]]).Leads fun s =>
        s.retrieved = [1, 2, 3] ∧ s.inputBuffer.content = [4, 5, 6] ∧
          s.delivered = [2, 3, 4, 5, 6] := by
    decide +kernel
  obtain ⟨s, hs, hret, hcont, hdel⟩ := hrun
  exact ⟨s, hinit, System.runIf_of_exec hs, hret, hcont, hdel,
    received_in_order hinit (System.runIf_of_exec hs)⟩

end Receiver
end Leven
