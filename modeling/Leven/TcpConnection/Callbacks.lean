import Leven.TcpConnection.Events

/-!
# What the server sees of a call

The close callback comes with the change to `kDisconnected` and with no other, and the flag
`handlingEvents_` changes in the first and in the last stage of a dispatch only.

* `Served`: the guarantee of every member function about the close callback;
* `call_served`, `runJob_served`, `handleStage_served`; `call_handling`, `runJob_handling`,
  `handleStage_handling`;
* `call_ofConnection`, `runJob_ofConnection`, `handleStage_ofConnection`: a member function trips
  assertions of the connection only.
-/

namespace Leven

/-- The events that close the connection or call the user or the server. -/
@[simp] def Event.isCallback : Event → Bool
  | .closed | .closeCallback | .messageCallback => true
  | .writeCompleteCallback | .highWaterMarkCallback _ => true
  | _ => false

/-- The assertions of the member functions of a connection and its channel. -/
@[simp] def Assertion.ofConnection : Assertion → Bool
  | .updateChannel | .connectEstablished | .sendInLoop | .shutdown => true
  | .handleRead | .handleWriteReadable | .handleWriteWriting | .handleClose => true
  | _ => false

/-- The close callback comes exactly with the change to `kDisconnected`. -/
structure Served (c c' : TcpConnection) (l : List Event) : Prop where
  close : .closeCallback ∈ l ↔ c.state ≠ .kDisconnected ∧ c'.state = .kDisconnected
  stays : c.state = .kDisconnected → c'.state = .kDisconnected
  fd : c'.channel.fd = c.channel.fd

variable {c c' : TcpConnection} {l : List Event} {b : Bool} {t : Pid} {k : ℕ} {data : Bytes}
  {r : ReadResult} {w : WriteResult} {a : Assertion}

/-- Before and after the close callback there is the event `closed`. -/
theorem Effect.served (e : Effect c c' l) (h : .closeCallback ∈ l ↔ .closed ∈ l) :
    Served c c' l where
  close := h.trans e.closed
  stays hd := by
    have hm := e.mono
    cases hs : c'.state <;> simp [hd, hs, ConnectionState.value] at hm ⊢
  fd := e.fd

namespace TcpConnection

/-! ### The close callback -/

theorem isCallback_of_ofSend {e : Event} (h : e.ofSend = true) : e.isCallback = false := by
  cases e <;> simp at h ⊢

theorem isCallback_of_ofCall {e : Event} (h : e.ofCall t = true) : e.isCallback = false := by
  cases e <;> simp at h ⊢

/-- A call by the user runs no callback and does not close the connection. -/
theorem call_isCallback {op : Op} (h : c.call b t k op = .ok (c', l)) :
    ∀ e ∈ l, e.isCallback = false := by
  by_cases hop : ∃ d w, op = .send d w
  · obtain ⟨d, w, rfl⟩ := hop
    obtain ⟨-, -, rfl⟩ | ⟨-, -, m, -, rfl, hm⟩ | ⟨-, -, -, rfl⟩ := send_cases h
    · simp
    · simpa using fun e he => isCallback_of_ofSend (hm e he)
    · simp
  · exact fun e he => isCallback_of_ofCall (call_events (fun d w he => hop ⟨d, w, he⟩) h e he)

/-- Without a callback there is neither of the two events. -/
theorem close_iff_closed (hl : ∀ e ∈ l, e.isCallback = false) :
    .closeCallback ∈ l ↔ .closed ∈ l :=
  iff_of_false (fun h => absurd (hl _ h) (by simp)) (fun h => absurd (hl _ h) (by simp))

theorem call_served {op : Op} (h : c.call b t k op = .ok (c', l)) : Served c c' l :=
  (call_growth h).toEffect.served (close_iff_closed (call_isCallback h))

theorem runJob_served {j : Job} (h : c.runJob j w = .ok (c', l)) : Served c c' l := by
  refine (runJob_growth h).toEffect.served ?_
  cases j with
  | sendInLoop u i d =>
    obtain ⟨m, rfl, hm⟩ := sendInLoop_events h
    simpa using close_iff_closed fun e he => isCallback_of_ofSend (hm e he)
  | shutdownInLoop => obtain ⟨-, ⟨-, -, rfl⟩ | rfl⟩ := shutdownInLoop_cases h <;> simp
  | forceCloseInLoop =>
    obtain ⟨-, h⟩ | ⟨-, -, rfl⟩ := forceCloseInLoop_cases h
    · obtain ⟨-, -, rfl⟩ := handleClose_cases h; simp
    · simp
  | writeComplete | highWaterMark len => cases h; simp
  | stopRead => obtain ⟨-, -, rfl⟩ | ⟨-, -, rfl⟩ := stopReadInLoop_cases h <;> simp
  | startRead => obtain ⟨-, -, rfl⟩ | ⟨-, -, rfl⟩ := startReadInLoop_cases h <;> simp

theorem handleWrite_isCallback (h : c.handleWrite w = .ok (c', l)) :
    ∀ e ∈ l, e.isCallback = false := by
  obtain ⟨-, rfl, rfl⟩ | ⟨-, -, ⟨e, -, -, rfl⟩ | ⟨m, -, -, -, rfl⟩ | ⟨m, -, -, -, rfl⟩⟩ :=
    handleWrite_cases h
  · simp
  · simp
  · simp
  · split_ifs <;> simp

theorem handleStage_served {st : Stage} (h : c.handleStage st r w = .ok (c', l)) :
    Served c c' l := by
  refine (handleStage_effect h).served ?_
  cases StageStep.of_handleStage h with
  | idle => simp
  | close _ h => obtain ⟨-, -, rfl⟩ := handleClose_cases h; simp
  | read _ h =>
    obtain ⟨-, ⟨-, rfl⟩ | ⟨m, hm, rfl⟩ | ⟨bytes, -, rfl⟩⟩ := handleRead_cases h
    · simp
    · obtain ⟨-, -, rfl⟩ := handleClose_cases hm; simp
    · simp
  | write _ h => exact close_iff_closed (handleWrite_isCallback h)

/-! ### A new connection -/

theorem connectEstablished_state (h : c.connectEstablished = .ok (c', l)) :
    c'.state = .kConnected := by
  unfold connectEstablished at h
  split_ifs at h
  obtain ⟨rfl, -⟩ := onChannel_cases h rfl
  rfl

/-! ### The flag of the dispatch -/

theorem sendInLoop_handling (h : c.sendInLoop t k data w = .ok (c', l)) :
    c'.channel.handlingEvents = c.channel.handlingEvents := by
  unfold sendInLoop at h
  split_ifs at h with hd
  · cases h; rfl
  cases hw : c.writeDirect data w with
  | error a => simp [hw] at h
  | ok p =>
    obtain ⟨n, faultError, m⟩ := p
    simp only [hw] at h
    split_ifs at h
    · obtain ⟨m', hb, -⟩ := Result.after_eq_ok.1 h
      obtain ⟨rfl, -⟩ := bufferRest_cases hb
      rfl
    · cases h; rfl

theorem connectEstablished_handling (h : c.connectEstablished = .ok (c', l)) :
    c'.channel.handlingEvents = c.channel.handlingEvents := by
  unfold connectEstablished at h
  split_ifs at h
  obtain ⟨rfl, -⟩ := onChannel_cases h rfl
  rfl

theorem stopReadInLoop_handling (h : c.stopReadInLoop = .ok (c', l)) :
    c'.channel.handlingEvents = c.channel.handlingEvents := by
  obtain ⟨-, rfl, -⟩ | ⟨-, rfl, -⟩ := stopReadInLoop_cases h <;> rfl

theorem startReadInLoop_handling (h : c.startReadInLoop = .ok (c', l)) :
    c'.channel.handlingEvents = c.channel.handlingEvents := by
  obtain ⟨-, rfl, -⟩ | ⟨-, rfl, -⟩ := startReadInLoop_cases h <;> rfl

theorem call_handling {op : Op} (h : c.call b t k op = .ok (c', l)) :
    c'.channel.handlingEvents = c.channel.handlingEvents := by
  cases op with
  | send d w =>
    obtain ⟨-, rfl, -⟩ | ⟨-, -, m, hm, -, -⟩ | ⟨-, -, rfl, -⟩ := send_cases h
    · rfl
    · exact sendInLoop_handling hm
    · rfl
  | shutdown => obtain ⟨-, rfl, -⟩ := shutdown_cases h; rfl
  | forceClose => obtain ⟨-, rfl, -⟩ | ⟨-, rfl, -⟩ := forceClose_cases h <;> rfl
  | stopRead =>
    obtain ⟨-, h⟩ | ⟨-, rfl, -⟩ := stopRead_cases h
    · exact stopReadInLoop_handling h
    · rfl
  | startRead =>
    obtain ⟨-, h⟩ | ⟨-, rfl, -⟩ := startRead_cases h
    · exact startReadInLoop_handling h
    · rfl
  | setWriteCompleteCallback | setHighWaterMarkCallback mark | retrieveInput n => cases h; rfl

theorem handleClose_handling (h : c.handleClose = .ok (c', l)) :
    c'.channel.handlingEvents = c.channel.handlingEvents := by
  obtain ⟨-, rfl, -⟩ := handleClose_cases h
  rfl

theorem runJob_handling {j : Job} (h : c.runJob j w = .ok (c', l)) :
    c'.channel.handlingEvents = c.channel.handlingEvents := by
  cases j with
  | sendInLoop u i d => exact sendInLoop_handling h
  | shutdownInLoop => obtain ⟨rfl, -⟩ := shutdownInLoop_cases h; rfl
  | forceCloseInLoop =>
    obtain ⟨-, h⟩ | ⟨-, rfl, -⟩ := forceCloseInLoop_cases h
    · exact handleClose_handling h
    · rfl
  | writeComplete | highWaterMark len => cases h; rfl
  | stopRead => exact stopReadInLoop_handling h
  | startRead => exact startReadInLoop_handling h

/-- Behind the last stage the flag is down. -/
theorem handleStage_handling (h : c.handleStage .write r w = .ok (c', l)) :
    c'.channel.handlingEvents = false := by
  simp only [handleStage, Result.andThen_eq_ok, Except.ok.injEq, Prod.mk.injEq] at h
  obtain ⟨d, m, m', -, ⟨rfl, -⟩, -⟩ := h
  rfl

/-! ### The assertions -/

theorem onChannel_error {f : Channel → Except Assertion (Channel × EpollCtl)}
    (hf : ∀ ch, f ch = .error a → a = .updateChannel) (h : c.onChannel f = .error a) :
    a.ofConnection = true := by
  rw [hf _ (onChannel_eq_error.1 h)]
  rfl

theorem update_error {ch : Channel} (h : ch.update = .error a) : a = .updateChannel := by
  unfold Channel.update Epoller.updateChannel at h
  split_ifs at h
  cases h
  rfl

theorem connectEstablished_ofConnection (h : c.connectEstablished = .error a) :
    a.ofConnection = true := by
  unfold connectEstablished at h
  split_ifs at h
  · exact onChannel_error (fun ch he => update_error he) h
  · cases h; rfl

theorem andThen_error {r : Result} {f : TcpConnection → Result} (h : r.andThen f = .error a) :
    r = .error a ∨ ∃ c l, r = .ok (c, l) ∧ f c = .error a := by
  cases hr : r with
  | error b => rw [hr] at h; cases h; exact .inl rfl
  | ok p => rw [hr, Result.andThen_ok, Result.after_eq_error] at h; exact .inr ⟨p.1, p.2, rfl, h⟩

theorem shutdownInLoop_no_error : c.shutdownInLoop ≠ .error a := by
  unfold shutdownInLoop
  split_ifs <;> simp

theorem sendInLoop_error (h : c.sendInLoop t k data w = .error a) : a.ofConnection = true := by
  unfold sendInLoop at h
  split_ifs at h with hd
  cases hw : c.writeDirect data w with
  | error b =>
    rw [hw] at h
    cases h
    unfold writeDirect at hw
    split_ifs at hw
    · cases hw; rfl
    · cases w <;> dsimp only at hw <;> split_ifs at hw
  | ok p =>
    rw [hw] at h
    dsimp only at h
    split_ifs at h with hr
    rw [Result.after_eq_error, bufferRest, Result.after_eq_error] at h
    exact onChannel_error (fun ch he => update_error he) h

theorem handleClose_ofConnection (h : c.handleClose = .error a) : a.ofConnection = true := by
  unfold handleClose at h
  split_ifs at h
  · rcases andThen_error h with h | ⟨d, m, -, h⟩
    · rw [Result.after_eq_error] at h
      exact onChannel_error (fun ch he => update_error he) h
    · cases h
  · cases h; rfl

theorem stopReadInLoop_error (h : c.stopReadInLoop = .error a) : a.ofConnection = true := by
  unfold stopReadInLoop at h
  split_ifs at h
  rw [Result.after_eq_error] at h
  exact onChannel_error (fun ch he => update_error he) h

theorem startReadInLoop_error (h : c.startReadInLoop = .error a) : a.ofConnection = true := by
  unfold startReadInLoop at h
  split_ifs at h
  rw [Result.after_eq_error] at h
  exact onChannel_error (fun ch he => update_error he) h

theorem call_ofConnection {op : Op} (h : c.call b t k op = .error a) : a.ofConnection = true := by
  cases op with
  | send d w =>
    simp only [call, send] at h
    split_ifs at h
    rw [Result.after_eq_error] at h
    exact sendInLoop_error h
  | shutdown =>
    simp only [call, shutdown] at h
    split_ifs at h
    · rw [Result.after_eq_error] at h
      exact absurd h shutdownInLoop_no_error
    · cases h; rfl
  | forceClose =>
    simp only [call, forceClose] at h
    split_ifs at h
  | stopRead =>
    simp only [call, stopRead] at h
    split_ifs at h
    exact stopReadInLoop_error h
  | startRead =>
    simp only [call, startRead] at h
    split_ifs at h
    exact startReadInLoop_error h
  | setWriteCompleteCallback | setHighWaterMarkCallback mark | retrieveInput n => cases h

theorem runJob_ofConnection {j : Job} (h : c.runJob j w = .error a) : a.ofConnection = true := by
  cases j with
  | sendInLoop u i d => exact sendInLoop_error h
  | shutdownInLoop => exact absurd h shutdownInLoop_no_error
  | forceCloseInLoop =>
    simp only [runJob, forceCloseInLoop] at h
    split_ifs at h
    exact handleClose_ofConnection h
  | writeComplete | highWaterMark len => cases h
  | stopRead => exact stopReadInLoop_error h
  | startRead => exact startReadInLoop_error h

theorem handleRead_ofConnection (h : c.handleRead r = .error a) : a.ofConnection = true := by
  unfold handleRead at h
  split_ifs at h
  · cases h; rfl
  · cases r with
    | error e => cases h
    | data bytes =>
      cases bytes with
      | nil => exact handleClose_ofConnection (Result.after_eq_error.1 h)
      | cons x bytes => cases h

theorem writeFinished_ofConnection (h : c.writeFinished = .error a) : a.ofConnection = true := by
  rcases andThen_error h with h | ⟨d, m, -, h⟩
  · rcases andThen_error h with h | ⟨d, m, -, h⟩
    · exact onChannel_error (fun ch he => update_error he) h
    · split_ifs at h
      exact absurd h shutdownInLoop_no_error
  · cases h

theorem handleWrite_ofConnection (h : c.handleWrite w = .error a) : a.ofConnection = true := by
  unfold handleWrite at h
  split_ifs at h
  · cases h; rfl
  · cases w with
    | error e => cases h
    | wrote m =>
      dsimp only at h
      split_ifs at h
      exact writeFinished_ofConnection (Result.after_eq_error.1 h)
  · cases h; rfl

theorem handleStage_ofConnection {st : Stage} (h : c.handleStage st r w = .error a) :
    a.ofConnection = true := by
  cases st with
  | close =>
    simp only [handleStage] at h
    split_ifs at h
    exact handleClose_ofConnection h
  | error =>
    simp only [handleStage, handleError] at h
    split_ifs at h
  | read =>
    simp only [handleStage] at h
    split_ifs at h
    exact handleRead_ofConnection h
  | write =>
    simp only [handleStage] at h
    rcases andThen_error h with h | ⟨d, m, -, h⟩
    · split_ifs at h
      exact handleWrite_ofConnection h
    · cases h

end TcpConnection
end Leven
