import Leven.TcpConnection.Effect

/-!
# Which events and which failures a call can have

For each family of member functions a table of the events it can have (`Event.ofSend`,
`Event.ofCall`, `Event.ofJob`, `Event.ofHandler`), and the assertions it can trip on a connection
that satisfies `Sound` and `Polled`:

* a call by the user trips only the assertion of `shutdown`;
* a closure trips none;
* a handler trips only those of `handleRead` and `handleClose`, and none of them while the
  connection is not disconnected.
-/

namespace Leven

/-- The events of `sendInLoop` behind its entry. -/
@[simp] def Event.ofSend : Event → Bool
  | .write _ | .writeError _ | .faultError | .epollCtl _ => true
  | .queueInLoop .writeComplete | .queueInLoop (.highWaterMark _) => true
  | _ => false

/-- The events of the calls of a thread other than `send`. -/
@[simp] def Event.ofCall (t : Pid) : Event → Bool
  | .shutdown u => u = t
  | .shutdownWr | .epollCtl _ | .stopRead | .startRead => true
  | .queueInLoop .shutdownInLoop | .queueInLoop .forceCloseInLoop => true
  | .queueInLoop .stopRead | .queueInLoop .startRead => true
  | _ => false

/-- The events of the closures other than `sendInLoop`. -/
@[simp] def Event.ofJob : Event → Bool
  | .shutdownWr | .epollCtl _ | .closed | .closeCallback | .stopRead | .startRead => true
  | .writeCompleteCallback | .highWaterMarkCallback _ => true
  | _ => false

/-- The events of the handlers. -/
@[simp] def Event.ofHandler : Event → Bool
  | .readFd | .messageCallback | .closed | .closeCallback | .epollCtl _ => true
  | .write _ | .writeError _ | .shutdownWr | .queueInLoop .writeComplete => true
  | _ => false

/-- A channel with events is registered. -/
def TcpConnection.Polled (c : TcpConnection) : Prop :=
  c.channel.events ≠ ∅ → c.channel.polling = true

namespace TcpConnection

variable {c c' : TcpConnection} {l : List Event} {a : Assertion} {b : Bool} {t : Pid} {k : ℕ}
  {data : Bytes} {r : ReadResult} {w : WriteResult}

/-! ### Events -/

theorem writeDirect_events {n : ℕ} {faultError : Bool}
    (h : c.writeDirect data w = .ok (n, faultError, l)) : ∀ e ∈ l, e.ofSend = true := by
  unfold writeDirect at h
  split_ifs at h with hw hb
  · cases h; simp
  · cases w with
    | error e => dsimp only at h; split_ifs at h <;> cases h <;> simp
    | wrote m => dsimp only at h; split_ifs at h <;> cases h <;> simp

theorem sendInLoop_events (h : c.sendInLoop t k data w = .ok (c', l)) :
    ∃ m, l = .sendInLoop t k data :: m ∧ ∀ e ∈ m, e.ofSend = true := by
  unfold sendInLoop at h
  split_ifs at h with hd
  · cases h; exact ⟨[], rfl, by simp⟩
  cases hw : c.writeDirect data w with
  | error a => simp [hw] at h
  | ok p =>
    obtain ⟨n, faultError, m⟩ := p
    have hm := writeDirect_events hw
    simp only [hw] at h
    split_ifs at h with hr
    · obtain ⟨m', hb, rfl⟩ := Result.after_eq_ok.1 h
      obtain ⟨-, rfl⟩ := bufferRest_cases hb
      refine ⟨_, rfl, fun e he => ?_⟩
      rcases List.mem_append.1 he with he | he
      · exact hm e he
      · rcases highWater_cases (data.drop n) c with hw | ⟨len, hw⟩ <;> simp [hw] at he <;>
          aesop
    · cases h; exact ⟨m, rfl, hm⟩

/-- `send` gives up, runs `sendInLoop` or hands it to the loop. -/
theorem send_cases (h : c.send b t k data w = .ok (c', l)) :
    (c.state ≠ .kConnected ∧ c' = c ∧ l = []) ∨
    (c.state = .kConnected ∧ b = true ∧
      ∃ m, c.sendInLoop t k data w = .ok (c', .sendInLoop t k data :: m) ∧
        l = .send t k data :: .sendInLoop t k data :: m ∧ ∀ e ∈ m, e.ofSend = true) ∨
    (c.state = .kConnected ∧ b = false ∧ c' = c ∧
      l = [.send t k data, .queueInLoop (.sendInLoop t k data)]) := by
  unfold send at h
  split_ifs at h with hc hb
  · cases h; exact .inl ⟨hc, rfl, rfl⟩
  · obtain ⟨m, hm, rfl⟩ := Result.after_eq_ok.1 h
    obtain ⟨m', rfl, he⟩ := sendInLoop_events hm
    exact .inr (.inl ⟨not_not.1 hc, hb, m', hm, rfl, he⟩)
  · cases h; exact .inr (.inr ⟨not_not.1 hc, by simpa using hb, rfl, rfl⟩)

theorem stopReadInLoop_cases (h : c.stopReadInLoop = .ok (c', l)) :
    (c.channel.isReading ∧
      c' = { c with channel := c.channel.setEvents (c.channel.events \ {.epollin}) } ∧
      l = [.stopRead, .epollCtl (c.channel.ctl (c.channel.events \ {.epollin}))]) ∨
    (¬ c.channel.isReading ∧ c' = c ∧ l = [.stopRead]) := by
  unfold stopReadInLoop at h
  split_ifs at h with hr
  · obtain ⟨m, hm, rfl⟩ := Result.after_eq_ok.1 h
    obtain ⟨rfl, rfl⟩ := onChannel_cases hm rfl
    exact .inl ⟨hr, rfl, rfl⟩
  · cases h; exact .inr ⟨hr, rfl, rfl⟩

theorem startReadInLoop_cases (h : c.startReadInLoop = .ok (c', l)) :
    (¬ c.channel.isReading ∧
      c' = { c with channel := c.channel.setEvents (c.channel.events ∪ {.epollin, .epollpri}) } ∧
      l = [.startRead, .epollCtl (c.channel.ctl (c.channel.events ∪ {.epollin, .epollpri}))]) ∨
    (c.channel.isReading ∧ c' = c ∧ l = [.startRead]) := by
  unfold startReadInLoop at h
  split_ifs at h with hr
  · cases h; exact .inr ⟨hr, rfl, rfl⟩
  · obtain ⟨m, hm, rfl⟩ := Result.after_eq_ok.1 h
    obtain ⟨rfl, rfl⟩ := onChannel_cases hm rfl
    exact .inl ⟨hr, rfl, rfl⟩

theorem shutdown_cases (h : c.shutdown b t = .ok (c', l)) :
    c.state ≠ .kDisconnected ∧ c' = { c with state := .kDisconnecting } ∧
      ((c.state ≠ .kConnected ∧ l = [.shutdown t]) ∨
        (c.state = .kConnected ∧ b = false ∧ l = [.shutdown t, .queueInLoop .shutdownInLoop]) ∨
        (c.state = .kConnected ∧ b = true ∧ c.channel.isWriting ∧ l = [.shutdown t]) ∨
        (c.state = .kConnected ∧ b = true ∧ ¬ c.channel.isWriting ∧
          l = [.shutdown t, .shutdownWr])) := by
  unfold shutdown at h
  split_ifs at h with hv hc hb
  all_goals
    have hd : c.state ≠ .kDisconnected := by rintro he; simp [he, ConnectionState.value] at hv
  · obtain ⟨m, hm, rfl⟩ := Result.after_eq_ok.1 h
    obtain ⟨rfl, ⟨-, hw, rfl⟩ | rfl⟩ := shutdownInLoop_cases hm
    · exact ⟨hd, rfl, .inr (.inr (.inr ⟨hc, hb, hw, rfl⟩))⟩
    · refine ⟨hd, rfl, .inr (.inr (.inl ⟨hc, hb, ?_, rfl⟩))⟩
      by_contra hw
      unfold shutdownInLoop at hm
      rw [if_pos ⟨by simp, hw⟩] at hm
      cases hm
  · cases h; exact ⟨hd, rfl, .inr (.inl ⟨hc, by simpa using hb, rfl⟩)⟩
  · cases h; exact ⟨hd, rfl, .inl ⟨hc, rfl⟩⟩

theorem forceClose_cases (h : c.forceClose = .ok (c', l)) :
    (c.state ≠ .kDisconnected ∧ c' = { c with state := .kDisconnecting } ∧
      l = [.queueInLoop .forceCloseInLoop]) ∨ (c.state = .kDisconnected ∧ c' = c ∧ l = []) := by
  unfold forceClose at h
  split_ifs at h with hd <;> cases h
  · exact .inl ⟨hd, rfl, rfl⟩
  · exact .inr ⟨by simpa using hd, rfl, rfl⟩

theorem call_events {op : Op} (hop : ∀ data w, op ≠ .send data w)
    (h : c.call b t k op = .ok (c', l)) : ∀ e ∈ l, e.ofCall t = true := by
  cases op with
  | send data w => exact absurd rfl (hop data w)
  | shutdown =>
    obtain ⟨-, -, ⟨-, rfl⟩ | ⟨-, -, rfl⟩ | ⟨-, -, -, rfl⟩ | ⟨-, -, -, rfl⟩⟩ := shutdown_cases h <;>
      simp
  | forceClose => obtain ⟨-, -, rfl⟩ | ⟨-, -, rfl⟩ := forceClose_cases h <;> simp
  | stopRead =>
    obtain ⟨-, h⟩ | ⟨-, -, rfl⟩ := stopRead_cases h
    · obtain ⟨-, -, rfl⟩ | ⟨-, -, rfl⟩ := stopReadInLoop_cases h <;> simp
    · simp
  | startRead =>
    obtain ⟨-, h⟩ | ⟨-, -, rfl⟩ := startRead_cases h
    · obtain ⟨-, -, rfl⟩ | ⟨-, -, rfl⟩ := startReadInLoop_cases h <;> simp
    · simp
  | setWriteCompleteCallback | setHighWaterMarkCallback mark | retrieveInput n => cases h; simp

theorem runJob_events {j : Job} (hj : ∀ u i d, j ≠ .sendInLoop u i d)
    (h : c.runJob j w = .ok (c', l)) : ∀ e ∈ l, e.ofJob = true := by
  cases j with
  | sendInLoop u i d => exact absurd rfl (hj u i d)
  | shutdownInLoop => obtain ⟨-, ⟨-, -, rfl⟩ | rfl⟩ := shutdownInLoop_cases h <;> simp
  | forceCloseInLoop =>
    obtain ⟨-, h⟩ | ⟨-, -, rfl⟩ := forceCloseInLoop_cases h
    · obtain ⟨-, -, rfl⟩ := handleClose_cases h; simp
    · simp
  | writeComplete | highWaterMark len => cases h; simp
  | stopRead => obtain ⟨-, -, rfl⟩ | ⟨-, -, rfl⟩ := stopReadInLoop_cases h <;> simp
  | startRead => obtain ⟨-, -, rfl⟩ | ⟨-, -, rfl⟩ := startReadInLoop_cases h <;> simp

theorem handleRead_cases (h : c.handleRead r = .ok (c', l)) :
    c.state ≠ .kDisconnected ∧
      ((c' = c ∧ l = [.readFd]) ∨ (∃ m, c.handleClose = .ok (c', m) ∧ l = .readFd :: m) ∨
        (∃ bytes, c' = { c with inputBuffer := c.inputBuffer ++ bytes } ∧
          l = [.readFd, .messageCallback])) := by
  unfold handleRead at h
  split_ifs at h with hd
  refine ⟨hd, ?_⟩
  cases r with
  | error e => cases h; exact .inl ⟨rfl, rfl⟩
  | data bytes =>
    cases bytes with
    | nil =>
      obtain ⟨m, hm, rfl⟩ := Result.after_eq_ok.1 h
      exact .inr (.inl ⟨m, hm, rfl⟩)
    | cons x bytes => cases h; exact .inr (.inr ⟨_, rfl, rfl⟩)

theorem handleWrite_events (h : c.handleWrite w = .ok (c', l)) : ∀ e ∈ l, e.ofHandler = true := by
  obtain ⟨-, -, rfl⟩ | ⟨-, -, ⟨e, -, -, rfl⟩ | ⟨m, -, -, -, rfl⟩ | ⟨m, -, -, -, rfl⟩⟩ :=
    handleWrite_cases h
  · simp
  · simp
  · simp
  · split_ifs <;> simp

theorem handleStage_events {st : Stage} (h : c.handleStage st r w = .ok (c', l)) :
    ∀ e ∈ l, e.ofHandler = true := by
  cases StageStep.of_handleStage h with
  | idle => simp
  | close _ h => obtain ⟨-, -, rfl⟩ := handleClose_cases h; simp
  | read _ h =>
    obtain ⟨-, ⟨-, rfl⟩ | ⟨m, hm, rfl⟩ | ⟨bytes, -, rfl⟩⟩ := handleRead_cases h
    · simp
    · obtain ⟨-, -, rfl⟩ := handleClose_cases hm; simp
    · simp
  | write _ h => exact handleWrite_events h

/-! ### Failures -/

@[simp] theorem onChannel_eq_error {f : Channel → Except Assertion (Channel × EpollCtl)} :
    c.onChannel f = .error a ↔ f c.channel = .error a := by
  unfold onChannel
  cases f c.channel <;> simp [Except.map]

theorem Sound.polled (hc : c.Sound) (hd : c.state ≠ .kDisconnected) : c.channel.polling = true :=
  (hc hd).1

theorem handleClose_error (hc : c.Sound) (h : c.handleClose = .error a) :
    a = .handleClose ∧ c.state ≠ .kConnected ∧ c.state ≠ .kDisconnecting := by
  unfold handleClose at h
  split_ifs at h with hd
  · have hp := hc.polled (by rcases hd with hd | hd <;> simp [hd])
    have hon : onChannel { c with state := .kDisconnected } Channel.disableAll =
        .ok ({ c with state := .kDisconnected, channel := c.channel.setEvents ∅ },
          [.epollCtl (c.channel.ctl ∅)]) := by
      simp only [onChannel, Channel.disableAll_eq hp, Except.map]
    simp [hon] at h
  · cases h
    exact ⟨rfl, not_or.1 hd⟩

theorem sendInLoop_ne_error (hc : c.Sound) : c.sendInLoop t k data w ≠ .error a := by
  intro h
  unfold sendInLoop at h
  split_ifs at h with hd
  cases hw : c.writeDirect data w with
  | error a =>
    unfold writeDirect at hw
    split_ifs at hw with hwr hb
    · exact hwr ((hc hd).2.2.2 hb)
    · cases w with
      | error e => dsimp only at hw; split_ifs at hw
      | wrote m => dsimp only at hw; split_ifs at hw
  | ok p =>
    obtain ⟨n, faultError, m⟩ := p
    simp only [hw] at h
    split_ifs at h
    simp [bufferRest, Channel.enableWrite_eq] at h

theorem stopReadInLoop_ne_error (hp : c.Polled) : c.stopReadInLoop ≠ .error a := by
  intro h
  unfold stopReadInLoop at h
  split_ifs at h with hr
  have hpoll : c.channel.polling = true :=
    hp (Finset.nonempty_iff_ne_empty.1 ⟨_, hr⟩)
  simp [Channel.disableRead_eq hpoll] at h

theorem startReadInLoop_ne_error : c.startReadInLoop ≠ .error a := by
  intro h
  unfold startReadInLoop at h
  split_ifs at h
  simp [Channel.enableRead_eq] at h

theorem shutdownInLoop_ne_error : c.shutdownInLoop ≠ .error a := by
  unfold shutdownInLoop
  split_ifs <;> simp

/-- A call by the user trips no assertion but that of `shutdown`. -/
theorem call_error {op : Op} (hc : c.Sound) (hp : c.Polled) (h : c.call b t k op = .error a) :
    a = .shutdown ∧ op = .shutdown ∧ c.state = .kDisconnected := by
  cases op with
  | send data w =>
    simp only [call, send] at h
    split_ifs at h
    exact absurd (Result.after_eq_error.1 h) (sendInLoop_ne_error hc)
  | shutdown =>
    simp only [call, shutdown] at h
    split_ifs at h with hv
    · exact absurd (Result.after_eq_error.1 h) shutdownInLoop_ne_error
    · cases h
      refine ⟨rfl, rfl, ?_⟩
      cases hs : c.state <;> simp [hs, ConnectionState.value] at hv ⊢
  | forceClose => simp only [call, forceClose] at h; split_ifs at h
  | stopRead =>
    simp only [call, stopRead] at h
    split_ifs at h
    exact absurd h (stopReadInLoop_ne_error hp)
  | startRead =>
    simp only [call, startRead] at h
    split_ifs at h
    exact absurd h startReadInLoop_ne_error
  | setWriteCompleteCallback | setHighWaterMarkCallback mark | retrieveInput n => cases h

/-- A closure trips no assertion. -/
theorem runJob_ne_error {j : Job} (hc : c.Sound) (hp : c.Polled) (hk : c.state ≠ .kConnecting) :
    c.runJob j w ≠ .error a := by
  intro h
  cases j with
  | sendInLoop u i d => exact sendInLoop_ne_error hc h
  | shutdownInLoop => exact shutdownInLoop_ne_error h
  | forceCloseInLoop =>
    simp only [runJob, forceCloseInLoop] at h
    split_ifs at h with hd
    obtain ⟨-, h1, h2⟩ := handleClose_error hc h
    cases hs : c.state <;> simp_all
  | writeComplete | highWaterMark len => cases h
  | stopRead => exact stopReadInLoop_ne_error hp h
  | startRead => exact startReadInLoop_ne_error h

theorem handleWrite_ne_error (hc : c.Sound) (hd : c.state ≠ .kDisconnected → c.channel.isWriting) :
    c.handleWrite w ≠ .error a := by
  intro h
  unfold handleWrite at h
  split_ifs at h with hs hb hw
  · exact (hc hs).2.2.1 (hd hs) hb
  · cases w with
    | error e => cases h
    | wrote m =>
      dsimp only at h
      split_ifs at h with he
      have hp : c.channel.polling = true := hc.polled hs
      simp only [Result.after_eq_error, writeFinished, onChannel, Channel.disableWrite_eq hp,
        Except.map, Result.andThen_ok] at h
      split_ifs at h with hst
      · simp only [shutdownInLoop] at h
        split_ifs at h <;> simp at h
      · simp at h
  · exact hw (hd hs)

/-- A handler trips no assertion but those of `handleRead` and `handleClose`, and none while the
connection is connected or disconnecting. -/
theorem handleStage_error {st : Stage} (hc : c.Sound)
    (hw : st = .write → .epollout ∈ c.channel.revents → c.state ≠ .kDisconnected →
      c.channel.isWriting)
    (h : c.handleStage st r w = .error a) :
    (a = .handleRead ∨ a = .handleClose) ∧ c.state ≠ .kConnected ∧ c.state ≠ .kDisconnecting := by
  cases st with
  | close =>
    simp only [handleStage] at h
    split_ifs at h
    have hc' : Sound { c with channel := { c.channel with handlingEvents := true } } := hc
    obtain ⟨rfl, h1, h2⟩ := handleClose_error hc' h
    exact ⟨.inr rfl, h1, h2⟩
  | error =>
    simp only [handleStage, handleError] at h
    split_ifs at h
  | read =>
    simp only [handleStage] at h
    split_ifs at h
    unfold handleRead at h
    split_ifs at h with hd
    · cases h; exact ⟨.inl rfl, by simp [hd], by simp [hd]⟩
    · cases r with
      | error e => cases h
      | data bytes =>
        cases bytes with
        | nil =>
          obtain ⟨rfl, h1, h2⟩ := handleClose_error hc (Result.after_eq_error.1 h)
          exact ⟨.inr rfl, h1, h2⟩
        | cons x bytes => cases h
  | write =>
    simp only [handleStage] at h
    split_ifs at h with hr
    · cases hh : c.handleWrite w with
      | error a => exact absurd hh (handleWrite_ne_error hc (hw rfl hr))
      | ok p => simp [hh] at h
    · simp at h

end TcpConnection
end Leven
