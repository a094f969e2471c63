import Leven.TcpConnection.Basic
import Leven.Transition.History

/-!
# What a call on a connection can do

`Effect c c' l` collects what every member function that ends in the connection `c'` with the
events `l` guarantees; the invariants of the runs of a connection are derived from it.  The central
facts are `Effect.stream` (no byte is lost, repeated or reordered between the payloads of
`sendInLoop`, the output buffer and the kernel) and `Effect.sound` (the bit `EPOLLOUT` is
subscribed exactly while the output buffer is not empty, and `EPOLLPRI` always).

The theorems `*_eq` evaluate the member functions on a connection that satisfies `Sound`.
-/

namespace Leven

open Transition

/-- The bytes `::write` accepted. -/
def accepted (l : List Event) : Bytes :=
  l.flatMap fun
    | .write bytes => bytes
    | _ => []

/-- The payloads of the calls of `sendInLoop`, one after the other. -/
def sent (l : List Event) : Bytes :=
  l.flatMap fun
    | .sendInLoop _ _ data => data
    | _ => []

/-- The closures handed to the loop. -/
def queued (l : List Event) : List Job :=
  l.filterMap fun
    | .queueInLoop j => some j
    | _ => none

/-- The interest list after the calls of `epoll_ctl` among the events. -/
def interestAfter (k : Interest) (l : List Event) : Interest :=
  l.foldl (fun k e => match e with
    | .epollCtl c => c.apply k
    | _ => k) k

@[simp] theorem accepted_nil : accepted [] = [] := rfl
@[simp] theorem sent_nil : sent [] = [] := rfl
@[simp] theorem queued_nil : queued [] = [] := rfl
@[simp] theorem interestAfter_nil (k : Interest) : interestAfter k [] = k := rfl

@[simp] theorem accepted_append (l m : List Event) :
    accepted (l ++ m) = accepted l ++ accepted m := by simp [accepted]

@[simp] theorem sent_append (l m : List Event) : sent (l ++ m) = sent l ++ sent m := by
  simp [sent]

@[simp] theorem queued_append (l m : List Event) : queued (l ++ m) = queued l ++ queued m := by
  simp [queued]

@[simp] theorem interestAfter_append (k : Interest) (l m : List Event) :
    interestAfter k (l ++ m) = interestAfter (interestAfter k l) m := by simp [interestAfter]

@[simp] theorem mem_queued {j : Job} {l : List Event} : j ∈ queued l ↔ .queueInLoop j ∈ l := by
  simp only [queued, List.mem_filterMap]
  constructor
  · rintro ⟨e, he, h⟩
    cases e <;> simp at h
    exact h ▸ he
  · exact fun h => ⟨_, h, rfl⟩

@[simp] theorem accepted_cons (e : Event) (l : List Event) :
    accepted (e :: l) = (match e with | .write bytes => bytes | _ => []) ++ accepted l := by
  cases e <;> rfl

@[simp] theorem sent_cons (e : Event) (l : List Event) :
    sent (e :: l) = (match e with | .sendInLoop _ _ data => data | _ => []) ++ sent l := by
  cases e <;> rfl

@[simp] theorem queued_cons (e : Event) (l : List Event) :
    queued (e :: l) = (match e with | .queueInLoop j => [j] | _ => []) ++ queued l := by
  cases e <;> rfl

@[simp] theorem interestAfter_cons (k : Interest) (e : Event) (l : List Event) :
    interestAfter k (e :: l) =
      interestAfter (match e with | .epollCtl c => c.apply k | _ => k) l := by
  cases e <;> rfl

/-- Events that take no part in the common guarantees of the member functions. -/
@[simp] def Event.isQuiet : Event → Bool
  | .sendInLoop .. | .write _ | .faultError | .shutdownWr | .epollCtl _ | .closed => false
  | _ => true

/-- While a connection is not disconnected its channel is registered, `EPOLLPRI` is among its
events, and `EPOLLOUT` is exactly while output is waiting. -/
def TcpConnection.Sound (c : TcpConnection) : Prop :=
  c.state ≠ .kDisconnected →
    c.channel.polling = true ∧ .epollpri ∈ c.channel.events ∧
      (.epollout ∈ c.channel.events ↔ c.outputBuffer ≠ [])

/-- The common guarantees of the member functions. -/
structure Effect (c c' : TcpConnection) (l : List Event) : Prop where
  fd : c'.channel.fd = c.channel.fd
  revents : c'.channel.revents = c.channel.revents
  sound : c.Sound → c'.Sound
  mono : c.state.value ≤ c'.state.value
  synced : ∀ k, c.channel.Synced k → c'.channel.Synced (interestAfter k l)
  other : ∀ k fd, fd ≠ c.channel.fd → interestAfter k l fd = k fd
  stream : c.Sound → c'.state ≠ .kDisconnected → .faultError ∉ l →
    accepted l ++ c'.outputBuffer = c.outputBuffer ++ sent l
  drained : c.Sound → Whenever (· = .shutdownWr)
    (fun g => c.state ≠ .kDisconnected ∧ accepted g = c.outputBuffer ++ sent g) l
  fault : .faultError ∈ l → ∃ e : Errno, e.isFault ∧ .writeError e ∈ l
  closed : .closed ∈ l ↔ c.state ≠ .kDisconnected ∧ c'.state = .kDisconnected

/-- The guarantees of the member functions other than `handleWrite`, which do not take from the
output buffer. -/
structure Growth (c c' : TcpConnection) (l : List Event) : Prop extends Effect c c' l where
  output : c.outputBuffer <+: c'.outputBuffer

section Growth

variable {c c' : TcpConnection} {l l' : List Event}

theorem quiet_facts (hl : ∀ e ∈ l, e.isQuiet = true) :
    accepted l = [] ∧ sent l = [] ∧ (∀ k, interestAfter k l = k) ∧ .shutdownWr ∉ l ∧
      .faultError ∉ l ∧ .closed ∉ l := by
  induction l with
  | nil => simp
  | cons e l ih =>
    obtain ⟨he, hl⟩ := List.forall_mem_cons.1 hl
    obtain ⟨h1, h2, h3, h4, h5, h6⟩ := ih hl
    cases e <;> first
      | (simp at he; done)
      | simp [h1, h2, h3, h4, h5, h6]

/-- Quiet events leave the connection as it is. -/
theorem Growth.same (hl : ∀ e ∈ l, e.isQuiet = true) : Growth c c l := by
  obtain ⟨ha, hs, hk, hw, hf, hc⟩ := quiet_facts hl
  exact {
    fd := rfl
    revents := rfl
    sound := id
    mono := le_rfl
    synced := fun k hc => by rwa [hk]
    other := fun k fd _ => by rw [hk]
    stream := fun _ _ _ => by simp [ha, hs]
    drained := fun _ => whenever_of_forall_not fun x hx he => hw (he ▸ hx)
    fault := fun h => absurd h hf
    closed := iff_of_false hc fun h => h.1 h.2
    output := List.prefix_rfl }

/-- Quiet events may come before a call. -/
theorem Growth.after (hl : ∀ e ∈ l', e.isQuiet = true) (e : Growth c c' l) :
    Growth c c' (l' ++ l) := by
  obtain ⟨ha, hs, hk, hw, hf, hc⟩ := quiet_facts hl
  exact {
    fd := e.fd
    revents := e.revents
    sound := e.sound
    mono := e.mono
    synced := fun k hc => by rw [interestAfter_append, hk]; exact e.synced k hc
    other := fun k fd hf => by rw [interestAfter_append, hk]; exact e.other k fd hf
    stream := fun h1 h2 h3 => by
      simpa [ha, hs] using e.stream h1 h2 fun h => h3 (List.mem_append_right _ h)
    drained := fun h1 => by
      refine whenever_append.2 ⟨whenever_of_forall_not fun x hx he => hw (he ▸ hx), ?_⟩
      simpa [ha, hs] using e.drained h1
    fault := fun h => by
      obtain ⟨x, hx, hm⟩ := e.fault ((List.mem_append.1 h).resolve_left hf)
      exact ⟨x, hx, List.mem_append_right _ hm⟩
    closed := by simpa [hc] using e.closed
    output := e.output }

/-- A connection that is not disconnected may be marked `kDisconnecting` before a call. -/
theorem Growth.of_disconnecting (hd : c.state ≠ .kDisconnected)
    (e : Growth { c with state := .kDisconnecting } c' l) : Growth c c' l where
  fd := e.fd
  revents := e.revents
  sound h := e.sound fun _ => h hd
  mono := le_trans (by cases hs : c.state <;> simp_all [ConnectionState.value]) e.mono
  synced := e.synced
  other := e.other
  stream h1 := e.stream fun _ => h1 hd
  drained h1 := (e.drained fun _ => h1 hd).mono fun _ hg => ⟨hd, hg.2⟩
  fault := e.fault
  closed := e.closed.trans (by simp [hd])
  output := e.output

end Growth

namespace TcpConnection

variable {c c' : TcpConnection} {l l' : List Event} {r : Result}

@[simp] theorem Result.after_eq_ok :
    Result.after l r = .ok (c', l') ↔ ∃ m, r = .ok (c', m) ∧ l' = l ++ m := by
  cases r with
  | error a => simp [Result.after, Except.map]
  | ok p =>
    obtain ⟨d, m⟩ := p
    simp only [Result.after, Except.map, Except.ok.injEq, Prod.mk.injEq]
    constructor
    · rintro ⟨rfl, rfl⟩; exact ⟨m, ⟨rfl, rfl⟩, rfl⟩
    · rintro ⟨_, ⟨rfl, rfl⟩, rfl⟩; exact ⟨rfl, rfl⟩

@[simp] theorem Result.after_eq_error {a : Assertion} :
    Result.after l r = .error a ↔ r = .error a := by
  cases r <;> simp [Result.after, Except.map]

@[simp] theorem Result.after_ok (p : TcpConnection × List Event) :
    Result.after l (.ok p) = .ok (p.1, l ++ p.2) := rfl

@[simp] theorem Result.andThen_ok (p : TcpConnection × List Event) (f : TcpConnection → Result) :
    Result.andThen (.ok p) f = (f p.1).after p.2 := rfl

@[simp] theorem Result.andThen_error (a : Assertion) (f : TcpConnection → Result) :
    Result.andThen (.error a) f = .error a := rfl

@[simp] theorem Result.andThen_eq_ok {f : TcpConnection → Result} :
    Result.andThen r f = .ok (c', l) ↔
      ∃ d m m', r = .ok (d, m) ∧ f d = .ok (c', m') ∧ l = m ++ m' := by
  cases r with
  | error a => simp
  | ok p =>
    obtain ⟨d, m⟩ := p
    simp only [Result.andThen_ok, Result.after_eq_ok, Except.ok.injEq, Prod.mk.injEq]
    constructor
    · rintro ⟨m', hf, rfl⟩; exact ⟨d, m, m', ⟨rfl, rfl⟩, hf, rfl⟩
    · rintro ⟨_, _, m', ⟨rfl, rfl⟩, hf, rfl⟩; exact ⟨m', hf, rfl⟩

/-! ### What the member functions do -/

/-- Each operation on a channel is an update of its mask to some `m`. -/
theorem onChannel_cases {f : Channel → Except Assertion (Channel × EpollCtl)} {m : Mask}
    (h : c.onChannel f = .ok (c', l))
    (hf : f c.channel = Channel.update { c.channel with events := m }) :
    c' = { c with channel := c.channel.setEvents m } ∧ l = [.epollCtl (c.channel.ctl m)] := by
  unfold onChannel at h
  rw [hf] at h
  cases hu : Channel.update { c.channel with events := m } with
  | error a => simp [hu, Except.map] at h
  | ok p =>
    obtain rfl := Channel.eq_of_update hu
    simp only [hu, Except.map, Except.ok.injEq, Prod.mk.injEq] at h
    exact ⟨h.1.symm, h.2.symm⟩

theorem sdiff_epollout_ne {m : Mask} (h : .epollpri ∈ m) : m \ {.epollout} ≠ ∅ :=
  Finset.nonempty_iff_ne_empty.1 ⟨.epollpri, by simp [h]⟩

theorem bufferRest_cases {rest : Bytes} (h : c.bufferRest rest = .ok (c', l)) :
    c' = { c with
        outputBuffer := c.outputBuffer ++ rest
        channel := c.channel.setEvents (c.channel.events ∪ {.epollout}) } ∧
      l = c.highWater rest ++ [.epollCtl (c.channel.ctl (c.channel.events ∪ {.epollout}))] := by
  obtain ⟨m, hm, rfl⟩ := Result.after_eq_ok.1 h
  obtain ⟨rfl, rfl⟩ := onChannel_cases hm rfl
  exact ⟨rfl, rfl⟩

theorem handleClose_cases (h : c.handleClose = .ok (c', l)) :
    (c.state = .kConnected ∨ c.state = .kDisconnecting) ∧
      c' = { c with state := .kDisconnected, channel := c.channel.setEvents ∅ } ∧
      l = [.closed, .epollCtl (c.channel.ctl ∅), .closeCallback] := by
  unfold handleClose at h
  split_ifs at h with hd
  simp only [Result.andThen_eq_ok, Result.after_eq_ok] at h
  obtain ⟨d, m, m', ⟨m'', hm, rfl⟩, h, rfl⟩ := h
  obtain ⟨rfl, rfl⟩ := onChannel_cases hm rfl
  cases h
  exact ⟨hd, rfl, rfl⟩

theorem forceCloseInLoop_cases (h : c.forceCloseInLoop = .ok (c', l)) :
    (c.state ≠ .kDisconnected ∧ c.handleClose = .ok (c', l)) ∨
      (c.state = .kDisconnected ∧ c' = c ∧ l = []) := by
  unfold forceCloseInLoop at h
  split_ifs at h with hd
  · exact .inl ⟨hd, h⟩
  · cases h; exact .inr ⟨not_not.1 hd, rfl, rfl⟩

theorem stopRead_cases {b : Bool} (h : c.stopRead b = .ok (c', l)) :
    (b = true ∧ c.stopReadInLoop = .ok (c', l)) ∨
      (b = false ∧ c' = c ∧ l = [.queueInLoop .stopRead]) := by
  unfold stopRead at h
  split_ifs at h with hb
  · exact .inl ⟨hb, h⟩
  · cases h; exact .inr ⟨by simpa using hb, rfl, rfl⟩

theorem startRead_cases {b : Bool} (h : c.startRead b = .ok (c', l)) :
    (b = true ∧ c.startReadInLoop = .ok (c', l)) ∨
      (b = false ∧ c' = c ∧ l = [.queueInLoop .startRead]) := by
  unfold startRead at h
  split_ifs at h with hb
  · exact .inl ⟨hb, h⟩
  · cases h; exact .inr ⟨by simpa using hb, rfl, rfl⟩

theorem writeFinished_cases (h : c.writeFinished = .ok (c', l)) :
    c' = { c with channel := c.channel.setEvents (c.channel.events \ {.epollout}) } ∧
      l = .epollCtl (c.channel.ctl (c.channel.events \ {.epollout})) ::
          ((if c.state = .kDisconnecting then [.shutdownWr] else []) ++
            if c.writeCompleteCallback then [.queueInLoop .writeComplete] else []) := by
  simp only [writeFinished, Result.andThen_eq_ok] at h
  obtain ⟨d, m, m', ⟨d', m'', m₃, hm, hs, rfl⟩, h, rfl⟩ := h
  obtain ⟨rfl, rfl⟩ := onChannel_cases hm rfl
  dsimp only at hs
  split_ifs at hs with hd
  · simp only [shutdownInLoop, hd, Channel.isWriting, Channel.setEvents_events] at hs
    simp at hs
    obtain ⟨rfl, rfl⟩ := hs
    cases h
    simp [hd]
  · cases hs; cases h; simp [hd]

theorem shutdownInLoop_cases (h : c.shutdownInLoop = .ok (c', l)) :
    c' = c ∧ ((c.state ≠ .kDisconnected ∧ ¬ c.channel.isWriting ∧ l = [.shutdownWr]) ∨ l = []) := by
  unfold shutdownInLoop at h
  split_ifs at h with hd <;> cases h
  · exact ⟨rfl, .inl ⟨hd.1, hd.2, rfl⟩⟩
  · exact ⟨rfl, .inr rfl⟩

/-- What the direct write of `sendInLoop` takes from the payload, it takes at the front, and only
when no output is waiting. -/
theorem writeDirect_cases {data : Bytes} {w : WriteResult} {n : ℕ} {faultError : Bool}
    (h : c.writeDirect data w = .ok (n, faultError, l)) :
    (n = 0 ∨ c.outputBuffer = []) ∧ n ≤ data.length ∧ accepted l = data.take n ∧ sent l = [] ∧
      (∀ k, interestAfter k l = k) ∧ .shutdownWr ∉ l ∧ .closed ∉ l ∧
      (faultError = true ↔ .faultError ∈ l) ∧
      (.faultError ∈ l → ∃ e : Errno, e.isFault ∧ .writeError e ∈ l) := by
  unfold writeDirect at h
  split_ifs at h with hw hb
  · cases h; simp
  · cases w with
    | error e =>
      dsimp only at h
      split_ifs at h with he <;> cases h <;> simp [he]
    | wrote m =>
      dsimp only at h
      rw [not_not] at hb
      split_ifs at h with he <;> cases h <;> simp [hb]

/-! ### The guarantees, member function by member function -/

theorem handleClose_growth (h : c.handleClose = .ok (c', l)) : Growth c c' l := by
  obtain ⟨hd, rfl, rfl⟩ := handleClose_cases h
  exact {
    fd := rfl
    revents := rfl
    sound := fun _ h => absurd rfl h
    mono := by cases c.state <;> simp [ConnectionState.value]
    synced := fun k hk => by simpa using Channel.setEvents_synced ∅ hk
    other := fun k fd hf => by simpa using Channel.ctl_other ∅ k hf
    stream := fun _ h => absurd rfl h
    drained := by simp
    fault := by simp
    closed := by rcases hd with hd | hd <;> simp [hd]
    output := List.prefix_rfl }

theorem highWater_cases (rest : Bytes) (c : TcpConnection) :
    c.highWater rest = [] ∨ ∃ len, c.highWater rest = [.queueInLoop (.highWaterMark len)] := by
  unfold highWater; dsimp only; split_ifs <;> simp

theorem sendInLoop_growth {t : Pid} {k : ℕ} {data : Bytes} {w : WriteResult}
    (h : c.sendInLoop t k data w = .ok (c', l)) : Growth c c' l := by
  unfold sendInLoop at h
  split_ifs at h with hd
  · cases h
    exact { fd := rfl, revents := rfl, sound := id, mono := le_rfl
            synced := fun k hk => by simpa using hk, other := by simp
            stream := fun _ h => absurd hd h, drained := by simp, fault := by simp
            closed := by simp [hd], output := List.prefix_rfl }
  cases hw : c.writeDirect data w with
  | error a => simp [hw] at h
  | ok p =>
    obtain ⟨n, faultError, m⟩ := p
    obtain ⟨hn, hle, ha, hs, hk, hsh, hcl, hf, hfe⟩ := writeDirect_cases hw
    have hm : ∀ Q, Whenever (· = .shutdownWr) Q m := fun Q =>
      whenever_of_forall_not fun x hx he => hsh (he ▸ hx)
    simp only [hw] at h
    split_ifs at h with hr
    · -- the rest of the payload is buffered
      obtain ⟨m', hb, rfl⟩ := Result.after_eq_ok.1 h
      obtain ⟨rfl, rfl⟩ := bufferRest_cases hb
      have hlt : n < data.length := by omega
      refine {
        fd := rfl, revents := rfl, mono := le_rfl
        sound := fun hc hd => ⟨by simp, by simp [(hc hd).2.1], by simp [hlt]⟩
        synced := fun k hc => ?_, other := fun k fd hfd => ?_, stream := fun _ _ _ => ?_
        drained := fun _ => ?_, fault := fun h => ?_, closed := ?_
        output := List.prefix_append _ _ }
      · rcases highWater_cases (data.drop n) c with he | ⟨len, he⟩ <;>
          simpa [he, hk] using Channel.setEvents_synced _ hc
      · rcases highWater_cases (data.drop n) c with he | ⟨len, he⟩ <;>
          simpa [he, hk] using Channel.ctl_other _ k hfd
      · -- either nothing has been written or the buffer was empty, so no byte overtakes another
        have hx : data.take n ++ (c.outputBuffer ++ data.drop n) = c.outputBuffer ++ data := by
          rcases hn with rfl | hn
          · simp
          · simp [hn]
        rcases highWater_cases (data.drop n) c with he | ⟨len, he⟩ <;> simp [he, ha, hs, hx]
      · rcases highWater_cases (data.drop n) c with he | ⟨len, he⟩ <;>
          simp [he, whenever_append, hm]
      · have hfm : .faultError ∈ m := by
          rcases highWater_cases (data.drop n) c with he | ⟨len, he⟩ <;> simpa [he] using h
        obtain ⟨e, he, hem⟩ := hfe hfm
        exact ⟨e, he, by simp [hem]⟩
      · rcases highWater_cases (data.drop n) c with he | ⟨len, he⟩ <;> simp [he, hcl]
    · -- nothing is left, or the payload is given up
      cases h
      refine {
        fd := rfl, revents := rfl, sound := id, mono := le_rfl
        synced := fun k hc => by simpa [hk] using hc, other := by simp [hk]
        stream := fun _ _ hnf => ?_, drained := by simp [hm], fault := fun h => ?_
        closed := by simp [hcl], output := List.prefix_rfl }
      · have hff : faultError = false := by
          by_contra hne
          exact hnf (List.mem_cons_of_mem _ (hf.1 (by simpa using hne)))
        have hnl : n = data.length := by
          by_contra hne
          exact hr ⟨hff, by omega⟩
        rcases hn with rfl | hn
        · have hd0 : data = [] := List.eq_nil_of_length_eq_zero hnl.symm
          simp [ha, hs, hd0]
        · simp [ha, hs, hn, hnl]
      · obtain ⟨e, he, hem⟩ := hfe (by simpa using h)
        exact ⟨e, he, by simp [hem]⟩

theorem send_growth {b : Bool} {t : Pid} {k : ℕ} {data : Bytes} {w : WriteResult}
    (h : c.send b t k data w = .ok (c', l)) : Growth c c' l := by
  unfold send at h
  split_ifs at h with hc hb
  · cases h; exact Growth.same (by simp)
  · obtain ⟨m, hm, rfl⟩ := Result.after_eq_ok.1 h
    exact (sendInLoop_growth hm).after (by simp)
  · cases h; exact Growth.same (by simp)

theorem shutdownInLoop_growth (h : c.shutdownInLoop = .ok (c', l)) : Growth c c' l := by
  obtain ⟨rfl, ⟨hd, hw, rfl⟩ | rfl⟩ := shutdownInLoop_cases h
  · refine {
      fd := rfl, revents := rfl, sound := id, mono := le_rfl
      synced := by simp, other := by simp, stream := by simp, drained := fun hc => ?_
      fault := by simp, closed := by simp, output := List.prefix_rfl }
    -- a sound connection that is not writing has an empty buffer
    have hb : c'.outputBuffer = [] := by
      by_contra hne
      exact hw ((hc hd).2.2.2 hne)
    simp [hb, hd]
  · exact Growth.same (by simp)

theorem shutdown_growth {b : Bool} {t : Pid} (h : c.shutdown b t = .ok (c', l)) :
    Growth c c' l := by
  unfold shutdown at h
  split_ifs at h with hv hc hb
  all_goals
    have hd : c.state ≠ .kDisconnected := by rintro he; simp [he, ConnectionState.value] at hv
  · obtain ⟨m, hm, rfl⟩ := Result.after_eq_ok.1 h
    exact .of_disconnecting hd ((shutdownInLoop_growth hm).after (by simp))
  · cases h; exact .of_disconnecting hd (.same (by simp))
  · cases h; exact .of_disconnecting hd (.same (by simp))

theorem forceClose_growth (h : c.forceClose = .ok (c', l)) : Growth c c' l := by
  unfold forceClose at h
  split_ifs at h with hd <;> cases h
  · exact .of_disconnecting hd (.same (by simp))
  · exact Growth.same (by simp)

theorem forceCloseInLoop_growth (h : c.forceCloseInLoop = .ok (c', l)) : Growth c c' l := by
  obtain ⟨-, h⟩ | ⟨-, rfl, rfl⟩ := forceCloseInLoop_cases h
  · exact handleClose_growth h
  · exact Growth.same (by simp)

/-- A change of the mask that keeps `EPOLLPRI` and the bit `EPOLLOUT`. -/
theorem onChannel_growth {f : Channel → Except Assertion (Channel × EpollCtl)} {m : Mask}
    (h : c.onChannel f = .ok (c', l))
    (hf : f c.channel = Channel.update { c.channel with events := m })
    (hpri : .epollpri ∈ c.channel.events → .epollpri ∈ m)
    (hout : .epollout ∈ m ↔ .epollout ∈ c.channel.events) : Growth c c' l := by
  obtain ⟨rfl, rfl⟩ := onChannel_cases h hf
  refine {
    fd := rfl, revents := rfl, mono := le_rfl, sound := fun hc hd => ?_
    synced := fun k hk => by simpa using Channel.setEvents_synced _ hk
    other := fun k fd hf => by simpa using Channel.ctl_other _ k hf
    stream := by simp, drained := by simp, fault := by simp, closed := by simp
    output := List.prefix_rfl }
  obtain ⟨-, h2, h3⟩ := hc hd
  have hne : m ≠ ∅ := Finset.nonempty_iff_ne_empty.1 ⟨_, hpri h2⟩
  exact ⟨by simp [hne], hpri h2, by simp [hout, h3]⟩

theorem stopReadInLoop_growth (h : c.stopReadInLoop = .ok (c', l)) : Growth c c' l := by
  unfold stopReadInLoop at h
  split_ifs at h with hr
  · obtain ⟨m, hm, rfl⟩ := Result.after_eq_ok.1 h
    exact (onChannel_growth hm rfl (by simp) (by simp)).after (by simp)
  · cases h; exact Growth.same (by simp)

theorem startReadInLoop_growth (h : c.startReadInLoop = .ok (c', l)) : Growth c c' l := by
  unfold startReadInLoop at h
  split_ifs at h with hr
  · cases h; exact Growth.same (by simp)
  · obtain ⟨m, hm, rfl⟩ := Result.after_eq_ok.1 h
    exact (onChannel_growth hm rfl (by simp) (by simp)).after (by simp)

theorem stopRead_growth {b : Bool} (h : c.stopRead b = .ok (c', l)) : Growth c c' l := by
  obtain ⟨-, h⟩ | ⟨-, rfl, rfl⟩ := stopRead_cases h
  · exact stopReadInLoop_growth h
  · exact Growth.same (by simp)

theorem startRead_growth {b : Bool} (h : c.startRead b = .ok (c', l)) : Growth c c' l := by
  obtain ⟨-, h⟩ | ⟨-, rfl, rfl⟩ := startRead_cases h
  · exact startReadInLoop_growth h
  · exact Growth.same (by simp)

theorem call_growth {b : Bool} {t : Pid} {k : ℕ} {op : Op} (h : c.call b t k op = .ok (c', l)) :
    Growth c c' l := by
  cases op with
  | send data w => exact send_growth h
  | shutdown => exact shutdown_growth h
  | forceClose => exact forceClose_growth h
  | stopRead => exact stopRead_growth h
  | startRead => exact startRead_growth h
  | setWriteCompleteCallback | setHighWaterMarkCallback mark | retrieveInput n =>
    cases h
    exact { fd := rfl, revents := rfl, sound := id, mono := le_rfl
            synced := by simp, other := by simp, stream := by simp, drained := by simp
            fault := by simp, closed := by simp, output := List.prefix_rfl }

theorem handleRead_growth {r : ReadResult} (h : c.handleRead r = .ok (c', l)) :
    Growth c c' l := by
  unfold handleRead at h
  split_ifs at h with hd
  cases r with
  | error e =>
    cases h; exact Growth.same (by simp)
  | data bytes =>
    cases bytes with
    | nil =>
      obtain ⟨m, hm, rfl⟩ := Result.after_eq_ok.1 h
      exact (handleClose_growth hm).after (by simp)
    | cons b bytes =>
      cases h
      exact { fd := rfl, revents := rfl, sound := id, mono := le_rfl
              synced := by simp, other := by simp, stream := by simp, drained := by simp
              fault := by simp, closed := by simp, output := List.prefix_rfl }

/-- `handleWrite` gives up, fails, takes a part of the output buffer, or drains it; then
`EPOLLOUT` goes, and `SHUT_WR` may follow. -/
theorem handleWrite_cases {w : WriteResult} (h : c.handleWrite w = .ok (c', l)) :
    (c.state = .kDisconnected ∧ c' = c ∧ l = []) ∨
    (c.state ≠ .kDisconnected ∧ c.channel.isWriting ∧
      ((∃ e, w = .error e ∧ c' = c ∧ l = [.writeError e]) ∨
      (∃ m, w = .wrote m ∧ m < c.outputBuffer.length ∧
        c' = { c with outputBuffer := c.outputBuffer.drop m } ∧
        l = [.write (c.outputBuffer.take m)]) ∨
      (∃ m, w = .wrote m ∧ c.outputBuffer.length ≤ m ∧
        c' = { c with
          outputBuffer := [], channel := c.channel.setEvents (c.channel.events \ {.epollout}) } ∧
        l = .write c.outputBuffer :: .epollCtl (c.channel.ctl (c.channel.events \ {.epollout})) ::
          ((if c.state = .kDisconnecting then [.shutdownWr] else []) ++
            if c.writeCompleteCallback then [.queueInLoop .writeComplete] else [])))) := by
  unfold handleWrite at h
  split_ifs at h with hd hb hw
  · cases h; exact .inl ⟨hd, rfl, rfl⟩
  refine .inr ⟨hd, hw, ?_⟩
  cases w with
  | error e => cases h; exact .inl ⟨e, rfl, rfl, rfl⟩
  | wrote m =>
    dsimp only at h
    split_ifs at h with he
    · obtain ⟨l', hl, rfl⟩ := Result.after_eq_ok.1 h
      obtain ⟨rfl, rfl⟩ := writeFinished_cases hl
      have hle : c.outputBuffer.length ≤ m := by
        have := List.drop_eq_nil_iff.1 he
        omega
      refine .inr (.inr ⟨m, rfl, hle, ?_, ?_⟩)
      · simp [he]
      · simp [min_eq_right hle]
    · cases h
      have hlt : m < c.outputBuffer.length := by
        by_contra hle
        exact he (List.drop_eq_nil_iff.2 (by omega))
      exact .inr (.inl ⟨m, rfl, hlt, by simp [min_eq_left hlt.le], by simp [min_eq_left hlt.le]⟩)

theorem handleWrite_effect {w : WriteResult} (h : c.handleWrite w = .ok (c', l)) :
    Effect c c' l := by
  obtain ⟨-, rfl, rfl⟩ | ⟨hd, hw, ⟨e, rfl, rfl, rfl⟩ | ⟨m, rfl, hm, rfl, rfl⟩ |
    ⟨m, rfl, hm, rfl, rfl⟩⟩ := handleWrite_cases h
  · exact (Growth.same (by simp)).toEffect
  · exact (Growth.same (by simp)).toEffect
  · exact { fd := rfl, revents := rfl, mono := le_rfl
            sound := fun hc hd => ⟨(hc hd).1, (hc hd).2.1, iff_of_true hw (by simpa using hm)⟩
            synced := by simp, other := by simp, stream := by simp, drained := by simp
            fault := by simp, closed := by simp }
  · refine {
      fd := rfl, revents := rfl, mono := le_rfl, sound := fun hc hd => ?_
      synced := fun k hk => ?_, other := fun k fd hf => ?_, stream := fun _ _ _ => ?_
      drained := fun _ => ?_, fault := fun h => ?_, closed := ?_ }
    · exact ⟨by simpa using sdiff_epollout_ne (hc hd).2.1, by simp [(hc hd).2.1], by simp⟩
    · split_ifs <;> simpa using Channel.setEvents_synced _ hk
    · split_ifs <;> simpa using Channel.ctl_other _ k hf
    · split_ifs <;> simp
    · split_ifs <;> simp [hd]
    · split_ifs at h <;> simp at h
    · split_ifs <;> simp

theorem runJob_growth {j : Job} {w : WriteResult} (h : c.runJob j w = .ok (c', l)) :
    Growth c c' l := by
  cases j with
  | sendInLoop t k data => exact sendInLoop_growth h
  | shutdownInLoop => exact shutdownInLoop_growth h
  | forceCloseInLoop => exact forceCloseInLoop_growth h
  | writeComplete => cases h; exact Growth.same (by simp)
  | highWaterMark len => cases h; exact Growth.same (by simp)
  | stopRead => exact stopReadInLoop_growth h
  | startRead => exact startReadInLoop_growth h

/-- The flag `handlingEvents_` takes no part in the guarantees. -/
theorem Growth.of_handling {b : Bool}
    (e : Growth { c with channel := { c.channel with handlingEvents := b } } c' l) :
    Growth c c' l where
  fd := e.fd
  revents := e.revents
  sound := e.sound
  mono := e.mono
  synced := e.synced
  other := e.other
  stream := e.stream
  drained := e.drained
  fault := e.fault
  closed := e.closed
  output := e.output

/-- The flag `handlingEvents_` may change behind the call. -/
theorem Effect.set_handling {b : Bool} (e : Effect c c' l) :
    Effect c { c' with channel := { c'.channel with handlingEvents := b } } l where
  fd := e.fd
  revents := e.revents
  sound := e.sound
  mono := e.mono
  synced := e.synced
  other := e.other
  stream := e.stream
  drained := e.drained
  fault := e.fault
  closed := e.closed

theorem Growth.set_handling {b : Bool} (e : Growth c c' l) :
    Growth c { c' with channel := { c'.channel with handlingEvents := b } } l where
  toEffect := Effect.set_handling e.toEffect
  output := e.output

/-- What a stage does: nothing but to the flag, or the handler that it guards. -/
inductive StageStep (r : ReadResult) (w : WriteResult) (c : TcpConnection) :
    Stage → TcpConnection → List Event → Prop
  | idle {st : Stage} {b : Bool} :
      StageStep r w c st { c with channel := { c.channel with handlingEvents := b } } []
  | close {c' : TcpConnection} {l : List Event}
      (hm : .epollhup ∈ c.channel.revents ∧ .epollin ∉ c.channel.revents)
      (h : handleClose { c with channel := { c.channel with handlingEvents := true } } = .ok (c', l)) :
      StageStep r w c .close c' l
  | read {c' : TcpConnection} {l : List Event}
      (hm : c.channel.revents ∩ {.epollin, .epollpri, .epollrdhup} ≠ ∅)
      (h : c.handleRead r = .ok (c', l)) : StageStep r w c .read c' l
  | write {c' : TcpConnection} {l : List Event} (hm : .epollout ∈ c.channel.revents)
      (h : c.handleWrite w = .ok (c', l)) :
      StageStep r w c .write { c' with channel := { c'.channel with handlingEvents := false } } l

theorem StageStep.of_handleStage {st : Stage} {r : ReadResult} {w : WriteResult}
    (h : c.handleStage st r w = .ok (c', l)) : StageStep r w c st c' l := by
  cases st with
  | close =>
    simp only [handleStage] at h
    split_ifs at h with hm
    · exact .close hm h
    · cases h; exact .idle
  | error =>
    simp only [handleStage, handleError] at h
    split_ifs at h <;> cases h <;> exact .idle
  | read =>
    simp only [handleStage] at h
    split_ifs at h with hm
    · exact .read hm h
    · cases h; exact .idle
  | write =>
    simp only [handleStage, Result.andThen_eq_ok, Except.ok.injEq, Prod.mk.injEq] at h
    obtain ⟨d, m, m', hd, ⟨rfl, rfl⟩, rfl⟩ := h
    rw [List.append_nil]
    split_ifs at hd with hm
    · exact .write hm hd
    · cases hd; exact .idle

/-- The stages before the last one. -/
theorem handleStage_growth {st : Stage} {r : ReadResult} {w : WriteResult} (hst : st ≠ .write)
    (h : c.handleStage st r w = .ok (c', l)) : Growth c c' l := by
  cases StageStep.of_handleStage h with
  | idle => exact Growth.set_handling (Growth.same (by simp))
  | close _ h => exact Growth.of_handling (handleClose_growth h)
  | read _ h => exact handleRead_growth h
  | write _ h => exact absurd rfl hst

theorem handleStage_effect {st : Stage} {r : ReadResult} {w : WriteResult}
    (h : c.handleStage st r w = .ok (c', l)) : Effect c c' l := by
  cases StageStep.of_handleStage h with
  | idle => exact Effect.set_handling (Growth.same (by simp)).toEffect
  | close _ h => exact (Growth.of_handling (handleClose_growth h)).toEffect
  | read _ h => exact (handleRead_growth h).toEffect
  | write _ h => exact Effect.set_handling (handleWrite_effect h)

end TcpConnection
end Leven
