import Leven.TcpConnection.Closed
import Leven.TcpConnection.FlowControl
import Leven.TcpConnection.Receive

/-!
# Applications of a connection

An application decides what the callbacks of a connection do.  It runs on the loop thread only: each
callback is a list of calls on the connection, made when the handler or the closure that calls it is
at its end, and a timer of the application runs before or after the dispatch of the connection.

* `Application`: the callbacks, as functions of the connection and the state of the application;
* `Hosted`: a connection with its application and with the storage of its input buffer;
* `Application.system`: the runs, from the up callback on;
* `Application.Step`: the steps, one constructor for each kind;
* `reachable_run`: a run of the application is a run of the connection;
* `Hosted.Stored`: the storage holds the readable bytes of the connection.
-/

namespace Leven

open Transition

/-- The callbacks of an application. -/
@[simp] def Event.isNotice : Event → Bool
  | .up | .messageCallback | .writeCompleteCallback | .highWaterMarkCallback _ => true
  | .closeCallback => true
  | _ => false

/-- What an application does when it is called back, and in a handler of its timer: the calls on the
connection, and its state afterwards.  `σ` is the state, and `ε` is what the environment answers
meanwhile: the results of writes, the clock. -/
structure Application (σ ε : Type) where
  init : σ
  callback : Event → ε → TcpConnection → σ → List Op × σ
  onTimer : ε → TcpConnection → σ → List Op × σ

/-- A connection that an application uses. -/
structure Hosted (σ : Type) where
  run : Connection.Run
  inputBuffer : Buffer
  /-- what `::readv` has delivered -/
  delivered : Bytes
  app : σ

namespace Application

/-- The steps of a run: those of the connection, and the timer of the application. -/
inductive Label (ε : Type)
  | poll (revents : Option Mask)
  | handle (extrabuf : Buffer.ExtraBuf) (r : ReadResult) (w : WriteResult) (x : ε)
  | swap
  | runJob (w : WriteResult) (x : ε)
  | endJobs
  | onTimer (x : ε)

end Application

instance (s : Connection.Run) : Decidable s.EntersHandleRead :=
  inferInstanceAs (Decidable (_ ∧ _))

namespace Hosted

variable {σ : Type}

/-- A step of the connection. -/
def advance (threadId : Pid) (lab : Connection.Label) (s : Hosted σ) :
    Outcome ReceiveFault (Hosted σ) :=
  ((Connection.step threadId s.run lab).mapFailed .connection).bind fun r =>
    .next { s with run := r }

/-- What a call takes out of the storage. -/
def retrieve (op : Op) (b : Buffer) : Except Buffer.Assertion Buffer :=
  match op with
  | .retrieveInput n => b.retrieve n
  | _ => .ok b

/-- A call by the application. -/
def call (threadId : Pid) (op : Op) (s : Hosted σ) : Outcome ReceiveFault (Hosted σ) :=
  (s.advance threadId (.call threadId op)).bind fun s =>
    ((Outcome.ofExcept (retrieve op s.inputBuffer)).mapFailed .buffer).bind fun b =>
      .next { s with inputBuffer := b }

/-- The calls of one callback. -/
def calls (threadId : Pid) : List Op → Hosted σ → Outcome ReceiveFault (Hosted σ)
  | [], s => .next s
  | op :: ops, s => (s.call threadId op).bind (calls threadId ops)

/-- `handleRead` is entered, behind its assertion. -/
def Fills (s : Hosted σ) : Prop := s.run.EntersHandleRead ∧ s.run.conn.state ≠ .kDisconnected

instance (s : Hosted σ) : Decidable s.Fills := inferInstanceAs (Decidable (_ ∧ _))

/-- `readFd` of `handleRead`, within the areas that are offered. -/
def fill (extrabuf : Buffer.ExtraBuf) (r : ReadResult) (s : Hosted σ) :
    Outcome ReceiveFault (Hosted σ) :=
  if s.Fills then
    .guard (r.bytes.length ≤ s.inputBuffer.offered) <|
      ((Outcome.ofExcept (s.inputBuffer.readFd extrabuf r)).mapFailed .buffer).bind fun (b, _) =>
        .next { s with inputBuffer := b, delivered := s.delivered ++ r.bytes }
  else .next s

end Hosted

namespace Application

variable {σ ε : Type} (A : Application σ ε) (threadId : Pid)

/-- A callback, with the calls it makes. -/
def notify (e : Event) (x : ε) (s : Hosted σ) : Outcome ReceiveFault (Hosted σ) :=
  let (ops, app) := A.callback e x s.run.conn s.app
  { s with app := app }.calls threadId ops

/-- The callback of a step with the events `l`, if there is one: it is the last event. -/
def notifyLast (l : List Event) (x : ε) (s : Hosted σ) : Outcome ReceiveFault (Hosted σ) :=
  match l.getLast? with
  | some e => if e.isNotice then A.notify threadId e x s else .next s
  | none => .next s

/-- A step of the connection, and the callback that it ends with. -/
def serve (lab : Connection.Label) (x : ε) (s : Hosted σ) : Outcome ReceiveFault (Hosted σ) :=
  (s.advance threadId lab).bind fun s' =>
    A.notifyLast threadId (s'.run.history.drop s.run.history.length) x s'

/-- The step function. -/
def step (s : Hosted σ) : Label ε → Outcome ReceiveFault (Hosted σ)
  | .poll revents => s.advance threadId (.poll revents)
  | .handle extrabuf r w x =>
    (s.fill extrabuf r).bind fun s => A.serve threadId (.handle r w) x s
  | .swap => s.advance threadId .swap
  | .runJob w x => A.serve threadId (.runJob w) x s
  | .endJobs => s.advance threadId .endJobs
  | .onTimer x =>
    .guard (s.run.phase = .dispatch (some .close) ∨ s.run.phase = .dispatch none) <|
      let (ops, app) := A.onTimer x s.run.conn s.app
      { s with app := app }.calls threadId ops

/-- A connection before the up callback, with `b` for the input buffer. -/
def accept (k : Interest) (fd : Fd) (b : Buffer) : Hosted σ where
  run := .start k fd true false 0
  inputBuffer := b
  delivered := []
  app := A.init

/-- The server has made a connection, and has announced it. -/
def Init (s : Hosted σ) : Prop :=
  ∃ k fd b x, k fd = none ∧ Buffer.new = .ok b ∧
    A.notify threadId .up x (A.accept k fd b) = .next s

/-- The runs of a connection with its application. -/
def system : System (Hosted σ) (Label ε) ReceiveFault where
  init := A.Init threadId
  step := A.step threadId

end Application

namespace Connection

variable {threadId : Pid} {s s' : Run} {lab : Label}

theorem Step.mono (h : Step threadId s lab s') : s.conn.state.value ≤ s'.conn.state.value := by
  cases h with
  | call ht h => exact (TcpConnection.call_growth h).mono
  | handle hp h => exact (TcpConnection.handleStage_effect h).mono
  | runJob hp hj h => exact (TcpConnection.runJob_growth h).mono
  | idle hp | poll hp hm | swap hp | endJobs hp hj => exact le_rfl

/-- A connection that is not closed was not closed before. -/
theorem ne_disconnected_of_run (hr : (system threadId).RunIf (fun _ _ => True) s s')
    (hd : s'.conn.state ≠ .kDisconnected) : s.conn.state ≠ .kDisconnected := by
  have hmono : s.conn.state.value ≤ s'.conn.state.value :=
    hr.monotone (I := fun _ => True) (f := fun s => s.conn.state.value) (fun _ _ _ _ _ _ => trivial)
      (fun _ _ _ _ _ h => Step.mono (.of_step h)) trivial
  intro hs
  cases hs' : s'.conn.state <;> simp_all [ConnectionState.value]

end Connection

namespace Hosted

variable {σ : Type} {threadId : Pid} {s s' : Hosted σ} {lab : Connection.Label} {op : Op}
  {ops : List Op} {extrabuf : Buffer.ExtraBuf} {r : ReadResult}

@[simp] theorem advance_eq_next :
    s.advance threadId lab = .next s' ↔
      ∃ t, Connection.step threadId s.run lab = .next t ∧ s' = { s with run := t } := by
  simp only [advance, Outcome.bind_eq_next, Outcome.mapFailed_eq_next, Outcome.next.injEq,
    @eq_comm _ s']

theorem advance_run (h : s.advance threadId lab = .next s') :
    (Connection.system threadId).RunIf (fun _ _ => True) s.run s'.run := by
  obtain ⟨t, ht, rfl⟩ := advance_eq_next.1 h
  exact .single ⟨lab, trivial, ht⟩

theorem of_advance (h : s.advance threadId lab = .next s') :
    ∃ t, Connection.Step threadId s.run lab t ∧ s' = { s with run := t } := by
  obtain ⟨t, ht, hs⟩ := advance_eq_next.1 h
  exact ⟨t, .of_step ht, hs⟩

@[simp] theorem call_eq_next :
    s.call threadId op = .next s' ↔
      ∃ t b, Connection.step threadId s.run (.call threadId op) = .next t ∧
        retrieve op s.inputBuffer = .ok b ∧ s' = { s with run := t, inputBuffer := b } := by
  simp only [call, Outcome.bind_eq_next, advance_eq_next, Outcome.mapFailed_eq_next,
    Outcome.ofExcept_eq_next, Outcome.next.injEq]
  constructor
  · rintro ⟨_, ⟨t, ht, rfl⟩, b, hb, rfl⟩
    exact ⟨t, b, ht, hb, rfl⟩
  · rintro ⟨t, b, ht, hb, rfl⟩
    exact ⟨_, ⟨t, ht, rfl⟩, b, hb, rfl⟩

theorem call_cases (h : s.call threadId op = .next s') :
    ∃ b c l, retrieve op s.inputBuffer = .ok b ∧
      s.run.conn.call true threadId s.run.calls op = .ok (c, l) ∧
      s' = { s with
        run := { s.run with calls := s.run.calls + 1 }.apply c l, inputBuffer := b } := by
  obtain ⟨t, b, ht, hb, rfl⟩ := call_eq_next.1 h
  simp only [Connection.step, Outcome.guard_eq_next, Connection.perform_eq_next,
    decide_true] at ht
  obtain ⟨-, c, l, hc, rfl⟩ := ht
  exact ⟨b, c, l, hb, hc, rfl⟩

theorem call_of_ok {c : TcpConnection} {l : List Event} {b : Buffer} (hp : s.run.phase ≠ .poll)
    (h : s.run.conn.call true threadId s.run.calls op = .ok (c, l))
    (hb : retrieve op s.inputBuffer = .ok b) :
    s.call threadId op =
      .next { s with
        run := { s.run with calls := s.run.calls + 1 }.apply c l, inputBuffer := b } := by
  refine call_eq_next.2 ⟨_, b, ?_, hb, rfl⟩
  simp only [Connection.step, decide_true]
  exact Outcome.guard_eq_next.2 ⟨fun _ => hp, Connection.perform_eq_next.2 ⟨c, l, h, rfl⟩⟩

@[simp] theorem calls_nil : s.calls threadId [] = .next s' ↔ s' = s := by
  simp [calls, eq_comm]

@[simp] theorem calls_cons :
    s.calls threadId (op :: ops) = .next s' ↔
      ∃ u, s.call threadId op = .next u ∧ u.calls threadId ops = .next s' :=
  Outcome.bind_eq_next

theorem calls_singleton :
    s.calls threadId [op] = .next s' ↔ s.call threadId op = .next s' := by
  simp only [calls_cons, calls_nil, exists_eq_right']

/-- The calls of a callback are steps of the connection. -/
theorem calls_run (h : s.calls threadId ops = .next s') :
    (Connection.system threadId).RunIf (fun _ _ => True) s.run s'.run := by
  induction ops generalizing s with
  | nil =>
    cases h
    exact .refl
  | cons op ops ih =>
    obtain ⟨u, hu, h⟩ := Outcome.bind_eq_next.1 h
    obtain ⟨t, b, ht, -, rfl⟩ := call_eq_next.1 hu
    exact (ih h).head ⟨.call threadId op, trivial, ht⟩

/-- `send` on a connected connection. -/
theorem call_send {d : Bytes} {w : WriteResult} (h : s.call threadId (.send d w) = .next s')
    (hc : s.run.conn.state = .kConnected) :
    ∃ c l, s.run.conn.sendInLoop threadId s.run.calls d w = .ok (c, l) ∧
      s' = { s with run :=
        { s.run with calls := s.run.calls + 1 }.apply c (.send threadId s.run.calls d :: l) } := by
  obtain ⟨b, c, l, hb, hsend, rfl⟩ := call_cases h
  cases hb
  obtain ⟨hne, -, -⟩ | ⟨-, -, m, hm, rfl, -⟩ | ⟨-, hfalse, -, -⟩ := TcpConnection.send_cases hsend
  · exact absurd hc hne
  · exact ⟨c, _, hm, rfl⟩
  · cases hfalse

/-- The calls leave the state of the application alone. -/
theorem calls_app (h : s.calls threadId ops = .next s') : s'.app = s.app := by
  induction ops generalizing s with
  | nil =>
    cases h
    rfl
  | cons op ops ih =>
    obtain ⟨u, hu, h⟩ := Outcome.bind_eq_next.1 h
    obtain ⟨t, b, -, -, rfl⟩ := call_eq_next.1 hu
    exact (ih h :)

theorem fill_cases (h : s.fill extrabuf r = .next s') :
    (s.Fills ∧ r.bytes.length ≤ s.inputBuffer.offered ∧
      ∃ b n, s.inputBuffer.readFd extrabuf r = .ok (b, n) ∧
        s' = { s with inputBuffer := b, delivered := s.delivered ++ r.bytes }) ∨
    (¬ s.Fills ∧ s' = s) := by
  unfold fill at h
  split_ifs at h with hf
  · simp only [Outcome.guard_eq_next, Outcome.bind_eq_next, Outcome.mapFailed_eq_next,
      Outcome.ofExcept_eq_next, Outcome.next.injEq] at h
    obtain ⟨hr, ⟨b, n⟩, hb, rfl⟩ := h
    exact .inl ⟨hf, hr, b, n, hb, rfl⟩
  · cases h
    exact .inr ⟨hf, rfl⟩

theorem fill_run (h : s.fill extrabuf r = .next s') : s'.run = s.run ∧ s'.app = s.app := by
  obtain ⟨-, -, b, n, -, rfl⟩ | ⟨-, rfl⟩ := fill_cases h <;> exact ⟨rfl, rfl⟩

end Hosted

namespace Application

variable {σ ε : Type} {A : Application σ ε} {threadId : Pid} {s s' : Hosted σ} {lab : Label ε}
  {l : List Event} {e : Event} {x : ε} {D : Hosted σ → Label ε → Prop}

theorem notify_eq : A.notify threadId e x s =
    { s with app := (A.callback e x s.run.conn s.app).2 }.calls threadId
      (A.callback e x s.run.conn s.app).1 := rfl

theorem notify_run (h : A.notify threadId e x s = .next s') :
    (Connection.system threadId).RunIf (fun _ _ => True) s.run s'.run := by
  rw [notify_eq] at h
  exact (Hosted.calls_run h :)

theorem notifyLast_cases (h : A.notifyLast threadId l x s = .next s') :
    (∃ e, l.getLast? = some e ∧ e.isNotice = true ∧ A.notify threadId e x s = .next s') ∨
      s' = s := by
  unfold notifyLast at h
  split at h
  · split_ifs at h with he
    · exact .inl ⟨_, ‹_›, he, h⟩
    · cases h
      exact .inr rfl
  · cases h
    exact .inr rfl

/-- No callback comes with the other events. -/
theorem notifyLast_quiet (hl : ∀ e ∈ l, e.isNotice = false)
    (h : A.notifyLast threadId l x s = .next s') : s' = s := by
  obtain ⟨e, he, hn, -⟩ | rfl := notifyLast_cases h
  · rw [hl e (List.mem_of_getLast? he)] at hn
    cases hn
  · rfl

theorem notifyLast_run (h : A.notifyLast threadId l x s = .next s') :
    (Connection.system threadId).RunIf (fun _ _ => True) s.run s'.run := by
  obtain ⟨e, -, -, h⟩ | rfl := notifyLast_cases h
  · exact notify_run h
  · exact .refl

/-- The steps of a run, one constructor for each kind. -/
inductive Step (A : Application σ ε) (threadId : Pid) (s : Hosted σ) :
    Label ε → Hosted σ → Prop
  | poll {revents : Option Mask} {t : Connection.Run}
      (h : Connection.Step threadId s.run (.poll revents) t) :
      Step A threadId s (.poll revents) { s with run := t }
  | handle {extrabuf : Buffer.ExtraBuf} {r : ReadResult} {w : WriteResult} {x : ε} {st : Stage}
      {c : TcpConnection} {l : List Event} {u s' : Hosted σ}
      (hp : s.run.phase = .dispatch (some st)) (hf : s.fill extrabuf r = .next u)
      (h : s.run.conn.handleStage st r w = .ok (c, l))
      (hn : A.notifyLast threadId l x
        { u with run := { s.run with phase := .dispatch st.next }.apply c l } = .next s') :
      Step A threadId s (.handle extrabuf r w x) s'
  | swap (hp : s.run.phase = .dispatch none) :
      Step A threadId s .swap
        { s with run := { s.run with jobs := s.run.pendingJobs, pendingJobs := [], phase := .jobs } }
  | runJob {w : WriteResult} {x : ε} {j : Job} {js : List Job} {c : TcpConnection}
      {l : List Event} {s' : Hosted σ} (hp : s.run.phase = .jobs) (hj : s.run.jobs = j :: js)
      (h : s.run.conn.runJob j w = .ok (c, l))
      (hn : A.notifyLast threadId l x { s with run := { s.run with jobs := js }.apply c l } =
        .next s') :
      Step A threadId s (.runJob w x) s'
  | endJobs (hp : s.run.phase = .jobs) (hj : s.run.jobs = []) :
      Step A threadId s .endJobs { s with run := { s.run with phase := .poll } }
  | onTimer {x : ε} {s' : Hosted σ}
      (hp : s.run.phase = .dispatch (some .close) ∨ s.run.phase = .dispatch none)
      (h : { s with app := (A.onTimer x s.run.conn s.app).2 }.calls threadId
        (A.onTimer x s.run.conn s.app).1 = .next s') :
      Step A threadId s (.onTimer x) s'

/-- The events of a step are what the history grows by. -/
theorem serve_cases {lab : Connection.Label} (h : A.serve threadId lab x s = .next s') :
    ∃ t, Connection.Step threadId s.run lab t ∧
      A.notifyLast threadId (t.history.drop s.run.history.length) x { s with run := t } =
        .next s' := by
  obtain ⟨u, hu, h⟩ := Outcome.bind_eq_next.1 h
  obtain ⟨t, ht, rfl⟩ := Hosted.of_advance hu
  exact ⟨t, ht, h⟩

theorem Step.of_step (h : (A.system threadId).step s lab = .next s') :
    Step A threadId s lab s' := by
  change A.step threadId s lab = .next s' at h
  cases lab with
  | poll revents =>
    obtain ⟨t, ht, rfl⟩ := Hosted.of_advance h
    exact .poll ht
  | handle extrabuf r w x =>
    obtain ⟨u, hf, h⟩ := Outcome.bind_eq_next.1 h
    obtain ⟨t, ht, hn⟩ := serve_cases h
    rw [(Hosted.fill_run hf).1] at ht hn
    cases ht with
    | handle hp hc =>
      rw [Connection.apply_history, List.drop_left] at hn
      exact .handle hp hf hc hn
  | swap =>
    obtain ⟨t, ht, rfl⟩ := Hosted.of_advance h
    cases ht with
    | swap hp => exact .swap hp
  | runJob w x =>
    obtain ⟨t, ht, hn⟩ := serve_cases h
    cases ht with
    | runJob hp hj hc =>
      rw [Connection.apply_history, List.drop_left] at hn
      exact .runJob hp hj hc hn
  | endJobs =>
    obtain ⟨t, ht, rfl⟩ := Hosted.of_advance h
    cases ht with
    | endJobs hp hj => exact .endJobs hp hj
  | onTimer x =>
    obtain ⟨hp, h⟩ := Outcome.guard_eq_next.1 h
    exact .onTimer hp h

/-! ### Steps that are possible -/

theorem notifyLast_of_quiet (hl : ∀ e ∈ l, e.isNotice = false) :
    A.notifyLast threadId l x s = .next s := by
  unfold notifyLast
  split
  · rw [hl _ (List.mem_of_getLast? ‹_›)]
    exact if_neg (by decide)
  · rfl

theorem step_handle {extrabuf : Buffer.ExtraBuf} {r : ReadResult} {w : WriteResult} {st : Stage}
    {c : TcpConnection} {u : Hosted σ} (hp : s.run.phase = .dispatch (some st))
    (hf : s.fill extrabuf r = .next u) (h : s.run.conn.handleStage st r w = .ok (c, l))
    (hn : A.notifyLast threadId l x
      { u with run := { s.run with phase := .dispatch st.next }.apply c l } = .next s') :
    (A.system threadId).step s (.handle extrabuf r w x) = .next s' := by
  obtain ⟨hu, -⟩ := Hosted.fill_run hf
  have hadv : u.advance threadId (.handle r w) =
      .next { u with run := { s.run with phase := .dispatch st.next }.apply c l } := by
    refine Hosted.advance_eq_next.2 ⟨_, ?_, rfl⟩
    simp only [Connection.step, hu, hp]
    exact Connection.perform_eq_next.2 ⟨c, l, h, rfl⟩
  refine Outcome.bind_eq_next.2 ⟨u, hf, Outcome.bind_eq_next.2 ⟨_, hadv, ?_⟩⟩
  rwa [Connection.apply_history, hu, List.drop_left]

/-- A stage that neither reads nor calls back. -/
theorem step_handle_of_quiet {extrabuf : Buffer.ExtraBuf} {r : ReadResult} {w : WriteResult}
    {st : Stage} {c : TcpConnection} (hp : s.run.phase = .dispatch (some st)) (hf : ¬ s.Fills)
    (h : s.run.conn.handleStage st r w = .ok (c, l)) (hl : ∀ e ∈ l, e.isNotice = false) :
    (A.system threadId).step s (.handle extrabuf r w x) =
      .next { s with run := { s.run with phase := .dispatch st.next }.apply c l } :=
  step_handle hp (if_neg hf) h (notifyLast_of_quiet hl)

theorem step_runJob {w : WriteResult} {j : Job} {js : List Job} {c : TcpConnection}
    (hp : s.run.phase = .jobs) (hj : s.run.jobs = j :: js)
    (h : s.run.conn.runJob j w = .ok (c, l))
    (hn : A.notifyLast threadId l x { s with run := { s.run with jobs := js }.apply c l } =
      .next s') :
    (A.system threadId).step s (.runJob w x) = .next s' := by
  have hadv : s.advance threadId (.runJob w) =
      .next { s with run := { s.run with jobs := js }.apply c l } := by
    refine Hosted.advance_eq_next.2 ⟨_, ?_, rfl⟩
    simp only [Connection.step, hp, hj]
    exact Connection.perform_eq_next.2 ⟨c, l, h, rfl⟩
  refine Outcome.bind_eq_next.2 ⟨_, hadv, ?_⟩
  rwa [Connection.apply_history, List.drop_left]

theorem step_poll {m : Mask} (hp : s.run.phase = .poll)
    (hm : Reportable (s.run.interest s.run.conn.channel.fd) m) :
    (A.system threadId).step s (.poll (some m)) = .next { s with run := s.run.setRevents m } :=
  Hosted.advance_eq_next.2 ⟨_, Outcome.guard_eq_next.2 ⟨⟨hp, hm⟩, rfl⟩, rfl⟩

theorem step_swap (hp : s.run.phase = .dispatch none) :
    (A.system threadId).step s .swap = .next { s with run :=
      { s.run with jobs := s.run.pendingJobs, pendingJobs := [], phase := .jobs } } :=
  Hosted.advance_eq_next.2 ⟨_, Outcome.guard_eq_next.2 ⟨hp, rfl⟩, rfl⟩

theorem step_endJobs (hp : s.run.phase = .jobs) (hj : s.run.jobs = []) :
    (A.system threadId).step s .endJobs = .next { s with run := { s.run with phase := .poll } } :=
  Hosted.advance_eq_next.2 ⟨_, Outcome.guard_eq_next.2 ⟨⟨hp, hj⟩, rfl⟩, rfl⟩

/-! ### A run of the application is a run of the connection -/

theorem run_of_step (h : (A.system threadId).step s lab = .next s') :
    (Connection.system threadId).RunIf (fun _ _ => True) s.run s'.run := by
  change A.step threadId s lab = .next s' at h
  have hserve : ∀ {u : Hosted σ} {lab : Connection.Label} {x : ε},
      A.serve threadId lab x u = .next s' →
      (Connection.system threadId).RunIf (fun _ _ => True) u.run s'.run := by
    intro u lab x h
    obtain ⟨v, hv, h⟩ := Outcome.bind_eq_next.1 h
    exact (Hosted.advance_run hv).trans (notifyLast_run h)
  cases lab with
  | poll revents => exact Hosted.advance_run h
  | handle extrabuf r w x =>
    obtain ⟨u, hf, h⟩ := Outcome.bind_eq_next.1 h
    rw [← (Hosted.fill_run hf).1]
    exact hserve h
  | swap => exact Hosted.advance_run h
  | runJob w x => exact hserve h
  | endJobs => exact Hosted.advance_run h
  | onTimer x => exact (Hosted.calls_run (Outcome.guard_eq_next.1 h).2 :)

/-- **A run of the application is a run of the connection.** -/
theorem reachable_run (hr : (A.system threadId).ReachableIf D s) :
    (Connection.system threadId).Reachable s.run := by
  refine hr.invariant (I := fun s => (Connection.system threadId).Reachable s.run) ?_ ?_
  · rintro s ⟨k, fd, b, x, hk, -, h⟩
    exact (System.ReachableIf.of_init (Connection.init_iff.2 ⟨k, fd, true, false, 0, hk, rfl⟩)).run
      (notify_run h)
  · exact fun s lab s' hs _ h => hs.run (run_of_step h)

variable (A threadId) in
/-- A computation from the up callback on reaches a state that satisfies `P`. -/
theorem exists_reachableIf [∀ s lab, Decidable (D s lab)] {P : Hosted σ → Prop} (fd : Fd)
    {w : List (Label ε)}
    (h : (((Outcome.ofExcept Buffer.new).mapFailed ReceiveFault.buffer).bind fun b =>
      (A.notify threadId .up x (A.accept (fun _ => none) fd b)).bind fun s =>
        (A.system threadId).execIf D s w).Leads P) :
    ∃ s, (A.system threadId).ReachableIf D s ∧ P s := by
  obtain ⟨s, hs, hp⟩ := h
  simp only [Outcome.bind_eq_next, Outcome.mapFailed_eq_next, Outcome.ofExcept_eq_next] at hs
  obtain ⟨b, hb, s₀, hn, hs⟩ := hs
  exact ⟨s, ⟨s₀, ⟨_, fd, b, x, rfl, hb, hn⟩, System.runIf_of_execIf hs⟩, hp⟩

end Application

/-! ### The storage of the input buffer -/

namespace TcpConnection

variable {c c' : TcpConnection} {l : List Event} {b : Bool} {t : Pid} {k : ℕ} {d : Bytes}
  {r : ReadResult} {w : WriteResult}

theorem sendInLoop_inputBuffer (h : c.sendInLoop t k d w = .ok (c', l)) :
    c'.inputBuffer = c.inputBuffer := by
  unfold sendInLoop at h
  split_ifs at h with hd
  · cases h
    rfl
  cases hw : c.writeDirect d w with
  | error a => simp [hw] at h
  | ok p =>
    obtain ⟨n, faultError, m⟩ := p
    simp only [hw] at h
    split_ifs at h
    · obtain ⟨m', hb, -⟩ := Result.after_eq_ok.1 h
      obtain ⟨rfl, -⟩ := bufferRest_cases hb
      rfl
    · cases h
      rfl

/-- `sendInLoop` on a connection with a write-complete callback: nothing comes of it, or all is
written at once, or a rest is buffered. -/
theorem sendInLoop_outcome (hs : c.Sound) (hd : c.state ≠ .kDisconnected)
    (hcb : c.writeCompleteCallback = true) (h : c.sendInLoop t k d w = .ok (c', l)) :
    (c' = c ∧ queued l = [] ∧ (d = [] ∨ .faultError ∈ l)) ∨
    (c' = c ∧ queued l = [.writeComplete] ∧ c.outputBuffer = []) ∨
    ∃ n, n < d.length ∧
      c' = { c with
        outputBuffer := c.outputBuffer ++ d.drop n
        channel := c.channel.setEvents (c.channel.events ∪ {.epollout}) } ∧
      queued l = queued (c.highWater (d.drop n)) := by
  have hb : ¬ c.channel.isWriting → c.outputBuffer = [] := fun hwr => by
    by_contra hne
    exact hwr ((hs hd).2.2.2 hne)
  unfold sendInLoop at h
  rw [if_neg hd] at h
  cases hwd : c.writeDirect d w with
  | error a => simp [hwd] at h
  | ok p =>
    obtain ⟨n, faultError, m⟩ := p
    simp only [hwd] at h
    unfold writeDirect at hwd
    -- the rest of the payload, when the direct write has taken `n` bytes and has queued nothing
    have hrest : queued m = [] → (n = d.length → d = []) →
        (if faultError = false ∧ d.length - n > 0 then
          (c.bufferRest (d.drop n)).after (.sendInLoop t k d :: m)
          else .ok (c, .sendInLoop t k d :: m)) = .ok (c', l) → (faultError = true → .faultError ∈ m) →
        n ≤ d.length →
        (c' = c ∧ queued l = [] ∧ (d = [] ∨ .faultError ∈ l)) ∨
        ∃ n, n < d.length ∧
          c' = { c with
            outputBuffer := c.outputBuffer ++ d.drop n
            channel := c.channel.setEvents (c.channel.events ∪ {.epollout}) } ∧
          queued l = queued (c.highWater (d.drop n)) := by
      intro hm hnil h hfault hn
      split_ifs at h with hr
      · obtain ⟨m', hbuf, rfl⟩ := Result.after_eq_ok.1 h
        obtain ⟨rfl, rfl⟩ := bufferRest_cases hbuf
        refine .inr ⟨n, by omega, rfl, ?_⟩
        simp [hm]
      · cases h
        refine .inl ⟨rfl, by simpa using hm, ?_⟩
        cases faultError with
        | true => exact .inr (List.mem_cons_of_mem _ (hfault rfl))
        | false => exact .inl (hnil (by simp only [true_and] at hr; omega))
    split_ifs at hwd with h1 h2
    · cases hwd
      refine (hrest rfl (fun h0 => List.eq_nil_of_length_eq_zero h0.symm) h (by simp)
        (Nat.zero_le _)).imp_right .inr
    · cases w with
      | error e =>
        dsimp only at hwd
        split_ifs at hwd with he
        · cases hwd
          refine (hrest rfl (fun h0 => List.eq_nil_of_length_eq_zero h0.symm) h (by simp)
            (Nat.zero_le _)).imp_right .inr
        · cases hwd
          refine (hrest rfl (fun h0 => List.eq_nil_of_length_eq_zero h0.symm) h (by simp)
            (Nat.zero_le _)).imp_right .inr
      | wrote i =>
        dsimp only at hwd
        split_ifs at hwd with hall
        · cases hwd
          rw [if_neg (by omega)] at h
          cases h
          exact .inr (.inl ⟨rfl, by simp, hb h1⟩)
        · cases hwd
          refine (hrest rfl (fun h0 => ?_) h (by simp) (Nat.min_le_right ..)).imp_right .inr
          exact absurd ⟨h0, hcb⟩ hall

theorem call_inputBuffer {op : Op} (hop : ∀ n, op ≠ .retrieveInput n)
    (h : c.call b t k op = .ok (c', l)) : c'.inputBuffer = c.inputBuffer := by
  cases op with
  | retrieveInput n => exact absurd rfl (hop n)
  | send data w =>
    obtain ⟨-, rfl, -⟩ | ⟨-, -, m, hm, -, -⟩ | ⟨-, -, rfl, -⟩ := send_cases h
    · rfl
    · exact sendInLoop_inputBuffer hm
    · rfl
  | shutdown => obtain ⟨-, rfl, -⟩ := shutdown_cases h; rfl
  | forceClose => obtain ⟨-, rfl, -⟩ | ⟨-, rfl, -⟩ := forceClose_cases h <;> rfl
  | stopRead =>
    obtain ⟨-, h⟩ | ⟨-, rfl, -⟩ := stopRead_cases h
    · obtain ⟨-, rfl, -⟩ | ⟨-, rfl, -⟩ := stopReadInLoop_cases h <;> rfl
    · rfl
  | startRead =>
    obtain ⟨-, h⟩ | ⟨-, rfl, -⟩ := startRead_cases h
    · obtain ⟨-, rfl, -⟩ | ⟨-, rfl, -⟩ := startReadInLoop_cases h <;> rfl
    · rfl
  | setWriteCompleteCallback | setHighWaterMarkCallback mark => cases h; rfl

/-- No call closes. -/
theorem ne_disconnected_of_call {op : Op} (hd : c.state ≠ .kDisconnected)
    (h : c.call b t k op = .ok (c', l)) : c'.state ≠ .kDisconnected := by
  cases op with
  | send data w =>
    obtain ⟨-, rfl, -⟩ | ⟨-, -, m, hm, -, -⟩ | ⟨-, -, rfl, -⟩ := send_cases h
    · exact hd
    · rwa [(sendInLoop_state hm).1]
    · exact hd
  | shutdown =>
    obtain ⟨-, rfl, -⟩ := shutdown_cases h
    simp
  | forceClose =>
    obtain ⟨-, rfl, -⟩ | ⟨hc, -, -⟩ := forceClose_cases h
    · simp
    · exact absurd hc hd
  | stopRead =>
    obtain ⟨-, h⟩ | ⟨-, rfl, -⟩ := stopRead_cases h
    · obtain ⟨-, rfl, -⟩ | ⟨-, rfl, -⟩ := stopReadInLoop_cases h <;> exact hd
    · exact hd
  | startRead =>
    obtain ⟨-, h⟩ | ⟨-, rfl, -⟩ := startRead_cases h
    · obtain ⟨-, rfl, -⟩ | ⟨-, rfl, -⟩ := startReadInLoop_cases h <;> exact hd
    · exact hd
  | setWriteCompleteCallback | setHighWaterMarkCallback mark | retrieveInput n =>
    cases h
    exact hd

theorem handleClose_inputBuffer (h : c.handleClose = .ok (c', l)) :
    c'.inputBuffer = c.inputBuffer := by
  obtain ⟨-, rfl, -⟩ := handleClose_cases h
  rfl

theorem runJob_inputBuffer {j : Job} (h : c.runJob j w = .ok (c', l)) :
    c'.inputBuffer = c.inputBuffer := by
  cases j with
  | sendInLoop u i d => exact sendInLoop_inputBuffer h
  | shutdownInLoop => obtain ⟨rfl, -⟩ := shutdownInLoop_cases h; rfl
  | forceCloseInLoop =>
    obtain ⟨-, h⟩ | ⟨-, rfl, -⟩ := forceCloseInLoop_cases h
    · exact handleClose_inputBuffer h
    · rfl
  | writeComplete | highWaterMark len => cases h; rfl
  | stopRead => obtain ⟨-, rfl, -⟩ | ⟨-, rfl, -⟩ := stopReadInLoop_cases h <;> rfl
  | startRead => obtain ⟨-, rfl, -⟩ | ⟨-, rfl, -⟩ := startReadInLoop_cases h <;> rfl

theorem handleWrite_inputBuffer (h : c.handleWrite w = .ok (c', l)) :
    c'.inputBuffer = c.inputBuffer := by
  obtain ⟨-, rfl, -⟩ | ⟨-, -, ⟨e, -, rfl, -⟩ | ⟨m, -, -, rfl, -⟩ | ⟨m, -, -, rfl, -⟩⟩ :=
    handleWrite_cases h <;> rfl

theorem handleRead_inputBuffer (h : c.handleRead r = .ok (c', l)) :
    c.state ≠ .kDisconnected ∧ c'.inputBuffer = c.inputBuffer ++ r.bytes := by
  unfold handleRead at h
  split_ifs at h with hd
  refine ⟨hd, ?_⟩
  cases r with
  | error e =>
    cases h
    exact (List.append_nil _).symm
  | data bytes =>
    cases bytes with
    | nil =>
      obtain ⟨m, hm, rfl⟩ := Result.after_eq_ok.1 h
      rw [handleClose_inputBuffer hm]
      exact (List.append_nil _).symm
    | cons b bytes =>
      cases h
      rfl

/-- Only `handleRead` appends to the input buffer. -/
theorem handleStage_inputBuffer {st : Stage} (h : c.handleStage st r w = .ok (c', l)) :
    c'.inputBuffer = c.inputBuffer ++
      if (st = .read ∧ c.channel.revents ∩ {.epollin, .epollpri, .epollrdhup} ≠ ∅) ∧
        c.state ≠ .kDisconnected then r.bytes else [] := by
  cases st with
  | close =>
    rw [if_neg (by simp), List.append_nil]
    simp only [handleStage] at h
    split_ifs at h
    · exact (handleClose_inputBuffer h :)
    · cases h
      rfl
  | error =>
    rw [if_neg (by simp), List.append_nil]
    simp only [handleStage, handleError] at h
    split_ifs at h <;> cases h <;> rfl
  | read =>
    simp only [handleStage] at h
    split_ifs at h with hm
    · obtain ⟨hd, hc⟩ := handleRead_inputBuffer h
      rw [if_pos ⟨⟨rfl, hm⟩, hd⟩, hc]
    · cases h
      rw [if_neg fun hall => hm hall.1.2, List.append_nil]
  | write =>
    rw [if_neg (by simp), List.append_nil]
    simp only [handleStage, Result.andThen_eq_ok, Except.ok.injEq, Prod.mk.injEq] at h
    obtain ⟨d, m, m', hd, ⟨rfl, rfl⟩, rfl⟩ := h
    split_ifs at hd
    · exact (handleWrite_inputBuffer hd :)
    · cases hd
      rfl

end TcpConnection

namespace Hosted

variable {σ : Type} {threadId : Pid} {s s' : Hosted σ} {op : Op} {ops : List Op}
  {extrabuf : Buffer.ExtraBuf} {r : ReadResult}

/-- The storage of the input buffer holds the readable bytes of the connection. -/
structure Stored (s : Hosted σ) : Prop where
  wellFormed : s.inputBuffer.WellFormed
  content : s.inputBuffer.content = s.run.conn.inputBuffer

theorem Stored.call (hs : Stored s) (h : s.call threadId op = .next s') : Stored s' := by
  obtain ⟨b, c, l, hb, hc, rfl⟩ := call_cases h
  by_cases hop : ∃ n, op = .retrieveInput n
  · obtain ⟨n, rfl⟩ := hop
    have hn : n ≤ s.inputBuffer.readableBytes := by
      by_contra hn
      rw [retrieve, Buffer.retrieve, if_neg hn] at hb
      cases hb
    obtain ⟨b', hb', hw, hcontent, -⟩ := hs.wellFormed.retrieve hn
    cases hb'.symm.trans hb
    cases hc
    exact ⟨hw, by rw [hcontent, hs.content]; rfl⟩
  · push Not at hop
    have hbuf : b = s.inputBuffer := by
      cases op with
      | retrieveInput n => exact absurd rfl (hop n)
      | _ => cases hb; rfl
    subst hbuf
    exact ⟨hs.wellFormed, hs.content.trans (TcpConnection.call_inputBuffer hop hc).symm⟩

/-- Neither `send` nor a call that retrieves. -/
def Plain (op : Op) : Prop := (∀ data w, op ≠ .send data w) ∧ ∀ n, op ≠ .retrieveInput n

/-- What such calls leave alone. -/
structure Keeps (s s' : Hosted σ) : Prop where
  inputBuffer : s'.inputBuffer = s.inputBuffer
  delivered : s'.delivered = s.delivered
  app : s'.app = s.app
  content : s'.run.conn.inputBuffer = s.run.conn.inputBuffer
  sent : sent s'.run.history = sent s.run.history
  accepted : accepted s'.run.history = Leven.accepted s.run.history

theorem Keeps.call (hop : Plain op) (h : s.call threadId op = .next s') : Keeps s s' := by
  obtain ⟨b, c, l, hb, hc, rfl⟩ := call_cases h
  have hbuf : b = s.inputBuffer := by
    cases op with
    | retrieveInput n => exact absurd rfl (hop.2 n)
    | _ => cases hb; rfl
  have hl : ∀ e ∈ l, e.noFlow = true := fun e he =>
    TcpConnection.noFlow_of_ofCall (TcpConnection.call_events hop.1 hc e he)
  obtain ⟨-, -, ha, hsent, -⟩ := noFlow_facts hl
  refine ⟨hbuf, rfl, rfl, TcpConnection.call_inputBuffer hop.2 hc, ?_, ?_⟩
  · simp [hsent]
  · simp [ha]

theorem Keeps.calls (hops : ∀ op ∈ ops, Plain op) (h : s.calls threadId ops = .next s') :
    Keeps s s' := by
  induction ops generalizing s with
  | nil =>
    cases h
    exact ⟨rfl, rfl, rfl, rfl, rfl, rfl⟩
  | cons op ops ih =>
    obtain ⟨u, hu, h⟩ := Outcome.bind_eq_next.1 h
    have h₁ := Keeps.call (hops op List.mem_cons_self) hu
    have h₂ := ih (fun op hop => hops op (List.mem_cons_of_mem _ hop)) h
    exact ⟨h₂.inputBuffer.trans h₁.inputBuffer, h₂.delivered.trans h₁.delivered,
      h₂.app.trans h₁.app, h₂.content.trans h₁.content, h₂.sent.trans h₁.sent,
      h₂.accepted.trans h₁.accepted⟩

theorem Stored.calls (hs : Stored s) (h : s.calls threadId ops = .next s') : Stored s' := by
  induction ops generalizing s with
  | nil =>
    cases h
    exact hs
  | cons op ops ih =>
    obtain ⟨u, hu, h⟩ := Outcome.bind_eq_next.1 h
    exact ih (hs.call hu) h

theorem ne_disconnected_of_calls (h : s.calls threadId ops = .next s')
    (hd : s.run.conn.state ≠ .kDisconnected) : s'.run.conn.state ≠ .kDisconnected := by
  induction ops generalizing s with
  | nil =>
    cases h
    exact hd
  | cons op ops ih =>
    obtain ⟨u, hu, h⟩ := Outcome.bind_eq_next.1 h
    obtain ⟨b, c, l, -, hc, rfl⟩ := call_cases hu
    exact ih h (TcpConnection.ne_disconnected_of_call hd hc)

/-- `readFd` appends what it reads. -/
theorem Stored.fill (hs : Stored s) (h : s.fill extrabuf r = .next s') :
    s'.inputBuffer.WellFormed ∧
      s'.inputBuffer.content = s.run.conn.inputBuffer ++ if s.Fills then r.bytes else [] := by
  obtain ⟨hf, hr, b, n, hb, rfl⟩ | ⟨hf, rfl⟩ := fill_cases h
  · rw [if_pos hf, ← hs.content]
    cases r with
    | error e =>
      cases hb
      exact ⟨hs.wellFormed, (List.append_nil _).symm⟩
    | data bytes =>
      obtain ⟨b', hb', hw, hc⟩ := hs.wellFormed.readFd hr extrabuf
      cases hb'.symm.trans hb
      exact ⟨hw, hc⟩
  · rw [if_neg hf, List.append_nil]
    exact ⟨hs.wellFormed, hs.content⟩

end Hosted

namespace Application

variable {σ ε : Type} {A : Application σ ε} {threadId : Pid} {s s' : Hosted σ} {lab : Label ε}
  {l : List Event} {e : Event} {x : ε} {D : Hosted σ → Label ε → Prop}

theorem stored_notify (hs : s.Stored) (h : A.notify threadId e x s = .next s') : s'.Stored := by
  rw [notify_eq] at h
  refine Hosted.Stored.calls ?_ h
  exact ⟨hs.wellFormed, hs.content⟩

theorem stored_notifyLast (hs : s.Stored) (h : A.notifyLast threadId l x s = .next s') :
    s'.Stored := by
  obtain ⟨e, -, -, h⟩ | rfl := notifyLast_cases h
  · exact stored_notify hs h
  · exact hs

theorem Step.stored (hs : s.Stored) (h : Step A threadId s lab s') : s'.Stored := by
  cases h with
  | poll h =>
    cases h with
    | idle hp => exact ⟨hs.wellFormed, hs.content⟩
    | poll hp hm => exact ⟨hs.wellFormed, hs.content⟩
  | @handle extrabuf r w x st c l u s' hp hf h hn =>
    obtain ⟨hw, hc⟩ := hs.fill hf
    refine stored_notifyLast ?_ hn
    refine ⟨hw, hc.trans ?_⟩
    rw [Connection.apply_conn, TcpConnection.handleStage_inputBuffer h]
    have hiff : s.Fills ↔ (st = .read ∧
        s.run.conn.channel.revents ∩ {.epollin, .epollpri, .epollrdhup} ≠ ∅) ∧
        s.run.conn.state ≠ .kDisconnected := by
      simp [Hosted.Fills, Connection.Run.EntersHandleRead, hp]
    simp only [hiff]
  | swap hp => exact ⟨hs.wellFormed, hs.content⟩
  | @runJob w x j js c l s' hp hj h hn =>
    refine stored_notifyLast ?_ hn
    exact ⟨hs.wellFormed, hs.content.trans (TcpConnection.runJob_inputBuffer h).symm⟩
  | endJobs hp hj => exact ⟨hs.wellFormed, hs.content⟩
  | onTimer hp h =>
    refine Hosted.Stored.calls ?_ h
    exact ⟨hs.wellFormed, hs.content⟩

theorem stored_of_reachable (hr : (A.system threadId).ReachableIf D s) : s.Stored := by
  refine hr.invariant (I := Hosted.Stored) ?_ fun s lab s' hs _ h => (Step.of_step h).stored hs
  rintro s ⟨k, fd, b, x, -, hb, h⟩
  obtain ⟨hw, hc⟩ := Buffer.WellFormed.new hb
  refine stored_notify ?_ h
  exact ⟨hw, hc⟩

end Application
end Leven
