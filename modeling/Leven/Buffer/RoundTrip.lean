import Leven.Buffer.Int
import Leven.Transition.System

/-!
# Reading what has been written

What the integers in a buffer are for: whoever reads in the order of the writing, with the widths
that have been written, reads what has been written.  The writer and the reader know the buffer as
`Queue`, a list of values and of single bytes; `Session` is the buffer that stands for it.

* `Item`: what is in the queue; `Item.encode`: the bytes that stand for it;
* `IntOp`: the calls; `Queue.step`, `Session.step`: what they do to the queue, and to the buffer;
* `Queue.Step`: the cases of a step of the queue; `Queue.exec_reads`: nothing in it is lost, or
  changes its place;
* `Session.run_spec`: a call does to the buffer what it does to the queue, whatever the layout;
* `Session.readBack_round_trip`: who takes out all that has been written gets it;
* `Session.typed_round_trip`: the law, for any writing and any reading.
-/

namespace Leven

open Transition Container

/-- A value of one of the types. -/
abbrev Value := (w : Width) × w.Int

/-- What is in a buffer, to those who write and read it. -/
inductive Item
  | int (v : Value)
  | byte (a : UInt8)
  deriving DecidableEq

namespace Item

/-- The bytes of a value are its two's complement encoding. -/
def encode : Item → Bytes
  | .int ⟨w, x⟩ => bigEndian w.size x.toInt
  | .byte a => [a]

def isByte : Item → Bool
  | .int _ => false
  | .byte _ => true

def encodeAll (q : List Item) : Bytes := q.flatMap encode

theorem encodeAll_append {q q' : List Item} : encodeAll (q ++ q') = encodeAll q ++ encodeAll q' :=
  List.flatMap_append

theorem encodeAll_singleton {i : Item} : encodeAll [i] = i.encode := List.flatMap_singleton encode i

theorem encodeAll_bytes (bs : Bytes) : encodeAll (bs.map .byte) = bs := by
  rw [encodeAll, List.flatMap_map]
  exact List.flatMap_singleton' bs

theorem eq_map_byte {q : List Item} (h : q.all isByte) : ∃ bs : Bytes, q = bs.map .byte := by
  induction q with
  | nil => exact ⟨[], rfl⟩
  | cons i q ih =>
    rw [List.all_cons, Bool.and_eq_true] at h
    obtain ⟨bs, rfl⟩ := ih h.2
    cases i with
    | int v => cases h.1
    | byte a => exact ⟨a :: bs, rfl⟩

end Item

/-- The calls. -/
inductive IntOp
  | appendInt (v : Value)
  | prependInt (v : Value)
  | peekInt (w : Width)
  | readInt (w : Width)
  | retrieve (len : ℕ)
  deriving DecidableEq

/-- What a call answers: a value that it looks at, or an item that it takes out. -/
inductive Answer
  | peeked (v : Value)
  | taken (i : Item)
  deriving DecidableEq

def Answer.item : Answer → Option Item
  | .peeked _ => none
  | .taken i => some i

/-- The items that have been taken out. -/
def taken (as : List Answer) : List Item := as.filterMap Answer.item

theorem taken_append {as as' : List Answer} : taken (as ++ as') = taken as ++ taken as' :=
  List.filterMap_append

namespace IntOp

def appended : IntOp → Option Value
  | .appendInt v => some v
  | _ => none

def prepended : IntOp → Option Value
  | .prependInt v => some v
  | _ => none

/-- The calls that write. -/
def IsWrite : IntOp → Prop
  | .appendInt _ | .prependInt _ => True
  | .peekInt _ | .readInt _ | .retrieve _ => False

/-- What the caller has to see to, for the writing. -/
def Allowed (b : Buffer) : IntOp → Prop
  | .prependInt v => v.1.size ≤ b.prependableBytes
  | .appendInt _ | .peekInt _ | .readInt _ | .retrieve _ => True

instance (b : Buffer) : DecidablePred (Allowed b) := fun o =>
  match o with
  | .prependInt v => inferInstanceAs (Decidable (v.1.size ≤ b.prependableBytes))
  | .appendInt _ | .peekInt _ | .readInt _ | .retrieve _ => isTrue trivial

/-- The call: the buffer afterwards, and what it answers.  The bytes that `retrieve` takes out are
those that are found at `peek()` before. -/
def run (host : Endian) (b : Buffer) : IntOp → Except Buffer.Assertion (Buffer × List Answer)
  | .appendInt ⟨w, x⟩ => (b.appendIntN host w x).map (·, [])
  | .prependInt ⟨w, x⟩ => (b.prependIntN host w x).map (·, [])
  | .peekInt w => (b.peekIntN host w).map fun x => (b, [.peeked ⟨w, x⟩])
  | .readInt w => (b.readIntN host w).map fun (b, x) => (b, [.taken (.int ⟨w, x⟩)])
  | .retrieve len => (b.retrieve len).map
      (·, (slice b.peek (b.peek + len) b.buffer).map fun a => .taken (.byte a))

end IntOp

/-- The values that the calls append, in order. -/
def values (w : List IntOp) : List Value := w.filterMap IntOp.appended

/-- The values that the calls prepend, in order. -/
def headers (w : List IntOp) : List Value := w.filterMap IntOp.prepended

/-- All that is in a buffer behind the calls, and what has been taken out of it: the values that
have been prepended, the last one first, the bytes that have been there before, and the values that
have been appended. -/
def written (w : List IntOp) (old : Bytes) : List Item :=
  (headers w).reverse.map .int ++ old.map .byte ++ (values w).map .int

/-- The reads of one who does nothing but to take out all of it. -/
def readBack (w : List IntOp) (old : Bytes) : List IntOp :=
  (headers w).reverse.map (fun v => .readInt v.1) ++
    .retrieve old.length :: (values w).map fun v => .readInt v.1

theorem values_append {w w' : List IntOp} : values (w ++ w') = values w ++ values w' :=
  List.filterMap_append

theorem values_singleton {o : IntOp} : values [o] = o.appended.toList := by cases o <;> rfl

theorem written_append {w w' : List IntOp} {old : Bytes} (hw' : ∀ o ∈ w', o.prepended = none) :
    written (w ++ w') old = written w old ++ (values w').map .int := by
  have hheaders : headers (w ++ w') = headers w := by
    rw [headers, List.filterMap_append, List.filterMap_eq_nil_iff.2 hw', List.append_nil]
    rfl
  rw [written, hheaders, values_append, List.map_append, ← List.append_assoc]
  rfl

theorem readBack_reads {w : List IntOp} {old : Bytes} :
    ∀ o ∈ readBack w old, o.prepended = none ∧ o.appended = none := by
  intro o ho
  simp only [readBack, List.mem_append, List.mem_cons, List.mem_map] at ho
  obtain ⟨v, -, rfl⟩ | rfl | ⟨v, -, rfl⟩ := ho <;> exact ⟨rfl, rfl⟩

/-- Reading back writes nothing. -/
theorem written_readBack {w w' : List IntOp} {old : Bytes} :
    written (w ++ readBack w' old) old = written w old := by
  have hvalues : values (readBack w' old) = [] :=
    List.filterMap_eq_nil_iff.2 fun o ho => (readBack_reads o ho).2
  rw [written_append fun o ho => (readBack_reads o ho).1, hvalues, List.map_nil, List.append_nil]

/-! ### The queue -/

/-- The items, and the answers so far. -/
structure Queue where
  items : List Item
  answers : List Answer

namespace Queue

/-- What a call does to the queue.  There is no step for a reader who reads a value with another
width than that of the writing, or takes a part of it for bytes. -/
def step (q : Queue) : IntOp → Outcome Empty Queue
  | .appendInt v => .next { q with items := q.items ++ [.int v] }
  | .prependInt v => .next { q with items := .int v :: q.items }
  | .peekInt w =>
    match q.items with
    | .int v :: _ => .guard (v.1 = w) (.next { q with answers := q.answers ++ [.peeked v] })
    | _ => .blocked
  | .readInt w =>
    match q.items with
    | .int v :: items => .guard (v.1 = w) (.next ⟨items, q.answers ++ [.taken (.int v)]⟩)
    | _ => .blocked
  | .retrieve len =>
    .guard (len ≤ q.items.length ∧ (q.items.take len).all Item.isByte)
      (.next ⟨q.items.drop len, q.answers ++ (q.items.take len).map .taken⟩)

def system : System Queue IntOp Empty where
  init q := ∃ old : Bytes, q = ⟨old.map .byte, []⟩
  step := step

/-- The steps, with the form of the queue where there is one. -/
inductive Step (q : Queue) : IntOp → Queue → Prop
  | appendInt {v : Value} : Step q (.appendInt v) { q with items := q.items ++ [.int v] }
  | prependInt {v : Value} : Step q (.prependInt v) { q with items := .int v :: q.items }
  | peekInt {v : Value} {items : List Item} (h : q.items = .int v :: items) :
    Step q (.peekInt v.1) { q with answers := q.answers ++ [.peeked v] }
  | readInt {v : Value} {items : List Item} (h : q.items = .int v :: items) :
    Step q (.readInt v.1) ⟨items, q.answers ++ [.taken (.int v)]⟩
  | retrieve {bs : Bytes} {items : List Item} (h : q.items = bs.map .byte ++ items) :
    Step q (.retrieve bs.length) ⟨items, q.answers ++ bs.map fun a => .taken (.byte a)⟩

variable {q q' : Queue} {o : IntOp} {w : List IntOp} {old : Bytes} {items : List Item}

theorem Step.of_step (h : q.step o = .next q') : Step q o q' := by
  cases o with
  | appendInt v =>
    cases h
    exact .appendInt
  | prependInt v =>
    cases h
    exact .prependInt
  | peekInt w =>
    obtain ⟨_ | ⟨_ | _, items⟩, answers⟩ := q
    · cases h
    · obtain ⟨rfl, hq⟩ := Outcome.guard_eq_next.1 h
      cases hq
      exact .peekInt rfl
    · cases h
  | readInt w =>
    obtain ⟨_ | ⟨_ | _, items⟩, answers⟩ := q
    · cases h
    · obtain ⟨rfl, hq⟩ := Outcome.guard_eq_next.1 h
      cases hq
      exact .readInt rfl
    · cases h
  | retrieve len =>
    obtain ⟨⟨hlen, hbytes⟩, hq⟩ := Outcome.guard_eq_next.1 h
    cases hq
    obtain ⟨bs, hbs⟩ := Item.eq_map_byte hbytes
    have hsplit : q.items = bs.map .byte ++ q.items.drop len := by
      rw [← hbs, List.take_append_drop]
    obtain rfl : len = bs.length := by
      rw [← List.length_take_of_le hlen, hbs, List.length_map]
    rw [hbs, List.map_map]
    exact .retrieve hsplit

theorem Step.step_eq (h : Step q o q') : q.step o = .next q' := by
  cases h with
  | appendInt | prependInt => rfl
  | peekInt h | readInt h => simp [step, h]
  | @retrieve bs items h =>
    have hlength : (bs.map Item.byte).length = bs.length := List.length_map _
    have htake : q.items.take bs.length = bs.map Item.byte := by rw [h, List.take_left' hlength]
    have hdrop : q.items.drop bs.length = items := by rw [h, List.drop_left' hlength]
    have hguard : bs.length ≤ q.items.length ∧ (q.items.take bs.length).all Item.isByte := by
      rw [htake, h]
      simp [Item.isByte]
    rw [step, Outcome.guard, if_pos hguard, htake, hdrop, List.map_map]
    rfl

/-- What the answers of a call have to do with the queue behind it. -/
def Adds (as : List Answer) (q : Queue) : Prop :=
  ∀ v, .peeked v ∈ as → as = [.peeked v] ∧ q.items.head? = some (.int v)

/-- A call that does not prepend takes out what comes first, puts in what comes last, and looks at
what comes first. -/
theorem step_spec (ho : o.prepended = none) (h : Step q o q') :
    ∃ as, q'.answers = q.answers ++ as ∧
      taken as ++ q'.items = q.items ++ o.appended.toList.map .int ∧ Adds as q' := by
  cases h with
  | appendInt =>
    exact ⟨[], (List.append_nil _).symm, rfl, fun u hu => absurd hu List.not_mem_nil⟩
  | prependInt => cases ho
  | peekInt h =>
    refine ⟨_, rfl, (List.append_nil _).symm, fun u hu => ?_⟩
    cases List.mem_singleton.1 hu
    exact ⟨rfl, by rw [h, List.head?_cons]⟩
  | readInt h =>
    refine ⟨_, rfl, ?_, fun u hu => ?_⟩
    · rw [h]
      exact (List.append_nil _).symm
    · cases List.mem_singleton.1 hu
  | @retrieve bs items h =>
    have htaken : taken (bs.map fun a => .taken (.byte a)) = bs.map .byte := by
      rw [taken, List.filterMap_map]
      exact congrFun (List.filterMap_eq_map (f := Item.byte)) bs
    refine ⟨_, rfl, ?_, fun u hu => ?_⟩
    · rw [htaken, h]
      exact (List.append_nil _).symm
    · obtain ⟨a, -, ha⟩ := List.mem_map.1 hu
      cases ha

/-- The queue behind writing. -/
theorem exec_writes (hw : ∀ o ∈ w, o.IsWrite) :
    system.exec ⟨old.map .byte, []⟩ w = .next ⟨written w old, []⟩ := by
  induction w using List.reverseRecOn with
  | nil =>
    have hold : written [] old = old.map .byte := List.append_nil _
    rw [hold]
    rfl
  | append_singleton w o ih =>
    rw [System.exec_concat]
    refine ⟨_, ih fun o' ho' => hw o' (List.mem_append_left _ ho'), ?_⟩
    have ho := hw o (List.mem_append_right _ List.mem_cons_self)
    cases o with
    | appendInt v =>
      simp [system, step, written, headers, values, IntOp.appended, IntOp.prepended]
    | prependInt v =>
      simp [system, step, written, headers, values, IntOp.appended, IntOp.prepended]
    | peekInt w | readInt w | retrieve len => cases ho

/-- What has been looked at is what comes next: among what has been taken out since, or in the
queue. -/
def PeeksAgree (q : Queue) : Prop :=
  ∀ as₁ v as₂, q.answers = as₁ ++ .peeked v :: as₂ → (taken as₂ ++ q.items).head? = some (.int v)

theorem step_peeksAgree (hq : q.PeeksAgree) (ho : o.prepended = none) (h : Step q o q') :
    q'.PeeksAgree := by
  intro as₁ v as₂ has
  obtain ⟨as, hanswers, hitems, hadds⟩ := step_spec ho h
  have hown : ∀ as', as = as' ++ .peeked v :: as₂ →
      (taken as₂ ++ q'.items).head? = some (.int v) := by
    intro as' hright
    obtain ⟨hone, hhead⟩ := hadds v (by simp [hright])
    have hlen := congrArg List.length (hright.symm.trans hone)
    rw [List.length_append, List.length_cons, List.length_singleton] at hlen
    have hnil : as₂ = [] := List.eq_nil_of_length_eq_zero (by omega)
    rw [hnil]
    exact hhead
  obtain ⟨as', -, hright⟩ | ⟨as', hleft, hmid⟩ :=
    List.append_eq_append_iff.1 (hanswers.symm.trans has)
  · exact hown as' hright
  obtain ⟨-, hright⟩ | ⟨as', rfl, rfl⟩ := List.cons_eq_append_iff.1 hmid
  · exact hown [] hright
  · -- the value has been looked at before
    rw [taken_append, List.append_assoc, hitems, ← List.append_assoc, List.head?_append,
      hq as₁ v as' hleft, Option.some_or]

/-- Nothing in the queue is lost, or changes its place. -/
theorem exec_reads (hq : q.PeeksAgree) (hw : ∀ o ∈ w, o.prepended = none)
    (h : system.exec q w = .next q') :
    taken q'.answers ++ q'.items = taken q.answers ++ q.items ++ (values w).map .int ∧
      q'.PeeksAgree := by
  induction w using List.reverseRecOn generalizing q' with
  | nil =>
    cases h
    exact ⟨(List.append_nil _).symm, hq⟩
  | append_singleton w o ih =>
    obtain ⟨r, hr, hl⟩ := System.exec_concat.1 h
    have hstep := Step.of_step hl
    have ho := hw o (List.mem_append_right _ List.mem_cons_self)
    obtain ⟨hall, hpeeks⟩ := ih (fun o' ho' => hw o' (List.mem_append_left _ ho')) hr
    obtain ⟨as, has, hitems, -⟩ := step_spec ho hstep
    refine ⟨?_, step_peeksAgree hpeeks ho hstep⟩
    rw [has, taken_append, List.append_assoc, hitems, ← List.append_assoc, hall, values_append,
      values_singleton, List.map_append, List.append_assoc _ _ (o.appended.toList.map _)]

/-- The queue behind writing, and then reading and appending. -/
theorem exec_written {ws rs : List IntOp} (hws : ∀ o ∈ ws, o.IsWrite)
    (hrs : ∀ o ∈ rs, o.prepended = none)
    (h : system.exec ⟨old.map .byte, []⟩ (ws ++ rs) = .next q) :
    taken q.answers ++ q.items = written (ws ++ rs) old ∧ q.PeeksAgree := by
  rw [System.exec_append, exec_writes hws] at h
  have hfirst : (⟨written ws old, []⟩ : Queue).PeeksAgree := fun as₁ v as₂ has => by
    simp at has
  rw [written_append hrs]
  exact exec_reads hfirst hrs h

theorem exec_readInts {vs : List Value} {as : List Answer} :
    system.exec ⟨vs.map .int ++ items, as⟩ (vs.map fun v => .readInt v.1) =
      .next ⟨items, as ++ vs.map fun v => .taken (.int v)⟩ := by
  induction vs generalizing as with
  | nil => simp [System.exec]
  | cons v vs ih =>
    have hread : step ⟨.int v :: (vs.map .int ++ items), as⟩ (.readInt v.1) =
        .next ⟨vs.map .int ++ items, as ++ [.taken (.int v)]⟩ :=
      Step.step_eq (.readInt rfl)
    rw [List.map_cons, List.cons_append, List.map_cons, System.exec_cons hread, ih, List.map_cons,
      List.append_assoc]
    rfl

/-- Whoever has written can read it back. -/
theorem exec_readBack :
    (system.exec ⟨written w old, []⟩ (readBack w old)).Leads fun q => q.items = [] := by
  have hretrieve {as : List Answer} :
      step ⟨old.map .byte ++ (values w).map .int, as⟩ (.retrieve old.length) =
        .next ⟨(values w).map .int ++ [], as ++ old.map fun a => .taken (.byte a)⟩ := by
    rw [List.append_nil]
    exact Step.step_eq (.retrieve rfl)
  rw [written, readBack, List.append_assoc, System.exec_append, exec_readInts]
  show (system.exec _ (_ :: _)).Leads _
  rw [System.exec_cons hretrieve, exec_readInts]
  exact ⟨_, rfl, rfl⟩

end Queue

/-! ### The buffer -/

/-- The buffer, and the answers so far. -/
structure Session where
  buffer : Buffer
  answers : List Answer

namespace Session

def step (host : Endian) (s : Session) (o : IntOp) : Outcome Buffer.Assertion Session :=
  .guard (o.Allowed s.buffer) <| .ofExcept <| (o.run host s.buffer).map fun (b, as) =>
    ⟨b, s.answers ++ as⟩

/-- A session with a buffer in any layout. -/
def system (host : Endian) : System Session IntOp Buffer.Assertion where
  init s := s.buffer.WellFormed ∧ s.answers = []
  step := step host

/-- The session stands for the queue. -/
structure Stands (s : Session) (q : Queue) : Prop where
  wellFormed : s.buffer.WellFormed
  content : s.buffer.content = Item.encodeAll q.items
  answers : s.answers = q.answers

variable {host : Endian} {s s' : Session} {q q' : Queue} {b : Buffer} {o : IntOp} {w : List IntOp}

/-- A call does to the buffer what it does to the queue. -/
theorem run_spec (host : Endian) (hb : b.WellFormed) (hc : b.content = Item.encodeAll q.items)
    (ho : o.Allowed b) (h : q.Step o q') :
    ∃ b' as, o.run host b = .ok (b', as) ∧ b'.WellFormed ∧ b'.content = Item.encodeAll q'.items ∧
      q'.answers = q.answers ++ as := by
  cases h with
  | @appendInt v =>
    obtain ⟨w, x⟩ := v
    obtain ⟨b', hrun, hw, hc', -⟩ := hb.append (bigEndian w.size x.toInt)
    refine ⟨b', [], ?_, hw, ?_, (List.append_nil _).symm⟩
    · rw [IntOp.run, Buffer.appendIntN_eq, hrun]
      rfl
    · rw [hc', hc, Item.encodeAll_append, Item.encodeAll_singleton]
      rfl
  | @prependInt v =>
    obtain ⟨w, x⟩ := v
    have hlen : (bigEndian w.size x.toInt).length ≤ b.prependableBytes := by
      rw [length_bigEndian]
      exact ho
    obtain ⟨b', hrun, hw, hc', -⟩ := hb.prepend hlen
    refine ⟨b', [], ?_, hw, ?_, (List.append_nil _).symm⟩
    · rw [IntOp.run, Buffer.prependIntN_eq, hrun]
      rfl
    · rw [hc', hc]
      rfl
  | @peekInt v items h =>
    obtain ⟨w, x⟩ := v
    refine ⟨b, _, ?_, hb, hc, rfl⟩
    rw [h] at hc
    rw [IntOp.run, hb.peekIntN hc]
    rfl
  | @readInt v items h =>
    obtain ⟨w, x⟩ := v
    rw [h] at hc
    obtain ⟨b', hrun, hw, hc'⟩ := hb.readIntN hc
    refine ⟨b', _, ?_, hw, hc', rfl⟩
    rw [IntOp.run, hrun]
    rfl
  | @retrieve bs items h =>
    -- bytes stand for themselves
    rw [h, Item.encodeAll_append, Item.encodeAll_bytes] at hc
    have hlen : bs.length ≤ b.readableBytes := by
      rw [← hb.length_content, hc, List.length_append]
      exact Nat.le_add_right _ _
    obtain ⟨b', hrun, hw, hc', -⟩ := hb.retrieve hlen
    refine ⟨b', _, by rw [IntOp.run, hrun]; rfl, hw, ?_, ?_⟩
    · rw [hc', hc, List.drop_left]
    · rw [← hb.take_content hlen, hc, List.take_left]

/-- The buffer keeps standing for the queue. -/
theorem step_stands (hs : s.Stands q) (h : q.step o = .next q') (hne : s.step host o ≠ .blocked) :
    ∃ s', s.step host o = .next s' ∧ s'.Stands q' := by
  have ho : o.Allowed s.buffer := Outcome.of_guard_ne_blocked hne
  obtain ⟨b, as, hrun, hb, hc, has⟩ := run_spec host hs.wellFormed hs.content ho (.of_step h)
  refine ⟨⟨b, s.answers ++ as⟩, ?_, hb, hc, by rw [has, hs.answers]⟩
  rw [step, Outcome.guard, if_pos ho, hrun]
  rfl

theorem exec_stands (hs : s.Stands q) (h : Queue.system.exec q w = .next q')
    (hne : (system host).exec s w ≠ .blocked) :
    ∃ s', (system host).exec s w = .next s' ∧ s'.Stands q' :=
  System.exec_simulates (fun _ _ _ _ hs h hne => step_stands hs h hne) hs h hne

/-- Nothing stands in the way of reading and appending. -/
theorem exec_ne_blocked (hw : ∀ o ∈ w, o.prepended = none) : (system host).exec s w ≠ .blocked := by
  refine System.exec_ne_blocked fun o ho s => ?_
  have hallowed : o.Allowed s.buffer := by
    cases o with
    | prependInt v => cases hw _ ho
    | appendInt v | peekInt w | readInt w | retrieve len => trivial
  change Outcome.guard _ _ ≠ _
  rw [Outcome.guard, if_pos hallowed]
  cases (o.run host s.buffer).map _ <;> simp [Outcome.ofExcept]

theorem step_peekInt {w : Width} (h : s.step host (.peekInt w) = .next s') :
    s'.buffer = s.buffer := by
  have hrun := Outcome.ofExcept_eq_next.1 (Outcome.guard_eq_next.1 h).2
  rw [IntOp.run] at hrun
  cases hpeek : s.buffer.peekIntN host w with
  | error a =>
    rw [hpeek] at hrun
    cases hrun
  | ok x =>
    rw [hpeek] at hrun
    cases hrun
    rfl

/-- At the start the buffer has nothing but bytes. -/
theorem Stands.of_wellFormed (hb : b.WellFormed) : Stands ⟨b, []⟩ ⟨b.content.map .byte, []⟩ :=
  ⟨hb, (Item.encodeAll_bytes _).symm, rfl⟩

/-- The session stands for the queue behind writing, and then reading and appending. -/
theorem exec_written (hb : b.WellFormed) {ws rs : List IntOp} (hws : ∀ o ∈ ws, o.IsWrite)
    (hfit : (system host).exec ⟨b, []⟩ ws ≠ .blocked) (hrs : ∀ o ∈ rs, o.prepended = none)
    (hq : Queue.system.exec ⟨written ws b.content, []⟩ rs = .next q) :
    Queue.system.exec ⟨b.content.map .byte, []⟩ (ws ++ rs) = .next q ∧
      ∃ s, (system host).exec ⟨b, []⟩ (ws ++ rs) = .next s ∧ s.Stands q := by
  have hexec : Queue.system.exec ⟨b.content.map .byte, []⟩ (ws ++ rs) = .next q := by
    rw [System.exec_append, Queue.exec_writes hws]
    exact hq
  have hne : (system host).exec ⟨b, []⟩ (ws ++ rs) ≠ .blocked := by
    obtain ⟨s₁, hs₁, -⟩ := exec_stands (.of_wellFormed hb) (Queue.exec_writes hws) hfit
    rw [System.exec_append_of_exec hs₁]
    exact exec_ne_blocked hrs
  exact ⟨hexec, exec_stands (.of_wellFormed hb) hexec hne⟩

/-- What is taken out until nothing is left is what has been written, and each value that is looked
at is the next one to be taken out. -/
theorem round_trip (hb : b.WellFormed) {ws rs : List IntOp} (hws : ∀ o ∈ ws, o.IsWrite)
    (hfit : (system host).exec ⟨b, []⟩ ws ≠ .blocked) (hrs : ∀ o ∈ rs, o.prepended = none)
    (hread : (Queue.system.exec ⟨written ws b.content, []⟩ rs).Leads fun q => q.items = []) :
    ∃ s, (system host).exec ⟨b, []⟩ (ws ++ rs) = .next s ∧
      taken s.answers = written (ws ++ rs) b.content ∧ s.buffer.readableBytes = 0 ∧
      ∀ as₁ v as₂, s.answers = as₁ ++ .peeked v :: as₂ →
        (taken as₂).head? = some (.int v) := by
  obtain ⟨q, hq, hempty⟩ := hread
  obtain ⟨hexec, s, hs, hstands⟩ := exec_written hb hws hfit hrs hq
  obtain ⟨hall, hpeeks⟩ := Queue.exec_written hws hrs hexec
  rw [hempty] at hall
  refine ⟨s, hs, ?_, ?_, ?_⟩
  · rw [hstands.answers, ← hall, List.append_nil]
  · rw [← hstands.wellFormed.length_content, hstands.content, hempty]
    rfl
  · intro as₁ v as₂ has
    have hhead := hpeeks as₁ v as₂ (hstands.answers ▸ has)
    rwa [hempty, List.append_nil] at hhead

/-- Whoever has written, in a buffer of any layout, and takes out all of it gets what has been
written, and no assertion fails. -/
theorem readBack_round_trip (hb : b.WellFormed) {ws : List IntOp} (hws : ∀ o ∈ ws, o.IsWrite)
    (hfit : (system host).exec ⟨b, []⟩ ws ≠ .blocked) :
    ∃ s, (system host).exec ⟨b, []⟩ (ws ++ readBack ws b.content) = .next s ∧
      taken s.answers = written ws b.content ∧ s.buffer.readableBytes = 0 := by
  obtain ⟨s, hs, htaken, hempty, -⟩ :=
    round_trip hb hws hfit (fun o ho => (readBack_reads o ho).1) Queue.exec_readBack
  exact ⟨s, hs, htaken.trans written_readBack, hempty⟩

/-- **Typed reads undo typed writes.**  Take a buffer in any layout, and any sequence of
`appendIntN` and `prependIntN` that keeps within the space for prepending; then any sequence of
`readIntN`, `peekIntN`, `retrieve` and further `appendIntN` that takes out what is there, the values
with the widths with which they have been written, until nothing is left.  No assertion fails, and
what is taken out are the prepended values in reverse, the bytes that have been readable before, and
the appended values in order; `readBack` is such a sequence.  After each call the readable bytes are
those of the items that are yet to be taken out, the bytes of a value being its two's complement
encoding.  And `peekIntN` finds what the next read takes out, and leaves the buffer alone. -/
theorem typed_round_trip (hb : b.WellFormed) {ws rs : List IntOp} (hws : ∀ o ∈ ws, o.IsWrite)
    (hfit : (system host).exec ⟨b, []⟩ ws ≠ .blocked) (hrs : ∀ o ∈ rs, o.prepended = none)
    (hread : (Queue.system.exec ⟨written ws b.content, []⟩ rs).Leads fun q => q.items = []) :
    (∃ s, (system host).exec ⟨b, []⟩ (ws ++ rs) = .next s ∧
      taken s.answers = written (ws ++ rs) b.content ∧ s.buffer.readableBytes = 0 ∧
      ∀ as₁ v as₂, s.answers = as₁ ++ .peeked v :: as₂ → (taken as₂).head? = some (.int v)) ∧
    (Queue.system.exec ⟨written ws b.content, []⟩ (readBack ws b.content)).Leads
      (fun q => q.items = []) ∧
    (∀ w₁ w₂, ws ++ rs = w₁ ++ w₂ → ∃ s items, (system host).exec ⟨b, []⟩ w₁ = .next s ∧
      s.buffer.content = Item.encodeAll items ∧
      taken s.answers ++ items = written w₁ b.content) ∧
    (∀ (c : Buffer) w x, c.peekIntN host w = .ok x ↔ ∃ c', c.readIntN host w = .ok (c', x)) ∧
    ∀ s w s', (system host).step s (.peekInt w) = .next s' → s'.buffer = s.buffer := by
  obtain ⟨q, hq, hempty⟩ := hread
  obtain ⟨hexec, s, hs, -⟩ := exec_written hb hws hfit hrs hq
  refine ⟨round_trip hb hws hfit hrs ⟨q, hq, hempty⟩, Queue.exec_readBack, fun w₁ w₂ hw => ?_,
    fun c w x => Buffer.peekIntN_eq_ok, fun s w s' h => step_peekInt h⟩
  rw [hw, System.exec_append, Outcome.bind_eq_next] at hexec hs
  obtain ⟨s₁, hs₁, -⟩ := hs
  obtain ⟨q₁, hq₁, -⟩ := hexec
  obtain ⟨ws', rs', rfl, hws', hrs'⟩ : ∃ ws' rs', w₁ = ws' ++ rs' ∧ (∀ o ∈ ws', o.IsWrite) ∧
      ∀ o ∈ rs', o.prepended = none := by
    obtain ⟨as, rfl, rfl⟩ | ⟨as, rfl, -⟩ := List.append_eq_append_iff.1 hw
    · exact ⟨ws, as, rfl, hws, fun o ho => hrs o (List.mem_append_left _ ho)⟩
    · exact ⟨w₁, [], (List.append_nil _).symm, fun o ho => hws o (List.mem_append_left _ ho),
        fun o ho => absurd ho List.not_mem_nil⟩
  obtain ⟨s₁', hs₁', hstands₁⟩ := exec_stands (.of_wellFormed hb) hq₁ (by rw [hs₁]; simp)
  refine ⟨s₁', q₁.items, hs₁', hstands₁.content, ?_⟩
  rw [hstands₁.answers]
  exact (Queue.exec_written hws' hrs' hq₁).1

/-- A buffer of size 4, with one byte in it that is at the end of the storage. -/
def full : Buffer := ⟨[0, 0, 0, 0, 0, 0, 0, 0, 1, 2, 3, 4], 11, 12⟩

def fullWrites : List IntOp :=
  [.appendInt ⟨.int16, -2⟩, .prependInt ⟨.int32, -5⟩, .appendInt ⟨.int64, -3000000000⟩,
    .prependInt ⟨.int8, 127⟩]

def fullReads : List IntOp :=
  [.readInt .int8, .peekInt .int32, .appendInt ⟨.int8, -128⟩, .readInt .int32, .retrieve 1,
    .readInt .int16, .readInt .int64, .readInt .int8]

/-- The byte moves to the front for the first value, and the storage grows for another one; the
reader looks at a value, and more is appended before it is read. -/
theorem typed_round_trip_full :
    (∃ s, (system .little).exec ⟨full, []⟩ (fullWrites ++ fullReads) = .next s ∧
      taken s.answers = [.int ⟨.int8, 127⟩, .int ⟨.int32, -5⟩, .byte 4, .int ⟨.int16, -2⟩,
        .int ⟨.int64, -3000000000⟩, .int ⟨.int8, -128⟩] ∧ s.buffer.readableBytes = 0) ∧
    Item.encodeAll [.int ⟨.int32, -5⟩, .byte 4, .int ⟨.int16, -2⟩] =
      [255, 255, 255, 251, 4, 255, 254] := by
  have hb : full.WellFormed := ⟨by decide, by decide, by decide⟩
  have hws : ∀ o ∈ fullWrites, o.IsWrite := by simp [fullWrites, IntOp.IsWrite]
  have hfit : (system .little).exec ⟨full, []⟩ fullWrites ≠ .blocked := by decide +kernel
  have hrs : ∀ o ∈ fullReads, o.prepended = none := by simp [fullReads, IntOp.prepended]
  have hread : (Queue.system.exec ⟨written fullWrites full.content, []⟩ fullReads).Leads
      fun q => q.items = [] := by
    decide +kernel
  obtain ⟨⟨s, hs, htaken, hempty, -⟩, -⟩ := typed_round_trip hb hws hfit hrs hread
  exact ⟨⟨s, hs, htaken.trans (by decide +kernel), hempty⟩, by decide +kernel⟩

end Session
end Leven
