import Leven.Buffer.Basic
import Leven.Container.Endian

/-!
# Integers in a buffer

The member functions of `Buffer` that write and read integers, in the big endian byte order.

* `Width`: the types `int8_t`, `int16_t`, `int32_t` and `int64_t`;
* `appendInt64`, `prependInt64`, `peekInt64`, `retrieveInt64`, `readInt64` and their siblings;
* `appendIntN_eq`, `prependIntN_eq`: the bytes that are written are the two's complement encoding;
* `WellFormed.peekIntN`, `WellFormed.readIntN`: the value whose encoding comes first is found;
* `peekIntN_eq_ok`: what is found by a look is what is read.
-/

namespace Leven

open Container

/-- The types of the integers. -/
inductive Width
  | int8
  | int16
  | int32
  | int64
  deriving DecidableEq

/-- The size of the type. -/
def Width.size : Width → ℕ
  | .int8 => 1
  | .int16 => 2
  | .int32 => 4
  | .int64 => 8

/-- The values of the type. -/
abbrev Width.Int (w : Width) := BitVec (8 * w.size)

namespace Buffer

/-! ### The member functions -/

/-- `appendInt64`, and so on: the value in the big endian byte order. -/
def appendInt (host : Endian) (w : Width) (x : w.Int) (b : Buffer) : Except Assertion Buffer :=
  b.append (toMemory host (htobe host x))

/-- `prependInt64`, and so on. -/
def prependInt (host : Endian) (w : Width) (x : w.Int) (b : Buffer) : Except Assertion Buffer :=
  b.prepend (toMemory host (htobe host x))

/-- `peekInt64`, and so on. -/
def peekInt (host : Endian) (w : Width) (b : Buffer) : Except Assertion w.Int :=
  if w.size ≤ b.readableBytes then
    .ok (betoh host (ofMemory host w.size (slice b.peek (b.peek + w.size) b.buffer)))
  else .error .peekInt

def appendInt64 (host : Endian) : Width.int64.Int → Buffer → Except Assertion Buffer :=
  appendInt host .int64

def appendInt32 (host : Endian) : Width.int32.Int → Buffer → Except Assertion Buffer :=
  appendInt host .int32

def appendInt16 (host : Endian) : Width.int16.Int → Buffer → Except Assertion Buffer :=
  appendInt host .int16

/-- There is no conversion of a single byte. -/
def appendInt8 (host : Endian) (x : Width.int8.Int) (b : Buffer) : Except Assertion Buffer :=
  b.append (toMemory host x)

def prependInt64 (host : Endian) : Width.int64.Int → Buffer → Except Assertion Buffer :=
  prependInt host .int64

def prependInt32 (host : Endian) : Width.int32.Int → Buffer → Except Assertion Buffer :=
  prependInt host .int32

def prependInt16 (host : Endian) : Width.int16.Int → Buffer → Except Assertion Buffer :=
  prependInt host .int16

def prependInt8 (host : Endian) (x : Width.int8.Int) (b : Buffer) : Except Assertion Buffer :=
  b.prepend (toMemory host x)

def peekInt64 (host : Endian) : Buffer → Except Assertion Width.int64.Int := peekInt host .int64

def peekInt32 (host : Endian) : Buffer → Except Assertion Width.int32.Int := peekInt host .int32

def peekInt16 (host : Endian) : Buffer → Except Assertion Width.int16.Int := peekInt host .int16

/-- The byte at `peek()`. -/
def peekInt8 (b : Buffer) : Except Assertion Width.int8.Int :=
  if Width.int8.size ≤ b.readableBytes then .ok (.ofNat _ (b.buffer.getD b.peek 0).toNat)
  else .error .peekInt

def retrieveInt64 (b : Buffer) : Except Assertion Buffer := b.retrieve Width.int64.size

def retrieveInt32 (b : Buffer) : Except Assertion Buffer := b.retrieve Width.int32.size

def retrieveInt16 (b : Buffer) : Except Assertion Buffer := b.retrieve Width.int16.size

def retrieveInt8 (b : Buffer) : Except Assertion Buffer := b.retrieve Width.int8.size

/-- `readInt64`: the buffer afterwards, and the value. -/
def readInt64 (host : Endian) (b : Buffer) : Except Assertion (Buffer × Width.int64.Int) :=
  (b.peekInt64 host).bind fun result => b.retrieveInt64.map (·, result)

def readInt32 (host : Endian) (b : Buffer) : Except Assertion (Buffer × Width.int32.Int) :=
  (b.peekInt32 host).bind fun result => b.retrieveInt32.map (·, result)

def readInt16 (host : Endian) (b : Buffer) : Except Assertion (Buffer × Width.int16.Int) :=
  (b.peekInt16 host).bind fun result => b.retrieveInt16.map (·, result)

def readInt8 (b : Buffer) : Except Assertion (Buffer × Width.int8.Int) :=
  b.peekInt8.bind fun result => b.retrieveInt8.map (·, result)

/-! ### The width as an argument -/

/-- The member function `appendIntN` of the width. -/
def appendIntN (host : Endian) : (w : Width) → w.Int → Buffer → Except Assertion Buffer
  | .int8 => appendInt8 host
  | .int16 => appendInt16 host
  | .int32 => appendInt32 host
  | .int64 => appendInt64 host

/-- The member function `prependIntN` of the width. -/
def prependIntN (host : Endian) : (w : Width) → w.Int → Buffer → Except Assertion Buffer
  | .int8 => prependInt8 host
  | .int16 => prependInt16 host
  | .int32 => prependInt32 host
  | .int64 => prependInt64 host

/-- The member function `peekIntN` of the width. -/
def peekIntN (host : Endian) : (w : Width) → Buffer → Except Assertion w.Int
  | .int8 => peekInt8
  | .int16 => peekInt16 host
  | .int32 => peekInt32 host
  | .int64 => peekInt64 host

/-- The member function `readIntN` of the width. -/
def readIntN (host : Endian) : (w : Width) → Buffer → Except Assertion (Buffer × w.Int)
  | .int8 => readInt8
  | .int16 => readInt16 host
  | .int32 => readInt32 host
  | .int64 => readInt64 host

variable {host : Endian} {w : Width} {x : w.Int} {b b' : Buffer} {c : Bytes}

/-- The encoding, as it is written. -/
theorem bigEndian_eq (host : Endian) : bigEndian w.size x.toInt = toMemory host (htobe host x) :=
  toMemory_htobe.symm

theorem appendIntN_eq : b.appendIntN host w x = b.append (bigEndian w.size x.toInt) := by
  rw [bigEndian_eq host]
  cases w with
  | int8 => exact congrArg (fun x => b.append (toMemory host x)) (htobe_one x).symm
  | int16 | int32 | int64 => rfl

theorem prependIntN_eq : b.prependIntN host w x = b.prepend (bigEndian w.size x.toInt) := by
  rw [bigEndian_eq host]
  cases w with
  | int8 => exact congrArg (fun x => b.prepend (toMemory host x)) (htobe_one x).symm
  | int16 | int32 | int64 => rfl

/-- The byte at a position, as the integer of a slice. -/
theorem ofMemory_slice_one {i : ℕ} {l : Bytes} (h : i < l.length) :
    ofMemory host 1 (slice i (i + 1) l) = .ofNat _ (l.getD i 0).toNat := by
  have hslice : slice i (i + 1) l = [l.getD i 0] := by
    rw [slice, Nat.add_sub_cancel_left, List.drop_eq_getElem_cons h, List.take_succ_cons,
      List.take_zero, List.getD_eq_getElem?_getD, List.getElem?_eq_getElem h, Option.getD_some]
  rw [hslice, ofMemory_singleton]

theorem WellFormed.peekIntN_eq (h : b.WellFormed) : b.peekIntN host w = b.peekInt host w := by
  cases w with
  | int8 =>
    change peekInt8 b = _
    unfold peekInt8 peekInt
    split_ifs with hlen
    · have hlt : b.peek < b.buffer.length := by
        have hwriter := h.writer_le
        have hone : 1 ≤ b.writerIndex - b.readerIndex := hlen
        unfold peek
        omega
      have hval : betoh host (ofMemory host 1 (slice b.peek (b.peek + 1) b.buffer)) =
          .ofNat _ (b.buffer.getD b.peek 0).toNat := by
        rw [betoh_one, ofMemory_slice_one hlt]
      exact congrArg Except.ok hval.symm
    · rfl
  | int16 | int32 | int64 => rfl

/-- A value that is read is the one that is found by a look at it. -/
theorem readIntN_eq :
    b.readIntN host w =
      (b.peekIntN host w).bind fun result => (b.retrieve w.size).map (·, result) := by
  cases w <;> rfl

theorem size_le_of_peekIntN (h : b.peekIntN host w = .ok x) : w.size ≤ b.readableBytes := by
  by_contra hlen
  have hpeek : b.peekIntN host w = .error .peekInt := by cases w <;> exact if_neg hlen
  cases hpeek.symm.trans h

/-- A look at a value succeeds where it can be read, and finds what is read. -/
theorem peekIntN_eq_ok : b.peekIntN host w = .ok x ↔ ∃ b', b.readIntN host w = .ok (b', x) := by
  rw [readIntN_eq]
  cases hpeek : b.peekIntN host w with
  | error a => simp [Except.bind]
  | ok y =>
    have hretrieve : ∃ b', b.retrieve w.size = .ok b' := by
      unfold retrieve
      rw [if_pos (size_le_of_peekIntN hpeek)]
      split_ifs <;> exact ⟨_, rfl⟩
    obtain ⟨b', hb⟩ := hretrieve
    simp [Except.bind, hb, Except.map]

/-- `peekIntN` finds the value whose encoding comes first. -/
theorem WellFormed.peekIntN (h : b.WellFormed) (hc : b.content = bigEndian w.size x.toInt ++ c) :
    b.peekIntN host w = .ok x := by
  have hlen : w.size ≤ b.readableBytes := by
    rw [← h.length_content, hc, List.length_append, length_bigEndian]
    exact Nat.le_add_right _ _
  have htake : b.content.take w.size = bigEndian w.size x.toInt := by
    rw [hc, List.take_left' length_bigEndian]
  rw [h.peekIntN_eq, peekInt, if_pos hlen, ← h.take_content hlen, htake, betoh_ofMemory]

/-- `readIntN` takes the value out whose encoding comes first. -/
theorem WellFormed.readIntN (h : b.WellFormed) (hc : b.content = bigEndian w.size x.toInt ++ c) :
    ∃ b', b.readIntN host w = .ok (b', x) ∧ b'.WellFormed ∧ b'.content = c := by
  have hlen : w.size ≤ b.readableBytes := by
    rw [← h.length_content, hc, List.length_append, length_bigEndian]
    exact Nat.le_add_right _ _
  obtain ⟨b', hb, hw, hc', -⟩ := h.retrieve hlen
  refine ⟨b', ?_, hw, ?_⟩
  · rw [readIntN_eq, h.peekIntN hc, Except.bind, hb]
    rfl
  · rw [hc', hc, List.drop_left' length_bigEndian]

end Buffer
end Leven
