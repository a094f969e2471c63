import Leven.Container.Slice
import Leven.Basic

/-!
# Buffer

`leven::Buffer`, with its storage and its two indices, and each member function as a function of the
buffer before the call.  A pointer into the storage is the index it points to.

* `makeSpace`, `ensureWritableBytes`, `append`, `prepend`, `retrieve`: the member functions;
* `content`: the readable bytes; `WellFormed`: the layouts that occur;
* `Leaves b r c g`: the call on `b` comes back, with a well-formed buffer whose readable bytes are
  `c`, and with a storage of the same size unless `g`; each member function has a lemma of this form.

The sums of the code are those of natural numbers: `size_t` is taken to be large enough for them.
-/

namespace Leven

open Container

structure Buffer where
  buffer : Bytes
  readerIndex : ℕ
  writerIndex : ℕ
  deriving DecidableEq

namespace Buffer

/-- The assertions of `Buffer`. -/
inductive Assertion
  /-- the constructor: `readableBytes() == 0`, and so on -/
  | new
  /-- `retrieve`: `len <= readableBytes()` -/
  | retrieve
  /-- `retrieveUntil`: `peek() <= end` and `end <= beginWrite()` -/
  | retrieveUntil
  /-- `retrieveAsString`: `len <= readableBytes()` -/
  | retrieveAsString
  /-- `ensureWritableBytes`: `writableBytes() >= len` -/
  | ensureWritableBytes
  /-- `hasWritten`: `len <= writableBytes()` -/
  | hasWritten
  /-- `prepend`: `len <= prependableBytes()` -/
  | prepend
  /-- `makeSpace`: `kCheapPrepend < readerIndex_` -/
  | makeSpace
  /-- `makeSpace`: `readable == readableBytes()` -/
  | makeSpaceReadable
  /-- `peekInt64` and its siblings: `readableBytes() >= sizeof(int64_t)` -/
  | peekInt
  deriving DecidableEq

def kCheapPrepend : ℕ := 8

def kInitialSize : ℕ := 1024

def readableBytes (b : Buffer) : ℕ := b.writerIndex - b.readerIndex

def writableBytes (b : Buffer) : ℕ := b.buffer.length - b.writerIndex

def prependableBytes (b : Buffer) : ℕ := b.readerIndex

def peek (b : Buffer) : ℕ := b.readerIndex

def beginWrite (b : Buffer) : ℕ := b.writerIndex

/-- The constructor. -/
def new (initialSize : ℕ := kInitialSize) : Except Assertion Buffer :=
  let b : Buffer := ⟨List.replicate (kCheapPrepend + initialSize) 0, kCheapPrepend, kCheapPrepend⟩
  if b.readableBytes = 0 ∧ b.writableBytes = initialSize ∧ b.prependableBytes = kCheapPrepend then
    .ok b
  else .error .new

/-- `swap`: the two buffers afterwards. -/
def swap (b rhs : Buffer) : Buffer × Buffer :=
  (⟨rhs.buffer, rhs.readerIndex, rhs.writerIndex⟩, ⟨b.buffer, b.readerIndex, b.writerIndex⟩)

/-! ### Taking bytes out -/

def retrieveAll (b : Buffer) : Buffer :=
  { b with readerIndex := kCheapPrepend, writerIndex := kCheapPrepend }

def retrieve (len : ℕ) (b : Buffer) : Except Assertion Buffer :=
  if len ≤ b.readableBytes then
    if len < b.readableBytes then .ok { b with readerIndex := b.readerIndex + len }
    else .ok b.retrieveAll
  else .error .retrieve

def retrieveUntil (stop : ℕ) (b : Buffer) : Except Assertion Buffer :=
  if b.peek ≤ stop ∧ stop ≤ b.beginWrite then b.retrieve (stop - b.peek) else .error .retrieveUntil

/-- `retrieveAsString`: the buffer afterwards, and the string. -/
def retrieveAsString (len : ℕ) (b : Buffer) : Except Assertion (Buffer × Bytes) :=
  if len ≤ b.readableBytes then
    let result := slice b.peek (b.peek + len) b.buffer
    (b.retrieve len).map fun b => (b, result)
  else .error .retrieveAsString

def retrieveAllAsString (b : Buffer) : Except Assertion (Buffer × Bytes) :=
  b.retrieveAsString b.readableBytes

/-! ### Putting bytes in -/

/-- `makeSpace`: the storage grows, or the readable bytes move to the front. -/
def makeSpace (len : ℕ) (b : Buffer) : Except Assertion Buffer :=
  if b.writableBytes + b.prependableBytes < len + kCheapPrepend then
    .ok { b with buffer := b.buffer.takeD (b.writerIndex + len) 0 }
  else if kCheapPrepend < b.readerIndex then
    let readable := b.readableBytes
    let b' : Buffer :=
      { buffer := copyDown b.readerIndex kCheapPrepend (b.writerIndex - b.readerIndex) b.buffer
        readerIndex := kCheapPrepend
        writerIndex := kCheapPrepend + readable }
    if readable = b'.readableBytes then .ok b' else .error .makeSpaceReadable
  else .error .makeSpace

def ensureWritableBytes (len : ℕ) (b : Buffer) : Except Assertion Buffer :=
  (if b.writableBytes < len then b.makeSpace len else .ok b).bind fun b =>
    if len ≤ b.writableBytes then .ok b else .error .ensureWritableBytes

def hasWritten (len : ℕ) (b : Buffer) : Except Assertion Buffer :=
  if len ≤ b.writableBytes then .ok { b with writerIndex := b.writerIndex + len }
  else .error .hasWritten

/-- `std::copy` to `beginWrite()`. -/
def copyToBeginWrite (data : Bytes) (b : Buffer) : Buffer :=
  { b with buffer := overwrite b.beginWrite data b.buffer }

/-- `append`, for each of its overloads. -/
def append (data : Bytes) (b : Buffer) : Except Assertion Buffer :=
  (b.ensureWritableBytes data.length).bind fun b =>
    (b.copyToBeginWrite data).hasWritten data.length

def prepend (data : Bytes) (b : Buffer) : Except Assertion Buffer :=
  if data.length ≤ b.prependableBytes then
    let readerIndex := b.readerIndex - data.length
    .ok { b with readerIndex := readerIndex, buffer := overwrite readerIndex data b.buffer }
  else .error .prepend

/-! ### Reading from a descriptor -/

def sizeofExtrabuf : ℕ := 65536

/-- The array on the stack of `readFd`; what it contains before the call is arbitrary. -/
abbrev ExtraBuf := { bytes : Bytes // bytes.length = sizeofExtrabuf }

def iovcnt (b : Buffer) : ℕ := if b.writableBytes < sizeofExtrabuf then 2 else 1

/-- The total length of the areas that are offered to `::readv`. -/
def offered (b : Buffer) : ℕ :=
  if b.iovcnt = 2 then b.writableBytes + sizeofExtrabuf else b.writableBytes

/-- `readFd`: the buffer afterwards, and the answer of `::readv`. -/
def readFd (extrabuf : ExtraBuf) (r : ReadResult) (b : Buffer) : Except Assertion (Buffer × ℤ) :=
  match r with
  | .error _ => .ok (b, -1)
  | .data bytes =>
    let writable := b.writableBytes
    let n := bytes.length
    -- `::readv` fills the end of the storage first, and then `extrabuf`
    let b := b.copyToBeginWrite (bytes.take writable)
    let extrabuf := overwrite 0 (bytes.drop writable) extrabuf.1
    if n ≤ writable then .ok ({ b with writerIndex := b.writerIndex + n }, n)
    else
      ({ b with writerIndex := b.buffer.length }.append (extrabuf.take (n - writable))).map (·, (n : ℤ))

/-! ### The readable bytes -/

/-- The readable bytes, from `readerIndex_` on and before `writerIndex_`. -/
def content (b : Buffer) : Bytes := slice b.readerIndex b.writerIndex b.buffer

/-- The layouts that occur. -/
structure WellFormed (b : Buffer) : Prop where
  reader_le : b.readerIndex ≤ b.writerIndex
  writer_le : b.writerIndex ≤ b.buffer.length
  prepend_le : kCheapPrepend ≤ b.buffer.length

/-- The call on `b` comes back, with a well-formed buffer whose readable bytes are `c`; its storage
has the size that it had, unless `g`. -/
def Leaves (b : Buffer) (r : Except Assertion Buffer) (c : Bytes) (g : Prop) : Prop :=
  ∃ b', r = .ok b' ∧ b'.WellFormed ∧ b'.content = c ∧ (b'.buffer.length = b.buffer.length ∨ g)

/-- `len` more bytes do not fit behind the readable ones, and would not if these were moved to the
front. -/
def Grows (len : ℕ) (b : Buffer) : Prop :=
  b.writableBytes + b.prependableBytes < len + kCheapPrepend

instance (len : ℕ) (b : Buffer) : Decidable (b.Grows len) := inferInstanceAs (Decidable (_ < _))

variable {b b' : Buffer} {c data : Bytes} {len : ℕ}

theorem WellFormed.length_content (h : b.WellFormed) : b.content.length = b.readableBytes :=
  length_slice h.writer_le

theorem WellFormed.length_eq (h : b.WellFormed) :
    b.buffer.length = b.writerIndex + b.writableBytes := by
  have hwriter := h.writer_le
  unfold writableBytes
  omega

/-- The constructor trips none of its assertions. -/
theorem new_eq {n : ℕ} :
    new n = .ok ⟨List.replicate (kCheapPrepend + n) 0, kCheapPrepend, kCheapPrepend⟩ := by
  simp [new, readableBytes, writableBytes, prependableBytes]

theorem WellFormed.new {n : ℕ} (h : new n = .ok b) : b.WellFormed ∧ b.content = [] := by
  cases new_eq.symm.trans h
  exact ⟨⟨le_rfl, by simp, by simp⟩, slice_self⟩

theorem swap_eq {rhs : Buffer} : b.swap rhs = (rhs, b) := rfl

theorem WellFormed.retrieveAll (h : b.WellFormed) : b.retrieveAll.WellFormed :=
  ⟨le_rfl, h.prepend_le, h.prepend_le⟩

theorem content_retrieveAll : b.retrieveAll.content = [] := slice_self

theorem WellFormed.retrieve (h : b.WellFormed) (hlen : len ≤ b.readableBytes) :
    Leaves b (b.retrieve len) (b.content.drop len) False := by
  by_cases hlt : len < b.readableBytes
  · have hle : b.readerIndex + len ≤ b.writerIndex := by
      unfold readableBytes at hlt
      omega
    refine ⟨{ b with readerIndex := b.readerIndex + len }, ?_, ⟨hle, h.writer_le, h.prepend_le⟩,
      drop_slice.symm, .inl rfl⟩
    rw [Buffer.retrieve, if_pos hlen, if_pos hlt]
  · refine ⟨b.retrieveAll, ?_, h.retrieveAll, ?_, .inl rfl⟩
    · rw [Buffer.retrieve, if_pos hlen, if_neg hlt]
    rw [content_retrieveAll, List.drop_eq_nil_of_le]
    rw [h.length_content]
    omega

theorem WellFormed.retrieveUntil (h : b.WellFormed) (hlen : len ≤ b.readableBytes) :
    Leaves b (b.retrieveUntil (b.peek + len)) (b.content.drop len) False := by
  have hstop : b.peek ≤ b.peek + len ∧ b.peek + len ≤ b.beginWrite := by
    have hle := h.reader_le
    unfold readableBytes at hlen
    unfold peek beginWrite
    omega
  rw [Buffer.retrieveUntil, if_pos hstop, Nat.add_sub_cancel_left]
  exact h.retrieve hlen

/-- What is found at `peek()`. -/
theorem WellFormed.take_content (h : b.WellFormed) (hlen : len ≤ b.readableBytes) :
    b.content.take len = slice b.peek (b.peek + len) b.buffer := by
  refine take_slice ?_
  have hle := h.reader_le
  unfold readableBytes at hlen
  omega

/-- `retrieveAsString` answers the bytes that it takes out. -/
theorem WellFormed.retrieveAsString (h : b.WellFormed) (hlen : len ≤ b.readableBytes) :
    ∃ b', b.retrieveAsString len = .ok (b', b.content.take len) ∧ b'.WellFormed ∧
      b'.content = b.content.drop len ∧ (b'.buffer.length = b.buffer.length ∨ False) := by
  obtain ⟨b', hb, hafter⟩ := h.retrieve hlen
  refine ⟨b', ?_, hafter⟩
  rw [Buffer.retrieveAsString, if_pos hlen, hb, h.take_content hlen]
  rfl

/-! ### Making space -/

/-- `makeSpace` is called when the space behind the readable bytes is too small.  Where the space in
front of them makes up for it, `readerIndex_` is above `kCheapPrepend`. -/
theorem WellFormed.makeSpace (h : b.WellFormed) (hlen : b.writableBytes < len) :
    ∃ b', b.makeSpace len = .ok b' ∧ b'.WellFormed ∧ b'.content = b.content ∧
      len ≤ b'.writableBytes ∧ (b'.buffer.length = b.buffer.length ∨ b.Grows len) := by
  obtain ⟨hreader, hwriter, hprepend⟩ := h
  have hwritable : b.writableBytes = b.buffer.length - b.writerIndex := rfl
  have hprependable : b.prependableBytes = b.readerIndex := rfl
  by_cases hgrow : b.writableBytes + b.prependableBytes < len + kCheapPrepend
  · have hlength : (b.buffer.takeD (b.writerIndex + len) 0).length = b.writerIndex + len :=
      List.takeD_length _ _ _
    refine ⟨{ b with buffer := b.buffer.takeD (b.writerIndex + len) 0 }, ?_, ⟨hreader, ?_, ?_⟩,
      slice_takeD ?_ hwriter, ?_, .inr hgrow⟩
    · rw [Buffer.makeSpace, if_pos hgrow]
    · dsimp only
      omega
    · dsimp only
      omega
    · exact Nat.le_add_right _ _
    · change len ≤ (b.buffer.takeD (b.writerIndex + len) 0).length - b.writerIndex
      omega
  · have hlt : kCheapPrepend < b.readerIndex := by omega
    have hstop : b.readerIndex + (b.writerIndex - b.readerIndex) = b.writerIndex := by omega
    have hlength : (copyDown b.readerIndex kCheapPrepend (b.writerIndex - b.readerIndex)
        b.buffer).length = b.buffer.length := length_copyDown
    refine ⟨⟨copyDown b.readerIndex kCheapPrepend (b.writerIndex - b.readerIndex) b.buffer,
      kCheapPrepend, kCheapPrepend + (b.writerIndex - b.readerIndex)⟩, ?_, ⟨?_, ?_, ?_⟩, ?_, ?_,
      .inl hlength⟩
    · rw [Buffer.makeSpace, if_neg hgrow, if_pos hlt]
      simp [readableBytes]
    · exact Nat.le_add_right _ _
    · dsimp only
      omega
    · exact hlength ▸ hprepend
    · change slice kCheapPrepend _ _ = slice b.readerIndex b.writerIndex b.buffer
      rw [slice_copyDown hlt.le (by omega), hstop]
    · change len ≤ (copyDown b.readerIndex kCheapPrepend (b.writerIndex - b.readerIndex)
        b.buffer).length - (kCheapPrepend + (b.writerIndex - b.readerIndex))
      omega

theorem WellFormed.ensureWritableBytes (h : b.WellFormed) (len : ℕ) :
    ∃ b', b.ensureWritableBytes len = .ok b' ∧ b'.WellFormed ∧ b'.content = b.content ∧
      len ≤ b'.writableBytes ∧ (b'.buffer.length = b.buffer.length ∨ b.Grows len) := by
  by_cases hlen : b.writableBytes < len
  · obtain ⟨b', hb, hw, hc, hle, hgrow⟩ := h.makeSpace hlen
    refine ⟨b', ?_, hw, hc, hle, hgrow⟩
    rw [Buffer.ensureWritableBytes, if_pos hlen, hb]
    exact if_pos hle
  · refine ⟨b, ?_, h, rfl, not_lt.1 hlen, .inl rfl⟩
    rw [Buffer.ensureWritableBytes, if_neg hlen]
    exact if_pos (not_lt.1 hlen)

/-! ### Putting bytes in -/

/-- What is written behind the readable bytes becomes readable with `hasWritten`. -/
theorem WellFormed.hasWritten (h : b.WellFormed) (hlen : data.length ≤ b.writableBytes) :
    Leaves b ((b.copyToBeginWrite data).hasWritten data.length) (b.content ++ data) False := by
  have hreader := h.reader_le
  have hwriter := h.writer_le
  have hfits : b.writerIndex + data.length ≤ b.buffer.length := by
    unfold writableBytes at hlen
    omega
  refine ⟨⟨overwrite b.writerIndex data b.buffer, b.readerIndex, b.writerIndex + data.length⟩, ?_,
    ⟨?_, ?_, ?_⟩, ?_, .inl length_overwrite⟩
  · have hsame : data.length ≤ (b.copyToBeginWrite data).writableBytes := by
      rw [writableBytes, copyToBeginWrite, length_overwrite]
      exact hlen
    rw [Buffer.hasWritten, if_pos hsame]
    rfl
  · exact hreader.trans (Nat.le_add_right _ _)
  · rw [length_overwrite]
    exact hfits
  · rw [length_overwrite]
    exact h.prepend_le
  · change slice b.readerIndex (b.writerIndex + data.length) _ = _
    rw [← slice_append_slice hreader (Nat.le_add_right _ _) (by rw [length_overwrite]; exact hwriter),
      slice_overwrite hfits, slice_overwrite_of_disjoint (.inl le_rfl)]
    rfl

theorem hasWritten_eq_ok :
    b.hasWritten len = .ok b' ↔
      len ≤ b.writableBytes ∧ { b with writerIndex := b.writerIndex + len } = b' := by
  unfold hasWritten
  split_ifs with h <;> simp [h]

theorem WellFormed.append (h : b.WellFormed) (data : Bytes) :
    Leaves b (b.append data) (b.content ++ data) (b.Grows data.length) := by
  obtain ⟨b', hb, hw, hc, hle, hgrow⟩ := h.ensureWritableBytes data.length
  obtain ⟨b'', hb', hw', hc', hlen⟩ := hw.hasWritten hle
  refine ⟨b'', ?_, hw', by rw [hc', hc], hgrow.imp_left (hlen.resolve_right id).trans⟩
  rw [Buffer.append, hb]
  exact hb'

theorem WellFormed.prepend (h : b.WellFormed) (hlen : data.length ≤ b.prependableBytes) :
    Leaves b (b.prepend data) (data ++ b.content) False := by
  have hreader := h.reader_le
  have hwriter := h.writer_le
  have hle : data.length ≤ b.readerIndex := hlen
  have hback : b.readerIndex - data.length + data.length = b.readerIndex := by omega
  have hfits : b.readerIndex - data.length + data.length ≤ b.buffer.length := by omega
  refine ⟨⟨overwrite (b.readerIndex - data.length) data b.buffer, b.readerIndex - data.length,
    b.writerIndex⟩, ?_, ⟨?_, ?_, ?_⟩, ?_, .inl length_overwrite⟩
  · rw [Buffer.prepend, if_pos hlen]
  · exact (Nat.sub_le _ _).trans hreader
  · rw [length_overwrite]
    exact hwriter
  · rw [length_overwrite]
    exact h.prepend_le
  · have hfirst := slice_overwrite hfits
    rw [hback] at hfirst
    change slice (b.readerIndex - data.length) b.writerIndex _ = _
    rw [← slice_append_slice (Nat.sub_le _ _) hreader (by rw [length_overwrite]; omega), hfirst,
      slice_overwrite_of_disjoint (.inr hback.le)]
    rfl

/-- What does not fit into the storage fits on the stack. -/
theorem le_sizeofExtrabuf {n : ℕ} (hn : n ≤ b.offered) (hlt : b.writableBytes < n) :
    n - b.writableBytes ≤ sizeofExtrabuf := by
  unfold offered at hn
  split_ifs at hn <;> omega

/-- What `readFd` reads becomes readable, in the storage or behind a detour over the stack. -/
theorem WellFormed.readFd (h : b.WellFormed) {bytes : Bytes} (hn : bytes.length ≤ b.offered)
    (extrabuf : ExtraBuf) :
    ∃ b', b.readFd extrabuf (.data bytes) = .ok (b', bytes.length) ∧ b'.WellFormed ∧
      b'.content = b.content ++ bytes := by
  by_cases hle : bytes.length ≤ b.writableBytes
  · obtain ⟨b', hb, hw, hc, -⟩ := h.hasWritten hle
    refine ⟨b', ?_, hw, hc⟩
    obtain ⟨-, rfl⟩ := hasWritten_eq_ok.1 hb
    simp only [Buffer.readFd, List.take_of_length_le hle, if_pos hle]
  · -- the end of the storage is full, and the rest is on the stack
    have hfull : (bytes.take b.writableBytes).length = b.writableBytes :=
      List.length_take_of_le (not_le.1 hle).le
    have hrest : (bytes.drop b.writableBytes).length = bytes.length - b.writableBytes :=
      List.length_drop
    have hextra : (overwrite 0 (bytes.drop b.writableBytes) extrabuf.1).take
        (bytes.length - b.writableBytes) = bytes.drop b.writableBytes := by
      rw [← hrest]
      apply take_overwrite
      rw [hrest, extrabuf.2]
      exact le_sizeofExtrabuf hn (not_le.1 hle)
    obtain ⟨b₁, hb₁, hw₁, hc₁, -⟩ := h.hasWritten hfull.le
    obtain ⟨b₂, hb₂, hw₂, hc₂, -⟩ := hw₁.append (bytes.drop b.writableBytes)
    refine ⟨b₂, ?_, hw₂, ?_⟩
    · obtain ⟨-, rfl⟩ := hasWritten_eq_ok.1 hb₁
      have hstop : (b.copyToBeginWrite (bytes.take b.writableBytes)).buffer.length =
          (b.copyToBeginWrite (bytes.take b.writableBytes)).writerIndex +
            (bytes.take b.writableBytes).length := by
        rw [hfull]
        exact length_overwrite.trans h.length_eq
      simp only [Buffer.readFd, if_neg hle, hextra, hstop, hb₂, Except.map]
    · rw [hc₂, hc₁, List.append_assoc, List.take_append_drop]

/-! ### The growth of the storage -/

theorem length_makeSpace (h : b.makeSpace len = .ok b') :
    b'.buffer.length ≤ max b.buffer.length (b.writerIndex + len) := by
  unfold makeSpace at h
  split_ifs at h with hgrow hreader
  · cases h
    simp
  · dsimp only at h
    split_ifs at h
    cases h
    exact le_max_of_le_left length_copyDown.le

/-- The storage grows to what is asked for and no further. -/
theorem length_append (h : b.append data = .ok b') :
    b'.buffer.length ≤ max b.buffer.length (b.writerIndex + data.length) := by
  unfold append at h
  cases he : b.ensureWritableBytes data.length with
  | error a =>
    rw [he] at h
    cases h
  | ok b₁ =>
    rw [he] at h
    obtain ⟨-, rfl⟩ := hasWritten_eq_ok.1 h
    have hlen : b₁.buffer.length ≤ max b.buffer.length (b.writerIndex + data.length) := by
      unfold ensureWritableBytes at he
      split_ifs at he
      · cases hm : b.makeSpace data.length with
        | error a =>
          rw [hm] at he
          cases he
        | ok b₂ =>
          simp only [hm, Except.bind] at he
          split_ifs at he
          cases he
          exact length_makeSpace hm
      · simp only [Except.bind] at he
        split_ifs at he
        cases he
        exact le_max_left _ _
    exact (length_overwrite.trans_le hlen :)

/-- What does not fit into the storage is what it grows by. -/
theorem length_readFd {extrabuf : ExtraBuf} {bytes : Bytes} {n : ℤ}
    (hw : b.writerIndex ≤ b.buffer.length) (h : b.readFd extrabuf (.data bytes) = .ok (b', n)) :
    b'.buffer.length ≤ max b.buffer.length (b.writerIndex + bytes.length) := by
  simp only [readFd] at h
  split_ifs at h with hle
  · cases h
    exact le_max_of_le_left length_overwrite.le
  · cases ha : append ((overwrite 0 (bytes.drop b.writableBytes) extrabuf.1).take
        (bytes.length - b.writableBytes))
      { b.copyToBeginWrite (bytes.take b.writableBytes) with
        writerIndex := (b.copyToBeginWrite (bytes.take b.writableBytes)).buffer.length } with
    | error a => simp [ha, Except.map] at h
    | ok b₁ =>
      simp only [ha, Except.map, Except.ok.injEq, Prod.mk.injEq] at h
      obtain ⟨rfl, -⟩ := h
      have hlen := length_append ha
      have hsame : (b.copyToBeginWrite (bytes.take b.writableBytes)).buffer.length =
          b.buffer.length := length_overwrite
      have htake : ((overwrite 0 (bytes.drop b.writableBytes) extrabuf.1).take
          (bytes.length - b.writableBytes)).length ≤ bytes.length - b.writableBytes :=
        List.length_take_le _ _
      have hwritable : b.writableBytes = b.buffer.length - b.writerIndex := rfl
      simp only [hsame] at hlen
      omega

end Buffer
end Leven
