import Leven.Container.Search
import Leven.Buffer.Basic

/-!
# The end of a line

`findCRLF` and `findEOL` look for the first line end among the readable bytes, or among those from a
position on.  They differ in the bytes they look for and in the function of the standard library
that does it; `LineEnd` stands for the two.

* `findCRLF`, `findCRLFFrom`, `findEOL`, `findEOLFrom`: the member functions;
* `find_eq`, `findFrom_eq`: what they answer, in terms of the readable bytes;
* `line_found`: the line that is cut off, and what a later `append` leaves of the answer.
-/

namespace Leven.Buffer

open Container

/-- The assertions of the overloads with a start: `peek() <= start` and `start <= beginWrite()`. -/
inductive FindAssertion
  | findCRLF
  | findEOL
  deriving DecidableEq

def kCRLF : Bytes := [13, 10]

/-- `std::search(start, beginWrite(), kCRLF, kCRLF + 2)`, where the end stands for `nullptr`. -/
def searchCRLF (start : ℕ) (b : Buffer) : Option ℕ :=
  let crlf := start + search kCRLF (slice start b.beginWrite b.buffer)
  if crlf = b.beginWrite then none else some crlf

/-- `memchr(start, '\n', len)`. -/
def memchrEOL (start len : ℕ) (b : Buffer) : Option ℕ :=
  let bytes := slice start (start + len) b.buffer
  if 10 ∈ bytes then some (start + bytes.idxOf 10) else none

def findCRLF (b : Buffer) : Option ℕ := b.searchCRLF b.peek

/-- `findCRLF(start)`. -/
def findCRLFFrom (start : ℕ) (b : Buffer) : Except FindAssertion (Option ℕ) :=
  if b.peek ≤ start ∧ start ≤ b.beginWrite then .ok (b.searchCRLF start) else .error .findCRLF

def findEOL (b : Buffer) : Option ℕ := b.memchrEOL b.peek b.readableBytes

/-- `findEOL(start)`. -/
def findEOLFrom (start : ℕ) (b : Buffer) : Except FindAssertion (Option ℕ) :=
  if b.peek ≤ start ∧ start ≤ b.beginWrite then .ok (b.memchrEOL start (b.beginWrite - start))
  else .error .findEOL

/-- The two kinds of line ends. -/
inductive LineEnd
  | crlf
  | eol
  deriving DecidableEq

def LineEnd.bytes : LineEnd → Bytes
  | .crlf => kCRLF
  | .eol => [10]

def find : LineEnd → Buffer → Option ℕ
  | .crlf => findCRLF
  | .eol => findEOL

def findFrom : LineEnd → ℕ → Buffer → Except FindAssertion (Option ℕ)
  | .crlf => findCRLFFrom
  | .eol => findEOLFrom

variable {b b' : Buffer} {e : LineEnd} {k n p : ℕ} {data : Bytes}

theorem LineEnd.bytes_ne_nil : e.bytes ≠ [] := by cases e <;> simp [LineEnd.bytes, kCRLF]

/-- A search for one byte. -/
theorem search_singleton (c : UInt8) (xs : Bytes) : search [c] xs = xs.idxOf c := by
  induction xs with
  | nil => rfl
  | cons x xs ih =>
    rw [search, ih]
    by_cases hc : x = c
    · subst hc
      simp
    · rw [if_neg (by simpa using Ne.symm hc), List.idxOf_cons_ne xs hc]

/-- What is found behind `k` readable bytes. -/
def found (e : LineEnd) (k : ℕ) (b : Buffer) : Option ℕ :=
  let n := k + search e.bytes (b.content.drop k)
  if n = b.content.length then none else some (b.peek + n)

theorem WellFormed.beginWrite_eq (h : b.WellFormed) : b.beginWrite = b.peek + b.content.length := by
  have hle := h.reader_le
  rw [h.length_content]
  unfold beginWrite peek readableBytes
  omega

theorem drop_content : b.content.drop k = slice (b.peek + k) b.beginWrite b.buffer := drop_slice

theorem WellFormed.searchCRLF_eq (h : b.WellFormed) :
    b.searchCRLF (b.peek + k) = b.found .crlf k := by
  have hend := h.beginWrite_eq
  have hbytes : LineEnd.crlf.bytes = kCRLF := rfl
  unfold searchCRLF found
  rw [← drop_content, hbytes]
  by_cases hn : k + search kCRLF (b.content.drop k) = b.content.length
  · rw [if_pos (by omega), if_pos hn]
  · rw [if_neg (by omega), if_neg hn, Nat.add_assoc]

theorem WellFormed.memchrEOL_eq (h : b.WellFormed) (hk : k ≤ b.content.length) :
    b.memchrEOL (b.peek + k) (b.beginWrite - (b.peek + k)) = b.found .eol k := by
  have hend := h.beginWrite_eq
  have hstop : b.peek + k + (b.beginWrite - (b.peek + k)) = b.beginWrite := by omega
  have hlen : (b.content.drop k).length = b.content.length - k := List.length_drop
  unfold memchrEOL found
  rw [hstop, ← drop_content]
  simp only [LineEnd.bytes, search_singleton]
  by_cases hmem : 10 ∈ b.content.drop k
  · have hlt := List.idxOf_lt_length_of_mem hmem
    rw [if_pos hmem, if_neg (by omega), Nat.add_assoc]
  · have heq := List.idxOf_eq_length hmem
    rw [if_neg hmem, if_pos (by omega)]

theorem WellFormed.findFrom_eq (h : b.WellFormed) (hk : k ≤ b.content.length) :
    b.findFrom e (b.peek + k) = .ok (b.found e k) := by
  have hend := h.beginWrite_eq
  have hstart : b.peek ≤ b.peek + k ∧ b.peek + k ≤ b.beginWrite := by omega
  cases e with
  | crlf => rw [← h.searchCRLF_eq]; exact if_pos hstart
  | eol => rw [← h.memchrEOL_eq hk]; exact if_pos hstart

theorem WellFormed.find_eq (h : b.WellFormed) : b.find e = b.found e 0 := by
  cases e with
  | crlf => exact h.searchCRLF_eq (k := 0)
  | eol =>
    rw [← h.memchrEOL_eq (Nat.zero_le _)]
    rfl

/-! ### The first line end -/

theorem found_eq_some_iff : b.found e 0 = some p ↔
    ∃ n, p = b.peek + n ∧ FirstAt e.bytes b.content n := by
  have hle : search e.bytes b.content ≤ b.content.length := search_le
  simp only [found, List.drop_zero, Nat.zero_add]
  constructor
  · intro h
    split_ifs at h with hend
    cases h
    exact ⟨_, rfl, firstAt_search (lt_of_le_of_ne hle hend)⟩
  · rintro ⟨n, rfl, hn⟩
    have hlen := hn.here.add_length_le LineEnd.bytes_ne_nil
    have hpos := List.length_pos_iff.2 (LineEnd.bytes_ne_nil (e := e))
    rw [search_eq_of_firstAt hn LineEnd.bytes_ne_nil, if_neg (by omega)]

theorem found_eq_none_iff : b.found e 0 = none ↔ ∀ n, ¬ Occurs e.bytes b.content n := by
  rw [← search_eq_length_iff LineEnd.bytes_ne_nil]
  simp only [found, List.drop_zero, Nat.zero_add]
  split_ifs with h <;> simp [h]

/-- The search for the line end may leave out the bytes that have been searched, but for the last
ones, which may be the beginning of a line end. -/
theorem found_of_append (hc : b'.content = b.content ++ data)
    (hnone : ∀ n, ¬ Occurs e.bytes b.content n)
    (hk : k + e.bytes.length ≤ b.content.length + 1) : b'.found e k = b'.found e 0 := by
  have hpos := List.length_pos_iff.2 (LineEnd.bytes_ne_nil (e := e))
  have hskip : search e.bytes b'.content = k + search e.bytes (b'.content.drop k) := by
    refine search_eq_add ?_ fun i hi ho => ?_
    · rw [hc, List.length_append]
      omega
    · rw [hc, occurs_append (by omega)] at ho
      exact hnone i ho
  simp only [found, List.drop_zero, Nat.zero_add, hskip]

/-- In every layout, `findCRLF` and `findEOL` answer the first line end, and no line end if there is
none.  `retrieveUntil` cuts the line off there.  A later `append`, which may move the bytes or make
new space, leaves the line end where it was in the content; and where there was none, the search may
go on where it stopped. -/
theorem line_found (h : b.WellFormed) (e : LineEnd) (data : Bytes) :
    ∃ b', b.append data = .ok b' ∧ b'.WellFormed ∧ b'.content = b.content ++ data ∧
      (∀ p, b.find e = some p ↔ ∃ n, p = b.peek + n ∧ FirstAt e.bytes b.content n) ∧
      (b.find e = none ↔ ∀ n, ¬ Occurs e.bytes b.content n) ∧
      (∀ p, b.find e = some p → b'.find e = some (b'.peek + (p - b.peek)) ∧
        ∃ rest, b.retrieveUntil (p + e.bytes.length) = .ok rest ∧ rest.WellFormed ∧
          b.content = slice b.peek p b.buffer ++ e.bytes ++ rest.content) ∧
      (b.find e = none → ∀ k, k + e.bytes.length ≤ b.readableBytes + 1 →
        b'.findFrom e (b'.peek + k) = .ok (b'.find e)) := by
  obtain ⟨b', hb', hw', hc, -⟩ := h.append data
  have hpos := List.length_pos_iff.2 (LineEnd.bytes_ne_nil (e := e))
  refine ⟨b', hb', hw', hc, fun p => ?_, ?_, fun p hp => ?_, fun hnone k hk => ?_⟩
  · rw [h.find_eq, found_eq_some_iff]
  · rw [h.find_eq, found_eq_none_iff]
  · rw [h.find_eq, found_eq_some_iff] at hp
    obtain ⟨n, rfl, hn⟩ := hp
    have hlen := hn.here.add_length_le LineEnd.bytes_ne_nil
    rw [Nat.add_sub_cancel_left]
    constructor
    · rw [hw'.find_eq, found_eq_some_iff, hc]
      exact ⟨n, rfl, hn.append LineEnd.bytes_ne_nil data⟩
    · rw [h.length_content] at hlen
      obtain ⟨rest, hrest, hwrest, hcrest, -⟩ := h.retrieveUntil hlen
      refine ⟨rest, by rw [Nat.add_assoc]; exact hrest, hwrest, ?_⟩
      rw [hcrest, ← h.take_content (by omega)]
      exact hn.eq_append
  · rw [h.find_eq, found_eq_none_iff] at hnone
    rw [← h.length_content] at hk
    have hle : k ≤ b'.content.length := by
      rw [hc, List.length_append]
      omega
    rw [hw'.findFrom_eq hle, hw'.find_eq, found_of_append hc hnone hk]

/-- A line end that comes in two pieces: nothing is found before the second one comes, and then a
search from the last byte of the first piece will do. -/
theorem line_found_pieces :
    ∃ b b' : Buffer, b.WellFormed ∧ b.findCRLF = none ∧ b.append [10, 33] = .ok b' ∧
      b'.content = [72, 105, 13, 10, 33] ∧ b'.findCRLFFrom (b'.peek + 2) = .ok b'.findCRLF := by
  have h : WellFormed ⟨[0, 0, 0, 0, 0, 0, 0, 0, 72, 105, 13, 0], 8, 11⟩ :=
    ⟨by decide, by decide, by decide⟩
  obtain ⟨b', hb', -, hc, -, -, -, hskip⟩ := line_found h .crlf [10, 33]
  exact ⟨_, b', h, by decide, hb', hc, hskip (by decide) 2 (by decide)⟩

end Leven.Buffer
