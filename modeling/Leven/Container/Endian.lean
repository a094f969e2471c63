import Mathlib.Tactic
import Mathlib.Data.Nat.Digits.Defs

/-!
# Integers in memory

An integer of `n` bytes is a bit vector of length `8 * n`, signed or not, and in memory it is a list
of bytes, in the order of the host.

* `littleEndian`: the bytes of a natural number, the least one first; `Nat.ofDigits` is the inverse;
* `toMemory`, `ofMemory`: the bytes of an integer, and the integer of the bytes;
* `bswap`, `htobe`, `betoh`: the byte order conversions; they work on unsigned integers, and the
  conversions from and to signed ones keep the bits;
* `bigEndian`: the two's complement encoding of an integer, the greatest byte first;
* `toMemory_htobe`, `betoh_ofMemory`: what is converted has this encoding in memory, and is
  converted back from it, whatever the host.
-/

namespace Container

variable {n m i : ℕ} {l : List UInt8}

/-! ### Bytes of natural numbers -/

/-- The `n` least bytes, the least one first. -/
def littleEndian : ℕ → ℕ → List UInt8
  | 0, _ => []
  | n + 1, m => UInt8.ofNat m :: littleEndian n (m / 256)

@[simp] theorem length_littleEndian : (littleEndian n m).length = n := by
  induction n generalizing m with
  | zero => rfl
  | succ n ih => rw [littleEndian, List.length_cons, ih]

/-- The number that has the bytes. -/
def ofLittleEndian (l : List UInt8) : ℕ := Nat.ofDigits 256 (l.map UInt8.toNat)

@[simp] theorem ofLittleEndian_cons {a : UInt8} :
    ofLittleEndian (a :: l) = a.toNat + 256 * ofLittleEndian l := by
  rw [ofLittleEndian, List.map_cons, Nat.ofDigits_cons]
  rfl

theorem ofLittleEndian_lt : ofLittleEndian l < 256 ^ l.length := by
  have hlt := Nat.ofDigits_lt_base_pow_length (by decide : 1 < 256)
    fun x (hx : x ∈ l.map UInt8.toNat) => by
      obtain ⟨a, -, rfl⟩ := List.mem_map.1 hx
      exact UInt8.toNat_lt a
  rwa [List.length_map] at hlt

theorem ofLittleEndian_littleEndian (h : m < 256 ^ n) : ofLittleEndian (littleEndian n m) = m := by
  induction n generalizing m with
  | zero =>
    have hm : m = 0 := by simpa using h
    subst hm
    rfl
  | succ n ih =>
    have hdiv : m / 256 < 256 ^ n := Nat.div_lt_of_lt_mul (by rwa [pow_succ'] at h)
    rw [littleEndian, ofLittleEndian_cons, ih hdiv, UInt8.toNat_ofNat']
    exact Nat.mod_add_div m 256

theorem littleEndian_ofLittleEndian : littleEndian l.length (ofLittleEndian l) = l := by
  induction l with
  | nil => rfl
  | cons a l ih =>
    have hdiv : (a.toNat + 256 * ofLittleEndian l) / 256 = ofLittleEndian l := by
      have ha := a.toNat_lt
      omega
    have hmod : UInt8.ofNat (a.toNat + 256 * ofLittleEndian l) = a := by
      apply UInt8.toNat_inj.1
      rw [UInt8.toNat_ofNat', Nat.add_mul_mod_self_left]
      exact Nat.mod_eq_of_lt a.toNat_lt
    rw [List.length_cons, littleEndian, ofLittleEndian_cons, hdiv, hmod, ih]

theorem getElem?_littleEndian (h : i < n) :
    (littleEndian n m)[i]? = some (UInt8.ofNat (m / 256 ^ i)) := by
  induction n generalizing m i with
  | zero => cases h
  | succ n ih =>
    cases i with
    | zero => simp [littleEndian]
    | succ i =>
      rw [littleEndian, List.getElem?_cons_succ, ih (by omega), Nat.div_div_eq_div_mul, pow_succ']

/-! ### Integers in memory -/

/-- The byte orders of a host. -/
inductive Endian
  | little
  | big
  deriving DecidableEq

/-- The bytes of an integer in memory. -/
def toMemory (host : Endian) (x : BitVec (8 * n)) : List UInt8 :=
  match host with
  | .little => littleEndian n x.toNat
  | .big => (littleEndian n x.toNat).reverse

/-- The integer of the bytes in memory. -/
def ofMemory (host : Endian) (n : ℕ) (l : List UInt8) : BitVec (8 * n) :=
  match host with
  | .little => BitVec.ofNat _ (ofLittleEndian l)
  | .big => BitVec.ofNat _ (ofLittleEndian l.reverse)

/-- The bytes in reverse. -/
def bswap (x : BitVec (8 * n)) : BitVec (8 * n) :=
  BitVec.ofNat _ (ofLittleEndian (littleEndian n x.toNat).reverse)

/-- The conversion from the byte order of the host to the big endian one. -/
def htobe (host : Endian) (x : BitVec (8 * n)) : BitVec (8 * n) :=
  match host with
  | .little => bswap x
  | .big => x

/-- The conversion from the big endian byte order to that of the host. -/
def betoh (host : Endian) (x : BitVec (8 * n)) : BitVec (8 * n) :=
  match host with
  | .little => bswap x
  | .big => x

/-- The two's complement encoding of an integer in `n` bytes, the greatest byte first. -/
def bigEndian (n : ℕ) (z : ℤ) : List UInt8 :=
  (List.range n).reverse.map fun i => UInt8.ofNat (z / 256 ^ i % 256).toNat

@[simp] theorem length_bigEndian {z : ℤ} : (bigEndian n z).length = n := by simp [bigEndian]

@[simp] theorem length_toMemory {host : Endian} {x : BitVec (8 * n)} :
    (toMemory host x).length = n := by
  cases host <;> simp [toMemory]

variable {host : Endian} {x : BitVec (8 * n)}

theorem two_pow_eight_mul : 2 ^ (8 * n) = 256 ^ n := by rw [pow_mul]; norm_num

theorem toNat_lt_pow (x : BitVec (8 * n)) : x.toNat < 256 ^ n := two_pow_eight_mul ▸ x.isLt

/-- The bytes of a number that has been made of bytes. -/
theorem littleEndian_toNat_ofNat (h : l.length = n) :
    littleEndian n (BitVec.ofNat (8 * n) (ofLittleEndian l)).toNat = l := by
  subst h
  rw [BitVec.toNat_ofNat, two_pow_eight_mul, Nat.mod_eq_of_lt ofLittleEndian_lt,
    littleEndian_ofLittleEndian]

theorem littleEndian_bswap : littleEndian n (bswap x).toNat = (littleEndian n x.toNat).reverse :=
  littleEndian_toNat_ofNat (by simp)

theorem ofNat_ofLittleEndian :
    BitVec.ofNat (8 * n) (ofLittleEndian (littleEndian n x.toNat)) = x := by
  rw [ofLittleEndian_littleEndian (toNat_lt_pow x), BitVec.ofNat_toNat, BitVec.setWidth_eq]

theorem bswap_bswap : bswap (bswap x) = x := by
  rw [bswap, littleEndian_bswap, List.reverse_reverse, ofNat_ofLittleEndian]

theorem ofMemory_toMemory : ofMemory host n (toMemory host x) = x := by
  cases host with
  | little => exact ofNat_ofLittleEndian
  | big =>
    rw [ofMemory, toMemory, List.reverse_reverse]
    exact ofNat_ofLittleEndian

/-- A single byte is in any order. -/
theorem bswap_one (x : BitVec (8 * 1)) : bswap x = x := ofNat_ofLittleEndian

theorem htobe_one (x : BitVec (8 * 1)) : htobe host x = x := by
  cases host with
  | little => exact bswap_one x
  | big => rfl

theorem betoh_one (x : BitVec (8 * 1)) : betoh host x = x := by
  cases host with
  | little => exact bswap_one x
  | big => rfl

theorem ofMemory_singleton {a : UInt8} : ofMemory host 1 [a] = BitVec.ofNat _ a.toNat := by
  have hn : ofLittleEndian [a] = a.toNat := by simp [ofLittleEndian]
  cases host <;> exact congrArg (BitVec.ofNat _) hn

/-- The sign does not show in the bytes. -/
theorem toInt_ediv_emod (h : i < n) : x.toInt / 256 ^ i % 256 = x.toNat / 256 ^ i % 256 := by
  by_cases hlt : 2 * x.toNat < 2 ^ (8 * n)
  · rw [BitVec.toInt_eq_toNat_of_lt hlt]
  · -- a negative integer is less by a power of which the byte takes no notice
    have hpow : (2 : ℤ) ^ (8 * n) = 256 ^ (n - i - 1) * 256 * 256 ^ i := by
      rw [mul_assoc, ← pow_succ', ← pow_add, pow_mul, show n - i - 1 + (i + 1) = n by omega]
      norm_num
    have hneg : x.toInt = x.toNat + -(256 ^ (n - i - 1) * 256) * 256 ^ i := by
      rw [BitVec.toInt_eq_toNat_cond, if_neg hlt]
      push_cast
      rw [hpow]
      ring
    rw [hneg, Int.add_mul_ediv_right _ _ (by positivity), ← neg_mul, Int.add_mul_emod_self_right]

theorem bigEndian_toInt : bigEndian n x.toInt = (littleEndian n x.toNat).reverse := by
  rw [bigEndian, List.map_reverse]
  congr 1
  apply List.ext_getElem?
  intro i
  by_cases h : i < n
  · rw [getElem?_littleEndian h, List.getElem?_map, List.getElem?_range h, Option.map_some,
      toInt_ediv_emod h]
    have hcast : (x.toNat : ℤ) / 256 ^ i % 256 = (x.toNat / 256 ^ i % 256 : ℕ) := by
      push_cast
      rfl
    congr 1
    apply UInt8.toNat_inj.1
    rw [hcast, Int.toNat_natCast, UInt8.toNat_ofNat', UInt8.toNat_ofNat', Nat.mod_mod]
  · rw [List.getElem?_eq_none (by simpa using h), List.getElem?_eq_none (by simpa using h)]

/-- An integer in the big endian byte order. -/
theorem toMemory_htobe : toMemory host (htobe host x) = bigEndian n x.toInt := by
  rw [bigEndian_toInt]
  cases host with
  | little => exact littleEndian_bswap
  | big => rfl

theorem betoh_htobe : betoh host (htobe host x) = x := by
  cases host with
  | little => exact bswap_bswap
  | big => rfl

theorem betoh_ofMemory : betoh host (ofMemory host n (bigEndian n x.toInt)) = x := by
  have hmem : bigEndian n x.toInt = toMemory host (htobe host x) := toMemory_htobe.symm
  rw [hmem, ofMemory_toMemory, betoh_htobe]

end Container
