import Mathlib.Tactic
import Mathlib.Data.Fin.VecNotation

/-!
# The recorded peer

`Acceptor::handleRead` hands `::accept4` an uninitialised `sockaddr_in` and the length of a `char`,
so that one byte of it is written; the rest of what is recorded as the peer is what was on the
stack.

* `SockaddrIn`: a `struct sockaddr_in`, byte by byte; `Endpoint.sockaddr`: the one of an address and
  a port;
* `InetAddress`, with its accessors `toIp`, `toPort` and `toIpPort`;
* `toDigits_append_inj`: a decimal number ends at the first character that is not a digit;
  `toIpPort_inj`: the string determines the address and the port;
* `accept4`: what the system call writes; `handleRead`: the addresses that a new connection keeps;
* `PeerRecorded`: the peer is that of the client, whatever was on the stack before;
* `Leftover`: the stack has the client's address, but for the first byte;
* `peerRecorded_iff`: nothing less will do.
-/

namespace Leven

/-! ### InetAddress -/

/-- The bytes of a `struct sockaddr_in`: two of the family, two of the port and four of the address,
both in network order, and eight of padding. -/
abbrev SockaddrIn := Fin 16 → UInt8

/-- An address and a port. -/
structure Endpoint where
  ip : Fin 4 → UInt8
  port : UInt16

/-- The `sockaddr_in` of an end point, with `AF_INET` and cleared padding. -/
def Endpoint.sockaddr (e : Endpoint) : SockaddrIn :=
  ![2, 0, .ofNat (e.port.toNat / 256), .ofNat (e.port.toNat % 256), e.ip 0, e.ip 1, e.ip 2, e.ip 3,
    0, 0, 0, 0, 0, 0, 0, 0]

structure InetAddress where
  addr : SockaddrIn

namespace InetAddress

/-- The constructor. -/
def new (port : UInt16) (loopback : Bool) : InetAddress :=
  ⟨Endpoint.sockaddr ⟨if loopback then ![127, 0, 0, 1] else ![0, 0, 0, 0], port⟩⟩

def setAddress (addr : SockaddrIn) (a : InetAddress) : InetAddress := { a with addr := addr }

/-- `toIp`, as `::inet_ntop` writes it. -/
def toIp (a : InetAddress) : String :=
  (a.addr 4).toNat.repr ++ "." ++ (a.addr 5).toNat.repr ++ "." ++ (a.addr 6).toNat.repr ++ "." ++
    (a.addr 7).toNat.repr

/-- `toPort`: `::ntohs`. -/
def toPort (a : InetAddress) : ℕ := 256 * (a.addr 2).toNat + (a.addr 3).toNat

def toIpPort (a : InetAddress) : String := a.toIp.push ':' ++ a.toPort.repr

end InetAddress

/-! ### Decimal numbers -/

section Decimal

variable {m n : ℕ} {c : Char} {as bs : List Char}

theorem toDigits_inj : Nat.toDigits 10 m = Nat.toDigits 10 n ↔ m = n := by
  refine ⟨fun h => ?_, fun h => h ▸ rfl⟩
  rw [← Nat.ofDigitChars_ten_toDigits (n := m), h, Nat.ofDigitChars_ten_toDigits]

theorem notMem_toDigits (hc : c.isDigit = false) : c ∉ Nat.toDigits 10 n := by
  intro h
  rw [Nat.isDigit_of_mem_toDigits (by decide) le_rfl h] at hc
  cases hc

/-- Two lists agree before the first `c`, and behind it. -/
theorem append_cons_inj_of_notMem {xs ys : List Char} (hx : c ∉ xs) (hy : c ∉ ys)
    (h : xs ++ c :: as = ys ++ c :: bs) : xs = ys ∧ as = bs := by
  induction xs generalizing ys with
  | nil =>
    cases ys with
    | nil => exact ⟨rfl, (List.cons.inj h).2⟩
    | cons y ys => exact absurd ((List.cons.inj h).1 ▸ List.mem_cons_self) hy
  | cons x xs ih =>
    cases ys with
    | nil => exact absurd ((List.cons.inj h).1 ▸ List.mem_cons_self) hx
    | cons y ys =>
      obtain ⟨rfl, hrest⟩ := List.cons.inj h
      obtain ⟨rfl, rfl⟩ := ih (fun hc => hx (List.mem_cons_of_mem _ hc))
        (fun hc => hy (List.mem_cons_of_mem _ hc)) hrest
      exact ⟨rfl, rfl⟩

/-- A number ends where a character is not a digit. -/
theorem toDigits_append_inj (hc : c.isDigit = false) :
    Nat.toDigits 10 m ++ c :: as = Nat.toDigits 10 n ++ c :: bs ↔ m = n ∧ as = bs := by
  constructor
  · intro h
    obtain ⟨hd, ht⟩ := append_cons_inj_of_notMem (notMem_toDigits hc) (notMem_toDigits hc) h
    exact ⟨toDigits_inj.1 hd, ht⟩
  · rintro ⟨rfl, rfl⟩
    rfl

end Decimal

namespace InetAddress

variable {a b : InetAddress}

theorem toList_toIpPort :
    a.toIpPort.toList = Nat.toDigits 10 (a.addr 4).toNat ++ '.' ::
      (Nat.toDigits 10 (a.addr 5).toNat ++ '.' :: (Nat.toDigits 10 (a.addr 6).toNat ++ '.' ::
        (Nat.toDigits 10 (a.addr 7).toNat ++ ':' :: Nat.toDigits 10 a.toPort))) := by
  simp [toIpPort, toIp, String.toList_append]

theorem toPort_inj : a.toPort = b.toPort ↔ a.addr 2 = b.addr 2 ∧ a.addr 3 = b.addr 3 := by
  rw [← UInt8.toNat_inj, ← UInt8.toNat_inj, toPort, toPort]
  have ha := (a.addr 3).toNat_lt
  have hb := (b.addr 3).toNat_lt
  omega

/-- The string determines the address and the port, and nothing else. -/
theorem toIpPort_inj : a.toIpPort = b.toIpPort ↔ ∀ i, 2 ≤ i → i < 8 → a.addr i = b.addr i := by
  rw [← String.toList_inj, toList_toIpPort, toList_toIpPort, toDigits_append_inj rfl,
    toDigits_append_inj rfl, toDigits_append_inj rfl, toDigits_append_inj rfl, toDigits_inj,
    toPort_inj]
  simp only [UInt8.toNat_inj]
  constructor
  · rintro ⟨h₄, h₅, h₆, h₇, h₂, h₃⟩ ⟨i, hlt⟩ hi hi'
    have hle : 2 ≤ i := hi
    have hlt' : i < 8 := hi'
    interval_cases i
    · exact h₂
    · exact h₃
    · exact h₄
    · exact h₅
    · exact h₆
    · exact h₇
  · intro h
    exact ⟨h 4 (by decide) (by decide), h 5 (by decide) (by decide), h 6 (by decide) (by decide),
      h 7 (by decide) (by decide), h 2 (by decide) (by decide), h 3 (by decide) (by decide)⟩

end InetAddress

/-! ### Accepting -/

/-- The addresses that a `TcpConnection` keeps. -/
structure Addresses where
  localAddress : InetAddress
  peer : InetAddress

/-- `TcpConnection::name`. -/
def Addresses.name (k : Addresses) : String :=
  k.peer.toIpPort ++ " -> " ++ k.localAddress.toIpPort

/-- `TcpServer::newConnection`, up to the constructor of `TcpConnection`. -/
def Addresses.newConnection (localAddress peer : InetAddress) : Addresses := ⟨localAddress, peer⟩

namespace Acceptor

/-- `socklen_t len = sizeof(char)` -/
def len : ℕ := 1

/-- `::accept4`: the first `len` bytes of the client's address, but not more than it has, go to
`addr`. -/
def accept4 (client : SockaddrIn) (len : ℕ) (addr : SockaddrIn) : SockaddrIn :=
  fun i => if i.val < min len 16 then client i else addr i

/-- `handleRead`, for a client that `::accept4` answers, with `addr` on the stack. -/
def handleRead (localAddress : InetAddress) (client addr : SockaddrIn) : Addresses :=
  let peer := InetAddress.new 0 false
  .newConnection localAddress (peer.setAddress (accept4 client len addr))

/-- Two connections that a log tells apart. -/
structure Distinct (k k' : Addresses) : Prop where
  toIpPort : k.peer.toIpPort ≠ k'.peer.toIpPort
  name : k.name ≠ k'.name

/-- In two runs that accept the client `c`, with `u` and `v` on the stack, the peer is the same and
is the client; and a connection of another client `d`, accepted with `w` on the stack, differs. -/
structure PeerRecorded (localAddress : InetAddress) (c d : Endpoint) (u v w : SockaddrIn) : Prop where
  same : (handleRead localAddress c.sockaddr u).peer = (handleRead localAddress c.sockaddr v).peer
  real : (handleRead localAddress c.sockaddr u).peer = ⟨c.sockaddr⟩
  other : (handleRead localAddress d.sockaddr w).peer = ⟨d.sockaddr⟩
  distinct : c ≠ d →
    Distinct (handleRead localAddress c.sockaddr u) (handleRead localAddress d.sockaddr w)

/-- From the second byte on, `addr` has the address of the client. -/
def Leftover (c : Endpoint) (addr : SockaddrIn) : Prop := ∀ i, 1 ≤ i → addr i = c.sockaddr i

variable {localAddress : InetAddress} {c d : Endpoint} {client addr u v w : SockaddrIn}

theorem accept4_len (i : Fin 16) :
    accept4 client len addr i = if i = 0 then client i else addr i := by
  have hi : i.val < min len 16 ↔ i = 0 := by
    rw [show min len 16 = 1 from rfl, Fin.ext_iff]
    exact Nat.lt_one_iff
  simp only [accept4, hi]

/-- The recorded peer is the client where the stack says so. -/
theorem peer_eq_iff (localAddress : InetAddress) :
    (handleRead localAddress c.sockaddr addr).peer = ⟨c.sockaddr⟩ ↔ Leftover c addr := by
  have hpeer : (handleRead localAddress c.sockaddr addr).peer =
      ⟨accept4 c.sockaddr len addr⟩ := rfl
  rw [hpeer, InetAddress.mk.injEq, funext_iff]
  refine forall_congr' fun i => ?_
  rw [accept4_len]
  split_ifs with hi
  · simp [hi]
  · exact ⟨fun h _ => h, fun h => h (Fin.one_le_of_ne_zero hi)⟩

/-- Different end points differ in the bytes of the port or of the address. -/
theorem toIpPort_ne (h : c ≠ d) :
    (⟨c.sockaddr⟩ : InetAddress).toIpPort ≠ (⟨d.sockaddr⟩ : InetAddress).toIpPort := by
  rw [Ne, InetAddress.toIpPort_inj]
  intro heq
  apply h
  obtain ⟨ip, port⟩ := c
  obtain ⟨ip', port'⟩ := d
  have hip : ip = ip' := by
    funext i
    fin_cases i
    · exact heq 4 (by decide) (by decide)
    · exact heq 5 (by decide) (by decide)
    · exact heq 6 (by decide) (by decide)
    · exact heq 7 (by decide) (by decide)
  have hhigh : UInt8.ofNat (port.toNat / 256) = UInt8.ofNat (port'.toNat / 256) :=
    heq 2 (by decide) (by decide)
  have hlow : UInt8.ofNat (port.toNat % 256) = UInt8.ofNat (port'.toNat % 256) :=
    heq 3 (by decide) (by decide)
  have hport : port = port' := by
    rw [← UInt8.toNat_inj, UInt8.toNat_ofNat', UInt8.toNat_ofNat'] at hhigh hlow
    rw [← UInt16.toNat_inj]
    have hlt := port.toNat_lt
    have hlt' := port'.toNat_lt
    omega
  rw [hip, hport]

theorem name_ne {k k' : Addresses} (hl : k.localAddress = k'.localAddress)
    (h : k.peer.toIpPort ≠ k'.peer.toIpPort) : k.name ≠ k'.name := by
  rw [Addresses.name, Addresses.name, hl, Ne, ← String.toList_inj]
  intro heq
  apply h
  rw [← String.toList_inj]
  simpa [String.toList_append] using heq

/-- **The recorded peer.**  For all clients and all contents of the stack: the peer is the client in
each run, and the names of connections of different clients are distinct, exactly if the stack has
the address of the client in each run already, but for the first byte. -/
theorem peerRecorded_iff :
    PeerRecorded localAddress c d u v w ↔ Leftover c u ∧ Leftover c v ∧ Leftover d w := by
  constructor
  · intro h
    exact ⟨(peer_eq_iff _).1 h.real, (peer_eq_iff _).1 (h.same.symm.trans h.real),
      (peer_eq_iff _).1 h.other⟩
  · rintro ⟨hu, hv, hw⟩
    have hcu := (peer_eq_iff localAddress).2 hu
    have hcv := (peer_eq_iff localAddress).2 hv
    have hdw := (peer_eq_iff localAddress).2 hw
    refine ⟨hcu.trans hcv.symm, hcu, hdw, fun hne => ?_⟩
    have hip : (handleRead localAddress c.sockaddr u).peer.toIpPort ≠
        (handleRead localAddress d.sockaddr w).peer.toIpPort := by
      rw [hcu, hdw]
      exact toIpPort_ne hne
    exact ⟨hip, name_ne rfl hip⟩

/-- The stack has the address of the client in each run. -/
theorem peerRecorded_lucky :
    PeerRecorded (.new 2007 true) ⟨![10, 0, 0, 1], 1000⟩ ⟨![10, 0, 0, 2], 1000⟩
      (Endpoint.sockaddr ⟨![10, 0, 0, 1], 1000⟩) (Endpoint.sockaddr ⟨![10, 0, 0, 1], 1000⟩)
      (Endpoint.sockaddr ⟨![10, 0, 0, 2], 1000⟩) :=
  peerRecorded_iff.2 ⟨fun _ _ => rfl, fun _ _ => rfl, fun _ _ => rfl⟩

/-- The stack is cleared in the run of one client and in that of another: the two connections have
the same addresses, and so the same name; and with other contents the first client is recorded in
another way. -/
theorem peerRecorded_fails :
    ¬ PeerRecorded (.new 2007 true) ⟨![10, 0, 0, 1], 1000⟩ ⟨![10, 0, 0, 2], 1000⟩ (fun _ => 0)
      (fun _ => 1) (fun _ => 0) ∧
    handleRead (.new 2007 true) (Endpoint.sockaddr ⟨![10, 0, 0, 1], 1000⟩) (fun _ => 0) =
      handleRead (.new 2007 true) (Endpoint.sockaddr ⟨![10, 0, 0, 2], 1000⟩) (fun _ => 0) ∧
    (handleRead (.new 2007 true) (Endpoint.sockaddr ⟨![10, 0, 0, 1], 1000⟩) fun _ => 0).peer ≠
      (handleRead (.new 2007 true) (Endpoint.sockaddr ⟨![10, 0, 0, 1], 1000⟩) fun _ => 1).peer := by
  have hne : accept4 (Endpoint.sockaddr ⟨![10, 0, 0, 1], 1000⟩) len (fun _ => 0) 1 ≠
      accept4 (Endpoint.sockaddr ⟨![10, 0, 0, 1], 1000⟩) len (fun _ => 1) 1 := by
    decide
  have heq : accept4 (Endpoint.sockaddr ⟨![10, 0, 0, 1], 1000⟩) len (fun _ => 0) =
      accept4 (Endpoint.sockaddr ⟨![10, 0, 0, 2], 1000⟩) len (fun _ => 0) := by
    decide
  refine ⟨fun h => hne (congrArg (fun a => a.addr 1) h.same), ?_,
    fun h => hne (congrArg (fun a => a.addr 1) h)⟩
  rw [handleRead, handleRead, heq]

end Acceptor
end Leven
