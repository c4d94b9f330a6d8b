import Mathlib.Data.List.TakeWhile
import Neconet.Lib.DottedDecimal
import Neconet.Net.Acceptor
import Neconet.Net.ServerTable

/-!
# Addresses and their texts

`sockets::ToHostPort` and `sockets::FromHostPort` of `net/SocketsOps.cpp`, and `CInetAddress` over
them. A server is named after the text of its address, and its connections after the server.

* `toHostPort`, `fromHostPort`: the two functions, and the constructor and the member function of
  `CInetAddress`.
* `toHostPort_eq`: no text is cut off.
* `toHostPort_ofHostPort`: what a text becomes; one that is not accepted becomes `0.0.0.0`.
* `ofHostPort_toHostPort`, `connName_hostPort_inj`: an address is read back from its text, and the
  names of connections of different servers are different.
-/

namespace Neconet

open Slice DottedDecimal

/-! ## `sockets` -/

namespace sockets

/-- Source: `net/SocketsOps.h`, `sockets::HostToNetwork16` -/
def hostToNetwork16 (nHost16 : ℕ) : List Byte := [UInt8.ofNat (nHost16 / 256), UInt8.ofNat nHost16]

/-- Source: `net/SocketsOps.h`, `sockets::NetworkToHost16` -/
def networkToHost16 (nNet16 : List Byte) : ℕ := nNet16.foldl (fun n b => 256 * n + b.toNat) 0

/-- `INET_ADDRSTRLEN`. -/
def inetAddrStrLen : ℕ := 16

/-- `inet_ntop` into `nSize` bytes, a zero byte included: nothing, if the text does not fit. -/
def inetNtop (a : InAddr) (nSize : ℕ) : Option (List Char) :=
  if (ntop a).length < nSize then some (ntop a) else none

/-- `snprintf` into `nSize` bytes, a zero byte included. -/
def snprintf (nSize : ℕ) (text : List Char) : List Char := text.take (nSize - 1)

/-- `sin_addr`, as an address. -/
def sinAddr (iAddr : SockaddrIn) : InAddr where
  bytes := iAddr.addr
  length_eq := by
    have hlen := iAddr.length_eq
    unfold SockaddrIn.addr
    rw [length_window (by rw [hlen]; decide)]

/-- Source: `net/SocketsOps.cpp`, `sockets::ToHostPort` -/
def toHostPort (nSize : ℕ) (iAddr : SockaddrIn) : List Char :=
  let cHost := (inetNtop (sinAddr iAddr) inetAddrStrLen).getD "INVALID".toList
  let port := networkToHost16 iAddr.port
  snprintf nSize (cHost ++ ':' :: Nat.toDigits 10 port)

/-- `AF_INET`, in the order of the host. -/
def afInet : List Byte := [2, 0]

/-- A text that `inet_pton` does not accept leaves `sin_addr` as it was.
Source: `net/SocketsOps.cpp`, `sockets::FromHostPort` -/
def fromHostPort (pIP : List Char) (nPort : ℕ) (iAddr : SockaddrIn) : SockaddrIn where
  bytes := afInet ++ hostToNetwork16 nPort ++ ((pton pIP).getD (sinAddr iAddr)).bytes ++
    iAddr.bytes.drop 8
  length_eq := by
    have hlen := iAddr.length_eq
    have hfour := ((pton pIP).getD (sinAddr iAddr)).length_eq
    simp only [List.length_append, List.length_drop, hfour, hlen]
    rfl

end sockets

namespace CInetAddress

/-- `std::string::c_str`, as the callee reads it. -/
def cStr (text : List Char) : List Char := text.takeWhile (· ≠ Char.ofNat 0)

/-- `CInetAddress(const std::string &, uint64_t)`: the port goes through 16 bits.
Source: `net/CInetAddress.cpp`, `CInetAddress::CInetAddress` -/
def ofHostPort (rPp : List Char) (nPort : ℕ) : CInetAddress where
  iAddr := sockets.fromHostPort (cStr rPp) (nPort % 2 ^ 16) .zero

/-- Source: `net/CInetAddress.cpp`, `CInetAddress::ToHostPort` -/
def toHostPort (a : CInetAddress) : List Char := sockets.toHostPort 32 a.iAddr

/-! ## The text of an address -/

/-- `sin_port`, in the order of the host. -/
def portNumber (a : CInetAddress) : ℕ := sockets.networkToHost16 a.iAddr.port

/-- `sin_addr`. -/
def inAddr (a : CInetAddress) : InAddr := sockets.sinAddr a.iAddr

/-- A port is two bytes. -/
theorem port_eq (a : CInetAddress) : ∃ hi lo, a.iAddr.port = [hi, lo] := by
  have hlen : a.iAddr.port.length = 2 := by
    have h16 := a.iAddr.length_eq
    unfold SockaddrIn.port
    rw [length_window (by rw [h16]; decide)]
  exact List.length_eq_two.mp hlen

/-- The number of a port, of its two bytes. -/
theorem networkToHost16_pair (hi lo : Byte) :
    sockets.networkToHost16 [hi, lo] = 256 * hi.toNat + lo.toNat := by
  simp [sockets.networkToHost16]

/-- A port number has 16 bits. -/
theorem portNumber_lt (a : CInetAddress) : a.portNumber < 2 ^ 16 := by
  obtain ⟨hi, lo, hport⟩ := a.port_eq
  have hhi := hi.toNat_lt
  have hlo := lo.toNat_lt
  rw [portNumber, hport, networkToHost16_pair]
  omega

/-- The text of an address has up to four times three digits and three dots. -/
theorem length_ntop_le (a : InAddr) : (ntop a).length ≤ 15 := by
  have hbyte : ∀ b : UInt8, (Nat.toDigits 10 b.toNat).length ≤ 3 := by
    intro b
    rw [Nat.length_toDigits_le_iff (by decide) (by decide)]
    have hlt := b.toNat_lt
    omega
  obtain ⟨bytes, hlen⟩ := a
  match bytes, hlen with
  | [b₀, b₁, b₂, b₃], _ =>
      have h₀ := hbyte b₀
      have h₁ := hbyte b₁
      have h₂ := hbyte b₂
      have h₃ := hbyte b₃
      simp only [ntop, List.map_cons, List.map_nil, dotted, List.length_append, List.length_cons]
      omega

/-- **No text is cut off**: `cHost` and `cBuf` are large enough for every address. -/
theorem toHostPort_eq (a : CInetAddress) :
    a.toHostPort = ntop a.inAddr ++ ':' :: Nat.toDigits 10 a.portNumber := by
  have hhost := length_ntop_le a.inAddr
  have hport : (Nat.toDigits 10 a.portNumber).length ≤ 5 := by
    rw [Nat.length_toDigits_le_iff (by decide) (by decide)]
    have hlt := a.portNumber_lt
    omega
  have hfits : sockets.inetNtop a.inAddr sockets.inetAddrStrLen = some (ntop a.inAddr) := by
    rw [sockets.inetNtop, if_pos (by simp only [sockets.inetAddrStrLen]; omega)]
  have hrest : sockets.toHostPort 32 a.iAddr = sockets.snprintf 32
      ((sockets.inetNtop a.inAddr sockets.inetAddrStrLen).getD "INVALID".toList ++
        ':' :: Nat.toDigits 10 a.portNumber) := rfl
  rw [toHostPort, hrest, hfits, Option.getD_some, sockets.snprintf]
  apply List.take_of_length_le
  rw [List.length_append, List.length_cons]
  omega

/-- A digit is no separator. -/
theorem not_mem_toDigits {ch : Char} (h : ¬ ch.isDigit = true) (n : ℕ) : ch ∉ Nat.toDigits 10 n :=
  fun hmem => h (Nat.isDigit_of_mem_toDigits (by decide) le_rfl hmem)

/-- The text of an address has digits and dots. -/
theorem not_mem_ntop {ch : Char} (h : ¬ ch.isDigit = true) (hdot : ch ≠ '.') (a : InAddr) :
    ch ∉ ntop a := by
  obtain ⟨bytes, hlen⟩ := a
  match bytes, hlen with
  | [b₀, b₁, b₂, b₃], _ =>
      simp [ntop, dotted, not_mem_toDigits h, hdot]

/-- **The text determines address and port.** -/
theorem toHostPort_inj {a b : CInetAddress} :
    a.toHostPort = b.toHostPort ↔ a.inAddr = b.inAddr ∧ a.portNumber = b.portNumber := by
  rw [toHostPort_eq, toHostPort_eq,
    List.append_cons_inj_of_notMem (not_mem_ntop (by decide) (by decide) _)
      (not_mem_toDigits (by decide) _),
    ntop_injective.eq_iff, toDigits_ten_injective.eq_iff]
  simp

/-! ## Reading a text -/

/-- The port of an address made from a text. -/
theorem portNumber_ofHostPort (rPp : List Char) (nPort : ℕ) :
    (ofHostPort rPp nPort).portNumber = nPort % 2 ^ 16 := by
  have hport : (ofHostPort rPp nPort).iAddr.port = sockets.hostToNetwork16 (nPort % 2 ^ 16) := rfl
  rw [portNumber, hport, sockets.hostToNetwork16, networkToHost16_pair]
  simp only [UInt8.toNat_ofNat']
  omega

/-- `sin_addr` of the bytes that `FromHostPort` puts together. -/
theorem window_sinAddr (hi lo : Byte) {bytes : List Byte} (hlen : bytes.length = 4)
    (rest : List Byte) : window (sockets.afInet ++ [hi, lo] ++ bytes ++ rest) 4 8 = bytes := by
  match bytes, hlen with
  | [b₀, b₁, b₂, b₃], _ => rfl

/-- The address made from a text. -/
theorem inAddr_ofHostPort (rPp : List Char) (nPort : ℕ) :
    (ofHostPort rPp nPort).inAddr = (pton (cStr rPp)).getD ⟨[0, 0, 0, 0], rfl⟩ := by
  have hzero : sockets.sinAddr .zero = ⟨[0, 0, 0, 0], rfl⟩ := rfl
  rw [← hzero]
  apply InAddr.ext
  change window (sockets.afInet ++ sockets.hostToNetwork16 (nPort % 2 ^ 16) ++ _ ++ _) 4 8 = _
  rw [sockets.hostToNetwork16,
    window_sinAddr _ _ ((pton (cStr rPp)).getD (sockets.sinAddr .zero)).length_eq]

/-- **What a text becomes.** For every text and every 64-bit port: an address made from the text of
some address has this text again; one made from any other text has the text `0.0.0.0`. The port is
printed without what does not fit into 16 bits. -/
theorem toHostPort_ofHostPort (rPp : List Char) (nPort : ℕ) :
    (∀ a, ntop a = cStr rPp → (ofHostPort rPp nPort).toHostPort =
      cStr rPp ++ ':' :: Nat.toDigits 10 (nPort % 2 ^ 16)) ∧
    ((∀ a, ntop a ≠ cStr rPp) → (ofHostPort rPp nPort).toHostPort =
      "0.0.0.0:".toList ++ Nat.toDigits 10 (nPort % 2 ^ 16)) := by
  rw [toHostPort_eq, inAddr_ofHostPort, portNumber_ofHostPort]
  constructor
  · intro a ha
    rw [← ha, pton_ntop, Option.getD_some]
  · intro hnone
    have hrefused : pton (cStr rPp) = none := by
      rcases hpton : pton (cStr rPp) with _ | a
      · rfl
      · exact absurd (ntop_of_pton hpton) (hnone a)
    rw [hrefused, Option.getD_none]
    rfl

/-- The theorem on an address, and on a text with a leading zero. -/
theorem toHostPort_ofHostPort_loopback :
    (ofHostPort "127.0.0.1".toList 9981).toHostPort = "127.0.0.1:9981".toList ∧
      (ofHostPort "127.0.0.01".toList 9981).toHostPort = "0.0.0.0:9981".toList := by
  constructor
  · have htext : ntop ⟨[127, 0, 0, 1], rfl⟩ = cStr "127.0.0.1".toList := by decide
    rw [(toHostPort_ofHostPort _ 9981).1 _ htext]
    decide
  · have hnone : ∀ a, ntop a ≠ cStr "127.0.0.01".toList := by
      intro a ha
      have hpton := pton_ntop a
      rw [ha] at hpton
      revert hpton
      have hrefused : pton (cStr "127.0.0.01".toList) = none := by decide
      rw [hrefused]
      exact fun h => by cases h
    rw [(toHostPort_ofHostPort _ 9981).2 hnone]
    decide

/-- An address as the constructors make it: `AF_INET`, and zeros behind the address. -/
def WellFormed (a : CInetAddress) : Prop :=
  a.iAddr.family = sockets.afInet ∧ a.iAddr.bytes.drop 8 = List.replicate 8 0

/-- The bytes of an address structure, field by field. -/
theorem bytes_eq (iAddr : SockaddrIn) :
    iAddr.family ++ iAddr.port ++ iAddr.addr ++ iAddr.bytes.drop 8 = iAddr.bytes := by
  have hfamily : iAddr.bytes.take 4 = iAddr.family ++ iAddr.port := by
    rw [← List.take_append_drop 2 (iAddr.bytes.take 4), List.take_take]
    rfl
  have haddr : iAddr.bytes.take 8 = iAddr.bytes.take 4 ++ iAddr.addr := by
    rw [← List.take_append_drop 4 (iAddr.bytes.take 8), List.take_take]
    rfl
  rw [← hfamily, ← haddr, List.take_append_drop]

/-- Addresses are their bytes. -/
theorem eq_of_bytes {a b : CInetAddress} (h : a.iAddr.bytes = b.iAddr.bytes) : a = b := by
  obtain ⟨⟨bytes, hlen⟩⟩ := a
  obtain ⟨⟨bytes', hlen'⟩⟩ := b
  obtain rfl : bytes = bytes' := h
  rfl

/-- A port goes through its number. -/
theorem hostToNetwork16_portNumber (a : CInetAddress) :
    sockets.hostToNetwork16 (a.portNumber % 2 ^ 16) = a.iAddr.port := by
  obtain ⟨hi, lo, hpair⟩ := a.port_eq
  have hlo := lo.toNat_lt
  have hquot : (256 * hi.toNat + lo.toNat) / 256 = hi.toNat := by omega
  have hrest : UInt8.ofNat (256 * hi.toNat + lo.toNat) = lo := by
    apply UInt8.toNat_inj.mp
    rw [UInt8.toNat_ofNat']
    omega
  rw [Nat.mod_eq_of_lt a.portNumber_lt, portNumber, hpair, networkToHost16_pair,
    sockets.hostToNetwork16, hquot, hrest, UInt8.ofNat_toNat]

/-- **An address is read back from its text.** Every well-formed address is what the constructor
makes of the host and the port in its text, and both constructors make well-formed addresses. -/
theorem ofHostPort_toHostPort :
    (∀ a : CInetAddress, a.WellFormed →
      ∃ host, a.toHostPort = host ++ ':' :: Nat.toDigits 10 a.portNumber ∧
        ofHostPort host a.portNumber = a) ∧
    (∀ nPort, (ofPort nPort).WellFormed) ∧ ∀ rPp nPort, (ofHostPort rPp nPort).WellFormed := by
  refine ⟨fun a h => ⟨ntop a.inAddr, a.toHostPort_eq, ?_⟩, fun nPort => ⟨rfl, rfl⟩,
    fun rPp nPort => ⟨rfl, ?_⟩⟩
  · have hhost : cStr (ntop a.inAddr) = ntop a.inAddr := by
      refine List.takeWhile_eq_self_iff.mpr fun ch hch => ?_
      have hzero : Char.ofNat 0 ∉ ntop a.inAddr := not_mem_ntop (by decide) (by decide) _
      have hne : ch ≠ Char.ofNat 0 := fun heq => hzero (heq ▸ hch)
      exact decide_eq_true hne
    have hbytes : (ofHostPort (ntop a.inAddr) a.portNumber).iAddr.bytes = a.iAddr.bytes := by
      change sockets.afInet ++ sockets.hostToNetwork16 (a.portNumber % 2 ^ 16) ++
        ((pton (cStr (ntop a.inAddr))).getD _).bytes ++ List.replicate 8 0 = _
      rw [hhost, pton_ntop, Option.getD_some, hostToNetwork16_portNumber, ← h.1, ← h.2]
      exact bytes_eq a.iAddr
    exact eq_of_bytes hbytes
  · have hfour := ((pton (cStr rPp)).getD (sockets.sinAddr .zero)).length_eq
    change (sockets.afInet ++ sockets.hostToNetwork16 (nPort % 2 ^ 16) ++ _ ++
      List.replicate 8 0).drop 8 = _
    apply List.drop_left'
    rw [List.length_append, hfour]
    rfl

/-- The theorem on an address made from a port. -/
theorem ofHostPort_toHostPort_9981 : ∃ host,
    (ofPort 9981).toHostPort = host ++ ':' :: Nat.toDigits 10 (ofPort 9981).portNumber ∧
      ofHostPort host (ofPort 9981).portNumber = ofPort 9981 :=
  ofHostPort_toHostPort.1 _ (ofHostPort_toHostPort.2.1 9981)

/-- **Connections of different servers have different names.** Two connections have the same name
exactly if the addresses of their servers have the same host and port, and their numbers agree
modulo `2 ^ 32`. -/
theorem connName_hostPort_inj (a b : CInetAddress) (i j : ℕ) :
    connNameOf a.toHostPort i = connNameOf b.toHostPort j ↔
      (a.inAddr = b.inAddr ∧ a.portNumber = b.portNumber) ∧ i ≡ j [MOD 2 ^ 32] := by
  have hname : ∀ c : CInetAddress, '#' ∉ c.toHostPort := by
    intro c
    rw [toHostPort_eq]
    simp [not_mem_ntop, not_mem_toDigits]
  have hnumber : ∀ n : ℤ, '#' ∉ decimal n := by
    intro n
    cases n <;> simp [decimal, not_mem_toDigits]
  have hinj : connNameOf b.toHostPort i = connNameOf b.toHostPort j ↔ i ≡ j [MOD 2 ^ 32] :=
    connNameOf_inj
  rw [← toHostPort_inj, ← hinj]
  constructor
  · intro h
    have hparts := (List.append_cons_inj_of_notMem (hname a) (hnumber _)).mp h
    rw [hparts.1] at h
    exact ⟨hparts.1, h⟩
  · rintro ⟨hsame, h⟩
    rw [hsame]
    exact h

end CInetAddress

end Neconet
