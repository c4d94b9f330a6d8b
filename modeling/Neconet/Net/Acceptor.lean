import Neconet.Lib.Transition
import Neconet.Net.Buffer
import Neconet.Net.Channel

/-!
# `CAcceptor`

The way of a descriptor from the kernel to the server: `sockets::CreateNonblockingOrDie` and
`sockets::Accept` of `net/SocketsOps.cpp`, `CSocket::Accept`, and `CAcceptor` with its read
callback. The channel of the acceptor is there without its poller.

The control of the two functions in `sockets` reaches the end without a `return`, in the first
always and in the second after a successful `accept4`. What the caller gets then is not specified;
it is an argument of the model, beside what the system calls return. Pointers have 8 bytes.

* `SockaddrIn`, `CInetAddress`: the addresses, byte by byte.
* `CSocket`, `CAcceptor`, `Action`: the socket, the acceptor, and what is done with it.
* `DeliversAll`, `deliversAll_iff`: every descriptor is delivered exactly along the runs in which
  the values that are not specified happen to be the descriptors.
-/

namespace Neconet

open Slice Transition

/-! ## Addresses -/

/-- `sizeof(struct sockaddr_in)`. -/
def sockaddrInSize : ℕ := 16

/-- `struct sockaddr_in`, as bytes: the family, the port and the address, in 2, 2 and 4 of them, and
8 more. -/
structure SockaddrIn where
  /-- The bytes. -/
  bytes : List Byte
  /-- There are as many as in the structure. -/
  length_eq : bytes.length = sockaddrInSize
  deriving DecidableEq, Repr

namespace SockaddrIn

/-- `sin_family`. -/
def family (a : SockaddrIn) : List Byte := window a.bytes 0 2

/-- `sin_port`. -/
def port (a : SockaddrIn) : List Byte := window a.bytes 2 4

/-- `sin_addr`. -/
def addr (a : SockaddrIn) : List Byte := window a.bytes 4 8

/-- `bzero`. -/
def zero : SockaddrIn := ⟨List.replicate sockaddrInSize 0, List.length_replicate⟩

/-- What the kernel stores of the address `peer`: no more than fits into `iAddrLen` bytes. -/
def store (a peer : SockaddrIn) (iAddrLen : ℕ) : SockaddrIn where
  bytes := overwrite a.bytes 0 (peer.bytes.take iAddrLen)
  length_eq := by
    have hin : 0 + (peer.bytes.take iAddrLen).length ≤ a.bytes.length := by
      rw [a.length_eq, ← peer.length_eq, List.length_take]
      omega
    exact (length_overwrite hin).trans a.length_eq

/-- What fits has been stored. -/
theorem window_store (a peer : SockaddrIn) {iAddrLen first last : ℕ} (hlast : last ≤ iAddrLen)
    (hlen : iAddrLen ≤ sockaddrInSize) :
    window (a.store peer iAddrLen).bytes first last = window peer.bytes first last := by
  have hcount : (peer.bytes.take iAddrLen).length = iAddrLen := by
    rw [List.length_take, peer.length_eq, Nat.min_eq_left hlen]
  have htake : (a.store peer iAddrLen).bytes.take last = peer.bytes.take last := by
    change (overwrite a.bytes 0 (peer.bytes.take iAddrLen)).take last = _
    unfold overwrite
    rw [List.take_zero, List.nil_append, List.take_append_of_le_length (by omega),
      List.take_take, Nat.min_eq_left hlast]
  unfold window
  rw [htake]

end SockaddrIn

/-- Source: `net/CInetAddress.h`, `m_iAddr` -/
structure CInetAddress where
  /-- `m_iAddr`. -/
  iAddr : SockaddrIn
  deriving DecidableEq, Repr

namespace CInetAddress

/-- `CInetAddress(uint64_t)`: `AF_INET` is 2, in the order of the host; `INADDR_ANY` is 0; the port
goes through 16 bits into the order of the network.
Source: `net/CInetAddress.cpp`, `CInetAddress::CInetAddress` -/
def ofPort (nPort : ℕ) : CInetAddress where
  iAddr :=
    { bytes := [2, 0, UInt8.ofNat (nPort / 256), UInt8.ofNat nPort, 0, 0, 0, 0] ++
        List.replicate 8 0
      length_eq := rfl }

/-- Source: `net/CInetAddress.cpp`, `CInetAddress::SetSockAddrInet` -/
def setSockAddrInet (a : CInetAddress) (iAddr : SockaddrIn) : CInetAddress := { a with iAddr := iAddr }

end CInetAddress

/-! ## `sockets` and `CSocket` -/

/-- What `accept4` returns: `-1` with an error number, or a descriptor and the address of the
peer. -/
inductive AcceptResult
  | error (errno : ℤ)
  | fd (nConnFd : ℕ) (peer : SockaddrIn)
  deriving DecidableEq, Repr

/-- What the acceptor calls: system calls, and the callback. -/
inductive AcceptorCall
  /-- `setsockopt` with `SO_REUSEADDR`. -/
  | setReuseAddr (nSockFd : ℤ)
  | bind (nSockFd : ℤ) (iLocalAddr : CInetAddress)
  | listen (nSockFd : ℤ)
  | accept4 (nSockFd : ℤ)
  | close (nSockFd : ℤ)
  /-- The new-connection callback. -/
  | newConnection (nSockFd : ℤ) (iPeerAddr : CInetAddress)
  deriving DecidableEq, Repr

namespace sockets

/-- `sizeof(iAddr)` in `Accept`, where `iAddr` is a pointer.
Source: `net/SocketsOps.cpp`, `sockets::Accept` -/
def acceptAddrLen : ℕ := 8

/-- `CreateNonblockingOrDie`: the result of `socket` is not returned.
Source: `net/SocketsOps.cpp`, `sockets::CreateNonblockingOrDie` -/
def createNonblockingOrDie (_nSockFd nUnspecified : ℤ) : ℤ := nUnspecified

/-- `Accept`: the system call, the result, and `*iAddr`. Only errors are returned.
Source: `net/SocketsOps.cpp`, `sockets::Accept` -/
def accept (nSockFd : ℤ) (iAddr : SockaddrIn) (nUnspecified : ℤ) :
    AcceptResult → AcceptorCall × ℤ × SockaddrIn
  | .error _ => (.accept4 nSockFd, -1, iAddr)
  | .fd _ peer => (.accept4 nSockFd, nUnspecified, iAddr.store peer acceptAddrLen)

end sockets

/-- Source: `net/CSocket.h`, `m_nSockFd` -/
structure CSocket where
  /-- `m_nSockFd`. -/
  sockFd : ℤ
  deriving DecidableEq, Repr

/-- `CSocket::Accept`: the system call, the result, and `*iPeerAddr`.
Source: `net/CSocket.cpp`, `CSocket::Accept` -/
def CSocket.accept (s : CSocket) (iPeerAddr : CInetAddress) (result : AcceptResult)
    (nUnspecified : ℤ) : AcceptorCall × ℤ × CInetAddress :=
  let (made, nConnFd, iAddr) := sockets.accept s.sockFd .zero nUnspecified result
  if nConnFd ≥ 0 then (made, nConnFd, iPeerAddr.setSockAddrInet iAddr)
  else (made, nConnFd, iPeerAddr)

/-! ## The acceptor -/

/-- The fields of `CAcceptor`, and the calls it has made.
Source: `net/CAcceptor.h` -/
structure CAcceptor where
  /-- `m_iAcceptSocket`. -/
  acceptSocket : CSocket
  /-- `m_iAcceptChannel`. -/
  acceptChannel : CChannel
  /-- There is a function in `m_ifnNewConnectionCallback`. -/
  newConnectionCallback : Bool
  /-- `m_bListenning`. -/
  listenning : Bool
  /-- The calls, in order. -/
  calls : List AcceptorCall
  deriving DecidableEq, Repr

namespace CAcceptor

/-- One more call. -/
def call (s : CAcceptor) (made : AcceptorCall) : CAcceptor := { s with calls := s.calls ++ [made] }

/-- The constructor, when `socket` has returned `nSockFd`.
Source: `net/CAcceptor.cpp`, `CAcceptor::CAcceptor` -/
def new (iListenAddr : CInetAddress) (nSockFd nUnspecified : ℤ) : CAcceptor :=
  let acceptSocket : CSocket := ⟨sockets.createNonblockingOrDie nSockFd nUnspecified⟩
  { acceptSocket := acceptSocket
    acceptChannel := CChannel.new acceptSocket.sockFd
    newConnectionCallback := false
    listenning := false
    calls := [.setReuseAddr acceptSocket.sockFd, .bind acceptSocket.sockFd iListenAddr] }

/-- Source: `net/CAcceptor.cpp`, `CAcceptor::SetNewConnectionCallback` -/
def setNewConnectionCallback (s : CAcceptor) (cb : Bool) : CAcceptor :=
  { s with newConnectionCallback := cb }

/-- Source: `net/CAcceptor.cpp`, `CAcceptor::StartListen` -/
def startListen (s : CAcceptor) : CAcceptor :=
  let s := { s with listenning := true }
  let s := s.call (.listen s.acceptSocket.sockFd)
  { s with acceptChannel :=
      { s.acceptChannel with events := InterestOp.setEnableReading.apply s.acceptChannel.events } }

/-- Source: `net/CAcceptor.cpp`, `CAcceptor::__HandleRead` -/
def handleRead (s : CAcceptor) (result : AcceptResult) (nUnspecified : ℤ) : CAcceptor :=
  let (made, nConnFd, iPeerAddr) := s.acceptSocket.accept (.ofPort 0) result nUnspecified
  let s := s.call made
  if nConnFd ≥ 0 then
    if s.newConnectionCallback then s.call (.newConnection nConnFd iPeerAddr)
    else s.call (.close nConnFd)
  else s

/-- What is done with an acceptor. A readable event comes with the result of `accept4`, and with
what `sockets::Accept` returns where it returns nothing. -/
inductive Action
  | setNewConnectionCallback (cb : Bool)
  | startListen
  | handleRead (result : AcceptResult) (nUnspecified : ℤ)
  deriving DecidableEq, Repr

/-- The acceptor afterwards. -/
def Action.next (s : CAcceptor) : Action → CAcceptor
  | setNewConnectionCallback cb => s.setNewConnectionCallback cb
  | startListen => s.startListen
  | handleRead result nUnspecified => s.handleRead result nUnspecified

/-- One action, as a relation between acceptors. -/
def Step (s : CAcceptor) (a : Action) (s' : CAcceptor) : Prop := s' = a.next s

/-! ## What is to be delivered -/

/-- The address is the peer's, in family, port and address. -/
def IsPeer (iPeerAddr : CInetAddress) (peer : SockaddrIn) : Prop :=
  iPeerAddr.iAddr.family = peer.family ∧ iPeerAddr.iAddr.port = peer.port ∧
    iPeerAddr.iAddr.addr = peer.addr

/-- The calls that an action is to make, of an acceptor with the listening descriptor `nSockFd`,
with or without a callback: every descriptor of `accept4` is passed to the callback with the address
of the peer, or closed without one; after an error neither. -/
def Action.Delivers (nSockFd : ℤ) (newConnectionCallback : Bool) :
    Action → List AcceptorCall → Prop
  | setNewConnectionCallback _, calls => calls = []
  | startListen, calls => calls = [.listen nSockFd]
  | handleRead (.error _) _, calls => calls = [.accept4 nSockFd]
  | handleRead (.fd nConnFd peer) _, calls =>
      if newConnectionCallback then
        ∃ iPeerAddr, calls = [.accept4 nSockFd, .newConnection nConnFd iPeerAddr] ∧
          IsPeer iPeerAddr peer
      else calls = [.accept4 nSockFd, .close nConnFd]

/-- The socket and the channel use the descriptor. -/
structure Uses (s : CAcceptor) (nSockFd : ℤ) : Prop where
  /-- The socket does. -/
  socket : s.acceptSocket.sockFd = nSockFd
  /-- The channel does. -/
  channel : s.acceptChannel.fd = nSockFd

/-- What an action is to do: socket and channel still use the descriptor, exactly the calls to be
made have been made, and `CSocket::Accept` leaves the address of the peer alone after an error. -/
def Good (nSockFd : ℤ) (s : CAcceptor) (a : Action) (s' : CAcceptor) : Prop :=
  s'.Uses nSockFd ∧
  (∃ calls, s'.calls = s.calls ++ calls ∧ a.Delivers nSockFd s.newConnectionCallback calls) ∧
  ∀ errno nUnspecified, a = .handleRead (.error errno) nUnspecified → ∀ iPeerAddr,
    (s.acceptSocket.accept iPeerAddr (.error errno) nUnspecified).2 = (-1, iPeerAddr)

/-- Along the actions no descriptor is lost: the acceptor uses the one that `socket` has returned,
and every action does what it is to do. -/
def DeliversAll (iListenAddr : CInetAddress) (nSockFd nUnspecified : ℤ) (as : List Action) : Prop :=
  (new iListenAddr nSockFd nUnspecified).Uses nSockFd ∧
  (new iListenAddr nSockFd nUnspecified).calls =
    [.setReuseAddr nSockFd, .bind nSockFd iListenAddr] ∧
  ∀ done a rest, as = done ++ a :: rest →
    ∃ s s', Run Step (new iListenAddr nSockFd nUnspecified) done s ∧ Step s a s' ∧
      Good nSockFd s a s'

/-- Where `sockets::Accept` returns nothing, it happens to return the descriptor. -/
def Action.ReturnsFd : Action → Prop
  | handleRead (.fd nConnFd _) nUnspecified => nUnspecified = nConnFd
  | _ => True

section deliver

variable {s s' : CAcceptor} {nSockFd : ℤ}

/-- The part of the peer's address that is passed on, all of which fits into a pointer's length. -/
theorem isPeer_store (a peer : SockaddrIn) :
    IsPeer ⟨a.store peer sockets.acceptAddrLen⟩ peer := by
  have hlen : sockets.acceptAddrLen ≤ sockaddrInSize := by decide
  exact ⟨a.window_store peer (by decide) hlen, a.window_store peer (by decide) hlen,
    a.window_store peer (by decide) hlen⟩

/-- The calls of a readable event with a descriptor. -/
theorem handleRead_calls (s : CAcceptor) (nConnFd : ℕ) (peer : SockaddrIn) (nUnspecified : ℤ) :
    (s.handleRead (.fd nConnFd peer) nUnspecified).calls = s.calls ++
      if nUnspecified ≥ 0 then
        if s.newConnectionCallback then
          [.accept4 s.acceptSocket.sockFd,
            .newConnection nUnspecified ⟨SockaddrIn.zero.store peer sockets.acceptAddrLen⟩]
        else [.accept4 s.acceptSocket.sockFd, .close nUnspecified]
      else [.accept4 s.acceptSocket.sockFd] := by
  by_cases hnonneg : nUnspecified ≥ 0
  · by_cases hcallback : s.newConnectionCallback = true
    · simp [handleRead, CSocket.accept, sockets.accept, call, hnonneg, hcallback,
        CInetAddress.setSockAddrInet]
    · simp [handleRead, CSocket.accept, sockets.accept, call, hnonneg, hcallback]
  · simp [handleRead, CSocket.accept, sockets.accept, call, hnonneg]

/-- No action changes the socket, or the descriptor of the channel. -/
theorem Uses.next (h : s.Uses nSockFd) (a : Action) : (a.next s).Uses nSockFd := by
  cases a with
  | setNewConnectionCallback cb => exact ⟨h.socket, h.channel⟩
  | startListen => exact ⟨h.socket, h.channel⟩
  | handleRead result nUnspecified =>
      simp only [Action.next, handleRead]
      split_ifs
      · exact ⟨h.socket, h.channel⟩
      · exact ⟨h.socket, h.channel⟩
      · exact ⟨h.socket, h.channel⟩

/-- An action that returns the descriptor delivers it. -/
theorem Uses.good (h : s.Uses nSockFd) {a : Action} (hfd : a.ReturnsFd) :
    Good nSockFd s a (a.next s) := by
  have hsocket := h.socket
  refine ⟨h.next a, ?_, ?_⟩
  · cases a with
    | setNewConnectionCallback cb => exact ⟨[], (List.append_nil _).symm, rfl⟩
    | startListen => exact ⟨[.listen nSockFd], by rw [← hsocket]; rfl, rfl⟩
    | handleRead result nUnspecified =>
        cases result with
        | error errno => exact ⟨[.accept4 nSockFd], by rw [← hsocket]; rfl, rfl⟩
        | fd nConnFd peer =>
            have hfd' : nUnspecified = nConnFd := hfd
            have hnonneg : nUnspecified ≥ 0 := by omega
            refine ⟨_, s.handleRead_calls nConnFd peer nUnspecified, ?_⟩
            rw [if_pos hnonneg, hsocket, hfd']
            simp only [Action.Delivers]
            split_ifs
            · exact ⟨_, rfl, isPeer_store _ peer⟩
            · rfl
  · intro errno nUnspecified _ iPeerAddr
    rfl

/-- An action that does not return the descriptor loses it. -/
theorem not_good_of_not_returnsFd {a : Action} (hfd : ¬ a.ReturnsFd) :
    ¬ Good nSockFd s a (a.next s) := by
  rintro ⟨-, ⟨calls, hcalls, hdelivers⟩, -⟩
  cases a with
  | setNewConnectionCallback | startListen => exact hfd trivial
  | handleRead result nUnspecified =>
      cases result with
      | error errno => exact hfd trivial
      | fd nConnFd peer =>
          apply hfd
          have hmade := (s.handleRead_calls nConnFd peer nUnspecified).symm.trans hcalls
          have heq := List.append_cancel_left hmade
          change nUnspecified = nConnFd
          simp only [Action.Delivers] at hdelivers
          by_cases hcallback : s.newConnectionCallback = true
          · rw [if_pos hcallback] at hdelivers heq
            obtain ⟨iPeerAddr, hdelivered, -⟩ := hdelivers
            rw [hdelivered] at heq
            split_ifs at heq
            · exact (AcceptorCall.newConnection.inj (List.cons.inj (List.cons.inj heq).2).1).1
            · exact absurd (List.cons.inj heq).2 (List.cons_ne_nil _ _).symm
          · rw [if_neg hcallback] at hdelivers heq
            rw [hdelivers] at heq
            split_ifs at heq
            · exact AcceptorCall.close.inj (List.cons.inj (List.cons.inj heq).2).1
            · exact absurd (List.cons.inj heq).2 (List.cons_ne_nil _ _).symm

end deliver

/-- **No descriptor is lost exactly if the two functions happen to return what they do not return.**
For every result of `socket`, and every sequence of readable events with every result of `accept4`,
with and without a callback: the acceptor uses the descriptor that `socket` has returned, every
descriptor of `accept4` is passed to the callback with the family, the port and the address of the
peer or closed without one, once, and an error leads to neither, if and only if the value that is
not specified is that descriptor, in the constructor and at every descriptor of `accept4`. -/
theorem deliversAll_iff (iListenAddr : CInetAddress) (nSockFd nUnspecified : ℤ)
    (as : List Action) :
    DeliversAll iListenAddr nSockFd nUnspecified as ↔
      nUnspecified = nSockFd ∧ ∀ a ∈ as, a.ReturnsFd := by
  have hdet : ∀ s a t t', Step s a t → Step s a t' → t = t' :=
    fun s a t t' ht ht' => ht.trans ht'.symm
  have htotal : ∀ s a, ∃ t, Step s a t := fun s a => ⟨a.next s, rfl⟩
  have hall : (new iListenAddr nSockFd nUnspecified).Uses nSockFd →
      ((∀ a ∈ as, a.ReturnsFd) ↔ ∀ done a rest, as = done ++ a :: rest →
        ∃ s s', Run Step (new iListenAddr nSockFd nUnspecified) done s ∧ Step s a s' ∧
          Good nSockFd s a s') := by
    intro huses
    have hpre : Along Step (fun _ _ => True) (new iListenAddr nSockFd nUnspecified) as :=
      fun _ _ _ _ _ _ => trivial
    rw [← along_label_iff htotal]
    refine along_iff_good (I := fun s => s.Uses nSockFd) hdet ?_ ?_ hpre huses
    · intro s a h _ hfd
      exact ⟨a.next s, rfl, h.next a, h.good hfd⟩
    · rintro s a t h - hfd rfl
      exact not_good_of_not_returnsFd hfd
  constructor
  · rintro ⟨huses, -, hgood⟩
    exact ⟨huses.socket, (hall huses).mpr hgood⟩
  · rintro ⟨rfl, hfd⟩
    have huses : (new iListenAddr nUnspecified nUnspecified).Uses nUnspecified := ⟨rfl, rfl⟩
    exact ⟨huses, rfl, (hall huses).mp hfd⟩

/-- **The callback never hears of the connection**: `socket` returns 3, the acceptor uses it,
`accept4` returns 7, and the value that `sockets::Accept` happens to return is -1. -/
theorem not_deliversAll_seven : ∃ (iListenAddr : CInetAddress) (as : List Action),
    (new iListenAddr 3 3).Uses 3 ∧ ¬ DeliversAll iListenAddr 3 3 as ∧
    ∀ s, Run Step (new iListenAddr 3 3) as s → s.newConnectionCallback = true ∧
      s.calls = [.setReuseAddr 3, .bind 3 iListenAddr, .listen 3, .accept4 3] := by
  refine ⟨.ofPort 80, [.setNewConnectionCallback true, .startListen,
    .handleRead (.fd 7 (CInetAddress.ofPort 4000).iAddr) (-1)], ⟨rfl, rfl⟩, ?_, ?_⟩
  · rintro ⟨-, -, hgood⟩
    obtain ⟨s, s', -, rfl, hgood⟩ := hgood [.setNewConnectionCallback true, .startListen] _ [] rfl
    exact not_good_of_not_returnsFd (by unfold Action.ReturnsFd; decide) hgood
  · intro s hrun
    obtain ⟨t, rfl, hrun⟩ := run_cons_iff.mp hrun
    obtain ⟨t, rfl, hrun⟩ := run_cons_iff.mp hrun
    obtain ⟨t, rfl, hrun⟩ := run_cons_iff.mp hrun
    obtain rfl := run_nil_iff.mp hrun
    decide

end CAcceptor

end Neconet
