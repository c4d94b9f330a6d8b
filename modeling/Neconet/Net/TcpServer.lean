import Mathlib.Data.List.AList
import Neconet.Net.EventLoop
import Neconet.Net.TcpConnection

/-!
# `CTcpServer` on its loop

The connection table of `net/CTcpServer.cpp`, and the server with all its connections on their
`CEventLoop`: connections are accepted, polled, handled event by event, closed and destroyed, and
user code calls `Send` and `ShutDown` in between.

* `CTcpServer`: the names and the connection table.
* `HandleEvent`: a call of `CChannel::HandleEvent`, with the callbacks of the channel that are left.
* `ServerLoop`, `Action`, `Step`: states, steps and step relation. A step in which an assertion
  fails is the last one.
-/

set_option linter.unusedSectionVars false

namespace Neconet

open Transition

/-! ## The connection table -/

/-- `%d`. -/
def decimal : ℤ → List Char
  | .ofNat n => Nat.toDigits 10 n
  | .negSucc n => '-' :: Nat.toDigits 10 (n + 1)

/-- The fields of the server that `__NewConnection` and `__RemoveConnection` use. A connection is
known by its number, counted from the start of the server.
Source: `net/CTcpServer.h` -/
structure CTcpServer where
  /-- `m_sName`. -/
  sName : List Char
  /-- `m_nNextConnId`. -/
  nextConnId : BitVec 32
  /-- `m_mConnectionMap`. -/
  connectionMap : AList fun _ : List Char => ℕ

namespace CTcpServer

/-- Source: `net/CTcpServer.cpp`, `CTcpServer::CTcpServer` -/
def new (sName : List Char) : CTcpServer where
  sName := sName
  nextConnId := 1
  connectionMap := ∅

/-- `sConnName` in `__NewConnection`.
Source: `net/CTcpServer.cpp`, `CTcpServer::__NewConnection` -/
def connName (s : CTcpServer) : List Char := s.sName ++ '#' :: decimal s.nextConnId.toInt

/-- `__NewConnection` on the table, for the connection `i`. An entry under the same name is
replaced.
Source: `net/CTcpServer.cpp`, `CTcpServer::__NewConnection` -/
def newConnection (s : CTcpServer) (i : ℕ) : CTcpServer :=
  { s with
    nextConnId := s.nextConnId + 1
    connectionMap := s.connectionMap.insert s.connName i }

/-- `__RemoveConnection` on the table, for a connection of the given name.
Source: `net/CTcpServer.cpp`, `CTcpServer::__RemoveConnection` -/
def removeConnection (s : CTcpServer) (name : List Char) : Except Fault CTcpServer := do
  check (name ∈ s.connectionMap)
  return { s with connectionMap := s.connectionMap.erase name }

end CTcpServer

/-! ## States -/

/-- The functors in the queue of the loop. -/
inductive ServerFunctor
  /-- `std::bind(&CTcpConnection::ConnectDestroyed,iConn)`, for the connection `i`. -/
  | connectDestroyed (i : ℕ)
  /-- Another functor. -/
  | other
  deriving DecidableEq, Repr

/-- A connection with what is known about it outside. -/
structure Connection where
  /-- `m_sName`. -/
  name : List Char
  /-- The connection. -/
  conn : CTcpConnection
  /-- The callbacks that it has called so far, in order. -/
  callbacks : List Callback

/-- A call of `CChannel::HandleEvent` on the channel of a connection. -/
structure HandleEvent where
  /-- The connection. -/
  conn : ℕ
  /-- `m_nREvents`. -/
  revents : Events
  /-- The callbacks of the channel that have not been called. -/
  rest : List Handler
  deriving DecidableEq, Repr

/-- The server and its connections on their loop; `T` are the threads besides the loop thread. -/
structure ServerLoop (T : Type) where
  /-- The loop. -/
  loop : CEventLoop ServerFunctor T
  /-- The server. -/
  server : CTcpServer
  /-- How many connections have been accepted so far. -/
  created : ℕ
  /-- The connections, by number. -/
  conns : ℕ → Connection
  /-- The part of `m_vActiveChannels` that has not been handled: connections, with `m_nREvents` of
  their channels. -/
  active : List (ℕ × Events)
  /-- The current call of `HandleEvent`. -/
  current : Option HandleEvent
  /-- The connection whose `ConnectDestroyed` is in its callback. -/
  destroying : Option ℕ
  /-- How the program ended, if it did. -/
  fault : Option Fault

namespace ServerLoop

variable {T : Type} [DecidableEq T]

/-- A new server on a new loop. -/
def new (sName : List Char) : ServerLoop T where
  loop := .new
  server := .new sName
  created := 0
  conns _ := { name := [], conn := .new, callbacks := [] }
  active := []
  current := none
  destroying := none
  fault := none

/-! ## Steps -/

/-- The steps. Those without a thread are steps of the loop thread. -/
inductive Action (T : Type)
  /-- A step of the loop that is not about the connections. -/
  | loop (a : CEventLoop.Action ServerFunctor T)
  /-- `Poll` returns, with the wakeup channel among the active ones or not, and with the given
  connections. -/
  | poll (readable : Bool) (active : List (ℕ × Events))
  /-- `__NewConnection`. -/
  | newConnection
  /-- `HandleEvent` of the next active channel begins. -/
  | handleEvent
  /-- The next callback of the channel is called. `ReadFd` has the given result and `::write`
  returns `n`, if they are called. -/
  | handler (result : CTcpConnection.ReadResult) (n : ℤ)
  /-- `HandleEvent` ends. -/
  | handled
  /-- The next functor of the batch is called. `ConnectDestroyed` gets up to its callback. -/
  | callFunctor
  /-- `ConnectDestroyed` goes on after its callback. -/
  | removeChannel
  /-- User code calls `Send` in the loop thread; `::write` returns `result`. -/
  | send (i : ℕ) (rMessage : List Byte) (result : ℤ)
  /-- User code calls `ShutDown` in the loop thread. -/
  | shutDown (i : ℕ)
  deriving DecidableEq, Repr

/-- The step of the loop is not about the connections. -/
def Foreign (s : ServerLoop T) : CEventLoop.Action ServerFunctor T → Prop
  | .poll _ => False
  | .callFunctor => False
  | .handleRead => s.current = none
  | .enterDoPendingFunctors => s.active = [] ∧ s.current = none
  | .returnFunctor => s.destroying = none
  | .queueInLoop cb => cb = .other
  | .threadQueueInLoop _ cb => cb = .other
  | _ => True

instance (s : ServerLoop T) : DecidablePred s.Foreign := fun a => by
  cases a <;> unfold Foreign <;> infer_instance

/-- The loop thread is between the handlers of the active channels, or inside one. -/
def InHandling (s : ServerLoop T) : Prop := s.loop.pc = .handling ∧ s.loop.toWake = false

/-- User code may run in the loop thread: a handler, a functor, or a callback of one. -/
def InUserCode (s : ServerLoop T) : Prop :=
  (s.loop.pc = .handling ∨ s.loop.pc = .inFunctor) ∧ s.loop.toWake = false

/-- `poll` may report the events for the connection: some of those requested, `POLLERR`, `POLLHUP`
and `POLLNVAL`. -/
def Reports (s : ServerLoop T) (i : ℕ) (revents : Events) : Prop :=
  (s.conns i).conn.channel.watch = .watched ∧ revents ≠ 0 ∧
    revents &&& ~~~ ((s.conns i).conn.channel.events ||| pollErr ||| pollHup ||| pollNval) = 0

/-- The step can be taken, as far as the program has not ended. Of the kernel it is assumed that
`poll` ignores negative descriptors, and that `::write` returns `-1` or a number of bytes it was
offered. -/
def Action.Possible (s : ServerLoop T) : Action T → Prop
  | loop a => a.Enabled s.loop ∧ s.Foreign a
  | poll readable active => (CEventLoop.Action.poll readable).Enabled s.loop ∧
      (active.map Prod.fst).Nodup ∧ ∀ e ∈ active, s.Reports e.1 e.2
  | newConnection => s.InHandling ∧ s.current = none
  | handleEvent => s.InHandling ∧ s.current = none ∧ s.active ≠ []
  | handler _ n => s.InHandling ∧ ∃ e ∈ s.current, e.rest ≠ [] ∧
      -1 ≤ n ∧ n ≤ (s.conns e.conn).conn.outputBuffer.length
  | handled => s.InHandling ∧ ∃ e ∈ s.current, e.rest = []
  | callFunctor => (CEventLoop.Action.callFunctor).Enabled s.loop
  | removeChannel => s.destroying ≠ none ∧ s.loop.toWake = false
  | send i rMessage result => s.InUserCode ∧ i < s.created ∧ -1 ≤ result ∧ result ≤ rMessage.length
  | shutDown i => s.InUserCode ∧ i < s.created

/-- A member function of the connection `i` has returned, and has called back. -/
def record (s : ServerLoop T) (i : ℕ) (conn : CTcpConnection) (callbacks : List Callback) :
    ServerLoop T :=
  { s with
    conns := Function.update s.conns i { s.conns i with
      conn := conn
      callbacks := (s.conns i).callbacks ++ callbacks } }

/-- Source: `net/CTcpServer.cpp`, `CTcpServer::__NewConnection` -/
def acceptConnection (s : ServerLoop T) : Except Fault (ServerLoop T) := do
  let (conn, callback) ← CTcpConnection.new.connectEstablished
  return { s with
    server := s.server.newConnection s.created
    created := s.created + 1
    conns := Function.update s.conns s.created
      { name := s.server.connName, conn := conn, callbacks := [callback] } }

/-- The close callback of the connection `i`.
Source: `net/CTcpServer.cpp`, `CTcpServer::__RemoveConnection` -/
def removeConnection (s : ServerLoop T) (i : ℕ) : Except Fault (ServerLoop T) := do
  let server ← s.server.removeConnection (s.conns i).name
  return { s with
    server := server
    loop := (CEventLoop.Action.queueInLoop (.connectDestroyed i)).next s.loop }

/-- A callback of the channel of the connection `i`. `__HandleError` only prints.
Source: `net/CTcpConnection.cpp`, `CTcpConnection::CTcpConnection` -/
def runHandler (s : ServerLoop T) (i : ℕ) (result : CTcpConnection.ReadResult) (n : ℤ) :
    Handler → Except Fault (ServerLoop T)
  | .close => do
      let (conn, callback) ← (s.conns i).conn.handleClose
      (s.record i conn [callback]).removeConnection i
  | .error => return s
  | .read => do
      let (conn, callback) ← (s.conns i).conn.handleRead result
      let s := s.record i conn callback.toList
      if callback = some .close then s.removeConnection i else return s
  | .write => do
      let conn ← (s.conns i).conn.handleWrite n
      return s.record i conn []

/-- The state after the step, or the fault in it. -/
def Action.run (s : ServerLoop T) : Action T → Except Fault (ServerLoop T)
  | loop a => .ok { s with loop := a.next s.loop }
  | poll readable active => .ok { s with
      loop := (CEventLoop.Action.poll readable).next s.loop
      active := active }
  | newConnection => s.acceptConnection
  | handleEvent =>
      match s.active with
      | (i, revents) :: active => .ok { s with
          active := active
          current := some { conn := i, revents := revents, rest := handlersOf revents } }
      | [] => .ok s
  | handler result n =>
      match s.current with
      | some { conn := i, revents := revents, rest := h :: rest } =>
          { s with
            current := some { conn := i, revents := revents, rest := rest } }.runHandler i result n h
      | _ => .ok s
  | handled => .ok { s with current := none }
  | callFunctor =>
      let s' := { s with loop := CEventLoop.Action.callFunctor.next s.loop }
      match s.loop.functors with
      | .connectDestroyed i :: _ => do
          let (conn, callback) ← (s.conns i).conn.connectDestroyed
          return { s'.record i conn [callback] with destroying := some i }
      | _ => .ok s'
  | removeChannel =>
      match s.destroying with
      | some i => do
          let conn ← (s.conns i).conn.removeChannel
          return { s.record i conn [] with destroying := none }
      | none => .ok s
  | send i rMessage result => do
      let conn ← (s.conns i).conn.send rMessage result
      return s.record i conn []
  | shutDown i => .ok (s.record i (s.conns i).conn.shutDown [])

/-- The state after the step; a fault ends the program where it is. -/
def Action.next (s : ServerLoop T) (a : Action T) : ServerLoop T :=
  match a.run s with
  | .ok s' => s'
  | .error e => { s with fault := some e }

/-- The step can be taken. -/
def Action.Enabled (s : ServerLoop T) (a : Action T) : Prop := s.fault = none ∧ a.Possible s

instance (s : ServerLoop T) (a : Action T) : Decidable (a.Enabled s) := by
  cases a <;>
    unfold Action.Enabled Action.Possible <;>
    unfold InHandling InUserCode Reports <;> infer_instance

/-- One step, as a relation between states. -/
def Step (s : ServerLoop T) (a : Action T) (s' : ServerLoop T) : Prop :=
  a.Enabled s ∧ s' = a.next s

/-- Take the steps one after the other, if each can be taken when its turn comes. -/
def exec (s : ServerLoop T) (as : List (Action T)) : Option (ServerLoop T) :=
  execute Action.Enabled Action.next s as

/-- What can be executed is a run. -/
theorem run_of_exec {s s' : ServerLoop T} {as : List (Action T)} (h : s.exec as = some s') :
    Run Step s as s' :=
  run_of_execute h

end ServerLoop

end Neconet
