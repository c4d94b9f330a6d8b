import Mathlib.Data.Finset.Basic
import Neconet.Net.EventLoop
import Neconet.Net.TcpConnectionRuns

/-!
# A connection on its loop

One `CTcpConnection` on the `CEventLoop` that owns it, with any number of other threads calling
`Send` and `ShutDown`: the whole of what can happen to the connection from the moment in which a
handler of the loop thread has established it.

* `Functor`: the functors in the queue, those of the connection bound to its address or, for
  `ConnectDestroyed`, to a shared pointer.
* `Owner`: the places that hold a shared pointer. The connection is destroyed when none is left.
* `ConnectionLoop`, `Action`, `Step`: states, steps and step relation. A step in which an assertion
  fails, or a functor runs on the destroyed connection, is the last one.
* `next_induction`: a property is kept by a step if it is kept where the step succeeds.
-/

set_option linter.unusedSectionVars false

namespace Neconet

open Transition

/-! ## Functors, owners, calls -/

/-- A message that `Send` has accepted. -/
structure Message (T : Type) where
  /-- The thread that sent it; `none` is the loop thread. -/
  sender : Option T
  /-- How many messages of the thread were accepted before. -/
  num : ℕ
  /-- The bytes. -/
  bytes : List Byte
  deriving DecidableEq, Repr

/-- The functors in the queue of the loop. -/
inductive Functor (T : Type)
  /-- `std::bind(&CTcpConnection::__SendInLoop,this,rMessage)`. -/
  | sendInLoop (m : Message T)
  /-- `std::bind(&CTcpConnection::__ShutdownInLoop,this)`. -/
  | shutdownInLoop
  /-- `std::bind(&CTcpConnection::ConnectDestroyed,iConn)`. -/
  | connectDestroyed
  /-- A functor that is not about the connection. -/
  | other
  deriving DecidableEq, Repr

/-- The functor is bound to the address of the connection. -/
def Functor.IsRaw {T : Type} : Functor T → Prop
  | sendInLoop _ => True
  | shutdownInLoop => True
  | connectDestroyed => False
  | other => False

/-- The message that the functor carries. -/
def Functor.message? {T : Type} : Functor T → Option (Message T)
  | sendInLoop m => some m
  | _ => none

/-- Who holds a shared pointer to the connection. -/
inductive Owner (T : Type)
  /-- `CTcpServer::m_mConnectionMap`. -/
  | map
  /-- The functor of `ConnectDestroyed`, until its batch is released. -/
  | functor
  /-- A thread, for the length of its call. -/
  | thread (t : T)
  deriving DecidableEq, Repr

/-- Where a thread is in its call on the connection. -/
inductive CallPc (T : Type)
  /-- In no call. -/
  | idle
  /-- In `Send`, in front of the test of `m_eState`. -/
  | send (rMessage : List Byte)
  /-- In `Send`, in front of `QueueInLoop`. -/
  | sendAccepted (m : Message T)
  /-- In `ShutDown`, in front of the test of `m_eState`. -/
  | shutDown
  /-- In `ShutDown`, in front of `__SetState`. -/
  | shutDownAccepted
  /-- In `ShutDown`, in front of `QueueInLoop`. -/
  | shutDownSet
  /-- Behind the locked part of `QueueInLoop`, or about to return. -/
  | returning
  deriving DecidableEq, Repr

/-- The thread is in front of the test of `m_eState`. -/
def CallPc.AtTest {T : Type} : CallPc T → Prop
  | send _ => True
  | shutDown => True
  | _ => False

/-- The functor that the thread is about to push, with the bytes of a message that `Send` has
accepted. -/
def CallPc.functor? {T : Type} : CallPc T → Option (Functor T)
  | sendAccepted m => some (.sendInLoop m)
  | shutDownSet => some .shutdownInLoop
  | _ => none

instance {T : Type} : DecidablePred (CallPc.AtTest (T := T)) := fun pc => by
  cases pc <;> unfold CallPc.AtTest <;> infer_instance

/-! ## States and steps -/

/-- A connection on its loop; `T` are the threads besides the loop thread. -/
structure ConnectionLoop (T : Type) where
  /-- The loop. -/
  loop : CEventLoop (Functor T) T
  /-- The connection. -/
  conn : CTcpConnection
  /-- The holders of a shared pointer to the connection. -/
  owners : Finset (Owner T)
  /-- The positions of the threads in their calls on the connection. -/
  calls : T → CallPc T
  /-- The channel of the connection is among `m_vActiveChannels`, and its handlers have not
  ended. -/
  active : Bool
  /-- The messages that `Send` has accepted so far, thread by thread. -/
  accepted : Option T → List (Message T)
  /-- The messages whose `__SendInLoop` has run, in this order. -/
  executed : List (Message T)
  /-- How the program ended, if it did. -/
  fault : Option Fault

namespace ConnectionLoop

variable {T : Type} [DecidableEq T]

/-- The loop and a connection that one of its handlers has just established: the functors so far
are not about the connection. -/
structure Initial (s : ConnectionLoop T) : Prop where
  /-- The loop has run up to a handler. -/
  loop_reachable : ∃ as, Run CEventLoop.Step CEventLoop.new as s.loop
  /-- The loop thread is in a handler. -/
  pc_eq : s.loop.pc = .handling
  /-- The functors of the past are not about the connection. -/
  ran_eq : ∀ f ∈ s.loop.ran, f = .other
  /-- The functors in the queue are not about the connection. -/
  queue_eq : ∀ f ∈ s.loop.queue, f = .other
  /-- `ConnectEstablished` has run. -/
  conn_eq : s.conn = CTcpConnection.established
  /-- The server holds the connection. -/
  owners_eq : s.owners = {.map}
  /-- No thread is in a call on the connection. -/
  calls_eq : ∀ t, s.calls t = .idle
  /-- The channel was not registered when the last poll began. -/
  active_eq : s.active = false
  /-- No message has been accepted. -/
  accepted_eq : ∀ sender, s.accepted sender = []
  /-- No message has been sent. -/
  executed_eq : s.executed = []
  /-- The program runs. -/
  fault_eq : s.fault = none

/-- The steps. Those without a thread are steps of the loop thread. -/
inductive Action (T : Type)
  /-- A step of the loop that is not about the connection. -/
  | loop (a : CEventLoop.Action (Functor T) T)
  /-- `Poll` returns, with the wakeup channel or the channel of the connection among the active ones
  or not. -/
  | poll (readable : Bool) (reported : Bool)
  /-- `__HandleRead`, where `ReadFd` has the given result. -/
  | handleRead (result : CTcpConnection.ReadResult)
  /-- `__HandleWrite`, where `::write` returns `n`. -/
  | handleWrite (n : ℤ)
  /-- `__HandleClose`. -/
  | handleClose
  /-- `HandleEvent` of the connection's channel ends. -/
  | handled
  /-- The next functor of the batch is called; `::write` returns `result`. -/
  | callFunctor (result : ℤ)
  /-- `Send`, called by a handler or a functor; `::write` returns `result`. -/
  | send (rMessage : List Byte) (result : ℤ)
  /-- `ShutDown`, called by a handler or a functor. -/
  | shutDown
  /-- A thread takes a shared pointer and calls `Send`. -/
  | threadSend (t : T) (rMessage : List Byte)
  /-- A thread takes a shared pointer and calls `ShutDown`. -/
  | threadShutDown (t : T)
  /-- The thread tests `m_eState`. -/
  | threadTest (t : T)
  /-- The thread sets `m_eState`, in `ShutDown`. -/
  | threadSetState (t : T)
  /-- The locked part of the thread's `QueueInLoop`. -/
  | threadPush (t : T)
  /-- The thread's call returns, and its shared pointer is released. -/
  | threadReturn (t : T)
  deriving DecidableEq, Repr

/-- The step of the loop is not about the connection. -/
def Foreign (s : ConnectionLoop T) : CEventLoop.Action (Functor T) T → Prop
  | .poll _ => False
  | .callFunctor => False
  | .enterDoPendingFunctors => s.active = false
  | .queueInLoop cb => cb = .other
  | .threadQueueInLoop t cb => cb = .other ∧ s.calls t = .idle
  | .threadQuitLoop t => s.calls t = .idle
  | _ => True

instance (s : ConnectionLoop T) : DecidablePred s.Foreign := fun a => by
  cases a <;> unfold Foreign <;> infer_instance

/-- User code runs in the loop thread: inside a handler or a functor. -/
def InUserCode (s : ConnectionLoop T) : Prop :=
  (s.loop.pc = .handling ∨ s.loop.pc = .inFunctor) ∧ s.loop.toWake = false

instance : DecidablePred (InUserCode (T := T)) := fun s => by
  unfold InUserCode
  infer_instance

/-- A handler of the connection's channel may run. -/
def InHandler (s : ConnectionLoop T) : Prop :=
  s.loop.pc = .handling ∧ s.loop.toWake = false ∧ s.active = true

instance : DecidablePred (InHandler (T := T)) := fun s => by
  unfold InHandler
  infer_instance

/-- How many bytes the functor offers to `::write`. -/
def offered : List (Functor T) → ℕ
  | .sendInLoop m :: _ => m.bytes.length
  | _ => 0

/-- The step can be taken, as far as the program has not ended. Of the kernel it is assumed that the
channel is reported only if it is watched, and that `::write` returns `-1` or a number of bytes it
was offered. Whoever calls a member function holds a shared pointer. -/
def Action.Possible (s : ConnectionLoop T) : Action T → Prop
  | loop a => a.Enabled s.loop ∧ s.Foreign a
  | poll readable reported => (CEventLoop.Action.poll readable).Enabled s.loop ∧
      (reported = true → s.conn.channel.watch = .watched)
  | handleRead _ => s.InHandler
  | handleWrite n => s.InHandler ∧ -1 ≤ n ∧ n ≤ s.conn.outputBuffer.length
  | handleClose => s.InHandler
  | handled => s.InHandler
  | callFunctor result => (CEventLoop.Action.callFunctor).Enabled s.loop ∧
      -1 ≤ result ∧ result ≤ offered s.loop.functors
  | send rMessage result => s.InUserCode ∧ s.owners ≠ ∅ ∧
      -1 ≤ result ∧ result ≤ rMessage.length
  | shutDown => s.InUserCode ∧ s.owners ≠ ∅
  | threadSend t _ => s.calls t = .idle ∧ s.loop.threads t = .idle ∧ s.owners ≠ ∅
  | threadShutDown t => s.calls t = .idle ∧ s.loop.threads t = .idle ∧ s.owners ≠ ∅
  | threadTest t => (s.calls t).AtTest
  | threadSetState t => s.calls t = .shutDownAccepted
  | threadPush t => (s.calls t).functor? ≠ none ∧ s.loop.threads t = .idle
  | threadReturn t => s.calls t = .returning ∧ s.loop.threads t = .idle

/-- The close callback.
Source: `net/CTcpServer.cpp`, `CTcpServer::__RemoveConnection` -/
def removeConnection (s : ConnectionLoop T) : Except Fault (ConnectionLoop T) := do
  check (.map ∈ s.owners)
  return { s with
    owners := insert .functor (s.owners.erase .map)
    loop := (CEventLoop.Action.queueInLoop .connectDestroyed).next s.loop }

/-- A step of the loop that is not about the connection. When `__DoPendingFunctors` ends, its batch
is released.
Source: `net/CEventLoop.cpp`, `CEventLoop::__DoPendingFunctors` -/
def loopStep (s : ConnectionLoop T) (a : CEventLoop.Action (Functor T) T) : ConnectionLoop T :=
  { s with
    loop := a.next s.loop
    owners := if a = .leaveDoPendingFunctors ∧ .connectDestroyed ∈ s.loop.ran then
      s.owners.erase .functor else s.owners }

/-- The call of a functor. One that is bound to the address of the connection works on the
connection only if that exists.
Source: `net/CTcpConnection.cpp`, `CTcpConnection::__SendInLoop`,
`CTcpConnection::__ShutdownInLoop`, `CTcpConnection::ConnectDestroyed` -/
def runFunctor (s : ConnectionLoop T) (result : ℤ) :
    Functor T → Except Fault (ConnectionLoop T)
  | .sendInLoop m =>
      if s.owners = ∅ then .error .useAfterFree else do
        let conn ← s.conn.sendInLoop m.bytes result
        return { s with conn := conn, executed := s.executed ++ [m] }
  | .shutdownInLoop =>
      if s.owners = ∅ then .error .useAfterFree else
        return { s with conn := s.conn.shutdownInLoop }
  | .connectDestroyed => do
      let (conn, _) ← s.conn.connectDestroyed
      let conn ← conn.removeChannel
      return { s with conn := conn }
  | .other => return s

/-- The message of the sender's next `Send`. -/
def nextMessage (s : ConnectionLoop T) (sender : Option T) (rMessage : List Byte) : Message T where
  sender := sender
  num := (s.accepted sender).length
  bytes := rMessage

/-- The message of the sender's next `Send` is accepted. -/
def accept (s : ConnectionLoop T) (sender : Option T) (rMessage : List Byte) : ConnectionLoop T :=
  { s with
    accepted := Function.update s.accepted sender
      (s.accepted sender ++ [s.nextMessage sender rMessage]) }

/-- `Send` in the loop thread.
Source: `net/CTcpConnection.cpp`, `CTcpConnection::Send` -/
def loopSend (s : ConnectionLoop T) (rMessage : List Byte) (result : ℤ) :
    Except Fault (ConnectionLoop T) :=
  if s.conn.state = .eConnected then do
    let conn ← s.conn.send rMessage result
    return { (s.accept none rMessage) with
      conn := conn
      executed := s.executed ++ [s.nextMessage none rMessage] }
  else return s

/-- The thread goes on to another position in its call. -/
def goto (s : ConnectionLoop T) (t : T) (pc : CallPc T) : ConnectionLoop T :=
  { s with calls := Function.update s.calls t pc }

/-- The test of `m_eState` in another thread's `Send` or `ShutDown`.
Source: `net/CTcpConnection.cpp`, `CTcpConnection::Send`, `CTcpConnection::ShutDown` -/
def test (s : ConnectionLoop T) (t : T) : ConnectionLoop T :=
  if s.conn.state = .eConnected then
    match s.calls t with
    | .send rMessage =>
        (s.accept (some t) rMessage).goto t (.sendAccepted (s.nextMessage (some t) rMessage))
    | .shutDown => s.goto t .shutDownAccepted
    | _ => s
  else s.goto t .returning

/-- The locked part of another thread's `QueueInLoop`.
Source: `net/CTcpConnection.cpp`, `CTcpConnection::Send`, `CTcpConnection::ShutDown` -/
def threadPush (s : ConnectionLoop T) (t : T) : ConnectionLoop T :=
  match (s.calls t).functor? with
  | some cb =>
      { (s.goto t .returning) with loop := (CEventLoop.Action.threadQueueInLoop t cb).next s.loop }
  | none => s

/-- The state after the step, or the fault in it. -/
def Action.run (s : ConnectionLoop T) : Action T → Except Fault (ConnectionLoop T)
  | loop a => .ok (s.loopStep a)
  | poll readable reported => .ok { s with
      loop := (CEventLoop.Action.poll readable).next s.loop
      active := reported }
  | handleRead result => do
      let (conn, callback) ← s.conn.handleRead result
      if callback = some .close then removeConnection { s with conn := conn }
      else return { s with conn := conn }
  | handleWrite n => do
      let conn ← s.conn.handleWrite n
      return { s with conn := conn }
  | handleClose => do
      let (conn, _) ← s.conn.handleClose
      removeConnection { s with conn := conn }
  | handled => .ok { s with active := false }
  | callFunctor result =>
      match s.loop.functors with
      | cb :: _ =>
          runFunctor { s with loop := CEventLoop.Action.callFunctor.next s.loop } result cb
      | [] => .ok s
  | send rMessage result => s.loopSend rMessage result
  | shutDown => .ok { s with conn := s.conn.shutDown }
  | threadSend t rMessage =>
      .ok { (s.goto t (.send rMessage)) with owners := insert (.thread t) s.owners }
  | threadShutDown t => .ok { (s.goto t .shutDown) with owners := insert (.thread t) s.owners }
  | threadTest t => .ok (s.test t)
  | threadSetState t =>
      .ok { (s.goto t .shutDownSet) with conn := s.conn.setState .eDisconnecting }
  | threadPush t => .ok (s.threadPush t)
  | threadReturn t => .ok { (s.goto t .idle) with owners := s.owners.erase (.thread t) }

/-- The state after the step; a fault ends the program where it is. -/
def Action.next (s : ConnectionLoop T) (a : Action T) : ConnectionLoop T :=
  match a.run s with
  | .ok s' => s'
  | .error e => { s with fault := some e }

/-- The step can be taken. -/
def Action.Enabled (s : ConnectionLoop T) (a : Action T) : Prop := s.fault = none ∧ a.Possible s

instance (s : ConnectionLoop T) (a : Action T) : Decidable (a.Enabled s) := by
  cases a <;> unfold Action.Enabled Action.Possible <;> infer_instance

/-- One step, as a relation between states. -/
def Step (s : ConnectionLoop T) (a : Action T) (s' : ConnectionLoop T) : Prop :=
  a.Enabled s ∧ s' = a.next s

/-- A loop in its first handler, which has just established the connection. -/
def start : ConnectionLoop T where
  loop := (CEventLoop.Action.poll false).next
    (CEventLoop.Action.testQuit.next (CEventLoop.Action.startLoop.next CEventLoop.new))
  conn := CTcpConnection.established
  owners := {.map}
  calls _ := .idle
  active := false
  accepted _ := []
  executed := []
  fault := none

/-- That is an initial state. -/
theorem initial_start : (start : ConnectionLoop T).Initial where
  loop_reachable := ⟨[.startLoop, .testQuit, .poll false],
    Run.cons ⟨⟨rfl, rfl⟩, rfl⟩ (Run.cons ⟨rfl, rfl⟩ (Run.single ⟨⟨rfl, nofun⟩, rfl⟩))⟩
  pc_eq := rfl
  ran_eq _ h := nomatch h
  queue_eq _ h := nomatch h
  conn_eq := rfl
  owners_eq := rfl
  calls_eq _ := rfl
  active_eq := rfl
  accepted_eq _ := rfl
  executed_eq := rfl
  fault_eq := rfl

/-- Take the steps one after the other, if each can be taken when its turn comes. -/
def exec (s : ConnectionLoop T) (as : List (Action T)) : Option (ConnectionLoop T) :=
  execute Action.Enabled Action.next s as

/-- What can be executed is a run. -/
theorem run_of_exec {s s' : ConnectionLoop T} {as : List (Action T)} (h : s.exec as = some s') :
    Run Step s as s' :=
  run_of_execute h

/-! ## The loop in a step -/

section loop

variable {s s' : ConnectionLoop T} {a : Action T}

@[simp] theorem goto_calls_self (s : ConnectionLoop T) (t : T) (pc : CallPc T) :
    (s.goto t pc).calls t = pc :=
  Function.update_self ..

theorem goto_calls_of_ne (s : ConnectionLoop T) {t u : T} (h : u ≠ t) (pc : CallPc T) :
    (s.goto t pc).calls u = s.calls u :=
  Function.update_of_ne h ..

/-- The state after a step without a fault. -/
theorem next_of_ok (h : a.run s = .ok s') : a.next s = s' := by
  simp [Action.next, h]

/-- The state after a step with a fault. -/
theorem next_of_error {e : Fault} (h : a.run s = .error e) :
    a.next s = { s with fault := some e } := by
  simp [Action.next, h]

/-- **A property that does not depend on the fault is kept by a step if it is kept where the step
succeeds.** -/
theorem next_induction {I : ConnectionLoop T → Prop} (hs : I s)
    (hfault : ∀ e, I s → I { s with fault := e }) (hok : ∀ s', a.run s = .ok s' → I s') :
    I (a.next s) := by
  rcases hrun : a.run s with e | s'
  · rw [next_of_error hrun]
    exact hfault _ hs
  · rw [next_of_ok hrun]
    exact hok s' hrun

/-- **What the test of `m_eState` in another thread's call may do.** -/
theorem test_cases {t : T} (hpc : (s.calls t).AtTest) :
    (∃ rMessage, s.conn.state = .eConnected ∧ s.test t = (s.accept (some t) rMessage).goto t
      (.sendAccepted (s.nextMessage (some t) rMessage))) ∨
    ∃ pc, (pc = .shutDownAccepted ∨ pc = .returning) ∧ s.test t = s.goto t pc := by
  unfold test
  by_cases hstate : s.conn.state = .eConnected
  · rw [if_pos hstate]
    cases hcall : s.calls t with
    | send rMessage => exact Or.inl ⟨rMessage, hstate, rfl⟩
    | shutDown => exact Or.inr ⟨.shutDownAccepted, Or.inl rfl, rfl⟩
    | idle | sendAccepted | shutDownAccepted | shutDownSet | returning =>
        rw [hcall] at hpc
        exact hpc.elim
  · rw [if_neg hstate]
    exact Or.inr ⟨.returning, Or.inr rfl, rfl⟩

/-- What the close callback does. -/
theorem removeConnection_ok (h : s.removeConnection = .ok s') :
    .map ∈ s.owners ∧ s' = { s with
      owners := insert .functor (s.owners.erase .map)
      loop := (CEventLoop.Action.queueInLoop .connectDestroyed).next s.loop } := by
  obtain ⟨_, hmap, h⟩ := bind_eq_ok_iff.mp h
  exact ⟨check_eq_ok_iff.mp hmap, (Except.ok.inj h).symm⟩

/-- A step of the loop that is not about the connection calls no functor. -/
theorem Foreign.isCall_eq {b : CEventLoop.Action (Functor T) T} (h : s.Foreign b) :
    b.isCall = false := by
  cases b <;> first | rfl | exact h.elim

/-- A step of the loop that is not about the connection pushes no functor that is. -/
theorem Foreign.eq_other {b : CEventLoop.Action (Functor T) T} (h : s.Foreign b) :
    ∀ f ∈ b.pushed.toList, f = .other := by
  intro f hf
  cases b with
  | queueInLoop cb => simpa [CEventLoop.Action.pushed, show cb = .other from h] using hf
  | threadQueueInLoop t cb => simpa [CEventLoop.Action.pushed, h.1] using hf
  | _ => simp [CEventLoop.Action.pushed] at hf

/-- A handler of the read side changes the connection, and may then call the close callback. -/
theorem readSide_of_run (ha : (∃ result, a = .handleRead result) ∨ a = .handleClose)
    (h : a.run s = .ok s') : ∃ conn, CTcpConnection.ReadSide s.conn conn ∧
      (s' = { s with conn := conn } ∨ removeConnection { s with conn := conn } = .ok s') := by
  rcases ha with ⟨result, rfl⟩ | rfl
  · obtain ⟨⟨conn, callback⟩, hread, h⟩ := bind_eq_ok_iff.mp h
    refine ⟨conn, CTcpConnection.handleRead_ok hread, ?_⟩
    dsimp only at h
    split_ifs at h
    · exact Or.inr h
    · exact Or.inl (Except.ok.inj h).symm
  · obtain ⟨⟨conn, callback⟩, hclose, h⟩ := bind_eq_ok_iff.mp h
    exact ⟨conn, (CTcpConnection.handleClose_ok hclose).1, Or.inr h⟩

end loop

end ConnectionLoop

end Neconet
