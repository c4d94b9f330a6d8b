import Neconet.Net.PollerCalls
import Neconet.Net.TcpServer

/-!
# `CTcpServer` beside its poller

The server with its acceptor and its connections on a loop, where all channels share the poller of
the loop, and where it is followed who holds a shared pointer to a connection: the connection table,
the functors of `ConnectDestroyed`, and user code. A connection that nobody holds is destroyed, with
its channel and its socket; its descriptor is closed then, and the kernel may give it to the next
connection. The other channels are those of the timers, of the wakeup descriptor and of the
acceptor.

* `Chan`, `OwnFds`: the channels and the descriptors of the loop and the acceptor.
* `PolledServer`, `Alive`, `ChannelExists`, `IsOpen`: the states, and what exists in them.
* `Action`, `Step`: the steps, and the step relation. A step in which an assertion fails, or a
  channel is used that has been destroyed, is the last one.
* `destroyServer`: the destructor of the server.
-/

namespace Neconet

set_option linter.unusedSectionVars false

open Transition

/-! ## Channels and functors -/

/-- The channels in the poller of the loop. -/
inductive Chan
  /-- `CTimerQueue::m_iTimerFdChannel`. -/
  | timer
  /-- `CEventLoop::m_unpWakeupChannel`. -/
  | wakeup
  /-- `CAcceptor::m_iAcceptChannel`. -/
  | acceptor
  /-- `CTcpConnection::m_unpChannel` of the connection `i`. -/
  | conn (i : ℕ)
  deriving DecidableEq, Repr

/-- The descriptors of the loop and of the acceptor. The kernel has given different ones. -/
structure OwnFds where
  /-- `CTimerQueue::m_nTimerfd`. -/
  timer : ℤ
  /-- `CEventLoop::m_nWakeupFd`. -/
  wakeup : ℤ
  /-- The descriptor of `CAcceptor::m_iAcceptSocket`. -/
  acceptor : ℤ
  /-- They are descriptors. -/
  nonneg : 0 ≤ timer ∧ 0 ≤ wakeup ∧ 0 ≤ acceptor
  /-- They are different. -/
  distinct : [timer, wakeup, acceptor].Nodup

namespace OwnFds

/-- The descriptors of the channels; no connection has one yet. -/
def fdOf (fds : OwnFds) : Chan → ℤ
  | .timer => fds.timer
  | .wakeup => fds.wakeup
  | .acceptor => fds.acceptor
  | .conn _ => -1

/-- The poller after the constructor of the loop, which has registered two channels for reading. -/
def loopPoller (fds : OwnFds) : CPoller Chan :=
  ((CPoller.new fds.fdOf).firstReading .timer).firstReading .wakeup

/-- The two descriptors of the loop are different. -/
theorem wakeup_ne_timer (fds : OwnFds) : fds.wakeup ≠ fds.timer := by
  have hnodup := fds.distinct
  simp only [List.nodup_cons, List.mem_cons] at hnodup
  intro heq
  exact hnodup.1 (Or.inl heq.symm)

/-- That is what the constructors do.
Source: `net/CTimerQueue.cpp`, `CTimerQueue::CTimerQueue`; `net/CEventLoop.cpp`,
`CEventLoop::CEventLoop` -/
theorem setEnableReading_loopPoller (fds : OwnFds) :
    (do
      let p ← (CPoller.new fds.fdOf).setEnableReading .timer
      p.setEnableReading .wakeup) = .ok fds.loopPoller := by
  have htimer : (CPoller.new fds.fdOf).setEnableReading .timer =
      .ok ((CPoller.new fds.fdOf).firstReading .timer) :=
    CPoller.setEnableReading_first neg_one_lt_zero (by simp [CPoller.new])
  rw [htimer, ok_bind]
  apply CPoller.setEnableReading_first
  · rw [CPoller.firstReading_channel_of_ne _ (by decide)]
    exact neg_one_lt_zero
  · rw [CPoller.firstReading_channelsMap, CPoller.firstReading_channel_fd]
    exact AList.lookup_insert_ne fds.wakeup_ne_timer

/-- The two entries of its map. -/
theorem lookup_loopPoller {fds : OwnFds} {nFd : ℤ} {c : Chan}
    (h : fds.loopPoller.channelsMap.lookup nFd = some c) :
    c = .wakeup ∧ nFd = fds.wakeup ∨ c = .timer ∧ nFd = fds.timer := by
  rw [loopPoller, CPoller.firstReading_channelsMap, CPoller.firstReading_channelsMap,
    CPoller.firstReading_channel_fd] at h
  by_cases hwakeup : nFd = fds.wakeup
  · subst hwakeup
    have hself : some Chan.wakeup = some c := (AList.lookup_insert _).symm.trans h
    exact Or.inl ⟨(Option.some.inj hself).symm, rfl⟩
  · have htail := (AList.lookup_insert_ne hwakeup).symm.trans h
    by_cases htimer : nFd = fds.timer
    · subst htimer
      have hself : some Chan.timer = some c := (AList.lookup_insert _).symm.trans htail
      exact Or.inr ⟨(Option.some.inj hself).symm, rfl⟩
    · have hnone : none = some c := (AList.lookup_insert_ne htimer).symm.trans htail
      cases hnone

/-- The descriptors of its two entries. -/
theorem fd_of_mem_loopPoller {fds : OwnFds} {pFd : PollFd} (h : pFd ∈ fds.loopPoller.pollFds) :
    pFd.fd = fds.timer ∨ pFd.fd = fds.wakeup := by
  obtain ⟨pFd₁, htimer, hfd₁⟩ := CPoller.firstReading_pollFds (CPoller.new fds.fdOf) .timer
  obtain ⟨pFd₂, hwakeup, hfd₂⟩ :=
    CPoller.firstReading_pollFds ((CPoller.new fds.fdOf).firstReading .timer) .wakeup
  rw [CPoller.firstReading_channel_fd] at hfd₂
  rw [loopPoller, hwakeup, htimer] at h
  simp only [CPoller.new, List.nil_append, List.cons_append, List.mem_cons, List.not_mem_nil,
    or_false] at h
  rcases h with rfl | rfl
  · exact Or.inl hfd₁
  · exact Or.inr hfd₂

/-- The channels have the descriptors. -/
theorem loopPoller_channel_fd (fds : OwnFds) (c : Chan) :
    (fds.loopPoller.channel c).fd = fds.fdOf c := by
  rw [loopPoller, CPoller.firstReading_channel_fd, CPoller.firstReading_channel_fd]
  rfl

end OwnFds

/-- The functors in the queue of the loop. -/
inductive ServerCall
  /-- `std::bind(&CTcpConnection::ConnectDestroyed,iConn)`, for the connection `i`. -/
  | connectDestroyed (i : ℕ)
  /-- `std::bind(&CAcceptor::StartListen,get_pointer(m_unpAcceptor))`. -/
  | startListen
  /-- Another functor. -/
  | other
  deriving DecidableEq, Repr

/-- The connection that the functor holds. -/
def ServerCall.conn? : ServerCall → Option ℕ
  | connectDestroyed i => some i
  | _ => none

/-- Only `ConnectDestroyed` holds a connection. -/
theorem ServerCall.conn?_eq_some {f : ServerCall} {i : ℕ} :
    f.conn? = some i ↔ f = .connectDestroyed i := by
  cases f <;> simp [conn?]

/-- A call of `CChannel::HandleEvent`. -/
structure ChannelEvent where
  /-- The channel. -/
  chan : Chan
  /-- `m_nREvents`. -/
  revents : Events
  /-- The callbacks of the channel that have not been called. -/
  rest : List Handler
  deriving DecidableEq, Repr

/-! ## States -/

/-- The server, its acceptor and its connections with their loop; `T` are the threads besides the
loop thread. -/
structure PolledServer (T : Type) where
  /-- The loop. -/
  loop : CEventLoop ServerCall T
  /-- Its poller, and all channels. -/
  poller : CPoller Chan
  /-- The server. -/
  server : CTcpServer
  /-- `m_bListenning` of the acceptor. -/
  listening : Bool
  /-- How many connections have been accepted so far. -/
  created : ℕ
  /-- `m_sName` of the connections, by number. -/
  name : ℕ → List Char
  /-- The connections, by number; their channels are in the poller. -/
  conns : ℕ → ConnectionOver Unit (List Byte)
  /-- The connections to which user code holds shared pointers. -/
  users : Finset ℕ
  /-- `vFunctors` in `__DoPendingFunctors`, until it returns. -/
  batch : List ServerCall
  /-- The part of `m_vActiveChannels` that has not been handled, with `m_nREvents` of the channels;
  the wakeup channel is left to the loop. -/
  active : List (Chan × Events)
  /-- The current call of `HandleEvent`. -/
  current : Option ChannelEvent
  /-- The connection whose `ConnectDestroyed` is in its callback. -/
  destroying : Option ℕ
  /-- The server has been destroyed, with its acceptor. -/
  serverDestroyed : Bool
  /-- How the program ended, if it did. -/
  fault : Option Fault

namespace PolledServer

variable {T : Type} [DecidableEq T]

/-- A new server on a new loop. -/
def new (fds : OwnFds) (sName : List Char) : PolledServer T where
  loop := .new
  poller := fds.loopPoller
  server := .new sName
  listening := false
  created := 0
  name _ := []
  conns _ := .new () []
  users := ∅
  batch := []
  active := []
  current := none
  destroying := none
  serverDestroyed := false
  fault := none

/-! ### What exists -/

/-- The connection table holds the connection `i`. -/
def InMap (s : PolledServer T) (i : ℕ) : Prop := ∃ e ∈ s.server.connectionMap.entries, e.2 = i

instance (s : PolledServer T) (i : ℕ) : Decidable (s.InMap i) := by
  unfold InMap
  infer_instance

/-- The connection `i` has been accepted, and someone holds a shared pointer to it. -/
def Alive (s : PolledServer T) (i : ℕ) : Prop :=
  i < s.created ∧ (s.InMap i ∨ .connectDestroyed i ∈ s.loop.pendingFunctors ∨
    .connectDestroyed i ∈ s.batch ∨ i ∈ s.users)

instance (s : PolledServer T) (i : ℕ) : Decidable (s.Alive i) := by
  unfold Alive
  infer_instance

/-- The owner of the channel exists, and with it the channel and its descriptor. -/
def ChannelExists (s : PolledServer T) : Chan → Prop
  | .timer => True
  | .wakeup => True
  | .acceptor => s.serverDestroyed = false
  | .conn i => s.Alive i

instance (s : PolledServer T) : DecidablePred s.ChannelExists := fun c => by
  cases c <;> unfold ChannelExists <;> infer_instance

/-- The descriptor of a channel that exists. -/
def IsOpen (s : PolledServer T) (nFd : ℤ) : Prop :=
  ∃ c, s.ChannelExists c ∧ (s.poller.channel c).fd = nFd

/-- Only finitely many channels have to be looked at. -/
theorem isOpen_iff {s : PolledServer T} {nFd : ℤ} :
    s.IsOpen nFd ↔ (∃ c ∈ [Chan.timer, .wakeup, .acceptor], s.ChannelExists c ∧
      (s.poller.channel c).fd = nFd) ∨
      ∃ i < s.created, s.Alive i ∧ (s.poller.channel (.conn i)).fd = nFd := by
  constructor
  · rintro ⟨c, hc, hfd⟩
    cases c with
    | conn i => exact Or.inr ⟨i, hc.1, hc, hfd⟩
    | timer | wakeup | acceptor => exact Or.inl ⟨_, by simp, hc, hfd⟩
  · rintro (⟨c, -, hc⟩ | ⟨i, -, hc⟩)
    · exact ⟨c, hc⟩
    · exact ⟨.conn i, hc⟩

instance (s : PolledServer T) (nFd : ℤ) : Decidable (s.IsOpen nFd) :=
  decidable_of_iff _ isOpen_iff.symm

/-! ## Steps -/

/-- The steps. Those without a thread are steps of the loop thread. -/
inductive Action (T : Type)
  /-- A step of the loop that is not about the server. -/
  | loop (a : CEventLoop.Action ServerCall T)
  /-- `Poll` returns, with the wakeup channel among the active ones or not, and with the given
  channels. -/
  | poll (readable : Bool) (active : List (Chan × Events))
  /-- `HandleEvent` of the next active channel begins. -/
  | handleEvent
  /-- The next callback of the channel is called. `ReadFd` has the given result, `::write` returns
  `n`, and `Accept` gives the descriptor or fails, if they are called. -/
  | handler (result : CTcpConnection.ReadResult) (n : ℤ) (nConnFd : Option ℤ)
  /-- `HandleEvent` ends. -/
  | handled
  /-- The next functor of the batch is called. `ConnectDestroyed` gets up to its callback. -/
  | callFunctor
  /-- `ConnectDestroyed` goes on after its callback. -/
  | removeChannel
  /-- `Start` in the loop thread. -/
  | start
  /-- User code calls `Send` in the loop thread; `::write` returns `result`. -/
  | send (i : ℕ) (rMessage : List Byte) (result : ℤ)
  /-- User code calls `ShutDown` in the loop thread. -/
  | shutDown (i : ℕ)
  /-- User code keeps a shared pointer to the connection. -/
  | keep (i : ℕ)
  /-- User code drops its shared pointers to the connection. -/
  | drop (i : ℕ)
  deriving DecidableEq, Repr

/-- The step of the loop is not about the server. Any thread may call `Start`. -/
def Foreign (s : PolledServer T) : CEventLoop.Action ServerCall T → Prop
  | .poll _ => False
  | .callFunctor => False
  | .handleRead => s.current = none
  | .enterDoPendingFunctors => s.active = [] ∧ s.current = none
  | .returnFunctor => s.destroying = none
  | .queueInLoop cb => cb.conn? = none
  | .threadQueueInLoop _ cb => cb.conn? = none
  | _ => True

instance (s : PolledServer T) : DecidablePred s.Foreign := fun a => by
  cases a <;> unfold Foreign <;> infer_instance

/-- The loop thread is between the handlers of the active channels, or inside one. -/
def InHandling (s : PolledServer T) : Prop := s.loop.pc = .handling ∧ s.loop.toWake = false

/-- User code may run in the loop thread: a handler, a functor, or a callback of one. -/
def InUserCode (s : PolledServer T) : Prop :=
  (s.loop.pc = .handling ∨ s.loop.pc = .inFunctor) ∧ s.loop.toWake = false

/-- `poll` may report the events for the channel: an entry that is not muted has its descriptor, and
they are some of the events that the entry requests, `POLLERR`, `POLLHUP` and `POLLNVAL`.
Source: `net/CPoller.cpp`, `CPoller::__FillActiveChannels` -/
def Reports (s : PolledServer T) (c : Chan) (revents : Events) : Prop :=
  ∃ pFd ∈ s.poller.pollFds, 0 ≤ pFd.fd ∧ s.poller.channelsMap.lookup pFd.fd = some c ∧
    revents ≠ 0 ∧
    revents &&& ~~~ (pFd.events.signExtend 32 ||| pollErr ||| pollHup ||| pollNval) = 0

/-- How many bytes a handler of the channel offers to `::write`. -/
def offered (s : PolledServer T) : Chan → ℕ
  | .conn i => (s.conns i).outputBuffer.length
  | _ => 0

/-- The step can be taken, as far as the program has not ended. Of the kernel it is assumed that
`poll` ignores negative descriptors, that `::write` returns `-1` or a number of bytes it was
offered, and that `accept` gives a descriptor that is not open. User code calls member functions of
connections to which someone holds a shared pointer. -/
def Action.Possible (s : PolledServer T) : Action T → Prop
  | loop a => a.Enabled s.loop ∧ s.Foreign a
  | poll readable active => (CEventLoop.Action.poll readable).Enabled s.loop ∧
      (active.map Prod.fst).Nodup ∧ ∀ e ∈ active, e.1 ≠ .wakeup ∧ s.Reports e.1 e.2
  | handleEvent => s.InHandling ∧ s.current = none ∧ s.active ≠ []
  | handler _ n nConnFd => s.InHandling ∧ (∀ nFd ∈ nConnFd, 0 ≤ nFd ∧ ¬ s.IsOpen nFd) ∧
      ∃ e ∈ s.current, e.rest ≠ [] ∧ -1 ≤ n ∧ n ≤ s.offered e.chan
  | handled => s.InHandling ∧ ∃ e ∈ s.current, e.rest = []
  | callFunctor => (CEventLoop.Action.callFunctor).Enabled s.loop
  | removeChannel => s.destroying ≠ none ∧ s.loop.toWake = false
  | start => s.loop.pc = .outside ∨ s.InUserCode
  | send i rMessage result => s.InUserCode ∧ s.Alive i ∧ -1 ≤ result ∧ result ≤ rMessage.length
  | shutDown i => s.InUserCode ∧ s.Alive i
  | keep i => s.Alive i
  | drop _ => True

/-- A connection whose channel is in the poller. -/
abbrev PolledConnection := ConnectionOver (CPoller Chan) (List Byte)

/-- The channel of the connection `i`, and its buffers. -/
def ops (i : ℕ) : ConnectionOps (CPoller Chan) (List Byte) CTcpConnection.ReadResult :=
  { CPoller.ops (Chan.conn i), CTcpConnection.listOps with }

/-- The connection `i`, with its channel in the poller. -/
def connection (s : PolledServer T) (i : ℕ) : PolledConnection :=
  (s.conns i).setChannel s.poller

/-- A member function of the connection `i` has returned. -/
def store (s : PolledServer T) (i : ℕ) (conn : PolledConnection) : PolledServer T :=
  { s with
    conns := Function.update s.conns i (conn.setChannel ())
    poller := conn.channel }

/-- Source: `net/CAcceptor.cpp`, `CAcceptor::StartListen` -/
def startListen (s : PolledServer T) : Except Fault (PolledServer T) := do
  let poller ← s.poller.setEnableReading .acceptor
  return { s with listening := true, poller := poller }

/-- The server after the constructor of a connection on the descriptor, and with the connection in
the table. -/
def construct (s : PolledServer T) (nSockFd : ℤ) : PolledServer T :=
  { s with
    server := s.server.newConnection s.created
    created := s.created + 1
    name := Function.update s.name s.created s.server.connName
    conns := Function.update s.conns s.created (.new () [])
    poller := { s.poller with
      channel := Function.update s.poller.channel (.conn s.created) (CChannel.new nSockFd) } }

/-- Source: `net/CTcpServer.cpp`, `CTcpServer::__NewConnection` -/
def newConnection (s : PolledServer T) (nSockFd : ℤ) : Except Fault (PolledServer T) := do
  let (conn, _) ← ((s.construct nSockFd).connection s.created).connectEstablished (ops s.created)
  return (s.construct nSockFd).store s.created conn

/-- The close callback of the connection `i`.
Source: `net/CTcpServer.cpp`, `CTcpServer::__RemoveConnection` -/
def removeConnection (s : PolledServer T) (i : ℕ) : Except Fault (PolledServer T) := do
  let server ← s.server.removeConnection (s.name i)
  return { s with
    server := server
    loop := (CEventLoop.Action.queueInLoop (.connectDestroyed i)).next s.loop }

/-- A callback of the channel of the connection `i`. `__HandleError` only prints.
Source: `net/CTcpConnection.cpp`, `CTcpConnection::CTcpConnection` -/
def connHandler (s : PolledServer T) (i : ℕ) (result : CTcpConnection.ReadResult) (n : ℤ) :
    Handler → Except Fault (PolledServer T)
  | .close => do
      let (conn, _) ← (s.connection i).handleClose (ops i)
      (s.store i conn).removeConnection i
  | .error => return s
  | .read => do
      let (conn, callback) ← (s.connection i).handleRead (ops i) result
      if callback = some .close then (s.store i conn).removeConnection i else return s.store i conn
  | .write => do
      let conn ← (s.connection i).handleWrite (ops i) n
      return s.store i conn

/-- The read callback of the acceptor, the only one it has.
Source: `net/CAcceptor.cpp`, `CAcceptor::__HandleRead` -/
def acceptorHandler (s : PolledServer T) (nConnFd : Option ℤ) :
    Handler → Except Fault (PolledServer T)
  | .read =>
      match nConnFd with
      | some nFd => s.newConnection nFd
      | none => return s
  | _ => return s

/-- A callback of the channel. What the callback of the timers' channel does is up to user code. -/
def runHandler (s : PolledServer T) (result : CTcpConnection.ReadResult) (n : ℤ)
    (nConnFd : Option ℤ) (h : Handler) : Chan → Except Fault (PolledServer T)
  | .conn i => s.connHandler i result n h
  | .acceptor => s.acceptorHandler nConnFd h
  | .timer => return s
  | .wakeup => return s

/-- A step of the loop that is not about the server. The batch is taken at the swap, and released at
the end of `__DoPendingFunctors`.
Source: `net/CEventLoop.cpp`, `CEventLoop::__DoPendingFunctors` -/
def loopStep (s : PolledServer T) (a : CEventLoop.Action ServerCall T) : PolledServer T :=
  { s with
    loop := a.next s.loop
    batch := match a with
      | .swap => s.loop.pendingFunctors
      | .leaveDoPendingFunctors => []
      | _ => s.batch }

/-- The state after the step, or the fault in it. -/
def Action.run (s : PolledServer T) : Action T → Except Fault (PolledServer T)
  | loop a => .ok (s.loopStep a)
  | poll readable active => .ok { s with
      loop := (CEventLoop.Action.poll readable).next s.loop
      active := active }
  | handleEvent =>
      match s.active with
      | (c, revents) :: active =>
          if s.ChannelExists c then .ok { s with
            active := active
            current := some { chan := c, revents := revents, rest := handlersOf revents } }
          else .error .useAfterFree
      | [] => .ok s
  | handler result n nConnFd =>
      match s.current with
      | some { chan := c, revents := revents, rest := h :: rest } =>
          if s.ChannelExists c then
            { s with current := some { chan := c, revents := revents, rest := rest } }.runHandler
              result n nConnFd h c
          else .error .useAfterFree
      | _ => .ok s
  | handled => .ok { s with current := none }
  | callFunctor =>
      let s' := { s with loop := CEventLoop.Action.callFunctor.next s.loop }
      match s.loop.functors with
      | .connectDestroyed i :: _ => do
          let (conn, _) ← (s.connection i).connectDestroyed (ops i)
          return { s'.store i conn with destroying := some i }
      | .startListen :: _ => s'.startListen
      | _ => .ok s'
  | removeChannel =>
      match s.destroying with
      | some i => do
          let conn ← (s.connection i).removeChannel (ops i)
          return { s.store i conn with destroying := none }
      | none => .ok s
  | start => if s.listening then .ok s else s.startListen
  | send i rMessage result => do
      let conn ← (s.connection i).send (ops i) rMessage result
      return s.store i conn
  | shutDown i => .ok (s.store i ((s.connection i).shutDown (ops i)))
  | keep i => .ok { s with users := insert i s.users }
  | drop i => .ok { s with users := s.users.erase i }

/-- The state after the step; a fault ends the program where it is. -/
def Action.next (s : PolledServer T) (a : Action T) : PolledServer T :=
  match a.run s with
  | .ok s' => s'
  | .error e => { s with fault := some e }

/-- The step can be taken. -/
def Action.Enabled (s : PolledServer T) (a : Action T) : Prop := s.fault = none ∧ a.Possible s

instance (s : PolledServer T) (a : Action T) : Decidable (a.Enabled s) := by
  cases a <;>
    unfold Action.Enabled Action.Possible <;>
    unfold InHandling <;> unfold InUserCode <;> unfold Reports <;> infer_instance

/-- One step, as a relation between states. -/
def Step (s : PolledServer T) (a : Action T) (s' : PolledServer T) : Prop :=
  a.Enabled s ∧ s' = a.next s

/-- Take the steps one after the other, if each can be taken when its turn comes. -/
def exec (s : PolledServer T) (as : List (Action T)) : Option (PolledServer T) :=
  execute Action.Enabled Action.next s as

/-- What can be executed is a run. -/
theorem run_of_exec {s s' : PolledServer T} {as : List (Action T)} (h : s.exec as = some s') :
    Run Step s as s' :=
  run_of_execute h

/-! ## The destructor of the server -/

/-- The destructor of the server releases the connection table and destroys the acceptor. A channel
that is destroyed must not be handling an event.
Source: `net/CTcpServer.cpp`, `CTcpServer::~CTcpServer`; `net/CChannel.cpp`,
`CChannel::~CChannel` -/
def destroyServer (s : PolledServer T) : Except Fault (PolledServer T) := do
  let s' : PolledServer T :=
    { s with server := { s.server with connectionMap := ∅ }, serverDestroyed := true }
  check (∀ e ∈ s.current, s'.ChannelExists e.chan)
  return s'

/-! ## The step rule -/

/-- `ConnectDestroyed`, after its callback, has removed the channel. -/
theorem removeChannel_poller {s : PolledServer T} {i : ℕ} {conn : PolledConnection}
    (h : (s.connection i).removeChannel (ops i) = .ok conn) :
    s.poller.removeChannel (.conn i) = .ok conn.channel := by
  obtain ⟨channel, hchannel, rfl⟩ := ConnectionOver.removeChannel_ok h
  exact hchannel

/-- What the handlers of a connection may do: a call on the connection, and then the close
callback. -/
theorem connHandler_ok {s s' : PolledServer T} {i : ℕ} {result : CTcpConnection.ReadResult} {n : ℤ}
    {h : Handler} (hok : s.connHandler i result n h = .ok s') :
    s' = s ∨ ∃ conn, ConnectionOver.Touches (CPoller.ops (Chan.conn i)) s.poller conn.channel ∧
      (s' = s.store i conn ∨ (s.store i conn).removeConnection i = .ok s') := by
  cases h with
  | error => exact Or.inl (Except.ok.inj hok).symm
  | close =>
      obtain ⟨⟨conn, callback⟩, hclose, hok⟩ := bind_eq_ok_iff.mp hok
      exact Or.inr ⟨conn, ConnectionOver.touches_handleClose hclose, Or.inr hok⟩
  | read =>
      obtain ⟨⟨conn, callback⟩, hread, hok⟩ := bind_eq_ok_iff.mp hok
      refine Or.inr ⟨conn, ConnectionOver.touches_handleRead hread, ?_⟩
      dsimp only at hok
      split_ifs at hok
      · exact Or.inr hok
      · exact Or.inl (Except.ok.inj hok).symm
  | write =>
      obtain ⟨conn, hwrite, hok⟩ := bind_eq_ok_iff.mp hok
      have htouches := ConnectionOver.touches_handleWrite hwrite
      exact Or.inr ⟨conn, htouches, Or.inl (Except.ok.inj hok).symm⟩

/-- What the read callback of the acceptor may do. -/
theorem acceptorHandler_ok {s s' : PolledServer T} {nConnFd : Option ℤ} {h : Handler}
    (hok : s.acceptorHandler nConnFd h = .ok s') :
    s' = s ∨ ∃ nFd, nConnFd = some nFd ∧ s.newConnection nFd = .ok s' := by
  cases h with
  | close | error | write => exact Or.inl (Except.ok.inj hok).symm
  | read =>
      cases nConnFd with
      | none => exact Or.inl (Except.ok.inj hok).symm
      | some nFd => exact Or.inr ⟨nFd, rfl, hok⟩

/-- The property is kept by everything that steps are made of. -/
structure Kept (I : PolledServer T → Prop) : Prop where
  /-- A fault. -/
  fault : ∀ s e, I s → I { s with fault := some e }
  /-- A step of the loop that is not about the server. -/
  loop : ∀ s a, I s → a.Enabled s.loop → s.Foreign a → I (s.loopStep a)
  /-- `Poll` returns. -/
  poll : ∀ s readable active, I s → (CEventLoop.Action.poll readable).Enabled s.loop →
    (∀ e ∈ active, e.1 ≠ .wakeup ∧ s.Reports e.1 e.2) →
    I { s with loop := (CEventLoop.Action.poll readable).next s.loop, active := active }
  /-- `HandleEvent` of the next active channel begins. -/
  handleEvent : ∀ s c revents active, I s → s.InHandling → s.active = (c, revents) :: active →
    I { s with active := active, current := some ⟨c, revents, handlersOf revents⟩ }
  /-- A callback of the channel is called. -/
  callback : ∀ s c revents h rest, I s → s.current = some ⟨c, revents, h :: rest⟩ →
    I { s with current := some ⟨c, revents, rest⟩ }
  /-- `HandleEvent` ends. -/
  handled : ∀ s, I s → I { s with current := none }
  /-- A member function of a connection returns. -/
  store : ∀ s i conn, I s → s.Alive i →
    ConnectionOver.Touches (CPoller.ops (Chan.conn i)) s.poller conn.channel → I (s.store i conn)
  /-- The close callback of a connection. -/
  removeConnection : ∀ s i s', I s → s.InHandling → s.Alive i → s.removeConnection i = .ok s' → I s'
  /-- The read callback of the acceptor. -/
  newConnection : ∀ s nFd s', I s → s.InHandling → (∃ e ∈ s.current, e.chan = .acceptor) →
    ¬ s.IsOpen nFd → s.newConnection nFd = .ok s' → I s'
  /-- `StartListen`. -/
  startListen : ∀ s s', I s → s.startListen = .ok s' → I s'
  /-- A functor that holds no connection is called. -/
  callFunctor : ∀ s f fs, I s → (CEventLoop.Action.callFunctor).Enabled s.loop →
    s.loop.functors = f :: fs → f.conn? = none →
    I { s with loop := CEventLoop.Action.callFunctor.next s.loop }
  /-- `ConnectDestroyed` of a connection, up to its callback. -/
  connectDestroyed : ∀ s i fs conn callback, I s → (CEventLoop.Action.callFunctor).Enabled s.loop →
    s.loop.functors = .connectDestroyed i :: fs →
    (s.connection i).connectDestroyed (ops i) = .ok (conn, callback) →
    I { { s with loop := CEventLoop.Action.callFunctor.next s.loop }.store i conn with
      destroying := some i }
  /-- `ConnectDestroyed` of a connection, after its callback. -/
  removeChannel : ∀ s i conn, I s → s.destroying = some i →
    (s.connection i).removeChannel (ops i) = .ok conn →
    I { s.store i conn with destroying := none }
  /-- User code keeps or drops shared pointers. -/
  setUsers : ∀ s users, I s → I { s with users := users }

/-- A callback of a channel keeps the property. -/
theorem Kept.runHandler {I : PolledServer T → Prop} (h : Kept I) {s s' : PolledServer T} {c : Chan}
    {result : CTcpConnection.ReadResult} {n : ℤ} {nConnFd : Option ℤ} {hd : Handler} (hs : I s)
    (hen : s.InHandling) (hcurrent : ∃ e ∈ s.current, e.chan = c) (hexists : s.ChannelExists c)
    (hopen : ∀ nFd ∈ nConnFd, ¬ s.IsOpen nFd) (hok : s.runHandler result n nConnFd hd c = .ok s') :
    I s' := by
  cases c with
  | timer | wakeup => exact Except.ok.inj hok ▸ hs
  | acceptor =>
      rcases acceptorHandler_ok hok with rfl | ⟨nFd, rfl, haccept⟩
      · exact hs
      · exact h.newConnection s nFd s' hs hen hcurrent (hopen nFd rfl) haccept
  | conn i =>
      rcases connHandler_ok hok with rfl | ⟨conn, htouches, rfl | hremove⟩
      · exact hs
      · exact h.store s i conn hs hexists htouches
      · have hstore := h.store s i conn hs hexists htouches
        exact h.removeConnection _ i s' hstore hen hexists hremove

/-- A functor that is called keeps the property. -/
theorem Kept.runFunctor {I : PolledServer T → Prop} (h : Kept I) {s s' : PolledServer T} (hs : I s)
    (hen : (CEventLoop.Action.callFunctor).Enabled s.loop)
    (hok : Action.run s .callFunctor = .ok s') : I s' := by
  obtain ⟨f, fs, hfunctors⟩ := List.exists_cons_of_ne_nil hen.2
  simp only [Action.run, hfunctors] at hok
  cases f with
  | connectDestroyed i =>
      obtain ⟨⟨conn, callback⟩, hconn, hok⟩ := bind_eq_ok_iff.mp hok
      cases Except.ok.inj hok
      exact h.connectDestroyed s i fs conn callback hs hen hfunctors hconn
  | startListen => exact h.startListen _ s' (h.callFunctor s _ fs hs hen hfunctors rfl) hok
  | other =>
      cases Except.ok.inj hok
      exact h.callFunctor s _ fs hs hen hfunctors rfl

/-- **The step rule**: a property is kept by every step if it is kept by what steps are made of. -/
theorem Kept.step {I : PolledServer T → Prop} (h : Kept I) (s : PolledServer T) (a : Action T)
    (s' : PolledServer T) (hs : I s) (hst : Step s a s') : I s' := by
  obtain ⟨⟨-, hpossible⟩, rfl⟩ := hst
  -- a step that fails ends the program where it is
  suffices hok : ∀ s', a.run s = .ok s' → I s' by
    unfold Action.next
    cases hrun : a.run s with
    | error e => exact h.fault s e hs
    | ok s' => exact hok s' hrun
  intro s' hok
  cases a with
  | loop a =>
      cases Except.ok.inj hok
      exact h.loop s a hs hpossible.1 hpossible.2
  | poll readable active =>
      cases Except.ok.inj hok
      exact h.poll s readable active hs hpossible.1 hpossible.2.2
  | handleEvent =>
      cases hactive : s.active with
      | nil =>
          simp only [Action.run, hactive] at hok
          exact Except.ok.inj hok ▸ hs
      | cons e active =>
          simp only [Action.run, hactive] at hok
          split_ifs at hok
          cases Except.ok.inj hok
          exact h.handleEvent s e.1 e.2 active hs hpossible.1 hactive
  | handler result n nConnFd =>
      obtain ⟨hen, hopen, e, he, hrest, -⟩ := hpossible
      obtain ⟨c, revents, rest⟩ := e
      cases rest with
      | nil => exact absurd rfl hrest
      | cons hd rest =>
          have hcurrent : s.current = some ⟨c, revents, hd :: rest⟩ := he
          simp only [Action.run, hcurrent] at hok
          split_ifs at hok with hexists
          have hs₁ := h.callback s c revents hd rest hs hcurrent
          exact h.runHandler hs₁ hen ⟨_, rfl, rfl⟩ hexists (fun nFd hnFd => (hopen nFd hnFd).2) hok
  | handled =>
      cases Except.ok.inj hok
      exact h.handled s hs
  | callFunctor => exact h.runFunctor hs hpossible hok
  | removeChannel =>
      cases hdestroying : s.destroying with
      | none => exact absurd hdestroying hpossible.1
      | some i =>
          simp only [Action.run, hdestroying] at hok
          obtain ⟨conn, hconn, hok⟩ := bind_eq_ok_iff.mp hok
          cases Except.ok.inj hok
          exact h.removeChannel s i conn hs hdestroying hconn
  | start =>
      simp only [Action.run] at hok
      split_ifs at hok
      · exact Except.ok.inj hok ▸ hs
      · exact h.startListen s s' hs hok
  | send i rMessage result =>
      obtain ⟨conn, hsend, hok⟩ := bind_eq_ok_iff.mp hok
      cases Except.ok.inj hok
      exact h.store s i conn hs hpossible.2.1 (ConnectionOver.touches_send hsend)
  | shutDown i =>
      cases Except.ok.inj hok
      refine h.store s i _ hs hpossible.2 (Or.inl ?_)
      exact ConnectionOver.shutDown_channel (ops i) _
  | keep i =>
      cases Except.ok.inj hok
      exact h.setUsers s _ hs
  | drop i =>
      cases Except.ok.inj hok
      exact h.setUsers s _ hs

end PolledServer

end Neconet
