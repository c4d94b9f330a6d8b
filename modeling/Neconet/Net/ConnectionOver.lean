import Neconet.Net.Buffer
import Neconet.Net.Watch

/-!
# A connection over its channel and its buffers

The member functions of `net/CTcpConnection.cpp` that run in the loop thread, over anything that
offers the member functions of a channel and of a buffer. The channel is one with its four cases in
the poller, or one in a poller that it shares with others; a buffer is a `CBuffer`, or the list of
its readable bytes. What the kernel has taken from `::write` and how often the write side of the
socket was shut down are part of the state. The result of a system call is an argument: an
`ssize_t`, `-1` for an error. Where a function ends with a callback, it returns which one.

* `ChannelOps`, `BufferOps`, `ConnectionOps`: the member functions that a connection uses.
* `ConnectionOver`: the connection.
* `sendInLoop`, `handleWrite`, `shutdownInLoop`: the two writes and the shutdown.
* `connectEstablished`, `connectDestroyed`, `handleRead`, `handleClose`: the life cycle.
* `sendInLoop_eq`: `__SendInLoop` by the number of bytes that it writes itself.
* `Touches`: a call changes the channel by one change of interest at most.
-/

namespace Neconet

set_option linter.unusedSectionVars false

/-- `CTcpConnection::ESTATE`.
Source: `net/CTcpConnection.h` -/
inductive EState
  | eConnecting
  | eConnected
  | eDisconnected
  | eDisconnecting
  deriving DecidableEq, Repr

/-- The callbacks of a connection: `m_ifnConnectionCallback`, with what `IsConnected()` says when it
is called, `m_ifnMessageCallback` and `m_ifnCloseCallback`. -/
inductive Callback
  | connection (isConnected : Bool)
  | message
  | close
  deriving DecidableEq, Repr

/-! ## Channels and buffers -/

/-- The member functions of a channel that a connection uses. -/
structure ChannelOps (χ : Type) where
  /-- `m_nEvents`. -/
  events : χ → Events
  /-- The four changes of interest. -/
  changeInterest : χ → InterestOp → Except Fault χ
  /-- `CEventLoop::RemoveChannel`. -/
  remove : χ → Except Fault χ

/-- A channel with its case in the poller. -/
def WatchedChannel.ops : ChannelOps WatchedChannel where
  events := WatchedChannel.events
  changeInterest := WatchedChannel.changeInterest
  remove := WatchedChannel.remove

/-- A channel of a poller. -/
def CPoller.ops {ι : Type} [DecidableEq ι] (c : ι) : ChannelOps (CPoller ι) where
  events p := (p.channel c).events
  changeInterest p op := p.changeInterest c op
  remove p := p.removeChannel c

/-- The member functions of a buffer that a connection uses. -/
structure BufferOps (β ρ : Type) where
  /-- The bytes between `Peek()` and `BeginWrite()`. -/
  content : β → List Byte
  /-- `GetReadableBytes`. -/
  getReadableBytes : β → ℕ
  /-- `Append`. -/
  append : β → List Byte → Except Fault β
  /-- `Retrieve`. -/
  retrieve : β → ℕ → Except Fault β
  /-- `RetrieveAsString`. -/
  retrieveAsString : β → Except Fault (List Byte × β)
  /-- `ReadFd`, with its result as the `ssize_t` that `__HandleRead` makes of it. -/
  readFd : β → ρ → Except Fault (β × ℤ)

/-- The member functions of the channel and of the buffers. -/
structure ConnectionOps (χ β ρ : Type) extends ChannelOps χ, BufferOps β ρ

/-! ## The connection -/

/-- The fields of a connection, and its socket as the kernel has it.
Source: `net/CTcpConnection.h` -/
structure ConnectionOver (χ β : Type) where
  /-- `m_eState`. -/
  state : EState
  /-- `m_unpChannel`. -/
  channel : χ
  /-- `m_iInputBuffer`. -/
  inputBuffer : β
  /-- `m_iOutputBuffer`. -/
  outputBuffer : β
  /-- The bytes that the kernel has taken. -/
  taken : List Byte
  /-- How often `m_unpSocket->ShutdownWrite()` was called. -/
  shutdowns : ℕ
  deriving DecidableEq, Repr

namespace ConnectionOver

variable {χ χ' β ρ : Type}

/-- Source: `net/CTcpConnection.cpp`, `CTcpConnection::CTcpConnection` -/
def new (channel : χ) (buffer : β) : ConnectionOver χ β where
  state := .eConnecting
  channel := channel
  inputBuffer := buffer
  outputBuffer := buffer
  taken := []
  shutdowns := 0

/-- The connection over another channel. -/
def setChannel (c : ConnectionOver χ β) (channel : χ') : ConnectionOver χ' β :=
  ⟨c.state, channel, c.inputBuffer, c.outputBuffer, c.taken, c.shutdowns⟩

/-- Source: `net/CTcpConnection.cpp`, `CTcpConnection::IsConnected` -/
def isConnected (c : ConnectionOver χ β) : Bool := c.state == .eConnected

/-- Source: `net/CTcpConnection.cpp`, `CTcpConnection::__SetState` -/
def setState (c : ConnectionOver χ β) (eState : EState) : ConnectionOver χ β :=
  { c with state := eState }

/-! ## Member functions -/

section functions

variable (ops : ConnectionOps χ β ρ) (c : ConnectionOver χ β)

/-- `IsWriting` of the channel. -/
def isWriting : Bool := Neconet.isWriting (ops.events c.channel)

/-- A change of interest of the channel. -/
def changeInterest (op : InterestOp) : Except Fault (ConnectionOver χ β) := do
  let channel ← ops.changeInterest c.channel op
  return { c with channel := channel }

/-- Source: `net/CTcpConnection.cpp`, `CTcpConnection::ConnectEstablished` -/
def connectEstablished : Except Fault (ConnectionOver χ β × Callback) := do
  check (c.state = .eConnecting)
  let c ← (c.setState .eConnected).changeInterest ops .setEnableReading
  return (c, .connection c.isConnected)

/-- `ConnectDestroyed`, up to its callback.
Source: `net/CTcpConnection.cpp`, `CTcpConnection::ConnectDestroyed` -/
def connectDestroyed : Except Fault (ConnectionOver χ β × Callback) := do
  check (c.state = .eConnected ∨ c.state = .eDisconnecting)
  let c ← (c.setState .eDisconnected).changeInterest ops .disableAll
  return (c, .connection c.isConnected)

/-- `ConnectDestroyed`, after its callback.
Source: `net/CTcpConnection.cpp`, `CTcpConnection::ConnectDestroyed` -/
def removeChannel : Except Fault (ConnectionOver χ β) := do
  let channel ← ops.remove c.channel
  return { c with channel := channel }

/-- Source: `net/CTcpConnection.cpp`, `CTcpConnection::__ShutdownInLoop` -/
def shutdownInLoop : ConnectionOver χ β :=
  if ¬ c.isWriting ops then { c with shutdowns := c.shutdowns + 1 } else c

/-- `__SendInLoop`, where `::write` returns `result` if it is called.
Source: `net/CTcpConnection.cpp`, `CTcpConnection::__SendInLoop` -/
def sendInLoop (rMessage : List Byte) (result : ℤ) : Except Fault (ConnectionOver χ β) := do
  let nWrote : ℤ :=
    if ¬ c.isWriting ops ∧ ops.getReadableBytes c.outputBuffer = 0 then
      if 0 ≤ result then result else 0
    else 0
  let c := { c with taken := c.taken ++ rMessage.take nWrote.toNat }
  check (0 ≤ nWrote)
  if nWrote.toNat < rMessage.length then
    let outputBuffer ← ops.append c.outputBuffer (rMessage.drop nWrote.toNat)
    let c := { c with outputBuffer := outputBuffer }
    if ¬ c.isWriting ops then c.changeInterest ops .setEnableReading else return c
  else return c

/-- `__HandleWrite`, where `::write` returns `n` if it is called: the kernel has taken the first `n`
of the readable bytes.
Source: `net/CTcpConnection.cpp`, `CTcpConnection::__HandleWrite` -/
def handleWrite (n : ℤ) : Except Fault (ConnectionOver χ β) :=
  if c.isWriting ops then
    if 0 < n then do
      let outputBuffer ← ops.retrieve c.outputBuffer n.toNat
      let c := { c with
        taken := c.taken ++ (ops.content c.outputBuffer).take n.toNat
        outputBuffer := outputBuffer }
      if ops.getReadableBytes c.outputBuffer = 0 then
        let c ← c.changeInterest ops .disableWriting
        if c.state = .eDisconnecting then return c.shutdownInLoop ops else return c
      else return c
    else return c
  else return c

/-- Source: `net/CTcpConnection.cpp`, `CTcpConnection::__HandleClose` -/
def handleClose : Except Fault (ConnectionOver χ β × Callback) := do
  check (c.state = .eConnected ∨ c.state = .eDisconnecting)
  let c ← c.changeInterest ops .disableAll
  return (c, .close)

/-- `__HandleRead`; `__HandleError`, which it calls after an error, only prints.
Source: `net/CTcpConnection.cpp`, `CTcpConnection::__HandleRead` -/
def handleRead (result : ρ) : Except Fault (ConnectionOver χ β × Option Callback) := do
  let (inputBuffer, n) ← ops.readFd c.inputBuffer result
  let c := { c with inputBuffer := inputBuffer }
  if n > 0 then
    return (c, some .message)
  else if n = 0 then do
    let (c, callback) ← c.handleClose ops
    return (c, some callback)
  else return (c, none)

/-- `Send` in the loop thread.
Source: `net/CTcpConnection.cpp`, `CTcpConnection::Send` -/
def send (rMessage : List Byte) (result : ℤ) : Except Fault (ConnectionOver χ β) :=
  if c.state = .eConnected then c.sendInLoop ops rMessage result else return c

/-- `ShutDown` in the loop thread.
Source: `net/CTcpConnection.cpp`, `CTcpConnection::ShutDown` -/
def shutDown : ConnectionOver χ β :=
  if c.state = .eConnected then (c.setState .eDisconnecting).shutdownInLoop ops else c

end functions

/-! ## What the functions do -/

section spec

variable {ops : ConnectionOps χ β ρ} {c c' : ConnectionOver χ β} {rMessage : List Byte} {result : ℤ}

/-- `__SendInLoop` writes the message itself. -/
def WritesDirectly (ops : ConnectionOps χ β ρ) (c : ConnectionOver χ β) : Prop :=
  c.isWriting ops = false ∧ ops.getReadableBytes c.outputBuffer = 0

instance (ops : ConnectionOps χ β ρ) : DecidablePred (WritesDirectly ops) := fun c => by
  unfold WritesDirectly
  infer_instance

/-- How many bytes of its message `__SendInLoop` writes itself. -/
def wrote (ops : ConnectionOps χ β ρ) (c : ConnectionOver χ β) (result : ℤ) : ℕ :=
  if c.WritesDirectly ops then result.toNat else 0

/-- **`__SendInLoop`**: the direct write; and if something is left, an append, and a change of
interest. The change is `SetEnableReading`. -/
theorem sendInLoop_eq (ops : ConnectionOps χ β ρ) (c : ConnectionOver χ β) (rMessage : List Byte)
    (result : ℤ) :
    c.sendInLoop ops rMessage result =
      if c.wrote ops result < rMessage.length then do
        let outputBuffer ← ops.append c.outputBuffer (rMessage.drop (c.wrote ops result))
        let c' := { c with
          taken := c.taken ++ rMessage.take (c.wrote ops result)
          outputBuffer := outputBuffer }
        if ¬ c.isWriting ops then c'.changeInterest ops .setEnableReading else return c'
      else .ok { c with taken := c.taken ++ rMessage.take (c.wrote ops result) } := by
  have hwrote : (if ¬ c.isWriting ops ∧ ops.getReadableBytes c.outputBuffer = 0 then
      if 0 ≤ result then result else 0 else 0) = (c.wrote ops result : ℤ) := by
    have hdirect : (¬ c.isWriting ops = true ∧ ops.getReadableBytes c.outputBuffer = 0) ↔
        c.WritesDirectly ops := by
      simp [WritesDirectly]
    unfold wrote
    by_cases h : c.WritesDirectly ops
    · rw [if_pos (hdirect.mpr h), if_pos h, Int.toNat_eq_max]
      split_ifs <;> omega
    · rw [if_neg (mt hdirect.mp h), if_neg h]
      rfl
  unfold sendInLoop
  simp only [hwrote, Int.toNat_natCast, check_of (Int.natCast_nonneg _), ok_bind]
  rfl

/-- `__HandleWrite` does nothing while writable events are not watched. -/
theorem handleWrite_of_not_writing (ops : ConnectionOps χ β ρ) (h : c.isWriting ops = false)
    (n : ℤ) :
    c.handleWrite ops n = .ok c := by
  simp [handleWrite, h, pure, Except.pure]

/-- `__ShutdownInLoop` touches nothing but the socket. -/
theorem shutdownInLoop_eq (ops : ConnectionOps χ β ρ) (c : ConnectionOver χ β) :
    c.shutdownInLoop ops = { c with
      shutdowns := if c.isWriting ops then c.shutdowns else c.shutdowns + 1 } := by
  unfold shutdownInLoop
  by_cases h : c.isWriting ops = true <;> simp [h]

/-- `Send` on an established connection. -/
theorem send_of_eConnected (h : c.state = .eConnected) :
    c.send ops rMessage result = c.sendInLoop ops rMessage result := if_pos h

/-- `Send` on another connection does nothing. -/
theorem send_of_ne (h : c.state ≠ .eConnected) : c.send ops rMessage result = .ok c := if_neg h

/-- `ShutDown` on an established connection. -/
theorem shutDown_of_eConnected (h : c.state = .eConnected) :
    c.shutDown ops = (c.setState .eDisconnecting).shutdownInLoop ops := if_pos h

/-- `ShutDown` on another connection does nothing. -/
theorem shutDown_of_ne (h : c.state ≠ .eConnected) : c.shutDown ops = c := if_neg h

/-- `ShutDown` touches the state and the socket. -/
theorem shutDown_eq (ops : ConnectionOps χ β ρ) (c : ConnectionOver χ β) :
    ∃ eState n, c.shutDown ops = { c with state := eState, shutdowns := n } := by
  unfold shutDown
  split_ifs
  · exact ⟨_, _, shutdownInLoop_eq ops _⟩
  · exact ⟨_, _, rfl⟩

/-- What `ShutDown` does on a connection that is not watched for writing. -/
theorem shutDown_of_not_writing (hnot : c.isWriting ops = false) :
    c.shutDown ops = if c.state = .eConnected then
      { c with state := .eDisconnecting, shutdowns := c.shutdowns + 1 } else c := by
  have hnot' : (c.setState .eDisconnecting).isWriting ops = false := hnot
  rw [shutDown, shutdownInLoop_eq, hnot']
  rfl

/-- A change of interest that returns has changed the channel only. -/
theorem changeInterest_ok {op : InterestOp} (h : c.changeInterest ops op = .ok c') :
    ∃ channel, ops.changeInterest c.channel op = .ok channel ∧
      c' = { c with channel := channel } := by
  obtain ⟨channel, hchannel, h⟩ := bind_eq_ok_iff.mp h
  exact ⟨channel, hchannel, (Except.ok.inj h).symm⟩

/-- `ConnectEstablished`. -/
theorem connectEstablished_ok {callback : Callback}
    (h : c.connectEstablished ops = .ok (c', callback)) :
    ∃ channel, ops.changeInterest c.channel .setEnableReading = .ok channel ∧
      c' = { c with state := .eConnected, channel := channel } := by
  obtain ⟨-, -, h⟩ := bind_eq_ok_iff.mp h
  obtain ⟨c'', hchange, h⟩ := bind_eq_ok_iff.mp h
  cases Except.ok.inj h
  exact changeInterest_ok hchange

/-- `ConnectEstablished` of a new connection whose channel can be enabled. -/
theorem connectEstablished_of (hstate : c.state = .eConnecting) {channel : χ}
    (hchannel : ops.changeInterest c.channel .setEnableReading = .ok channel) :
    c.connectEstablished ops =
      .ok ({ c with state := .eConnected, channel := channel }, .connection true) := by
  have hchange : (c.setState .eConnected).changeInterest ops .setEnableReading =
      .ok { c with state := .eConnected, channel := channel } :=
    bind_eq_ok_iff.mpr ⟨channel, hchannel, rfl⟩
  rw [connectEstablished, check_of hstate, ok_bind, hchange]
  rfl

/-- `ConnectDestroyed` of a connection whose channel can be disabled. -/
theorem connectDestroyed_of (hstate : c.state = .eConnected ∨ c.state = .eDisconnecting)
    {channel : χ} (hchannel : ops.changeInterest c.channel .disableAll = .ok channel) :
    c.connectDestroyed ops =
      .ok ({ c with state := .eDisconnected, channel := channel }, .connection false) := by
  have hchange : (c.setState .eDisconnected).changeInterest ops .disableAll =
      .ok { c with state := .eDisconnected, channel := channel } :=
    bind_eq_ok_iff.mpr ⟨channel, hchannel, rfl⟩
  rw [connectDestroyed, check_of hstate, ok_bind, hchange]
  rfl

/-- `ConnectDestroyed`, up to its callback. -/
theorem connectDestroyed_ok {callback : Callback}
    (h : c.connectDestroyed ops = .ok (c', callback)) :
    callback = .connection false ∧ ∃ channel,
      ops.changeInterest c.channel .disableAll = .ok channel ∧
      c' = { c with state := .eDisconnected, channel := channel } := by
  obtain ⟨-, -, h⟩ := bind_eq_ok_iff.mp h
  obtain ⟨c'', hchange, h⟩ := bind_eq_ok_iff.mp h
  cases Except.ok.inj h
  obtain ⟨channel, hchannel, rfl⟩ := changeInterest_ok hchange
  exact ⟨rfl, channel, hchannel, rfl⟩

/-- `ConnectDestroyed`, after its callback. -/
theorem removeChannel_ok (h : c.removeChannel ops = .ok c') :
    ∃ channel, ops.remove c.channel = .ok channel ∧ c' = { c with channel := channel } := by
  obtain ⟨channel, hchannel, h⟩ := bind_eq_ok_iff.mp h
  exact ⟨channel, hchannel, (Except.ok.inj h).symm⟩

/-- `ConnectDestroyed`, after its callback, of a connection whose channel can be removed. -/
theorem removeChannel_of {channel : χ} (h : ops.remove c.channel = .ok channel) :
    c.removeChannel ops = .ok { c with channel := channel } :=
  bind_eq_ok_iff.mpr ⟨channel, h, rfl⟩

/-- **What a successful `__HandleWrite` has done**: nothing, or it has moved bytes from the front of
the output buffer to the kernel. -/
theorem handleWrite_ok {n : ℤ} (h : c.handleWrite ops n = .ok c') :
    c' = c ∨ ∃ b channel shutdowns, ops.retrieve c.outputBuffer n.toNat = .ok b ∧
      (channel = c.channel ∨ ops.changeInterest c.channel .disableWriting = .ok channel) ∧
      c' = { c with
        taken := c.taken ++ (ops.content c.outputBuffer).take n.toNat
        outputBuffer := b
        channel := channel
        shutdowns := shutdowns } := by
  unfold handleWrite at h
  split_ifs at h
  · obtain ⟨b, hretrieve, h⟩ := bind_eq_ok_iff.mp h
    dsimp only at h
    split_ifs at h
    · obtain ⟨c'', hchange, h⟩ := bind_eq_ok_iff.mp h
      obtain ⟨channel, hchannel, rfl⟩ := changeInterest_ok hchange
      split_ifs at h <;> cases Except.ok.inj h
      · exact Or.inr ⟨b, channel, _, hretrieve, Or.inr hchannel, shutdownInLoop_eq ops _⟩
      · exact Or.inr ⟨b, channel, _, hretrieve, Or.inr hchannel, rfl⟩
    · cases Except.ok.inj h
      exact Or.inr ⟨b, c.channel, _, hretrieve, Or.inl rfl, rfl⟩
  · exact Or.inl (Except.ok.inj h).symm
  · exact Or.inl (Except.ok.inj h).symm

/-- `__HandleWrite` returns if the buffer holds what the kernel takes and the channel can be
disabled for writing. -/
theorem handleWrite_of (ops : ConnectionOps χ β ρ) {n : ℤ} {b : β} {channel : χ}
    (hretrieve : ops.retrieve c.outputBuffer n.toNat = .ok b)
    (hchannel : ops.changeInterest c.channel .disableWriting = .ok channel) :
    ∃ c', c.handleWrite ops n = .ok c' := by
  unfold handleWrite
  simp only [changeInterest, hretrieve, hchannel, ok_bind, pure_bind]
  split_ifs <;> exact ⟨_, rfl⟩

/-- `__HandleClose` of a connection whose channel can be disabled. -/
theorem handleClose_of (hstate : c.state = .eConnected ∨ c.state = .eDisconnecting) {channel : χ}
    (hchannel : ops.changeInterest c.channel .disableAll = .ok channel) :
    c.handleClose ops = .ok ({ c with channel := channel }, .close) := by
  have hchange : c.changeInterest ops .disableAll = .ok { c with channel := channel } :=
    bind_eq_ok_iff.mpr ⟨channel, hchannel, rfl⟩
  rw [handleClose, check_of hstate, ok_bind, hchange]
  rfl

/-- `__HandleClose`. -/
theorem handleClose_ok {callback : Callback} (h : c.handleClose ops = .ok (c', callback)) :
    callback = .close ∧ ∃ channel, ops.changeInterest c.channel .disableAll = .ok channel ∧
      c' = { c with channel := channel } := by
  obtain ⟨-, -, h⟩ := bind_eq_ok_iff.mp h
  obtain ⟨c'', hchange, h⟩ := bind_eq_ok_iff.mp h
  cases Except.ok.inj h
  exact ⟨rfl, changeInterest_ok hchange⟩

/-- `__HandleRead` that gets bytes. -/
theorem handleRead_of_pos (ops : ConnectionOps χ β ρ) {readResult : ρ} {b : β} {n : ℤ}
    (hread : ops.readFd c.inputBuffer readResult = .ok (b, n)) (hn : 0 < n) :
    c.handleRead ops readResult = .ok ({ c with inputBuffer := b }, some .message) := by
  rw [handleRead, hread, ok_bind]
  exact if_pos hn

/-- `__HandleRead` after an error. -/
theorem handleRead_of_neg (ops : ConnectionOps χ β ρ) {readResult : ρ} {b : β} {n : ℤ}
    (hread : ops.readFd c.inputBuffer readResult = .ok (b, n)) (hn : n < 0) :
    c.handleRead ops readResult = .ok ({ c with inputBuffer := b }, none) := by
  rw [handleRead, hread, ok_bind]
  dsimp only
  rw [if_neg (by omega), if_neg (by omega)]
  rfl

/-- `__HandleRead` at the end of the stream. -/
theorem handleRead_of_zero (ops : ConnectionOps χ β ρ) {readResult : ρ} {b : β}
    (hread : ops.readFd c.inputBuffer readResult = .ok (b, 0)) {callback : Callback}
    (hclose : { c with inputBuffer := b }.handleClose ops = .ok (c', callback)) :
    c.handleRead ops readResult = .ok (c', some callback) := by
  rw [handleRead, hread, ok_bind]
  exact bind_eq_ok_iff.mpr ⟨_, hclose, rfl⟩

/-- `__HandleRead` has read into the input buffer, and the channel is disabled if it has called the
close callback. -/
theorem handleRead_ok {readResult : ρ} {callback : Option Callback}
    (h : c.handleRead ops readResult = .ok (c', callback)) :
    ∃ b n, ops.readFd c.inputBuffer readResult = .ok (b, n) ∧
      (c' = { c with inputBuffer := b } ∨ ∃ channel,
        ops.changeInterest c.channel .disableAll = .ok channel ∧
        c' = { c with inputBuffer := b, channel := channel }) := by
  obtain ⟨⟨b, n⟩, hread, h⟩ := bind_eq_ok_iff.mp h
  refine ⟨b, n, hread, ?_⟩
  dsimp only at h
  split_ifs at h
  · cases Except.ok.inj h
    exact Or.inl rfl
  · obtain ⟨⟨c'', callback'⟩, hclose, h⟩ := bind_eq_ok_iff.mp h
    cases Except.ok.inj h
    obtain ⟨-, channel, hchannel, rfl⟩ := handleClose_ok hclose
    exact Or.inr ⟨channel, hchannel, rfl⟩
  · cases Except.ok.inj h
    exact Or.inl rfl

/-! ## The channel in a call -/

/-- A call changes the channel by one change of interest at most. -/
def Touches (ops : ChannelOps χ) (channel channel' : χ) : Prop :=
  channel' = channel ∨ ∃ op, ops.changeInterest channel op = .ok channel'

/-- A change of interest of a connection that has the channel. -/
theorem touches_changeInterest {channel : χ} {op : InterestOp} (hc : c.channel = channel)
    (h : c.changeInterest ops op = .ok c') : Touches ops.toChannelOps channel c'.channel := by
  obtain ⟨channel', hchannel, rfl⟩ := changeInterest_ok h
  exact Or.inr ⟨op, hc ▸ hchannel⟩

/-- `ConnectDestroyed`, up to its callback. -/
theorem touches_connectDestroyed {callback : Callback}
    (h : c.connectDestroyed ops = .ok (c', callback)) :
    Touches ops.toChannelOps c.channel c'.channel := by
  obtain ⟨-, channel, hchannel, rfl⟩ := connectDestroyed_ok h
  exact Or.inr ⟨_, hchannel⟩

/-- `__SendInLoop`. -/
theorem touches_sendInLoop (h : c.sendInLoop ops rMessage result = .ok c') :
    Touches ops.toChannelOps c.channel c'.channel := by
  rw [sendInLoop_eq] at h
  by_cases hleft : c.wrote ops result < rMessage.length
  · rw [if_pos hleft] at h
    obtain ⟨outputBuffer, -, h⟩ := bind_eq_ok_iff.mp h
    dsimp only at h
    split_ifs at h
    · cases Except.ok.inj h
      exact Or.inl rfl
    · exact touches_changeInterest (by rfl) h
  · rw [if_neg hleft] at h
    cases Except.ok.inj h
    exact Or.inl rfl

/-- `__HandleWrite`. -/
theorem touches_handleWrite {n : ℤ} (h : c.handleWrite ops n = .ok c') :
    Touches ops.toChannelOps c.channel c'.channel := by
  obtain rfl | ⟨b, channel, shutdowns, -, rfl | hchannel, rfl⟩ := handleWrite_ok h
  · exact Or.inl rfl
  · exact Or.inl rfl
  · exact Or.inr ⟨_, hchannel⟩

/-- `__HandleClose`. -/
theorem touches_handleClose {callback : Callback} (h : c.handleClose ops = .ok (c', callback)) :
    Touches ops.toChannelOps c.channel c'.channel := by
  obtain ⟨-, channel, hchannel, rfl⟩ := handleClose_ok h
  exact Or.inr ⟨_, hchannel⟩

/-- `__HandleRead`. -/
theorem touches_handleRead {readResult : ρ} {callback : Option Callback}
    (h : c.handleRead ops readResult = .ok (c', callback)) :
    Touches ops.toChannelOps c.channel c'.channel := by
  obtain ⟨b, n, -, rfl | ⟨channel, hchannel, rfl⟩⟩ := handleRead_ok h
  · exact Or.inl rfl
  · exact Or.inr ⟨_, hchannel⟩

/-- `Send` in the loop thread. -/
theorem touches_send (h : c.send ops rMessage result = .ok c') :
    Touches ops.toChannelOps c.channel c'.channel := by
  unfold send at h
  split_ifs at h
  · exact touches_sendInLoop h
  · cases Except.ok.inj h
    exact Or.inl rfl

/-- `ShutDown` in the loop thread does not touch the channel. -/
theorem shutDown_channel (ops : ConnectionOps χ β ρ) (c : ConnectionOver χ β) :
    (c.shutDown ops).channel = c.channel := by
  obtain ⟨eState, n, heq⟩ := shutDown_eq ops c
  rw [heq]

end spec

end ConnectionOver

end Neconet
