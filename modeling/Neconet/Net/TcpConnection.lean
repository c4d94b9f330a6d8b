import Neconet.Net.ConnectionOver

/-!
# `CTcpConnection`

The connection with its channel alone in the poller and its buffers as their readable bytes: the
member functions of `ConnectionOver` at these two.

* `CTcpConnection.ops`: the channel and the buffers.
* `sendInLoop`, `handleWrite`, `shutdownInLoop`: the two writes and the shutdown.
* `connectEstablished`, `connectDestroyed`, `handleRead`, `handleClose`: the life cycle.
* `stream`: what the kernel has taken, then what is in the output buffer. `sendInLoop_ok`,
  `handleWrite_ok`: what the writes do to it.
-/

namespace Neconet

/-- The fields of a connection, and its socket as the kernel has it.
Source: `net/CTcpConnection.h` -/
abbrev CTcpConnection := ConnectionOver WatchedChannel (List Byte)

namespace CTcpConnection

/-- The result of `CBuffer::ReadFd`. -/
inductive ReadResult
  /-- An error. -/
  | error
  /-- So many bytes; none at the end of the stream. -/
  | bytes (data : List Byte)
  deriving DecidableEq, Repr

/-- `ReadFd` on a list. -/
def readFd (b : List Byte) : ReadResult → Except Fault (List Byte × ℤ)
  | .error => return (b, -1)
  | .bytes data => return (b ++ data, data.length)

/-- A buffer as the list of its readable bytes. -/
def listOps : BufferOps (List Byte) ReadResult where
  content b := b
  getReadableBytes := List.length
  append b data := return b ++ data
  retrieve b nLen := do
    check (nLen ≤ b.length)
    return b.drop nLen
  retrieveAsString b := return (b, [])
  readFd := readFd

/-- The channel and the buffers. -/
def ops : ConnectionOps WatchedChannel (List Byte) ReadResult :=
  { WatchedChannel.ops, listOps with }

/-- Source: `net/CTcpConnection.cpp`, `CTcpConnection::CTcpConnection` -/
def new : CTcpConnection := ConnectionOver.new .new []

section functions

variable (c : CTcpConnection)

/-- Source: `net/CTcpConnection.cpp`, `CTcpConnection::ConnectEstablished` -/
def connectEstablished : Except Fault (CTcpConnection × Callback) :=
  ConnectionOver.connectEstablished ops c

/-- `ConnectDestroyed`, up to its callback.
Source: `net/CTcpConnection.cpp`, `CTcpConnection::ConnectDestroyed` -/
def connectDestroyed : Except Fault (CTcpConnection × Callback) :=
  ConnectionOver.connectDestroyed ops c

/-- `ConnectDestroyed`, after its callback.
Source: `net/CTcpConnection.cpp`, `CTcpConnection::ConnectDestroyed` -/
def removeChannel : Except Fault CTcpConnection := ConnectionOver.removeChannel ops c

/-- Source: `net/CTcpConnection.cpp`, `CTcpConnection::__ShutdownInLoop` -/
def shutdownInLoop : CTcpConnection := ConnectionOver.shutdownInLoop ops c

/-- `__SendInLoop`, where `::write` returns `result` if it is called.
Source: `net/CTcpConnection.cpp`, `CTcpConnection::__SendInLoop` -/
def sendInLoop (rMessage : List Byte) (result : ℤ) : Except Fault CTcpConnection :=
  ConnectionOver.sendInLoop ops c rMessage result

/-- `__HandleWrite`, where `::write` returns `n` if it is called.
Source: `net/CTcpConnection.cpp`, `CTcpConnection::__HandleWrite` -/
def handleWrite (n : ℤ) : Except Fault CTcpConnection := ConnectionOver.handleWrite ops c n

/-- Source: `net/CTcpConnection.cpp`, `CTcpConnection::__HandleClose` -/
def handleClose : Except Fault (CTcpConnection × Callback) := ConnectionOver.handleClose ops c

/-- `__HandleRead`; `__HandleError`, which it calls after an error, only prints.
Source: `net/CTcpConnection.cpp`, `CTcpConnection::__HandleRead` -/
def handleRead (result : ReadResult) : Except Fault (CTcpConnection × Option Callback) :=
  ConnectionOver.handleRead ops c result

/-- `Send` in the loop thread.
Source: `net/CTcpConnection.cpp`, `CTcpConnection::Send` -/
def send (rMessage : List Byte) (result : ℤ) : Except Fault CTcpConnection :=
  ConnectionOver.send ops c rMessage result

/-- `ShutDown` in the loop thread.
Source: `net/CTcpConnection.cpp`, `CTcpConnection::ShutDown` -/
def shutDown : CTcpConnection := ConnectionOver.shutDown ops c

end functions

/-! ## What the functions do -/

section spec

variable {c c' : CTcpConnection} {rMessage : List Byte} {result : ℤ}

/-- The bytes given to the connection that have not been lost: those taken by the kernel, then those
in the output buffer. -/
def stream (c : CTcpConnection) : List Byte := c.taken ++ c.outputBuffer

/-- `__SendInLoop` writes the message itself. -/
abbrev WritesDirectly (c : CTcpConnection) : Prop := ConnectionOver.WritesDirectly ops c

/-- It does so where writable events are not watched and nothing is left to write. -/
theorem writesDirectly_iff :
    c.WritesDirectly ↔ c.channel.isWriting = false ∧ c.outputBuffer = [] :=
  and_congr_right fun _ => List.length_eq_zero_iff

/-- How many bytes of its message `__SendInLoop` writes itself. -/
abbrev wrote (c : CTcpConnection) (result : ℤ) : ℕ := ConnectionOver.wrote ops c result

/-- The connection after the direct write of `__SendInLoop`, with the rest of the message in the
output buffer. -/
def written (c : CTcpConnection) (rMessage : List Byte) (result : ℤ) : CTcpConnection :=
  { c with
    taken := c.taken ++ rMessage.take (c.wrote result)
    outputBuffer := c.outputBuffer ++ rMessage.drop (c.wrote result) }

/-- The direct write and the append lose and reorder nothing. -/
theorem stream_written (c : CTcpConnection) (rMessage : List Byte) (result : ℤ) :
    (c.written rMessage result).stream = c.stream ++ rMessage := by
  unfold stream written
  by_cases hdirect : c.WritesDirectly
  · have hempty : c.outputBuffer = [] := (writesDirectly_iff.mp hdirect).2
    simp [hempty]
  · have hwrote : c.wrote result = 0 := if_neg hdirect
    simp [hwrote]

/-- **`__SendInLoop`**: the direct write, and a change of interest if something is left. The change
is `SetEnableReading`. -/
theorem sendInLoop_eq (c : CTcpConnection) (rMessage : List Byte) (result : ℤ) :
    c.sendInLoop rMessage result =
      if c.wrote result < rMessage.length ∧ c.channel.isWriting = false then do
        let channel ← c.channel.setEnableReading
        return { c.written rMessage result with channel := channel }
      else .ok (c.written rMessage result) := by
  have heq := ConnectionOver.sendInLoop_eq ops c rMessage result
  by_cases hleft : c.wrote result < rMessage.length
  · rw [if_pos hleft] at heq
    by_cases hwriting : c.channel.isWriting = true
    · rw [if_neg (by simp [hwriting])]
      exact heq.trans (if_neg (not_not.mpr hwriting))
    · rw [if_pos ⟨hleft, Bool.not_eq_true _ ▸ hwriting⟩]
      exact heq.trans (if_pos hwriting)
  · rw [if_neg hleft] at heq
    rw [if_neg (fun h => hleft h.1), written, List.drop_eq_nil_of_le (not_lt.mp hleft),
      List.append_nil]
    exact heq

/-- What a successful `__SendInLoop` has done. -/
theorem sendInLoop_ok (h : c.sendInLoop rMessage result = .ok c') :
    ∃ channel, c' = { c.written rMessage result with channel := channel } ∧
      (channel = c.channel ∨ c.channel.setEnableReading = .ok channel) := by
  rw [sendInLoop_eq] at h
  split_ifs at h with hleft
  · obtain ⟨channel, hchannel, hc'⟩ := bind_eq_ok_iff.mp h
    exact ⟨channel, (Except.ok.inj hc').symm, Or.inr hchannel⟩
  · exact ⟨c.channel, (Except.ok.inj h).symm, Or.inl rfl⟩

/-- A message that is taken at once leaves nothing behind. -/
theorem sendInLoop_of_length_le (hdirect : c.WritesDirectly)
    (hall : rMessage.length ≤ result.toNat) :
    c.sendInLoop rMessage result = .ok { c with taken := c.taken ++ rMessage } := by
  have hwrote : c.wrote result = result.toNat := if_pos hdirect
  rw [sendInLoop_eq, if_neg (fun hleft => not_lt.mpr hall (hwrote ▸ hleft.1)), written, hwrote,
    List.take_of_length_le hall, List.drop_eq_nil_of_le hall, List.append_nil]

/-- A message of which nothing is left does not touch the channel. -/
theorem sendInLoop_of_nothing_left (h : rMessage.length = 0 ∨ c.WritesDirectly ∧
    rMessage.length ≤ result.toNat) :
    c.sendInLoop rMessage result = .ok (c.written rMessage result) := by
  rw [sendInLoop_eq, if_neg]
  rintro ⟨hleft, -⟩
  rcases h with hnil | ⟨hdirect, hall⟩
  · rw [hnil] at hleft
    exact absurd hleft (Nat.not_lt_zero _)
  · have hwrote : c.wrote result = result.toNat := if_pos hdirect
    exact absurd (hwrote ▸ hleft) (not_lt.mpr hall)

/-- `__SendInLoop` keeps a registered channel registered. -/
theorem sendInLoop_isRegistered (h : c.sendInLoop rMessage result = .ok c')
    (hreg : c.channel.watch.IsRegistered) : c'.channel.watch.IsRegistered := by
  obtain ⟨channel, rfl, rfl | hchannel⟩ := sendInLoop_ok h
  · exact hreg
  · exact WatchedChannel.changeInterest_isRegistered hchannel hreg

/-- `__SendInLoop` on a registered channel does not fail. -/
theorem sendInLoop_of_isRegistered (hreg : c.channel.watch.IsRegistered) (rMessage : List Byte)
    (result : ℤ) : ∃ c', c.sendInLoop rMessage result = .ok c' := by
  rw [sendInLoop_eq]
  split_ifs with hleft
  · obtain ⟨channel, hchannel, -, -⟩ := WatchedChannel.changeInterest_of_isRegistered hreg
      .setEnableReading
    exact ⟨{ c.written rMessage result with channel := channel }, by
      simp [WatchedChannel.setEnableReading, hchannel, pure, Except.pure]⟩
  · exact ⟨_, rfl⟩

/-- `__HandleWrite` does nothing while writable events are not watched. -/
theorem handleWrite_of_not_writing (h : c.channel.isWriting = false) (n : ℤ) :
    c.handleWrite n = .ok c :=
  ConnectionOver.handleWrite_of_not_writing ops h n

/-- `__ShutdownInLoop` touches nothing but the socket. -/
theorem shutdownInLoop_eq (c : CTcpConnection) :
    c.shutdownInLoop = { c with
      shutdowns := if c.channel.isWriting then c.shutdowns else c.shutdowns + 1 } :=
  ConnectionOver.shutdownInLoop_eq ops c

/-- **What a successful `__HandleWrite` has done**: it has moved bytes from the front of the output
buffer to the kernel. -/
theorem handleWrite_ok {n : ℤ} (h : c.handleWrite n = .ok c') :
    c'.stream = c.stream ∧ c'.state = c.state ∧ c'.inputBuffer = c.inputBuffer ∧
      (c'.channel = c.channel ∨ c.channel.disableWriting = .ok c'.channel) := by
  obtain rfl | ⟨b, channel, shutdowns, hretrieve, hchannel, rfl⟩ := ConnectionOver.handleWrite_ok h
  · exact ⟨rfl, rfl, rfl, Or.inl rfl⟩
  · obtain ⟨-, -, hb⟩ := bind_eq_ok_iff.mp hretrieve
    cases Except.ok.inj hb
    refine ⟨?_, rfl, rfl, hchannel⟩
    change c.taken ++ c.outputBuffer.take n.toNat ++ c.outputBuffer.drop n.toNat = _
    rw [List.append_assoc, List.take_append_drop]
    rfl

/-- `c'` is `c` after the read side has done something: at most the input buffer has changed, and
the channel has been disabled. -/
structure ReadSide (c c' : CTcpConnection) : Prop where
  /-- The state is the same. -/
  state_eq : c'.state = c.state
  /-- The output buffer is the same. -/
  outputBuffer_eq : c'.outputBuffer = c.outputBuffer
  /-- The kernel has taken nothing. -/
  taken_eq : c'.taken = c.taken
  /-- The write side has not been shut down. -/
  shutdowns_eq : c'.shutdowns = c.shutdowns
  /-- The channel is the same, or disabled. -/
  channel_eq : c'.channel = c.channel ∨ c.channel.disableAll = .ok c'.channel

/-- The read side leaves the stream alone. -/
theorem ReadSide.stream_eq (h : ReadSide c c') : c'.stream = c.stream := by
  rw [stream, h.taken_eq, h.outputBuffer_eq]
  rfl

/-- The read side does not make the channel watch for writing. -/
theorem ReadSide.isWriting_eq (h : ReadSide c c') (hnot : c.channel.isWriting = false) :
    c'.channel.isWriting = false := by
  rcases h.channel_eq with hsame | hdisabled
  · rw [hsame, hnot]
  · have hevents : c'.channel.events = noneEvent := WatchedChannel.changeInterest_events hdisabled
    rw [WatchedChannel.isWriting, hevents, isWriting_noneEvent]

/-- The read side keeps a registered channel registered. -/
theorem ReadSide.isRegistered (h : ReadSide c c') (hreg : c.channel.watch.IsRegistered) :
    c'.channel.watch.IsRegistered := by
  rcases h.channel_eq with hsame | hdisabled
  · rw [hsame]
    exact hreg
  · exact WatchedChannel.changeInterest_isRegistered hdisabled hreg

/-- `Send` on an established connection. -/
theorem send_of_eConnected (h : c.state = .eConnected) :
    c.send rMessage result = c.sendInLoop rMessage result :=
  ConnectionOver.send_of_eConnected h

/-- `ShutDown` on a connection that is not established does nothing. -/
theorem shutDown_of_ne (h : c.state ≠ .eConnected) : c.shutDown = c :=
  ConnectionOver.shutDown_of_ne h

/-- `ShutDown` touches the state and the socket. -/
theorem shutDown_eq (c : CTcpConnection) :
    ∃ eState n, c.shutDown = { c with state := eState, shutdowns := n } :=
  ConnectionOver.shutDown_eq ops c

/-- What `ShutDown` does on a connection that is not watched for writing. -/
theorem shutDown_of_not_writing (hnot : c.channel.isWriting = false) :
    c.shutDown = if c.state = .eConnected then
      { c with state := .eDisconnecting, shutdowns := c.shutdowns + 1 } else c :=
  ConnectionOver.shutDown_of_not_writing hnot

/-- `__HandleClose` belongs to the read side, and calls the close callback. -/
theorem handleClose_ok {callback : Callback} (h : c.handleClose = .ok (c', callback)) :
    ReadSide c c' ∧ callback = .close := by
  obtain ⟨hcallback, channel, hchannel, rfl⟩ := ConnectionOver.handleClose_ok h
  exact ⟨⟨rfl, rfl, rfl, rfl, Or.inr hchannel⟩, hcallback⟩

/-- `__HandleRead` that gets bytes. -/
theorem handleRead_of_length_pos {data : List Byte} (h : 0 < data.length) :
    c.handleRead (.bytes data) =
      .ok ({ c with inputBuffer := c.inputBuffer ++ data }, some .message) :=
  ConnectionOver.handleRead_of_pos ops rfl (Int.natCast_pos.mpr h)

/-- `__HandleRead` at the end of the stream. -/
theorem handleRead_nil {callback : Callback} (h : c.handleClose = .ok (c', callback)) :
    c.handleRead (.bytes []) = .ok (c', some callback) := by
  refine ConnectionOver.handleRead_of_zero ops rfl ?_
  rw [List.append_nil]
  exact h

/-- `__HandleRead` belongs to the read side. -/
theorem handleRead_ok {readResult : ReadResult} {callback : Option Callback}
    (h : c.handleRead readResult = .ok (c', callback)) : ReadSide c c' := by
  obtain ⟨b, n, -, rfl | ⟨channel, hchannel, rfl⟩⟩ := ConnectionOver.handleRead_ok h
  · exact ⟨rfl, rfl, rfl, rfl, Or.inl rfl⟩
  · exact ⟨rfl, rfl, rfl, rfl, Or.inr hchannel⟩

/-- What `ConnectDestroyed` has done when it returns. -/
theorem connectDestroyed_ok {c'' : CTcpConnection} {callback : Callback}
    (h : c.connectDestroyed = .ok (c', callback)) (h' : c'.removeChannel = .ok c'') :
    c'' = { c with state := .eDisconnected, channel := ⟨noneEvent, .removed⟩ } ∧
      callback = .connection false := by
  obtain ⟨hcallback, channel, hdisable, rfl⟩ := ConnectionOver.connectDestroyed_ok h
  obtain ⟨channel', hremove, rfl⟩ := ConnectionOver.removeChannel_ok h'
  have hevents : channel.events = noneEvent := WatchedChannel.changeInterest_events hdisable
  rw [WatchedChannel.remove_ok hremove, ← hevents]
  exact ⟨rfl, hcallback⟩

end spec

end CTcpConnection

end Neconet
