import Neconet.Net.BufferCapacity
import Neconet.Net.ConnectionCalls
import Neconet.Net.TcpConnection

/-!
# A connection over its buffers

`CTcpConnection` with `m_iInputBuffer` and `m_iOutputBuffer` as the buffers that they are. The
connection of `Neconet/Net/TcpConnection` takes a buffer as its readable bytes; here it is shown
what this leaves out: the calls that need more room than the buffer can make.

* `BufferedConnection` and its member functions.
* `CBuffer.Shows`: a buffer and the list of its readable bytes.
* `call_of_hasRoom`, `call_ne_ok_of_not_hasRoom`: with room, the two agree; without, the call over
  buffers does not return.
* `refinesLists_run`: every run over buffers is a run over lists, and goes on wherever there is
  room.
* `conserves_run`: no byte is lost, added or moved in either direction.
* `sendInLoop_returns_iff_run`: which sends end the program.
-/

namespace Neconet

set_option linter.unusedSectionVars false

open Transition

/-! ## The connection -/

/-- The fields of a connection, and its socket as the kernel has it.
Source: `net/CTcpConnection.h` -/
abbrev BufferedConnection := ConnectionOver WatchedChannel CBuffer

/-- The member functions of a buffer. -/
def CBuffer.ops : BufferOps CBuffer ReadvResult where
  content := CBuffer.content
  getReadableBytes := CBuffer.getReadableBytes
  append := CBuffer.append
  retrieve := CBuffer.retrieve
  retrieveAsString := CBuffer.retrieveAsString
  readFd b result := do
    let (b, n, _) ← b.readFd result
    return (b, sizeToSsize n)

namespace BufferedConnection

/-- The channel and the buffers. -/
def ops : ConnectionOps WatchedChannel CBuffer ReadvResult :=
  { WatchedChannel.ops, CBuffer.ops with }

/-- Source: `net/CTcpConnection.cpp`, `CTcpConnection::CTcpConnection` -/
def new : BufferedConnection := ConnectionOver.new .new .new

/-- The connection with its buffers taken as their readable bytes. -/
def toLists (c : BufferedConnection) : CTcpConnection where
  state := c.state
  channel := c.channel
  inputBuffer := c.inputBuffer.content
  outputBuffer := c.outputBuffer.content
  taken := c.taken
  shutdowns := c.shutdowns

/-- `__SendInLoop`, where `::write` returns `result` if it is called.
Source: `net/CTcpConnection.cpp`, `CTcpConnection::__SendInLoop` -/
def sendInLoop (c : BufferedConnection) (rMessage : List Byte) (result : ℤ) :
    Except Fault BufferedConnection :=
  ConnectionOver.sendInLoop ops c rMessage result

/-- `__HandleWrite`, where `::write` returns `n` if it is called: the kernel has taken the first `n`
of the readable bytes.
Source: `net/CTcpConnection.cpp`, `CTcpConnection::__HandleWrite` -/
def handleWrite (c : BufferedConnection) (n : ℤ) : Except Fault BufferedConnection :=
  ConnectionOver.handleWrite ops c n

/-- `__HandleRead`, where `readv` returns `result`.
Source: `net/CTcpConnection.cpp`, `CTcpConnection::__HandleRead` -/
def handleRead (c : BufferedConnection) (result : ReadvResult) :
    Except Fault (BufferedConnection × Option Callback) :=
  ConnectionOver.handleRead ops c result

/-- A call. -/
def call (c : BufferedConnection) (call : ConnectionCall) :
    Except Fault (BufferedConnection × CallResult) :=
  ConnectionOver.call ops id c call

end BufferedConnection

/-- What `readv` has returned, as `__HandleRead` over lists has it. -/
def ReadvResult.toReadResult : ReadvResult → CTcpConnection.ReadResult
  | .error _ => .error
  | .bytes data => .bytes data

/-- The call on a connection over lists. -/
def CTcpConnection.call (c : CTcpConnection) (call : ConnectionCall) :
    Except Fault (CTcpConnection × CallResult) :=
  ConnectionOver.call CTcpConnection.ops ReadvResult.toReadResult c call

/-! ## A buffer and its readable bytes -/

/-- The buffer is well formed, has its cheap prepend, and holds the bytes. -/
structure CBuffer.Shows (b : CBuffer) (l : List Byte) : Prop where
  /-- The indices are in order. -/
  wellFormed : b.WellFormed
  /-- `RetrieveAll` sets the indices behind the cheap prepend. -/
  cheapPrepend_le : cheapPrepend ≤ b.vBuffer.length
  /-- The readable bytes. -/
  content_eq : b.content = l

/-- A new buffer. -/
theorem CBuffer.shows_new : CBuffer.new.Shows [] :=
  ⟨wellFormed_new, by simp [new], content_new⟩

section shows

variable {b : CBuffer} {l data : List Byte}

/-- A member function that gives a buffer, no shorter than before. -/
theorem CBuffer.Shows.of_yields {x : Except Fault CBuffer} (h : b.Shows l)
    (hyields : Yields b x data) : ∃ b', x = .ok b' ∧ b'.Shows data := by
  obtain ⟨b', hok, hwf, hcontent, hlen⟩ := hyields
  exact ⟨b', hok, hwf, h.cheapPrepend_le.trans hlen, hcontent⟩

/-- As many bytes are readable. -/
theorem CBuffer.Shows.getReadableBytes_eq (h : b.Shows l) : b.getReadableBytes = l.length := by
  rw [← h.wellFormed.length_content, h.content_eq]

/-- **The member functions that need no room** do to a buffer what they do to the list. -/
theorem bufferRelation_shows :
    BufferRelation BufferedConnection.ops CTcpConnection.ops CBuffer.Shows where
  toChannelOps_eq := rfl
  content_eq b l h := h.content_eq
  getReadableBytes_eq b l h := h.getReadableBytes_eq
  retrieve b l nLen h := by
    change SameOutcome CBuffer.Shows (b.retrieve nLen) (check (nLen ≤ l.length) >>= _)
    by_cases hn : nLen ≤ l.length
    · obtain ⟨b', hok, hb'⟩ :=
        h.of_yields (CBuffer.retrieve_yields h.wellFormed (h.getReadableBytes_eq ▸ hn))
      rw [hok, check_of hn, ← h.content_eq]
      exact .ok hb'
    · rw [CBuffer.retrieve, check_of_not (h.getReadableBytes_eq ▸ hn), check_of_not hn]
      exact .fault _
  retrieveAsString b l h := by
    obtain ⟨b', hok, hb'⟩ :=
      h.of_yields (CBuffer.retrieveAll_yields h.wellFormed h.cheapPrepend_le)
    cases Except.ok.inj hok
    change SameOutcome _ b.retrieveAsString _
    rw [CBuffer.retrieveAsString_eq h.wellFormed]
    exact .ok ⟨h.content_eq, hb'⟩

/-- What `readv` has stored fits into a vector, so that `ssize_t` counts it. -/
theorem length_le_of_readRoom (h : b.WellFormed) (hroom : b.ReadRoom (.bytes data)) :
    data.length ≤ vectorMaxSize := by
  have hwriteable := h.getWriteableBytes_eq
  have hle := h.reader_le
  have hw := h.writer_le
  have hsize := h.size_le
  rcases hroom with hfits | ⟨-, hgrows⟩ | hslides
  · omega
  · omega
  · simp only [cheapPrepend] at hslides
    omega

/-- The number of bytes that `__HandleRead` gets. -/
theorem sizeToSsize_length (h : data.length ≤ vectorMaxSize) :
    sizeToSsize (ssizeToSize data.length) = data.length := by
  have hlt : data.length < 2 ^ 63 := lt_of_le_of_lt h (by decide)
  rw [CBuffer.ssizeToSize_natCast (lt_of_lt_of_le hlt (by decide)), sizeToSsize, if_pos hlt]

/-- `ReadFd` of as many bytes as there is room for. -/
theorem CBuffer.ops_readFd (h : b.WellFormed) (hroom : b.ReadRoom (.bytes data)) {b' : CBuffer}
    {savedErrno : Option ℤ}
    (hok : b.readFd (.bytes data) = .ok (b', ssizeToSize data.length, savedErrno)) :
    CBuffer.ops.readFd b (.bytes data) = .ok (b', (data.length : ℤ)) := by
  rw [← sizeToSsize_length (length_le_of_readRoom h hroom)]
  exact bind_eq_ok_iff.mpr ⟨_, hok, rfl⟩

end shows

namespace BufferedConnection

/-! ## With room, buffers are lists -/

/-- The buffers are well formed, and have their cheap prepends. -/
abbrev WellFormed (c : BufferedConnection) : Prop :=
  ConnectionOver.Related CBuffer.Shows c c.toLists

/-- A connection is related to the connection over its readable bytes only. -/
theorem eq_toLists {c : BufferedConnection} {c' : CTcpConnection}
    (h : ConnectionOver.Related CBuffer.Shows c c') : c' = c.toLists := by
  obtain ⟨hstate, hchannel, hinput, houtput, htaken, hshutdowns⟩ := h
  cases c'
  rw [toLists, hinput.content_eq, houtput.content_eq]
  simp_all

/-- How many bytes of the message `__SendInLoop` appends to the output buffer. -/
def left (c : BufferedConnection) (rMessage : List Byte) (result : ℤ) : ℕ :=
  rMessage.length - ConnectionOver.wrote ops c result

/-- The buffer that the call fills has room. -/
def HasRoom (c : BufferedConnection) : ConnectionCall → Prop
  | .send rMessage result => c.state = .eConnected → c.outputBuffer.RoomFor (c.left rMessage result)
  | .sendInLoop rMessage result => c.outputBuffer.RoomFor (c.left rMessage result)
  | .handleRead result => c.inputBuffer.ReadRoom result
  | _ => True

/-- A message has a length, and `readv` returns what it may return. -/
def Legal (c : BufferedConnection) : ConnectionCall → Prop
  | .send rMessage _ => rMessage.length < sizeTCount
  | .sendInLoop rMessage _ => rMessage.length < sizeTCount
  | .handleRead result => c.inputBuffer.Offers result
  | _ => True

section matching

variable {c c' : BufferedConnection} {rMessage : List Byte} {result : ℤ}

/-- The bytes that are left of the message. -/
theorem length_drop_wrote (c : BufferedConnection) (rMessage : List Byte) (result : ℤ) :
    (rMessage.drop (ConnectionOver.wrote ops c result)).length = c.left rMessage result :=
  List.length_drop

/-- With room, what is left of the message is appended over buffers as over lists. -/
theorem appends_of_roomFor (h : c.WellFormed)
    (hroom : c.outputBuffer.RoomFor (c.left rMessage result)) :
    ConnectionOver.Appends ops CTcpConnection.ops CBuffer.Shows c c.toLists rMessage result := by
  intro _
  rw [← length_drop_wrote] at hroom
  obtain ⟨b', hok, hb'⟩ :=
    h.outputBuffer.of_yields (CBuffer.append_yields h.outputBuffer.wellFormed hroom)
  change SameOutcome _ (c.outputBuffer.append _) _
  rw [hok]
  exact .ok hb'

/-- With room, what is read is stored over buffers as over lists. -/
theorem reads_of_readRoom (h : c.WellFormed) {result : ReadvResult}
    (hoffers : c.inputBuffer.Offers result) (hroom : c.inputBuffer.ReadRoom result) :
    ConnectionOver.Reads ops CTcpConnection.ops CBuffer.Shows c c.toLists result
      result.toReadResult := by
  cases result with
  | error errno => exact .ok ⟨h.inputBuffer, show sizeToSsize (ssizeToSize (-1)) = -1 by decide⟩
  | bytes data =>
      have hwf := h.inputBuffer.wellFormed
      obtain ⟨b', hok, hwf', hcontent⟩ := CBuffer.readFd_of_room hwf hroom
      have hlen := (CBuffer.readFd_length_le hwf hoffers hok).1
      change SameOutcome _ (CBuffer.ops.readFd c.inputBuffer _) _
      rw [CBuffer.ops_readFd hwf hroom hok]
      exact .ok ⟨⟨hwf', h.inputBuffer.cheapPrepend_le.trans hlen, hcontent⟩, rfl⟩

/-- **With room, a call over buffers is the call over lists.** -/
theorem call_of_hasRoom (h : c.WellFormed) {call : ConnectionCall} (hlegal : c.Legal call)
    (hroom : c.HasRoom call) :
    SameOutcome (ConnectionOver.RelatedResult CBuffer.Shows) (c.call call)
      (c.toLists.call call) := by
  refine ConnectionOver.related_call bufferRelation_shows h ?_
  cases call with
  | send rMessage result => exact fun hstate => appends_of_roomFor h (hroom hstate)
  | sendInLoop rMessage result => exact appends_of_roomFor h hroom
  | handleRead result => exact reads_of_readRoom h hlegal hroom
  | connectEstablished | connectDestroyed | removeChannel | shutDown | shutdownInLoop
  | handleWrite n | handleClose | retrieve nLen | retrieveAsString => trivial

/-- `__SendInLoop` that returns had room. -/
theorem roomFor_of_sendInLoop (h : c.WellFormed) (hn : rMessage.length < sizeTCount)
    (hok : c.sendInLoop rMessage result = .ok c') :
    c.outputBuffer.RoomFor (c.left rMessage result) := by
  by_contra hnot
  rw [sendInLoop, ConnectionOver.sendInLoop_eq] at hok
  by_cases hleft : ConnectionOver.wrote ops c result < rMessage.length
  · rw [if_pos hleft] at hok
    obtain ⟨outputBuffer, happend, -⟩ := bind_eq_ok_iff.mp hok
    rw [← length_drop_wrote] at hnot
    refine CBuffer.append_ne_ok_of_not_roomFor h.outputBuffer.wellFormed ?_ hnot _ happend
    rw [List.length_drop]
    omega
  · have hnone : c.left rMessage result = 0 := Nat.sub_eq_zero_of_le (not_lt.mp hleft)
    rw [hnone] at hnot
    exact hnot (Or.inl (Nat.zero_le _))

/-- **Without room, a call over buffers does not return.** -/
theorem call_ne_ok_of_not_hasRoom (h : c.WellFormed) {call : ConnectionCall} (hlegal : c.Legal call)
    (hnot : ¬ c.HasRoom call) : ∀ r, c.call call ≠ .ok r := by
  intro r hok
  cases call with
  | send rMessage result =>
      obtain ⟨c', hsend, -⟩ := map_eq_ok_iff.mp hok
      apply hnot
      intro hstate
      rw [ConnectionOver.send_of_eConnected hstate] at hsend
      exact roomFor_of_sendInLoop h hlegal hsend
  | sendInLoop rMessage result =>
      obtain ⟨c', hsend, -⟩ := map_eq_ok_iff.mp hok
      exact hnot (roomFor_of_sendInLoop h hlegal hsend)
  | handleRead result =>
      obtain ⟨r', hread, -⟩ := map_eq_ok_iff.mp hok
      obtain ⟨b, n, hb, -⟩ := ConnectionOver.handleRead_ok hread
      obtain ⟨read, hfd, -⟩ := bind_eq_ok_iff.mp hb
      cases result with
      | error errno => exact hnot trivial
      | bytes data =>
          exact CBuffer.readFd_ne_ok_of_not_room h.inputBuffer.wellFormed hlegal hnot read hfd
  | connectEstablished | connectDestroyed | removeChannel | shutDown | shutdownInLoop
  | handleWrite n | handleClose | retrieve nLen | retrieveAsString => exact hnot trivial

end matching

/-! ## Runs -/

/-- A call as it may be made, which returns. -/
def Step (c : BufferedConnection) (a : ConnectionCall × CallResult) (c' : BufferedConnection) :
    Prop :=
  c.Legal a.1 ∧ c.call a.1 = .ok (c', a.2)

/-- The call over lists returns. -/
def ListStep (c : CTcpConnection) (a : ConnectionCall × CallResult) (c' : CTcpConnection) : Prop :=
  c.call a.1 = .ok (c', a.2)

variable {c c' : BufferedConnection} {a : ConnectionCall × CallResult}
  {as : List (ConnectionCall × CallResult)}

/-- The buffers of a new connection. -/
theorem wellFormed_new : new.WellFormed where
  state_eq := rfl
  channel_eq := rfl
  inputBuffer := ⟨CBuffer.wellFormed_new, CBuffer.shows_new.cheapPrepend_le, rfl⟩
  outputBuffer := ⟨CBuffer.wellFormed_new, CBuffer.shows_new.cheapPrepend_le, rfl⟩
  taken_eq := rfl
  shutdowns_eq := rfl

/-- A new connection over lists. -/
theorem toLists_new : new.toLists = .new := by
  have hnew : ConnectionOver.Related CBuffer.Shows new CTcpConnection.new :=
    ⟨rfl, rfl, CBuffer.shows_new, CBuffer.shows_new, rfl, rfl⟩
  exact (eq_toLists hnew).symm

/-- **One call**: what it does over buffers it does over lists. -/
theorem step_toLists (h : c.WellFormed) (hst : Step c a c') :
    c'.WellFormed ∧ Run ListStep c.toLists [a] c'.toLists := by
  obtain ⟨hlegal, hok⟩ := hst
  have hroom : c.HasRoom a.1 := by
    by_contra hnot
    exact call_ne_ok_of_not_hasRoom h hlegal hnot _ hok
  obtain ⟨⟨d, res⟩, hlists, hrelated, hres⟩ := (call_of_hasRoom h hlegal hroom).exists_of_ok hok
  obtain rfl : d = c'.toLists := eq_toLists hrelated
  obtain rfl : a.2 = res := hres
  exact ⟨hrelated, Run.single hlists⟩

/-- The run over lists of a run over buffers. -/
theorem run_toLists (hrun : Run Step new as c) :
    c.WellFormed ∧ Run ListStep .new as c.toLists := by
  have hproject : c.WellFormed ∧ Run ListStep new.toLists (as.flatMap fun a => [a]) c.toLists :=
    hrun.project (fun _ _ _ h hst => step_toLists h hst) wellFormed_new
  rw [List.flatMap_singleton', toLists_new] at hproject
  exact hproject

/-- **A connection over its buffers refines the connection over lists, up to room.** Every run of
member functions from a new connection is the run of the same calls over lists, with the same
callbacks and the same bytes for the user; and behind it, a call returns exactly if it returns over
lists and the buffer that it fills has room. -/
theorem refinesLists_run (hrun : Run Step new as c) :
    Run ListStep .new as c.toLists ∧ ∀ call, c.Legal call →
      ((∃ r, c.call call = .ok r) ↔ c.HasRoom call ∧ ∃ r, c.toLists.call call = .ok r) := by
  obtain ⟨hwf, hlists⟩ := run_toLists hrun
  refine ⟨hlists, fun call hlegal => ?_⟩
  constructor
  · rintro ⟨r, hok⟩
    have hroom : c.HasRoom call := by
      by_contra hnot
      exact call_ne_ok_of_not_hasRoom hwf hlegal hnot r hok
    obtain ⟨r', hok', -⟩ := (call_of_hasRoom hwf hlegal hroom).exists_of_ok hok
    exact ⟨hroom, r', hok'⟩
  · rintro ⟨hroom, r', hok'⟩
    obtain ⟨r, hok, -⟩ := (call_of_hasRoom hwf hlegal hroom).exists_of_ok_right hok'
    exact ⟨r, hok⟩

/-! ## Bytes -/

/-- `__HandleRead` appends what it has read to the input buffer. -/
theorem handleRead_inputBuffer {c c' : CTcpConnection} {result : ReadvResult}
    {callback : Option Callback} (h : c.handleRead result.toReadResult = .ok (c', callback)) :
    c'.inputBuffer = c.inputBuffer ++ (ConnectionCall.handleRead result).received := by
  obtain ⟨b, n, hread, hc'⟩ := ConnectionOver.handleRead_ok h
  have hinput : c'.inputBuffer = b := by
    obtain rfl | ⟨channel, -, rfl⟩ := hc' <;> rfl
  rw [hinput]
  cases result with
  | error errno =>
      cases Except.ok.inj hread
      exact (List.append_nil _).symm
  | bytes data =>
      cases Except.ok.inj hread
      rfl

/-- **One call over lists** appends the message to what is to be sent, takes the bytes for the user
from the front of what was read, and appends what it reads. -/
theorem call_conserves {c c' : CTcpConnection} {call : ConnectionCall} {res : CallResult}
    (h : c.call call = .ok (c', res)) :
    c'.stream = c.stream ++ res.accepted ∧
      res.retrieved ++ c'.inputBuffer = c.inputBuffer ++ call.received := by
  cases call with
  | connectEstablished =>
      obtain ⟨r, hok, hr⟩ := map_eq_ok_iff.mp h
      obtain ⟨channel, -, heq⟩ := ConnectionOver.connectEstablished_ok hok
      cases hr
      simp [CTcpConnection.stream, heq, ConnectionCall.received]
  | connectDestroyed =>
      obtain ⟨r, hok, hr⟩ := map_eq_ok_iff.mp h
      obtain ⟨-, channel, -, heq⟩ := ConnectionOver.connectDestroyed_ok hok
      cases hr
      simp [CTcpConnection.stream, heq, ConnectionCall.received]
  | removeChannel =>
      obtain ⟨r, hok, hr⟩ := map_eq_ok_iff.mp h
      obtain ⟨channel, -, rfl⟩ := ConnectionOver.removeChannel_ok hok
      cases hr
      simp [CTcpConnection.stream, ConnectionCall.received]
  | send rMessage result =>
      obtain ⟨r, hok, hr⟩ := map_eq_ok_iff.mp h
      cases hr
      by_cases hstate : c.state = .eConnected
      · rw [ConnectionOver.send_of_eConnected hstate] at hok
        obtain ⟨channel, rfl, -⟩ := CTcpConnection.sendInLoop_ok hok
        simp only [if_pos hstate]
        exact ⟨c.stream_written rMessage result, (List.append_nil _).symm⟩
      · rw [ConnectionOver.send_of_ne hstate] at hok
        cases Except.ok.inj hok
        simp [hstate, ConnectionCall.received]
  | sendInLoop rMessage result =>
      obtain ⟨r, hok, hr⟩ := map_eq_ok_iff.mp h
      cases hr
      obtain ⟨channel, rfl, -⟩ := CTcpConnection.sendInLoop_ok hok
      exact ⟨c.stream_written rMessage result, (List.append_nil _).symm⟩
  | shutDown =>
      cases Except.ok.inj h
      obtain ⟨eState, n, heq⟩ := ConnectionOver.shutDown_eq CTcpConnection.ops c
      simp [heq, CTcpConnection.stream, ConnectionCall.received]
  | shutdownInLoop =>
      cases Except.ok.inj h
      simp [ConnectionOver.shutdownInLoop_eq, CTcpConnection.stream, ConnectionCall.received]
  | handleRead result =>
      obtain ⟨r, hok, hr⟩ := map_eq_ok_iff.mp h
      cases hr
      refine ⟨?_, ?_⟩
      · rw [(CTcpConnection.handleRead_ok hok).stream_eq, List.append_nil]
      · exact handleRead_inputBuffer hok
  | handleWrite n =>
      obtain ⟨r, hok, hr⟩ := map_eq_ok_iff.mp h
      cases hr
      obtain ⟨hstream, -, hinput, -⟩ := CTcpConnection.handleWrite_ok hok
      simp [hstream, hinput, ConnectionCall.received]
  | handleClose =>
      obtain ⟨r, hok, hr⟩ := map_eq_ok_iff.mp h
      obtain ⟨-, channel, -, heq⟩ := ConnectionOver.handleClose_ok hok
      cases hr
      simp [CTcpConnection.stream, heq, ConnectionCall.received]
  | retrieve nLen =>
      obtain ⟨b, hok, hr⟩ := map_eq_ok_iff.mp h
      obtain ⟨-, -, hb⟩ := bind_eq_ok_iff.mp hok
      cases Except.ok.inj hb
      cases hr
      refine ⟨(List.append_nil _).symm, ?_⟩
      exact (List.take_append_drop nLen c.inputBuffer).trans (List.append_nil _).symm
  | retrieveAsString =>
      cases Except.ok.inj h
      exact ⟨(List.append_nil _).symm, rfl⟩

/-- A run over lists. -/
theorem listRun_conserves {c c' : CTcpConnection} (hrun : Run ListStep c as c') :
    c'.stream = c.stream ++ as.flatMap (fun a => a.2.accepted) ∧
      as.flatMap (fun a => a.2.retrieved) ++ c'.inputBuffer =
        c.inputBuffer ++ as.flatMap (fun a => a.1.received) := by
  induction hrun with
  | nil c => simp
  | cons head tail ih =>
      obtain ⟨hout, hin⟩ := call_conserves head
      obtain ⟨ihout, ihin⟩ := ih
      simp only [List.flatMap_cons]
      refine ⟨?_, ?_⟩
      · rw [ihout, hout, List.append_assoc]
      · rw [List.append_assoc, ihin, ← List.append_assoc, hin, List.append_assoc]

/-- **No byte is lost, added or moved, over the real buffers.** In every run of member functions
from a new connection that all return, what the kernel has taken and what the output buffer holds
are together all messages accepted so far, in order; what the user has taken and what the input
buffer holds are together all bytes read so far, in order. -/
theorem conserves_run (hrun : Run Step new as c) :
    c.taken ++ c.outputBuffer.content = as.flatMap (fun a => a.2.accepted) ∧
      as.flatMap (fun a => a.2.retrieved) ++ c.inputBuffer.content =
        as.flatMap (fun a => a.1.received) :=
  listRun_conserves (run_toLists hrun).2

/-! ## The output buffer -/

/-- What a call does to the output side of a connection that does not watch for writing: at most it
appends. -/
def Appended (c c' : BufferedConnection) : Prop :=
  c'.channel.isWriting = false ∧ (c'.outputBuffer = c.outputBuffer ∨
    ∃ data, data.length < sizeTCount ∧ c.outputBuffer.append data = .ok c'.outputBuffer)

/-- `__SendInLoop`: what it appends is the rest of the message, and the interest that it then sets
is `SetEnableReading`. -/
theorem appended_sendInLoop {rMessage : List Byte} {result : ℤ} (hnot : c.channel.isWriting = false)
    (hn : rMessage.length < sizeTCount) (h : c.sendInLoop rMessage result = .ok c') :
    Appended c c' := by
  rw [sendInLoop, ConnectionOver.sendInLoop_eq] at h
  by_cases hleft : ConnectionOver.wrote ops c result < rMessage.length
  · rw [if_pos hleft] at h
    obtain ⟨outputBuffer, happend, h⟩ := bind_eq_ok_iff.mp h
    have hdrop : (rMessage.drop (ConnectionOver.wrote ops c result)).length < sizeTCount := by
      rw [List.length_drop]
      omega
    have hwriting : ConnectionOver.isWriting ops c = false := hnot
    dsimp only at h
    rw [if_pos (by simp [hwriting])] at h
    obtain ⟨channel, hchannel, rfl⟩ := ConnectionOver.changeInterest_ok h
    exact ⟨WatchedChannel.isWriting_of_changeInterest hchannel hnot (by decide),
      Or.inr ⟨_, hdrop, happend⟩⟩
  · rw [if_neg hleft] at h
    cases Except.ok.inj h
    exact ⟨hnot, Or.inl rfl⟩

/-- No call begins to watch for writing, and none takes bytes out of the output buffer then. -/
theorem appended_of_step (hnot : c.channel.isWriting = false) (hst : Step c a c') :
    Appended c c' := by
  obtain ⟨call, res⟩ := a
  obtain ⟨hlegal, h⟩ := hst
  cases call with
  | connectEstablished =>
      obtain ⟨r, hok, hr⟩ := map_eq_ok_iff.mp h
      obtain ⟨channel, hchannel, heq⟩ := ConnectionOver.connectEstablished_ok hok
      cases hr
      rw [heq]
      exact ⟨WatchedChannel.isWriting_of_changeInterest hchannel hnot (by decide), Or.inl rfl⟩
  | connectDestroyed =>
      obtain ⟨r, hok, hr⟩ := map_eq_ok_iff.mp h
      obtain ⟨-, channel, hchannel, heq⟩ := ConnectionOver.connectDestroyed_ok hok
      cases hr
      rw [heq]
      exact ⟨WatchedChannel.isWriting_of_changeInterest hchannel hnot (by decide), Or.inl rfl⟩
  | removeChannel =>
      obtain ⟨r, hok, hr⟩ := map_eq_ok_iff.mp h
      obtain ⟨channel, hchannel, rfl⟩ := ConnectionOver.removeChannel_ok hok
      cases hr
      refine ⟨?_, Or.inl rfl⟩
      rw [WatchedChannel.remove_ok hchannel]
      exact hnot
  | send rMessage result =>
      obtain ⟨r, hok, hr⟩ := map_eq_ok_iff.mp h
      cases hr
      by_cases hstate : c.state = .eConnected
      · rw [ConnectionOver.send_of_eConnected hstate] at hok
        exact appended_sendInLoop hnot hlegal hok
      · rw [ConnectionOver.send_of_ne hstate] at hok
        cases Except.ok.inj hok
        exact ⟨hnot, Or.inl rfl⟩
  | sendInLoop rMessage result =>
      obtain ⟨r, hok, hr⟩ := map_eq_ok_iff.mp h
      cases hr
      exact appended_sendInLoop hnot hlegal hok
  | shutDown =>
      cases Except.ok.inj h
      obtain ⟨eState, n, heq⟩ := ConnectionOver.shutDown_eq ops c
      rw [heq]
      exact ⟨hnot, Or.inl rfl⟩
  | shutdownInLoop =>
      cases Except.ok.inj h
      rw [ConnectionOver.shutdownInLoop_eq]
      exact ⟨hnot, Or.inl rfl⟩
  | handleRead result =>
      obtain ⟨r, hok, hr⟩ := map_eq_ok_iff.mp h
      cases hr
      obtain ⟨b, n, -, heq | ⟨channel, hchannel, heq⟩⟩ := ConnectionOver.handleRead_ok hok
      · rw [heq]
        exact ⟨hnot, Or.inl rfl⟩
      · rw [heq]
        exact ⟨WatchedChannel.isWriting_of_changeInterest hchannel hnot (by decide), Or.inl rfl⟩
  | handleWrite n =>
      obtain ⟨r, hok, hr⟩ := map_eq_ok_iff.mp h
      cases hr
      have hsame := ConnectionOver.handleWrite_of_not_writing ops hnot n
      cases Except.ok.inj (hsame.symm.trans hok)
      exact ⟨hnot, Or.inl rfl⟩
  | handleClose =>
      obtain ⟨r, hok, hr⟩ := map_eq_ok_iff.mp h
      obtain ⟨-, channel, hchannel, heq⟩ := ConnectionOver.handleClose_ok hok
      cases hr
      rw [heq]
      exact ⟨WatchedChannel.isWriting_of_changeInterest hchannel hnot (by decide), Or.inl rfl⟩
  | retrieve nLen =>
      obtain ⟨inputBuffer, -, hr⟩ := map_eq_ok_iff.mp h
      cases hr
      exact ⟨hnot, Or.inl rfl⟩
  | retrieveAsString =>
      obtain ⟨r, -, hr⟩ := map_eq_ok_iff.mp h
      cases hr
      exact ⟨hnot, Or.inl rfl⟩

/-- A buffer that was only appended to: nothing is consumed, and the vector has grown to what it
holds, or not at all. -/
structure OnlyAppended (b : CBuffer) : Prop where
  /-- `m_szReaderIndex` is where it was. -/
  reader_eq : b.readerIndex = cheapPrepend
  /-- The length of the vector. -/
  length_eq : b.vBuffer.length = max (cheapPrepend + initialSize) b.writerIndex

/-- Another append. -/
theorem OnlyAppended.append {b b' : CBuffer} {data : List Byte} (h : OnlyAppended b)
    (hwf : b.WellFormed) (hn : data.length < sizeTCount) (hok : b.append data = .ok b') :
    OnlyAppended b' := by
  obtain ⟨b₁, hshape, hlen', hreader', hwriter'⟩ := CBuffer.append_shape hwf hn hok
  have hwriteable := hwf.getWriteableBytes_eq
  have hr := h.reader_eq
  have hl := h.length_eq
  cases hshape with
  | fits hn hlen hreader hwriter => exact ⟨by omega, by omega⟩
  | grows hn hlen hreader hwriter => exact ⟨by omega, by omega⟩
  | slides hn hbehind hlen hreader hwriter =>
      -- nothing in front of the content has been consumed
      exact absurd hr hbehind.ne'

/-- What is free of the first 1024 bytes is free behind the content. -/
theorem OnlyAppended.getWriteableBytes_eq {b : CBuffer} (h : OnlyAppended b) (hwf : b.WellFormed) :
    b.getWriteableBytes = initialSize - b.content.length := by
  have hwriteable := hwf.getWriteableBytes_eq
  have hreadable := hwf.getReadableBytes_eq
  have hcontent := hwf.length_content
  have hle := hwf.reader_le
  have hr := h.reader_eq
  have hl := h.length_eq
  omega

/-- The room of a buffer that was only appended to. -/
theorem OnlyAppended.roomFor_iff {b : CBuffer} (h : OnlyAppended b) (hwf : b.WellFormed) {n : ℕ} :
    b.RoomFor n ↔ n ≤ initialSize - b.content.length ∨
      initialSize - b.content.length + cheapPrepend < n ∧
        cheapPrepend + b.content.length + n ≤ vectorMaxSize := by
  have hreadable := hwf.getReadableBytes_eq
  have hcontent := hwf.length_content
  have hprependable : b.getPrependableBytes = b.readerIndex := rfl
  have hle := hwf.reader_le
  have hr := h.reader_eq
  unfold CBuffer.RoomFor
  rw [h.getWriteableBytes_eq hwf]
  omega

/-- The output side of a connection in every run. -/
theorem onlyAppended_run (hrun : Run Step new as c) :
    c.WellFormed ∧ c.channel.isWriting = false ∧ OnlyAppended c.outputBuffer := by
  have hnew : OnlyAppended CBuffer.new := ⟨rfl, by simp [CBuffer.new]⟩
  refine hrun.invariant (I := fun c =>
    c.WellFormed ∧ c.channel.isWriting = false ∧ OnlyAppended c.outputBuffer) ?_
    ⟨wellFormed_new, isWriting_noneEvent, hnew⟩
  rintro c a c' ⟨hwf, hnot, hout⟩ hst
  obtain ⟨hnot', hsame | ⟨data, hn, happend⟩⟩ := appended_of_step hnot hst
  · exact ⟨(step_toLists hwf hst).1, hnot', hsame ▸ hout⟩
  · exact ⟨(step_toLists hwf hst).1, hnot', hout.append hwf.outputBuffer.wellFormed hn happend⟩

/-- `__SendInLoop` with a rest that would fit if the cheap prepend were room. -/
theorem sendInLoop_assertion (hwf : c.WellFormed) (hout : OnlyAppended c.outputBuffer)
    {rMessage : List Byte} {result : ℤ}
    (hmore : initialSize - c.outputBuffer.content.length < c.left rMessage result)
    (hle : c.left rMessage result ≤ initialSize - c.outputBuffer.content.length + cheapPrepend) :
    c.sendInLoop rMessage result = .error .assertion := by
  have hwriteable := hout.getWriteableBytes_eq hwf.outputBuffer.wellFormed
  have hprependable : c.outputBuffer.getPrependableBytes = cheapPrepend := hout.reader_eq
  have hleft : ConnectionOver.wrote ops c result < rMessage.length := by
    unfold left at hmore
    omega
  have happend : ops.append c.outputBuffer (rMessage.drop (ConnectionOver.wrote ops c result)) =
      .error .assertion := by
    rw [← length_drop_wrote] at hmore hle
    refine CBuffer.append_assertion hwf.outputBuffer.wellFormed hout.reader_eq.le ?_ ?_
    · rw [hwriteable]
      exact hmore
    · rw [hwriteable, hprependable]
      exact hle
  rw [sendInLoop, ConnectionOver.sendInLoop_eq, if_pos hleft, happend, error_bind]

/-- **Which sends end the program.** In every run of member functions from a new connection, the
write handler does nothing; and a `__SendInLoop` on the registered channel returns exactly if what
is left of the message behind the direct write fits into what is free of the first 1024 bytes of the
output buffer, or is more than that and the cheap prepend together, and a vector can hold it. In
between, with one to eight bytes too many, an assertion fails. -/
theorem sendInLoop_returns_iff_run (hrun : Run Step new as c) (hreg : c.channel.watch.IsRegistered)
    {rMessage : List Byte} (hn : rMessage.length < sizeTCount) (result : ℤ) :
    (∀ n, c.handleWrite n = .ok c) ∧
      ((∃ c', c.sendInLoop rMessage result = .ok c') ↔
        c.left rMessage result ≤ initialSize - c.outputBuffer.content.length ∨
          initialSize - c.outputBuffer.content.length + cheapPrepend < c.left rMessage result ∧
            cheapPrepend + c.outputBuffer.content.length + c.left rMessage result ≤
              vectorMaxSize) ∧
      (initialSize - c.outputBuffer.content.length < c.left rMessage result →
        c.left rMessage result ≤ initialSize - c.outputBuffer.content.length + cheapPrepend →
        c.sendInLoop rMessage result = .error .assertion) := by
  obtain ⟨hwf, hnot, hout⟩ := onlyAppended_run hrun
  refine ⟨ConnectionOver.handleWrite_of_not_writing ops hnot, ?_, sendInLoop_assertion hwf hout⟩
  rw [← hout.roomFor_iff hwf.outputBuffer.wellFormed]
  constructor
  · rintro ⟨c', hok⟩
    exact roomFor_of_sendInLoop hwf hn hok
  · intro hroom
    obtain ⟨c₁, hlists⟩ :=
      CTcpConnection.sendInLoop_of_isRegistered (c := c.toLists) hreg rMessage result
    have hsame := ConnectionOver.related_sendInLoop bufferRelation_shows hwf
      (appends_of_roomFor hwf hroom)
    obtain ⟨c', hok, -⟩ := hsame.exists_of_ok_right hlists
    exact ⟨c', hok⟩

/-! ## An established connection -/

/-- A connection after `ConnectEstablished`. -/
def established : BufferedConnection :=
  { new with state := .eConnected, channel := ⟨readEvent, .watched⟩ }

/-- `ConnectEstablished` on a new connection. -/
theorem established_run :
    Run Step new [(.connectEstablished, { callback := some (.connection true) })] established :=
  Run.single ⟨trivial, rfl⟩

/-- The theorem on a connection that has just been established. -/
theorem refinesLists_run_established :
    Run ListStep .new [(.connectEstablished, { callback := some (.connection true) })]
        established.toLists ∧ ∀ call, established.Legal call →
      ((∃ r, established.call call = .ok r) ↔
        established.HasRoom call ∧ ∃ r, established.toLists.call call = .ok r) :=
  refinesLists_run established_run

/-- The theorem on a connection of whose first message the kernel has taken everything. -/
theorem conserves_run_sent : ∃ c, Run Step new
      [(.connectEstablished, { callback := some (.connection true) }),
        (.send [7, 8] 2, { accepted := [7, 8] })] c ∧
    c.taken ++ c.outputBuffer.content = [7, 8] := by
  have hsend : Step established (.send [7, 8] 2, { accepted := [7, 8] })
      { established with taken := [7, 8] } := by
    have hwrote : ¬ ConnectionOver.wrote ops established 2 < [(7 : Byte), 8].length := by decide
    have hok : ConnectionOver.send ops established [7, 8] 2 =
        .ok { established with taken := [7, 8] } := by
      rw [ConnectionOver.send_of_eConnected rfl, ConnectionOver.sendInLoop_eq, if_neg hwrote]
      rfl
    refine ⟨show [7, 8].length < sizeTCount by decide, ?_⟩
    simp only [call, ConnectionOver.call, hok]
    rfl
  have hrun := established_run.append (Run.single hsend)
  exact ⟨_, hrun, (conserves_run hrun).1⟩

/-- The theorem on the first send of a connection: 1025 bytes of which the kernel takes none. -/
theorem sendInLoop_returns_iff_run_1025 :
    (¬ ∃ c', established.sendInLoop (List.replicate 1025 7) (-1) = .ok c') ∧
      established.sendInLoop (List.replicate 1025 7) (-1) = .error .assertion := by
  have hn : (List.replicate 1025 (7 : Byte)).length = 1025 := List.length_replicate
  have hleft : established.left (List.replicate 1025 7) (-1) = 1025 := by
    rw [left, hn]
    rfl
  have hempty : established.outputBuffer.content.length = 0 :=
    CBuffer.wellFormed_new.length_content
  obtain ⟨-, hreturns, hfails⟩ :=
    sendInLoop_returns_iff_run established_run trivial (by rw [hn]; decide) (-1)
  rw [hleft, hempty] at hreturns hfails
  exact ⟨hreturns.not.mpr (by decide), hfails (by decide) (by decide)⟩

end BufferedConnection

end Neconet
