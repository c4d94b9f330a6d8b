import Neconet.Net.BufferRead
import Neconet.Net.ConnectionOver

/-!
# The calls on a connection

The calls of its member functions, and those by which a message callback takes bytes out of the
input buffer, as one function of the connection. Two connections with the same channel, over buffers
of two kinds that are related: as long as their member functions have related outcomes, so have the
calls.

* `ConnectionCall`, `ConnectionOver.call`: the calls.
* `BufferRelation`: a relation that the member functions of the buffers keep, if no room is needed.
* `Related`, `related_call`: two connections over related buffers, and a call on both.
-/

namespace Neconet

/-! ## The calls -/

/-- A call of a member function in the loop thread, or of the user on the input buffer. -/
inductive ConnectionCall
  /-- `ConnectEstablished`. -/
  | connectEstablished
  /-- `ConnectDestroyed`, up to its callback. -/
  | connectDestroyed
  /-- `ConnectDestroyed`, after its callback. -/
  | removeChannel
  /-- `Send`. -/
  | send (rMessage : List Byte) (result : ℤ)
  /-- The functor that another thread's `Send` has queued. -/
  | sendInLoop (rMessage : List Byte) (result : ℤ)
  /-- `ShutDown`. -/
  | shutDown
  /-- The functor that another thread's `ShutDown` has queued. -/
  | shutdownInLoop
  /-- The handler of the read event. -/
  | handleRead (result : ReadvResult)
  /-- The handler of the write event. -/
  | handleWrite (n : ℤ)
  /-- The handler of the close event. -/
  | handleClose
  /-- `Retrieve(nLen)` on the input buffer, after a look at its first bytes. -/
  | retrieve (nLen : ℕ)
  /-- `RetrieveAsString()` on the input buffer. -/
  | retrieveAsString
  deriving DecidableEq, Repr

/-- What a call gives to its caller, and the message that it takes from it. -/
structure CallResult where
  /-- The callback that it ends with. -/
  callback : Option Callback := none
  /-- The bytes that the user takes. -/
  retrieved : List Byte := []
  /-- The bytes that are to be sent. -/
  accepted : List Byte := []
  deriving DecidableEq, Repr

/-- The bytes that a call reads from the socket. -/
def ConnectionCall.received : ConnectionCall → List Byte
  | handleRead (.bytes data) => data
  | _ => []

namespace ConnectionOver

variable {χ β β' ρ ρ' : Type}

/-- The call on a connection; `ReadFd` takes what `readv` has returned as `reads` gives it. -/
def call (ops : ConnectionOps χ β ρ) (reads : ReadvResult → ρ) (c : ConnectionOver χ β) :
    ConnectionCall → Except Fault (ConnectionOver χ β × CallResult)
  | .connectEstablished => (c.connectEstablished ops).map fun r => (r.1, { callback := some r.2 })
  | .connectDestroyed => (c.connectDestroyed ops).map fun r => (r.1, { callback := some r.2 })
  | .removeChannel => (c.removeChannel ops).map fun c => (c, {})
  | .send rMessage result =>
      (c.send ops rMessage result).map fun c' =>
        (c', { accepted := if c.state = .eConnected then rMessage else [] })
  | .sendInLoop rMessage result =>
      (c.sendInLoop ops rMessage result).map fun c => (c, { accepted := rMessage })
  | .shutDown => .ok (c.shutDown ops, {})
  | .shutdownInLoop => .ok (c.shutdownInLoop ops, {})
  | .handleRead result =>
      (c.handleRead ops (reads result)).map fun r => (r.1, { callback := r.2 })
  | .handleWrite n => (c.handleWrite ops n).map fun c => (c, {})
  | .handleClose => (c.handleClose ops).map fun r => (r.1, { callback := some r.2 })
  | .retrieve nLen =>
      (ops.retrieve c.inputBuffer nLen).map fun b =>
        ({ c with inputBuffer := b }, { retrieved := (ops.content c.inputBuffer).take nLen })
  | .retrieveAsString =>
      (ops.retrieveAsString c.inputBuffer).map fun r =>
        ({ c with inputBuffer := r.2 }, { retrieved := r.1 })

end ConnectionOver

/-! ## Related buffers -/

section related

variable {χ β β' ρ ρ' : Type}

/-- The channels have the same member functions, and those of the buffers keep the relation, as far
as they need no room. -/
structure BufferRelation (ops : ConnectionOps χ β ρ) (ops' : ConnectionOps χ β' ρ')
    (R : β → β' → Prop) : Prop where
  /-- The channels. -/
  toChannelOps_eq : ops.toChannelOps = ops'.toChannelOps
  /-- The readable bytes. -/
  content_eq : ∀ b b', R b b' → ops.content b = ops'.content b'
  /-- Their number. -/
  getReadableBytes_eq : ∀ b b', R b b' → ops.getReadableBytes b = ops'.getReadableBytes b'
  /-- `Retrieve`. -/
  retrieve : ∀ b b' nLen, R b b' → SameOutcome R (ops.retrieve b nLen) (ops'.retrieve b' nLen)
  /-- `RetrieveAsString`. -/
  retrieveAsString : ∀ b b', R b b' → SameOutcome (fun r r' => r.1 = r'.1 ∧ R r.2 r'.2)
    (ops.retrieveAsString b) (ops'.retrieveAsString b')

namespace ConnectionOver

/-- Two connections with the same channel, over related buffers. -/
structure Related (R : β → β' → Prop) (c : ConnectionOver χ β) (c' : ConnectionOver χ β') :
    Prop where
  /-- `m_eState`. -/
  state_eq : c.state = c'.state
  /-- `m_unpChannel`. -/
  channel_eq : c.channel = c'.channel
  /-- `m_iInputBuffer`. -/
  inputBuffer : R c.inputBuffer c'.inputBuffer
  /-- `m_iOutputBuffer`. -/
  outputBuffer : R c.outputBuffer c'.outputBuffer
  /-- The bytes that the kernel has taken. -/
  taken_eq : c.taken = c'.taken
  /-- How often the write side was shut down. -/
  shutdowns_eq : c.shutdowns = c'.shutdowns

/-- Two calls have returned the same, on related connections. -/
def RelatedResult {γ : Type} (R : β → β' → Prop) (r : ConnectionOver χ β × γ)
    (r' : ConnectionOver χ β' × γ) : Prop := Related R r.1 r'.1 ∧ r.2 = r'.2

variable {ops : ConnectionOps χ β ρ} {ops' : ConnectionOps χ β' ρ'} {R : β → β' → Prop}
  {c : ConnectionOver χ β} {c' : ConnectionOver χ β'}

/-- Writable events are watched in both. -/
theorem Related.isWriting_eq (h : Related R c c') (hops : BufferRelation ops ops' R) :
    c.isWriting ops = c'.isWriting ops' := by
  unfold isWriting
  rw [hops.toChannelOps_eq, h.channel_eq]

/-- `__SendInLoop` writes as many bytes itself. -/
theorem Related.wrote_eq (h : Related R c c') (hops : BufferRelation ops ops' R) (result : ℤ) :
    c.wrote ops result = c'.wrote ops' result := by
  have hdirect : c.WritesDirectly ops ↔ c'.WritesDirectly ops' := by
    unfold WritesDirectly
    rw [h.isWriting_eq hops, hops.getReadableBytes_eq _ _ h.outputBuffer]
  unfold wrote
  by_cases hwrites : c.WritesDirectly ops
  · rw [if_pos hwrites, if_pos (hdirect.mp hwrites)]
  · rw [if_neg hwrites, if_neg (mt hdirect.mpr hwrites)]

/-- A change of the state. -/
theorem Related.setState (h : Related R c c') (eState : EState) :
    Related R (c.setState eState) (c'.setState eState) :=
  ⟨rfl, h.channel_eq, h.inputBuffer, h.outputBuffer, h.taken_eq, h.shutdowns_eq⟩

/-- A change of interest. -/
theorem related_changeInterest (hops : BufferRelation ops ops' R) (h : Related R c c')
    (op : InterestOp) :
    SameOutcome (Related R) (c.changeInterest ops op) (c'.changeInterest ops' op) := by
  unfold changeInterest
  rw [hops.toChannelOps_eq, h.channel_eq]
  exact SameOutcome.bind_left _ fun channel _ => .ok
    ⟨h.state_eq, rfl, h.inputBuffer, h.outputBuffer, h.taken_eq, h.shutdowns_eq⟩

/-- A check of the states. -/
theorem related_check {γ γ' : Type} {S : γ → γ' → Prop} (h : Related R c c') (p : EState → Prop)
    [DecidablePred p] {f : Unit → Except Fault γ} {g : Unit → Except Fault γ'}
    (hfg : SameOutcome S (f ()) (g ())) :
    SameOutcome S (check (p c.state) >>= f) (check (p c'.state) >>= g) := by
  rw [h.state_eq]
  exact SameOutcome.bind_left _ fun _ _ => hfg

/-- `ConnectEstablished`. -/
theorem related_connectEstablished (hops : BufferRelation ops ops' R) (h : Related R c c') :
    SameOutcome (RelatedResult R) (c.connectEstablished ops) (c'.connectEstablished ops') := by
  refine related_check h (· = .eConnecting) ?_
  refine (related_changeInterest hops (h.setState _) _).bind fun d d' hd => .ok ⟨hd, ?_⟩
  rw [isConnected, isConnected, hd.state_eq]

/-- `ConnectDestroyed`, up to its callback. -/
theorem related_connectDestroyed (hops : BufferRelation ops ops' R) (h : Related R c c') :
    SameOutcome (RelatedResult R) (c.connectDestroyed ops) (c'.connectDestroyed ops') := by
  refine related_check h (fun eState => eState = .eConnected ∨ eState = .eDisconnecting) ?_
  refine (related_changeInterest hops (h.setState _) _).bind fun d d' hd => .ok ⟨hd, ?_⟩
  rw [isConnected, isConnected, hd.state_eq]

/-- `ConnectDestroyed`, after its callback. -/
theorem related_removeChannel (hops : BufferRelation ops ops' R) (h : Related R c c') :
    SameOutcome (Related R) (c.removeChannel ops) (c'.removeChannel ops') := by
  unfold removeChannel
  rw [hops.toChannelOps_eq, h.channel_eq]
  exact SameOutcome.bind_left _ fun channel _ => .ok
    ⟨h.state_eq, rfl, h.inputBuffer, h.outputBuffer, h.taken_eq, h.shutdowns_eq⟩

/-- `__ShutdownInLoop`. -/
theorem related_shutdownInLoop (hops : BufferRelation ops ops' R) (h : Related R c c') :
    Related R (c.shutdownInLoop ops) (c'.shutdownInLoop ops') := by
  rw [shutdownInLoop_eq, shutdownInLoop_eq, h.isWriting_eq hops, h.shutdowns_eq]
  exact ⟨h.state_eq, h.channel_eq, h.inputBuffer, h.outputBuffer, h.taken_eq, rfl⟩

/-- `ShutDown`. -/
theorem related_shutDown (hops : BufferRelation ops ops' R) (h : Related R c c') :
    Related R (c.shutDown ops) (c'.shutDown ops') := by
  by_cases hstate : c.state = .eConnected
  · rw [shutDown_of_eConnected hstate, shutDown_of_eConnected (h.state_eq ▸ hstate)]
    exact related_shutdownInLoop hops (h.setState _)
  · rw [shutDown_of_ne hstate, shutDown_of_ne (h.state_eq ▸ hstate)]
    exact h

/-- What is left of the message behind the direct write is stored by both output buffers. -/
def Appends (ops : ConnectionOps χ β ρ) (ops' : ConnectionOps χ β' ρ') (R : β → β' → Prop)
    (c : ConnectionOver χ β) (c' : ConnectionOver χ β') (rMessage : List Byte) (result : ℤ) :
    Prop :=
  c.wrote ops result < rMessage.length →
    SameOutcome R (ops.append c.outputBuffer (rMessage.drop (c.wrote ops result)))
      (ops'.append c'.outputBuffer (rMessage.drop (c.wrote ops result)))

/-- `__SendInLoop`. -/
theorem related_sendInLoop (hops : BufferRelation ops ops' R) (h : Related R c c')
    {rMessage : List Byte} {result : ℤ} (happends : Appends ops ops' R c c' rMessage result) :
    SameOutcome (Related R) (c.sendInLoop ops rMessage result)
      (c'.sendInLoop ops' rMessage result) := by
  rw [sendInLoop_eq, sendInLoop_eq, ← h.wrote_eq hops]
  have htaken := congrArg (· ++ rMessage.take (c.wrote ops result)) h.taken_eq
  refine SameOutcome.ite Iff.rfl (fun hleft => (happends hleft).bind fun b b' hb => ?_) fun _ => .ok
    ⟨h.state_eq, h.channel_eq, h.inputBuffer, h.outputBuffer, htaken, h.shutdowns_eq⟩
  have hstored : Related R
      { c with taken := c.taken ++ rMessage.take (c.wrote ops result), outputBuffer := b }
      { c' with taken := c'.taken ++ rMessage.take (c.wrote ops result), outputBuffer := b' } :=
    ⟨h.state_eq, h.channel_eq, h.inputBuffer, hb, htaken, h.shutdowns_eq⟩
  refine SameOutcome.ite (by rw [h.isWriting_eq hops]) (fun _ => ?_) fun _ => .ok hstored
  exact related_changeInterest hops hstored _

/-- `Send`. -/
theorem related_send (hops : BufferRelation ops ops' R) (h : Related R c c')
    {rMessage : List Byte} {result : ℤ}
    (happends : c.state = .eConnected → Appends ops ops' R c c' rMessage result) :
    SameOutcome (Related R) (c.send ops rMessage result) (c'.send ops' rMessage result) := by
  by_cases hstate : c.state = .eConnected
  · rw [send_of_eConnected hstate, send_of_eConnected (h.state_eq ▸ hstate)]
    exact related_sendInLoop hops h (happends hstate)
  · rw [send_of_ne hstate, send_of_ne (h.state_eq ▸ hstate)]
    exact .ok h

/-- `__HandleWrite`. -/
theorem related_handleWrite (hops : BufferRelation ops ops' R) (h : Related R c c') (n : ℤ) :
    SameOutcome (Related R) (c.handleWrite ops n) (c'.handleWrite ops' n) := by
  refine SameOutcome.ite (by rw [h.isWriting_eq hops]) (fun _ => ?_) fun _ => .ok h
  refine SameOutcome.ite Iff.rfl (fun _ => ?_) fun _ => .ok h
  refine (hops.retrieve _ _ n.toNat h.outputBuffer).bind fun b b' hb => ?_
  have htaken : c.taken ++ (ops.content c.outputBuffer).take n.toNat =
      c'.taken ++ (ops'.content c'.outputBuffer).take n.toNat := by
    rw [h.taken_eq, hops.content_eq _ _ h.outputBuffer]
  have hmoved : Related R
      { c with taken := c.taken ++ (ops.content c.outputBuffer).take n.toNat, outputBuffer := b }
      { c' with
        taken := c'.taken ++ (ops'.content c'.outputBuffer).take n.toNat
        outputBuffer := b' } :=
    ⟨h.state_eq, h.channel_eq, h.inputBuffer, hb, htaken, h.shutdowns_eq⟩
  refine SameOutcome.ite (by rw [hops.getReadableBytes_eq _ _ hb]) (fun _ => ?_) fun _ => .ok hmoved
  refine (related_changeInterest hops hmoved _).bind fun d d' hd => ?_
  exact SameOutcome.ite (by rw [hd.state_eq]) (fun _ => .ok (related_shutdownInLoop hops hd))
    fun _ => .ok hd

/-- `__HandleClose`. -/
theorem related_handleClose (hops : BufferRelation ops ops' R) (h : Related R c c') :
    SameOutcome (RelatedResult R) (c.handleClose ops) (c'.handleClose ops') := by
  refine related_check h (fun eState => eState = .eConnected ∨ eState = .eDisconnecting) ?_
  exact (related_changeInterest hops h _).bind fun d d' hd => .ok ⟨hd, rfl⟩

/-- What is read is stored by both input buffers, and counted alike. -/
def Reads (ops : ConnectionOps χ β ρ) (ops' : ConnectionOps χ β' ρ') (R : β → β' → Prop)
    (c : ConnectionOver χ β) (c' : ConnectionOver χ β') (result : ρ) (result' : ρ') : Prop :=
  SameOutcome (fun r r' => R r.1 r'.1 ∧ r.2 = r'.2) (ops.readFd c.inputBuffer result)
    (ops'.readFd c'.inputBuffer result')

/-- `__HandleRead`. -/
theorem related_handleRead (hops : BufferRelation ops ops' R) (h : Related R c c') {result : ρ}
    {result' : ρ'} (hreads : Reads ops ops' R c c' result result') :
    SameOutcome (RelatedResult R) (c.handleRead ops result) (c'.handleRead ops' result') := by
  refine SameOutcome.bind hreads ?_
  rintro ⟨b, n⟩ ⟨b', n'⟩ ⟨hb, rfl⟩
  have hread : Related R { c with inputBuffer := b } { c' with inputBuffer := b' } :=
    ⟨h.state_eq, h.channel_eq, hb, h.outputBuffer, h.taken_eq, h.shutdowns_eq⟩
  refine SameOutcome.ite Iff.rfl (fun _ => .ok ⟨hread, rfl⟩) fun _ => ?_
  refine SameOutcome.ite Iff.rfl (fun _ => ?_) fun _ => .ok ⟨hread, rfl⟩
  exact (related_handleClose hops hread).bind fun r r' hr => .ok ⟨hr.1, congrArg some hr.2⟩

/-- The buffer that the call fills stores what it gets. -/
def Fills (ops : ConnectionOps χ β ρ) (ops' : ConnectionOps χ β' ρ') (reads : ReadvResult → ρ)
    (reads' : ReadvResult → ρ') (R : β → β' → Prop) (c : ConnectionOver χ β)
    (c' : ConnectionOver χ β') : ConnectionCall → Prop
  | .send rMessage result => c.state = .eConnected → Appends ops ops' R c c' rMessage result
  | .sendInLoop rMessage result => Appends ops ops' R c c' rMessage result
  | .handleRead result => Reads ops ops' R c c' (reads result) (reads' result)
  | _ => True

/-- **A call on two connections over related buffers** ends with the same fault, or gives the same
and leaves two such connections. -/
theorem related_call {reads : ReadvResult → ρ} {reads' : ReadvResult → ρ'}
    (hops : BufferRelation ops ops' R) (h : Related R c c') {call : ConnectionCall}
    (hfills : Fills ops ops' reads reads' R c c' call) :
    SameOutcome (RelatedResult R) (c.call ops reads call) (c'.call ops' reads' call) := by
  cases call with
  | connectEstablished =>
      exact (related_connectEstablished hops h).map fun r r' hr => ⟨hr.1, by rw [hr.2]⟩
  | connectDestroyed =>
      exact (related_connectDestroyed hops h).map fun r r' hr => ⟨hr.1, by rw [hr.2]⟩
  | removeChannel => exact (related_removeChannel hops h).map fun d d' hd => ⟨hd, rfl⟩
  | send rMessage result =>
      exact (related_send hops h hfills).map fun d d' hd => ⟨hd, by rw [h.state_eq]⟩
  | sendInLoop rMessage result =>
      exact (related_sendInLoop hops h hfills).map fun d d' hd => ⟨hd, rfl⟩
  | shutDown => exact .ok ⟨related_shutDown hops h, rfl⟩
  | shutdownInLoop => exact .ok ⟨related_shutdownInLoop hops h, rfl⟩
  | handleRead result =>
      exact (related_handleRead hops h hfills).map fun r r' hr => ⟨hr.1, by rw [hr.2]⟩
  | handleWrite n => exact (related_handleWrite hops h n).map fun d d' hd => ⟨hd, rfl⟩
  | handleClose => exact (related_handleClose hops h).map fun r r' hr => ⟨hr.1, by rw [hr.2]⟩
  | retrieve nLen =>
      refine (hops.retrieve _ _ nLen h.inputBuffer).map fun b b' hb => ⟨?_, ?_⟩
      · exact ⟨h.state_eq, h.channel_eq, hb, h.outputBuffer, h.taken_eq, h.shutdowns_eq⟩
      · rw [hops.content_eq _ _ h.inputBuffer]
  | retrieveAsString =>
      refine (hops.retrieveAsString _ _ h.inputBuffer).map fun r r' hr => ⟨?_, by rw [hr.1]⟩
      exact ⟨h.state_eq, h.channel_eq, hr.2, h.outputBuffer, h.taken_eq, h.shutdowns_eq⟩

end ConnectionOver

end related

end Neconet
