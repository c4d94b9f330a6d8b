import Mathlib.Tactic

/-!
# `CChannel`

The interest and event bits of `net/CChannel.cpp`, and the fields of a channel that the poller
reads and writes.

* `Events` with the `poll` bits, and the four changes of interest as functions on it.
* `CChannel`: the fields of a channel.
* `Handler`, `handlersOf`: the handlers that `CChannel::HandleEvent` calls for given event bits, in
  its order.
-/

namespace Neconet

/-- An `int` of event bits. -/
abbrev Events := BitVec 32

/-! ## The bits of `poll.h` -/

/-- `POLLIN`. -/
def pollIn : Events := 0x001#32

/-- `POLLPRI`. -/
def pollPri : Events := 0x002#32

/-- `POLLOUT`. -/
def pollOut : Events := 0x004#32

/-- `POLLERR`. -/
def pollErr : Events := 0x008#32

/-- `POLLHUP`. -/
def pollHup : Events := 0x010#32

/-- `POLLNVAL`. -/
def pollNval : Events := 0x020#32

/-- `POLLRDHUP`. -/
def pollRdHup : Events := 0x2000#32

/-! ## Interest -/

/-- `CChannel::sm_nNoneEvent`.
Source: `net/CChannel.cpp` -/
def noneEvent : Events := 0#32

/-- `CChannel::sm_nReadEvent`.
Source: `net/CChannel.cpp` -/
def readEvent : Events := pollIn ||| pollPri

/-- `CChannel::sm_nWriteEvent`.
Source: `net/CChannel.cpp` -/
def writeEvent : Events := pollOut

/-- The four changes of interest a channel offers. -/
inductive InterestOp
  | setEnableReading
  | setEnableWriting
  | disableWriting
  | disableAll
  deriving DecidableEq, Repr

/-- What the change does to `m_nEvents`, before `__UpdateChannel`.
Source: `net/CChannel.cpp`, `CChannel::SetEnableReading`, `CChannel::SetEnableWriting`,
`CChannel::DisableWriting`, `CChannel::DisableAll` -/
def InterestOp.apply (nEvents : Events) : InterestOp → Events
  | setEnableReading => nEvents ||| readEvent
  | setEnableWriting => nEvents ||| writeEvent
  | disableWriting => nEvents &&& ~~~writeEvent
  | disableAll => noneEvent

/-- The change adds interest. -/
def InterestOp.Enables : InterestOp → Prop
  | setEnableReading => True
  | setEnableWriting => True
  | disableWriting => False
  | disableAll => False

instance : DecidablePred InterestOp.Enables := fun op => by
  cases op <;> unfold InterestOp.Enables <;> infer_instance

/-- `CChannel::IsNoneEvent`, on the interest bits.
Source: `net/CChannel.cpp`, `CChannel::IsNoneEvent` -/
def isNoneEvent (nEvents : Events) : Bool := nEvents == noneEvent

/-- `CChannel::IsWriting`, on the interest bits.
Source: `net/CChannel.cpp`, `CChannel::IsWriting` -/
def isWriting (nEvents : Events) : Bool := (nEvents &&& writeEvent) != 0#32

/-- No interest is no write interest. -/
@[simp] theorem isWriting_noneEvent : isWriting noneEvent = false := by decide

/-- No change but `SetEnableWriting` begins to watch for writing. -/
theorem InterestOp.isWriting_apply {op : InterestOp} {nEvents : Events}
    (h : isWriting nEvents = false) (hop : op ≠ .setEnableWriting) :
    isWriting (op.apply nEvents) = false := by
  have hnone : nEvents &&& writeEvent = 0#32 := by simpa [isWriting] using h
  cases op with
  | setEnableWriting => exact absurd rfl hop
  | disableAll => exact isWriting_noneEvent
  | setEnableReading =>
      have hread : readEvent &&& writeEvent = 0#32 := by decide
      simp only [isWriting, apply, BitVec.and_or_distrib_right, hnone, hread]
      rfl
  | disableWriting =>
      have hself : ~~~writeEvent &&& writeEvent = 0#32 := by decide
      simp only [isWriting, apply, BitVec.and_assoc, hself, BitVec.and_zero]
      rfl

/-- The interests that the four changes build up from none: reading, writing, or both. -/
def IsInterest (nEvents : Events) : Prop :=
  nEvents = noneEvent ∨ nEvents = readEvent ∨ nEvents = writeEvent ∨
    nEvents = readEvent ||| writeEvent

/-- The changes lead from interests to interests. -/
theorem IsInterest.apply {nEvents : Events} (h : IsInterest nEvents) (op : InterestOp) :
    IsInterest (op.apply nEvents) := by
  rcases h with rfl | rfl | rfl | rfl <;> cases op <;> unfold IsInterest <;> decide

/-- An interest is read back from the `short` of a `pollfd`. -/
theorem IsInterest.signExtend_truncate {nEvents : Events} (h : IsInterest nEvents) :
    (nEvents.truncate 16).signExtend 32 = nEvents := by
  rcases h with rfl | rfl | rfl | rfl <;> decide

/-- A change that adds interest leaves some. -/
theorem InterestOp.Enables.apply_ne {nEvents : Events} (h : IsInterest nEvents) {op : InterestOp}
    (hop : op.Enables) : isNoneEvent (op.apply nEvents) = false := by
  rcases h with rfl | rfl | rfl | rfl <;> cases op <;> first | exact hop.elim | decide

/-- A change that removes interest leaves none where there was none. -/
theorem InterestOp.apply_noneEvent {op : InterestOp} (hop : ¬ op.Enables) :
    op.apply noneEvent = noneEvent := by
  cases op with
  | setEnableReading | setEnableWriting => exact absurd trivial hop
  | disableWriting | disableAll => decide

/-! ## The fields -/

/-- The fields of a channel that the poller uses.
Source: `net/CChannel.h` -/
structure CChannel where
  /-- `m_nFd`. -/
  fd : ℤ
  /-- `m_nEvents`. -/
  events : Events
  /-- `m_nREvents`. -/
  revents : Events
  /-- `m_nIndex`. -/
  index : ℤ
  deriving DecidableEq, Repr

/-- `CChannel::CChannel`.
Source: `net/CChannel.cpp`, `CChannel::CChannel` -/
def CChannel.new (nFd : ℤ) : CChannel where
  fd := nFd
  events := noneEvent
  revents := noneEvent
  index := -1

/-! ## Dispatch -/

/-- The callbacks of a channel. -/
inductive Handler
  | close
  | error
  | read
  | write
  deriving DecidableEq, Repr

/-- The callbacks that `HandleEvent` calls for the event bits `m_nREvents`, in its order. No
callback changes `m_nREvents`. The source tests of each callback whether it is set before it calls
it; here all of them are set, or one that is not counts as a callback that does nothing.
Source: `net/CChannel.cpp`, `CChannel::HandleEvent` -/
def handlersOf (nREvents : Events) : List Handler :=
  (if nREvents &&& pollHup ≠ 0 ∧ ¬ nREvents &&& pollIn ≠ 0 then [.close] else []) ++
  (if nREvents &&& (pollErr ||| pollNval) ≠ 0 then [.error] else []) ++
  (if nREvents &&& (pollIn ||| pollPri ||| pollRdHup) ≠ 0 then [.read] else []) ++
  (if nREvents &&& pollOut ≠ 0 then [.write] else [])

end Neconet
