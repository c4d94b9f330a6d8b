import Neconet.Base.Fault
import Neconet.Base.Timespec
import Neconet.Lib.OrderedSet
import Neconet.Lib.Transition
import Mathlib.Data.Prod.Lex
import Mathlib.Order.Lattice

/-!
# `CTimerQueue`

The timers of `net/CTimerQueue.cpp` and `net/CTimer.cpp` on the loop thread: `__AddTimerInLoop`, and
a pass of `__HandleRead` from one timer to the next, with the callbacks that add timers in the
middle of it. Other threads queue their timers as functors for the loop thread. A timer is an
address in a heap that hands out any address that is free, also one used before; a member function
of a timer that has been deleted is a fault.

Timestamps are microseconds, as integers; the additions and subtractions of the source on them do
not overflow. The repetition interval is the one that `AddTime` adds, in microseconds. Of the
timerfd it is recorded how it was last set since it was last read.

* `CTimer`, `CTimerQueue`: the timers and the queue.
* `Action`, `Step`: the steps, and the step relation.
-/

namespace Neconet

set_option linter.unusedSectionVars false

open Transition

/-! ## Timers -/

/-- A timer; its number counts the timers in the order of their construction.
Source: `net/CTimer.h` -/
structure CTimer where
  /-- `m_iExpiration`. -/
  expiration : ℤ
  /-- What `AddTime` adds for `m_dfInterval`. -/
  delta : ℤ
  /-- `m_bRepeat`. -/
  repeats : Bool
  /-- The number of the timer. -/
  num : ℕ
  deriving DecidableEq, Repr

namespace CTimer

/-- Source: `base/CTimestamp.cpp`, `CTimestamp::Invalid` -/
def invalid : ℤ := 0

/-- Source: `base/CTimestamp.cpp`, `CTimestamp::IsValid` -/
def IsValid (t : ℤ) : Prop := t > 0

instance (t : ℤ) : Decidable (IsValid t) := inferInstanceAs (Decidable (t > 0))

/-- Source: `net/CTimer.cpp`, `CTimer::Restart` -/
def restart (t : CTimer) (iNowTime : ℤ) : CTimer :=
  if t.repeats then { t with expiration := iNowTime + t.delta }
  else { t with expiration := invalid }

end CTimer

/-- An entry of `m_ssTimers`: a timestamp and the address of a timer.
Source: `net/CTimerQueue.h`, `ENTRY` -/
structure Entry where
  /-- The timestamp. -/
  first : ℤ
  /-- The address. -/
  second : ℕ
  deriving DecidableEq, Repr

/-- Entries are compared by the timestamp, then by the address. -/
instance : LinearOrder Entry :=
  LinearOrder.lift' (fun e => toLex (e.first, e.second)) fun e e' h => by
    cases e
    cases e'
    simpa using h

namespace Entry

/-- The order of the entries. -/
theorem lt_iff {e e' : Entry} :
    e < e' ↔ e.first < e'.first ∨ e.first = e'.first ∧ e.second < e'.second :=
  Prod.Lex.toLex_lt_toLex

/-- A smaller entry has no later timestamp. -/
theorem first_le_of_le {e e' : Entry} (h : e ≤ e') : e.first ≤ e'.first := by
  rcases h.lt_or_eq with hlt | rfl
  · rcases lt_iff.mp hlt with hlt | ⟨heq, -⟩
    · exact hlt.le
    · exact heq.le
  · exact le_rfl

/-- An entry with an earlier timestamp is smaller. -/
theorem lt_of_first_lt {e e' : Entry} (h : e.first < e'.first) : e < e' := lt_iff.mpr (Or.inl h)

end Entry

/-- `UINTPTR_MAX`. -/
def uintptrMax : ℕ := 2 ^ 64 - 1

/-! ## The timerfd -/

/-- Source: `net/CTimerQueue.cpp`, `HowMuchTimeFromNow` -/
def howMuchTimeFromNow (iWhen now : ℤ) : Timespec :=
  let nMicroseconds := if iWhen - now < 100 then 100 else iWhen - now
  ⟨nMicroseconds.tdiv 1000000, nMicroseconds.tmod 1000000 * 1000⟩

/-- How the timerfd was set. -/
structure Setting where
  /-- The expiration for which it was set. -/
  expiration : ℤ
  /-- The time at which it was set. -/
  now : ℤ
  /-- The relative time until it becomes readable. -/
  value : Timespec
  deriving DecidableEq, Repr

/-- Source: `net/CTimerQueue.cpp`, `ResetTimerFd` -/
def resetTimerFd (iExpiration now : ℤ) : Setting :=
  ⟨iExpiration, now, howMuchTimeFromNow iExpiration now⟩

/-! ## The queue -/

/-- Where the loop thread is with the timers. -/
inductive Pass
  /-- Outside `__HandleRead`. -/
  | idle
  /-- In `__HandleRead`, in front of the `Run` of the first of `rest`; those of `ran` have run. -/
  | running (iNow : ℤ) (ran rest : List Entry)
  /-- In the callback of the last of `ran`. -/
  | inCallback (iNow : ℤ) (ran rest : List Entry)
  /-- In `__ResetTimers`, in front of the first of `rest`. -/
  | resetting (iNow : ℤ) (rest : List Entry)
  /-- The destructor is over. -/
  | destroyed
  deriving DecidableEq, Repr

/-- The timers of the pass that have run and that `__ResetTimers` has not processed yet. -/
def Pass.hasRun : Pass → List Entry
  | running _ ran _ => ran
  | inCallback _ ran _ => ran
  | resetting _ rest => rest
  | _ => []

/-- The timers of the pass that will run. -/
def Pass.toRun : Pass → List Entry
  | running _ _ rest => rest
  | inCallback _ _ rest => rest
  | _ => []

/-- The loop thread may call `AddTimer`. -/
def Pass.AllowsAdd : Pass → Prop
  | idle => True
  | inCallback _ _ _ => True
  | _ => False

/-- What happens to a timer. -/
inductive TimerEvent
  /-- `Run`. -/
  | run (num : ℕ)
  /-- `delete`. -/
  | free (num : ℕ)
  deriving DecidableEq, Repr

/-- The number of the timer. -/
def TimerEvent.num : TimerEvent → ℕ
  | run num => num
  | free num => num

/-- The queue with the heap of timers.
Source: `net/CTimerQueue.h` -/
structure CTimerQueue where
  /-- The timers by their addresses. -/
  heap : ℕ → Option CTimer
  /-- `m_ssTimers`. -/
  timers : OrderedSet Entry
  /-- The timers bound in the functors that other threads have queued, in order. -/
  queued : List ℕ
  /-- How the timerfd was last set, if it was since it was last read. -/
  setting : Option Setting
  /-- Where the loop thread is. -/
  pass : Pass
  /-- The timers as they were constructed, in order. -/
  created : List CTimer
  /-- What has happened to the timers. -/
  log : List TimerEvent
  /-- How the program has ended, if it has. -/
  fault : Option Fault

namespace CTimerQueue

/-- Source: `net/CTimerQueue.cpp`, `CTimerQueue::CTimerQueue` -/
def new : CTimerQueue where
  heap _ := none
  timers := .empty
  queued := []
  setting := none
  pass := .idle
  created := []
  log := []
  fault := none

/-- The timer at the address, for a call of one of its member functions. -/
def getTimer (s : CTimerQueue) (p : ℕ) : Except Fault CTimer :=
  match s.heap p with
  | some t => .ok t
  | none => .error .useAfterFree

/-- `new CTimer`, at the address `p`.
Source: `net/CTimer.cpp`, `CTimer::CTimer` -/
def newTimer (s : CTimerQueue) (iWhen delta : ℤ) (repeats : Bool) (p : ℕ) : CTimerQueue :=
  let t : CTimer := ⟨iWhen, delta, repeats, s.created.length⟩
  { s with heap := Function.update s.heap p (some t), created := s.created ++ [t] }

/-- `delete`. -/
def delete (s : CTimerQueue) (p : ℕ) : Except Fault CTimerQueue := do
  let t ← s.getTimer p
  .ok { s with heap := Function.update s.heap p none, log := s.log ++ [.free t.num] }

/-- Source: `net/CTimer.cpp`, `CTimer::Run` -/
def run (s : CTimerQueue) (p : ℕ) : Except Fault CTimerQueue := do
  let t ← s.getTimer p
  .ok { s with log := s.log ++ [.run t.num] }

/-- `bEarliestChanged` of `__InsertTimer`.
Source: `net/CTimerQueue.cpp`, `CTimerQueue::__InsertTimer` -/
def earliestChanged (s : CTimerQueue) (iWhen : ℤ) : Bool :=
  match s.timers.begin? with
  | none => true
  | some e => decide (iWhen < e.first)

/-- The queue and the value of `bEarliestChanged`.
Source: `net/CTimerQueue.cpp`, `CTimerQueue::__InsertTimer` -/
def insertTimer (s : CTimerQueue) (p : ℕ) : Except Fault (CTimerQueue × Bool) := do
  let t ← s.getTimer p
  let iWhen := t.expiration
  let spResult := s.timers.insert ⟨iWhen, p⟩
  check (spResult.2 = true)
  .ok ({ s with timers := spResult.1 }, s.earliestChanged iWhen)

/-- Source: `net/CTimerQueue.cpp`, `CTimerQueue::__AddTimerInLoop` -/
def addTimerInLoop (s : CTimerQueue) (p : ℕ) (now : ℤ) : Except Fault CTimerQueue := do
  let r ← s.insertTimer p
  if r.2 then
    let t ← r.1.getTimer p
    .ok { r.1 with setting := some (resetTimerFd t.expiration now) }
  else .ok r.1

/-- The expired entries and the queue without them.
Source: `net/CTimerQueue.cpp`, `CTimerQueue::__GetExpired` -/
def getExpired (s : CTimerQueue) (iNow : ℤ) : Except Fault (List Entry × CTimerQueue) := do
  let spSentry : Entry := ⟨iNow, uintptrMax⟩
  let rest := s.timers.eraseBelow spSentry
  check (∀ e ∈ rest.begin?, iNow < e.first)
  .ok (s.timers.below spSentry, { s with timers := rest })

/-- `__HandleRead`, up to the loop.
Source: `net/CTimerQueue.cpp`, `CTimerQueue::__HandleRead`, `ReadTimerfd` -/
def handleRead (s : CTimerQueue) (iNow : ℤ) : Except Fault CTimerQueue := do
  let r ← getExpired { s with setting := none } iNow
  .ok { r.2 with pass := .running iNow [] r.1 }

/-- One timer of the loop in `__ResetTimers`.
Source: `net/CTimerQueue.cpp`, `CTimerQueue::__ResetTimers` -/
def resetTimer (s : CTimerQueue) (iNow : ℤ) (p : ℕ) : Except Fault CTimerQueue := do
  let t ← s.getTimer p
  if t.repeats then
    let r ← insertTimer { s with heap := Function.update s.heap p (some (t.restart iNow)) } p
    .ok r.1
  else s.delete p

/-- `__ResetTimers` behind its loop.
Source: `net/CTimerQueue.cpp`, `CTimerQueue::__ResetTimers` -/
def rearm (s : CTimerQueue) (now : ℤ) : Except Fault CTimerQueue := do
  let iNextExpire ←
    match s.timers.begin? with
    | none => .ok CTimer.invalid
    | some e => do
        let t ← s.getTimer e.second
        .ok t.expiration
  if CTimer.IsValid iNextExpire then
    .ok { s with setting := some (resetTimerFd iNextExpire now) }
  else .ok s

/-- The loop of the destructor.
Source: `net/CTimerQueue.cpp`, `CTimerQueue::~CTimerQueue` -/
def deleteAll (s : CTimerQueue) : List Entry → Except Fault CTimerQueue
  | [] => .ok s
  | e :: rest => do
      let s' ← s.delete e.second
      s'.deleteAll rest

/-! ## Steps -/

/-- The steps. -/
inductive Action
  /-- `AddTimer` in the loop thread: in a callback, or outside `__HandleRead`. -/
  | addTimer (iWhen delta : ℤ) (repeats : Bool) (p : ℕ) (now : ℤ)
  /-- `AddTimer` in another thread, which queues a functor. -/
  | queueTimer (iWhen delta : ℤ) (repeats : Bool) (p : ℕ)
  /-- The first of these functors is called. -/
  | callFunctor (now : ℤ)
  /-- `__HandleRead`, up to the loop. -/
  | handleRead (iNow : ℤ)
  /-- The `Run` of the next timer calls its callback. -/
  | run
  /-- The callback returns. -/
  | returnCallback
  /-- `__ResetTimers` begins. -/
  | beginReset
  /-- The next timer in `__ResetTimers`. -/
  | reset
  /-- The end of `__ResetTimers`. -/
  | endReset (now : ℤ)
  /-- The destructor. -/
  | destroy
  deriving DecidableEq, Repr

/-- What becomes of the queue when a call succeeds or ends the program. -/
def settle (s : CTimerQueue) : Except Fault CTimerQueue → CTimerQueue
  | .ok s' => s'
  | .error e => { s with fault := some e }

/-- One step, as a relation between states. Whoever makes a timer gets any address that is free. -/
inductive Step (s : CTimerQueue) : Action → CTimerQueue → Prop
  | addTimer (iWhen delta : ℤ) (repeats : Bool) (p : ℕ) (now : ℤ) (hfault : s.fault = none)
      (hpass : s.pass.AllowsAdd) (hfree : s.heap p = none) (hp : p < uintptrMax) :
      Step s (.addTimer iWhen delta repeats p now)
        (s.settle ((s.newTimer iWhen delta repeats p).addTimerInLoop p now))
  | queueTimer (iWhen delta : ℤ) (repeats : Bool) (p : ℕ) (hfault : s.fault = none)
      (hpass : s.pass ≠ .destroyed) (hfree : s.heap p = none) (hp : p < uintptrMax) :
      Step s (.queueTimer iWhen delta repeats p)
        { s.newTimer iWhen delta repeats p with queued := s.queued ++ [p] }
  | callFunctor (now : ℤ) {p : ℕ} {rest : List ℕ} (hfault : s.fault = none)
      (hpass : s.pass = .idle) (hqueued : s.queued = p :: rest) :
      Step s (.callFunctor now) (s.settle (addTimerInLoop { s with queued := rest } p now))
  | handleRead (iNow : ℤ) (hfault : s.fault = none) (hpass : s.pass = .idle) :
      Step s (.handleRead iNow) (s.settle (s.handleRead iNow))
  | run {iNow : ℤ} {ran rest : List Entry} {e : Entry} (hfault : s.fault = none)
      (hpass : s.pass = .running iNow ran (e :: rest)) :
      Step s .run
        (s.settle (CTimerQueue.run { s with pass := .inCallback iNow (ran ++ [e]) rest } e.second))
  | returnCallback {iNow : ℤ} {ran rest : List Entry} (hfault : s.fault = none)
      (hpass : s.pass = .inCallback iNow ran rest) :
      Step s .returnCallback { s with pass := .running iNow ran rest }
  | beginReset {iNow : ℤ} {ran : List Entry} (hfault : s.fault = none)
      (hpass : s.pass = .running iNow ran []) :
      Step s .beginReset { s with pass := .resetting iNow ran }
  | reset {iNow : ℤ} {rest : List Entry} {e : Entry} (hfault : s.fault = none)
      (hpass : s.pass = .resetting iNow (e :: rest)) :
      Step s .reset (s.settle (resetTimer { s with pass := .resetting iNow rest } iNow e.second))
  | endReset (now : ℤ) {iNow : ℤ} (hfault : s.fault = none) (hpass : s.pass = .resetting iNow []) :
      Step s (.endReset now) (s.settle (rearm { s with pass := .idle } now))
  | destroy (hfault : s.fault = none) (hpass : s.pass = .idle) :
      Step s .destroy
        (s.settle (deleteAll { s with timers := .empty, pass := .destroyed } s.timers.toList))

end CTimerQueue

end Neconet
