import Neconet.Base.Fault
import Neconet.Net.EventLoop

/-!
# `CEventLoopThread`

The life of a `CEventLoopThread` of `net/CEventLoopThread.cpp`: the thread that owns the object in
the constructor, in `StartLoop` and in the destructor, and the loop thread in `__ThreadFunc`, one
statement at a time. A wait on `m_iCond` releases `m_iMutex` and blocks in one step, and can end
without a notification. `iLoop` is the loop of `Net/EventLoop.lean`, with the owning thread and any
number of others as its clients.

`CThread::Start` is the step `create`: if it succeeds, both threads go on behind it, which
`CThread.latch_run` allows in either order; if it fails, `Start` returns all the same.

* `CEventLoopThread`, `Action`, `Step`: the states, the steps, and the step relation.
* `quit_cases` and the like: a step that may end the program does its work or ends it.
* `LoopInv`: where the loop is, in every reachable state.
-/

namespace Neconet

set_option linter.unusedSectionVars false

open Transition

/-! ## States and steps -/

/-- The two threads. -/
inductive Side
  /-- The thread that owns the `CEventLoopThread`. -/
  | owner
  /-- The thread in `__ThreadFunc`. -/
  | loopThread
  deriving DecidableEq, Repr

/-- Where the owning thread is. -/
inductive OwnerPc
  /-- `StartLoop` has not been called. -/
  | outside
  /-- In `StartLoop`, in `m_iThread.Start()`. -/
  | creating
  /-- In `StartLoop`, in front of the mutex. -/
  | locking
  /-- In `StartLoop`, in front of `while(m_iEventLoop == NULL)`. -/
  | testing
  /-- In `StartLoop`, in front of `m_iCond.Wait()`. -/
  | waiting
  /-- Blocked in `m_iCond.Wait()`. -/
  | blocked
  /-- Woken in `m_iCond.Wait()`, but without the mutex. -/
  | woken
  /-- In `StartLoop`, behind the loop. -/
  | unlocking
  /-- `StartLoop` has returned. -/
  | started
  /-- In the destructor, in front of `m_iEventLoop->QuitLoop()`. -/
  | quitting
  /-- In `QuitLoop`, in front of `Wakeup()`. -/
  | waking
  /-- In the destructor, in front of `m_iThread.ThreadJoin()`. -/
  | joining
  /-- In `pthread_join`. -/
  | joined
  /-- The destructor is over. -/
  | destroyed
  deriving DecidableEq, Repr

/-- The owning thread has the mutex. -/
def OwnerPc.Inside (p : OwnerPc) : Prop := p = .testing ∨ p = .waiting ∨ p = .unlocking

/-- The destructor has called `QuitLoop`, which has set `m_bQuit`. -/
def OwnerPc.QuitCalled (p : OwnerPc) : Prop :=
  p = .waking ∨ p = .joining ∨ p = .joined ∨ p = .destroyed

instance (p : OwnerPc) : Decidable p.QuitCalled := inferInstanceAs (Decidable (_ ∨ _))

/-- `StartLoop` has left its loop. -/
def OwnerPc.HasLoop (p : OwnerPc) : Prop :=
  p = .unlocking ∨ p = .started ∨ p = .quitting ∨ p.QuitCalled

/-- Where the loop thread is. -/
inductive LoopThreadPc
  /-- There is no loop thread. -/
  | absent
  /-- In front of `CEventLoop iLoop`. -/
  | constructing
  /-- In front of the mutex. -/
  | locking
  /-- In front of `m_iEventLoop = &iLoop`. -/
  | publishing
  /-- In front of `m_iCond.Notify()`. -/
  | notifying
  /-- Behind it. -/
  | unlocking
  /-- In front of `iLoop.StartLoop()`. -/
  | entering
  /-- In `iLoop.StartLoop()`. -/
  | looping
  /-- Behind it. -/
  | leaving
  /-- The scope of `iLoop` has ended. -/
  | ended
  deriving DecidableEq, Repr

/-- The loop thread has the mutex. -/
def LoopThreadPc.Inside (p : LoopThreadPc) : Prop :=
  p = .publishing ∨ p = .notifying ∨ p = .unlocking

/-- `iLoop` exists. -/
def LoopThreadPc.InScope (p : LoopThreadPc) : Prop :=
  p ≠ .absent ∧ p ≠ .constructing ∧ p ≠ .ended

instance (p : LoopThreadPc) : Decidable p.InScope := inferInstanceAs (Decidable (_ ∧ _))

/-- The loop thread will set `m_iEventLoop`, or has set it and will notify. -/
def LoopThreadPc.WillNotify (p : LoopThreadPc) : Prop :=
  p = .constructing ∨ p = .locking ∨ p = .publishing ∨ p = .notifying

/-- The object with the positions of the two threads. The clients of the loop are the owning thread,
`none`, and those to which it has given the pointer.
Source: `net/CEventLoopThread.h` -/
structure CEventLoopThread (F T : Type) where
  /-- `m_iEventLoop` is not null. -/
  eventLoop : Bool
  /-- `m_bExiting`. -/
  exiting : Bool
  /-- `m_bStarted` of `m_iThread`. -/
  started : Bool
  /-- `m_bJoined` of `m_iThread`. -/
  joined : Bool
  /-- The owner of `m_iMutex`. -/
  mutexOwner : Option Side
  /-- The position of the owning thread. -/
  ownerPc : OwnerPc
  /-- The position of the loop thread. -/
  threadPc : LoopThreadPc
  /-- `iLoop` in `__ThreadFunc`. -/
  loop : CEventLoop F (Option T)
  /-- How the program has ended, if it has. -/
  fault : Option Fault

namespace CEventLoopThread

variable {F T : Type}

/-- Source: `net/CEventLoopThread.cpp`, `CEventLoopThread::CEventLoopThread` -/
def new : CEventLoopThread F T where
  eventLoop := false
  exiting := false
  started := false
  joined := false
  mutexOwner := none
  ownerPc := .outside
  threadPc := .absent
  loop := .new
  fault := none

/-- The steps. -/
inductive Action (F T : Type)
  /-- `StartLoop`, up to `pthread_create`. -/
  | callStartLoop
  /-- `pthread_create`, which succeeds or fails, and the return of `m_iThread.Start()`. -/
  | create (ok : Bool)
  /-- `StartLoop` takes the mutex. -/
  | lock
  /-- The condition of the loop in `StartLoop`. -/
  | test
  /-- `m_iCond.Wait()` releases the mutex and blocks. -/
  | block
  /-- The owning thread is woken without a notification. -/
  | wakeSpuriously
  /-- `m_iCond.Wait()` has the mutex again and returns. -/
  | relock
  /-- `StartLoop` releases the mutex and returns. -/
  | unlock
  /-- `CEventLoop iLoop`. -/
  | construct
  /-- `__ThreadFunc` takes the mutex. -/
  | threadLock
  /-- `m_iEventLoop = &iLoop`. -/
  | publish
  /-- `m_iCond.Notify()`. -/
  | notify
  /-- `__ThreadFunc` releases the mutex. -/
  | threadUnlock
  /-- A step of the loop thread in `iLoop.StartLoop()`, or of a client of the loop. -/
  | loop (a : CEventLoop.Action F (Option T))
  /-- The scope of `iLoop` ends, and with it the loop thread. -/
  | endScope
  /-- The destructor begins: `m_bExiting = true`. -/
  | destroy
  /-- The destructor calls `m_iEventLoop->QuitLoop()`, which sets `m_bQuit`. -/
  | quit
  /-- The `Wakeup` of this call. -/
  | wakeup (written : Bool)
  /-- `m_iThread.ThreadJoin()`, up to `pthread_join`. -/
  | callJoin
  /-- `pthread_join` returns. -/
  | join
  deriving DecidableEq, Repr

/-- The functions of the source that take steps. -/
inductive Part
  | startLoop
  | threadFunc
  | iLoop
  | destructor
  deriving DecidableEq, Repr

/-- The function that takes the step. -/
def Action.part : Action F T → Part
  | callStartLoop | create _ | lock | test | block | wakeSpuriously | relock | unlock => .startLoop
  | construct | threadLock | publish | notify | threadUnlock | endScope => .threadFunc
  | loop _ => .iLoop
  | destroy | quit | wakeup _ | callJoin | join => .destructor

/-- The client may call on the loop: the owning thread between `StartLoop` and the destructor, the
others when the pointer is set. -/
def HasPointer (s : CEventLoopThread F T) : Option T → Prop
  | none => s.ownerPc = .started
  | some _ => s.eventLoop = true

instance (s : CEventLoopThread F T) : ∀ t, Decidable (s.HasPointer t)
  | none => inferInstanceAs (Decidable (s.ownerPc = .started))
  | some _ => inferInstanceAs (Decidable (s.eventLoop = true))

/-- The thread that takes the step at the loop is where it takes such steps. -/
def MayStep (s : CEventLoopThread F T) : CEventLoop.Action F (Option T) → Prop
  | .startLoop => s.threadPc = .entering
  | .threadQueueInLoop t _ => s.HasPointer t
  | .threadQuitLoop t => s.HasPointer t
  | .threadWakeup t _ => s.HasPointer t
  | _ => s.threadPc = .looping

instance (s : CEventLoopThread F T) (a : CEventLoop.Action F (Option T)) :
    Decidable (s.MayStep a) := by
  cases a <;> unfold MayStep <;> infer_instance

/-- The step can be taken. -/
def Action.Enabled (s : CEventLoopThread F T) : Action F T → Prop
  | callStartLoop => s.ownerPc = .outside
  | create _ => s.ownerPc = .creating
  | lock => s.ownerPc = .locking ∧ s.mutexOwner = none
  | test => s.ownerPc = .testing
  | block => s.ownerPc = .waiting
  | wakeSpuriously => s.ownerPc = .blocked
  | relock => s.ownerPc = .woken ∧ s.mutexOwner = none
  | unlock => s.ownerPc = .unlocking
  | construct => s.threadPc = .constructing
  | threadLock => s.threadPc = .locking ∧ s.mutexOwner = none
  | publish => s.threadPc = .publishing
  | notify => s.threadPc = .notifying
  | threadUnlock => s.threadPc = .unlocking
  | loop a => s.threadPc.InScope ∧ s.MayStep a ∧ a.Enabled s.loop
  | endScope => s.threadPc = .leaving
  | destroy => (s.ownerPc = .outside ∨ s.ownerPc = .started) ∧ s.loop.threads none = .idle
  | quit => s.ownerPc = .quitting
  | wakeup written => s.ownerPc = .waking ∧ (written = false → 0 < s.loop.wakeupCounter)
  | callJoin => s.ownerPc = .joining
  | join => s.ownerPc = .joined ∧ s.threadPc = .ended

instance (s : CEventLoopThread F T) (a : Action F T) : Decidable (a.Enabled s) := by
  cases a <;> unfold Action.Enabled <;> infer_instance

variable [DecidableEq T]

/-- The state after the step.
Source: `net/CEventLoopThread.cpp`, `CEventLoopThread::StartLoop`, `CEventLoopThread::__ThreadFunc`,
`CEventLoopThread::~CEventLoopThread`; `base/CThread.cpp`, `CThread::Start`, `CThread::ThreadJoin`;
`net/CEventLoop.cpp`, `CEventLoop::~CEventLoop`, `CEventLoop::QuitLoop` -/
def Action.next (s : CEventLoopThread F T) : Action F T → CEventLoopThread F T
  | callStartLoop =>
      match check (s.started = false) with
      | .ok _ => { s with started := true, ownerPc := .creating }
      | .error e => { s with fault := some e }
  | create ok =>
      if ok then { s with ownerPc := .locking, threadPc := .constructing }
      else { s with ownerPc := .locking, started := false }
  | lock => { s with mutexOwner := some .owner, ownerPc := .testing }
  | test => { s with ownerPc := if s.eventLoop = false then .waiting else .unlocking }
  | block => { s with mutexOwner := none, ownerPc := .blocked }
  | wakeSpuriously => { s with ownerPc := .woken }
  | relock => { s with mutexOwner := some .owner, ownerPc := .testing }
  | unlock => { s with mutexOwner := none, ownerPc := .started }
  | construct => { s with loop := .new, threadPc := .locking }
  | threadLock => { s with mutexOwner := some .loopThread, threadPc := .publishing }
  | publish => { s with eventLoop := true, threadPc := .notifying }
  | notify =>
      { s with
        ownerPc := if s.ownerPc = .blocked then .woken else s.ownerPc
        threadPc := .unlocking }
  | threadUnlock => { s with mutexOwner := none, threadPc := .entering }
  | loop a =>
      { s with
        loop := a.next s.loop
        threadPc :=
          match a with
          | .startLoop => .looping
          | .testQuit => if s.loop.quit then .leaving else .looping
          | _ => s.threadPc }
  | endScope =>
      match check (s.loop.inLooping = false) with
      | .ok _ => { s with threadPc := .ended }
      | .error e => { s with fault := some e }
  | destroy => { s with exiting := true, ownerPc := .quitting }
  | quit =>
      if s.eventLoop = false then { s with fault := some .nullPointer }
      else if s.threadPc.InScope then
        { s with loop := (CEventLoop.Action.threadQuitLoop none).next s.loop, ownerPc := .waking }
      else { s with fault := some .useAfterFree }
  | wakeup written =>
      if s.threadPc.InScope then
        { s with
          loop := (CEventLoop.Action.threadWakeup none written).next s.loop
          ownerPc := .joining }
      else { s with fault := some .useAfterFree }
  | callJoin =>
      match check (s.started = true), check (s.joined = false) with
      | .ok _, .ok _ => { s with joined := true, ownerPc := .joined }
      | .error e, _ => { s with fault := some e }
      | _, .error e => { s with fault := some e }
  | join => { s with ownerPc := .destroyed }

/-- One step, as a relation between states. -/
def Step (s : CEventLoopThread F T) (a : Action F T) (s' : CEventLoopThread F T) : Prop :=
  (s.fault = none ∧ a.Enabled s) ∧ s' = a.next s

/-! ## Steps that may end the program -/

/-- `StartLoop` starts the thread, unless that has been done. -/
theorem callStartLoop_cases (s : CEventLoopThread F T) :
    Action.next s .callStartLoop = { s with started := true, ownerPc := .creating } ∨
      ∃ e, Action.next s .callStartLoop = { s with fault := some e } := by
  by_cases hstarted : s.started = false
  · left
    simp only [Action.next, check_of hstarted]
  · right
    exact ⟨.assertion, by simp only [Action.next, check_of_not hstarted]⟩

/-- The scope of `iLoop` ends, unless the assertion of `~CEventLoop` fails. -/
theorem endScope_cases (s : CEventLoopThread F T) :
    Action.next s .endScope = { s with threadPc := .ended } ∨
      ∃ e, Action.next s .endScope = { s with fault := some e } := by
  by_cases hlooping : s.loop.inLooping = false
  · left
    simp only [Action.next, check_of hlooping]
  · right
    exact ⟨.assertion, by simp only [Action.next, check_of_not hlooping]⟩

/-- `QuitLoop` sets the flag of a loop that is there. -/
theorem quit_cases (s : CEventLoopThread F T) :
    (s.eventLoop = true ∧ s.threadPc.InScope ∧ Action.next s .quit =
      { s with loop := (CEventLoop.Action.threadQuitLoop none).next s.loop, ownerPc := .waking }) ∨
      ∃ e, Action.next s .quit = { s with fault := some e } := by
  by_cases hnull : s.eventLoop = false
  · exact Or.inr ⟨_, if_pos hnull⟩
  · by_cases hin : s.threadPc.InScope
    · exact Or.inl ⟨by simpa using hnull, hin, (if_neg hnull).trans (if_pos hin)⟩
    · exact Or.inr ⟨_, (if_neg hnull).trans (if_neg hin)⟩

/-- `Wakeup` writes to the `eventfd` of a loop that is there. -/
theorem wakeup_cases (s : CEventLoopThread F T) (written : Bool) :
    Action.next s (.wakeup written) = { s with
      loop := (CEventLoop.Action.threadWakeup none written).next s.loop, ownerPc := .joining } ∨
      ∃ e, Action.next s (.wakeup written) = { s with fault := some e } := by
  by_cases hin : s.threadPc.InScope
  · exact Or.inl (if_pos hin)
  · exact Or.inr ⟨_, if_neg hin⟩

/-- `ThreadJoin` joins the thread, unless one of its assertions fails. -/
theorem callJoin_cases (s : CEventLoopThread F T) :
    Action.next s .callJoin = { s with joined := true, ownerPc := .joined } ∨
      ∃ e, Action.next s .callJoin = { s with fault := some e } := by
  by_cases hstarted : s.started = true
  · by_cases hjoined : s.joined = false
    · left
      simp only [Action.next, check_of hstarted, check_of hjoined]
    · right
      exact ⟨.assertion, by simp only [Action.next, check_of hstarted, check_of_not hjoined]⟩
  · right
    exact ⟨.assertion, by simp only [Action.next, check_of_not hstarted]⟩

/-! ## The loop in the thread -/

/-- A step at the loop takes the loop thread into `StartLoop`, out of it, or nowhere. -/
theorem loop_threadPc {s : CEventLoopThread F T} {a : CEventLoop.Action F (Option T)}
    (hmay : s.MayStep a) :
    (Action.next s (.loop a)).threadPc = s.threadPc ∨
      (s.threadPc = .entering ∨ s.threadPc = .looping) ∧
        ((Action.next s (.loop a)).threadPc = .looping ∨
          (Action.next s (.loop a)).threadPc = .leaving) := by
  cases a with
  | startLoop => exact Or.inr ⟨Or.inl hmay, Or.inl rfl⟩
  | testQuit =>
      refine Or.inr ⟨Or.inr hmay, ?_⟩
      by_cases hquit : s.loop.quit = true <;> simp [Action.next, hquit]
  | _ => exact Or.inl rfl

/-- A step of the loop thread in `StartLoop`, the test of the flag apart, leaves it there. -/
theorem pc_ne_outside_iff {l : CEventLoop F (Option T)} {a : CEventLoop.Action F (Option T)}
    (hen : a.Enabled l) (hstart : a ≠ .startLoop) (htest : a ≠ .testQuit) :
    (a.next l).pc ≠ .outside ↔ l.pc ≠ .outside := by
  cases a with
  | startLoop => exact absurd rfl hstart
  | testQuit => exact absurd rfl htest
  | poll | enterDoPendingFunctors | callFunctor | returnFunctor | leaveDoPendingFunctors =>
      simp [CEventLoop.Action.next, hen.1]
  | swap => simp [CEventLoop.Action.next, show l.pc = _ from hen]
  | handleRead | queueInLoop | wakeup | quitLoop | threadQueueInLoop | threadQuitLoop
  | threadWakeup => exact Iff.rfl

/-- Where the loop is, in every reachable state. -/
structure LoopInv (s : CEventLoopThread F T) : Prop where
  /-- The flags of the loop agree with its position. -/
  controlInv : s.loop.ControlInv
  /-- The loop thread is in `StartLoop` at the one position. -/
  looping_iff : s.threadPc = .looping ↔ s.loop.pc ≠ .outside
  /-- The pointer is set by `__ThreadFunc`. -/
  published : s.eventLoop = true → s.threadPc ≠ .absent ∧ s.threadPc ≠ .constructing ∧
    s.threadPc ≠ .locking ∧ s.threadPc ≠ .publishing
  /-- Only `pthread_create` makes the loop thread. -/
  absent : s.ownerPc = .outside ∨ s.ownerPc = .creating → s.threadPc = .absent

/-- A new object. -/
theorem loopInv_new : LoopInv (new : CEventLoopThread F T) where
  controlInv := CEventLoop.controlInv_new
  looping_iff := by simp [new, CEventLoop.new]
  published h := by cases h
  absent _ := rfl

/-- A step of the owning thread that moves no position in the loop. -/
theorem LoopInv.of_owner {s s' : CEventLoopThread F T} (h : s.LoopInv)
    (hcontrol : s'.loop.ControlInv) (hpc : s'.loop.pc = s.loop.pc)
    (hthread : s'.threadPc = s.threadPc) (hevent : s'.eventLoop = s.eventLoop)
    (howner : s'.ownerPc ≠ .outside ∧ s'.ownerPc ≠ .creating) : s'.LoopInv where
  controlInv := hcontrol
  looping_iff := by rw [hthread, hpc, h.looping_iff]
  published hset := by
    rw [hthread]
    exact h.published (hevent ▸ hset)
  absent hpc := (hpc.elim howner.1 howner.2).elim

/-- The loop is not in `StartLoop` when the loop thread is elsewhere. -/
theorem LoopInv.pc_eq_outside {s : CEventLoopThread F T} (h : s.LoopInv) {p : LoopThreadPc}
    (hpc : s.threadPc = p) (hp : p ≠ .looping) : s.loop.pc = .outside := by
  by_contra hin
  exact hp (hpc.symm.trans (h.looping_iff.mpr hin))

/-- When there is a loop thread, the owning thread has created it. -/
theorem LoopInv.owner_ne {s : CEventLoopThread F T} (h : s.LoopInv) {p : LoopThreadPc}
    (hpc : s.threadPc = p) (hp : p ≠ .absent) : s.ownerPc ≠ .outside ∧ s.ownerPc ≠ .creating := by
  constructor
  · intro howner
    exact hp (hpc.symm.trans (h.absent (Or.inl howner)))
  · intro howner
    exact hp (hpc.symm.trans (h.absent (Or.inr howner)))

/-- The loop thread goes on outside `StartLoop`. -/
theorem LoopInv.of_thread {s' : CEventLoopThread F T} (p : LoopThreadPc)
    (hthread : s'.threadPc = p) (hp : p ≠ .looping) (hcontrol : s'.loop.ControlInv)
    (hpc : s'.loop.pc = .outside)
    (hpublished : s'.eventLoop = true →
      p ≠ .absent ∧ p ≠ .constructing ∧ p ≠ .locking ∧ p ≠ .publishing)
    (howner : s'.ownerPc ≠ .outside ∧ s'.ownerPc ≠ .creating) : s'.LoopInv where
  controlInv := hcontrol
  looping_iff := by
    rw [hthread, hpc]
    exact iff_of_false hp (not_not.mpr rfl)
  published hset := by
    rw [hthread]
    exact hpublished hset
  absent hout := (hout.elim howner.1 howner.2).elim

/-- A step in or at the loop. -/
theorem LoopInv.iLoop {s : CEventLoopThread F T} {a : CEventLoop.Action F (Option T)}
    (h : s.LoopInv) (hmay : s.MayStep a) (hen : a.Enabled s.loop) :
    (Action.next s (.loop a)).LoopInv := by
  have hcontrol := h.controlInv.step _ _ _ ⟨hen, rfl⟩
  cases a with
  | startLoop =>
      have hpc : s.threadPc = .entering := hmay
      have howner := h.owner_ne hpc (by simp)
      exact ⟨hcontrol, by simp [Action.next, CEventLoop.Action.next], by simp [Action.next],
        fun hout => (hout.elim howner.1 howner.2).elim⟩
  | testQuit =>
      have hpc : s.threadPc = .looping := hmay
      have howner := h.owner_ne hpc (by simp)
      by_cases hquit : s.loop.quit = true
      · exact ⟨hcontrol, by simp [Action.next, CEventLoop.Action.next, hquit],
          by simp [Action.next, hquit], fun hout => (hout.elim howner.1 howner.2).elim⟩
      · exact ⟨hcontrol, by simp [Action.next, CEventLoop.Action.next, hquit],
          by simp [Action.next, hquit], fun hout => (hout.elim howner.1 howner.2).elim⟩
  | _ =>
      refine ⟨hcontrol, ?_, h.published, h.absent⟩
      exact h.looping_iff.trans (pc_ne_outside_iff hen (by simp) (by simp)).symm

/-- The end of the program changes nothing else. -/
theorem LoopInv.of_fault {s : CEventLoopThread F T} (h : s.LoopInv) (e : Option Fault) :
    LoopInv { s with fault := e } :=
  ⟨h.controlInv, h.looping_iff, h.published, h.absent⟩

/-- The steps of `StartLoop`. -/
theorem LoopInv.startLoop {s : CEventLoopThread F T} {a : Action F T} (h : s.LoopInv)
    (ha : a.part = .startLoop) (hen : a.Enabled s) : (a.next s).LoopInv := by
  cases a with
  | callStartLoop =>
      have hpc : s.ownerPc = .outside := hen
      rcases callStartLoop_cases s with hnext | ⟨e, hnext⟩
      · rw [hnext]
        exact ⟨h.controlInv, h.looping_iff, h.published, fun _ => h.absent (Or.inl hpc)⟩
      · rw [hnext]
        exact h.of_fault _
  | create ok =>
      cases ok with
      | true =>
          have habsent : s.threadPc = .absent := h.absent (Or.inr hen)
          have hpc := h.pc_eq_outside habsent (by simp)
          refine LoopInv.of_thread .constructing rfl (by simp) h.controlInv hpc (fun hset => ?_)
            (by simp [Action.next])
          exact absurd habsent (h.published hset).1
      | false => exact h.of_owner h.controlInv rfl rfl rfl (by simp [Action.next])
  | test =>
      refine h.of_owner h.controlInv rfl rfl rfl ?_
      by_cases hnull : s.eventLoop = false <;> simp [Action.next, hnull]
  | lock | block | wakeSpuriously | relock | unlock =>
      exact h.of_owner h.controlInv rfl rfl rfl (by simp [Action.next])
  | _ => cases ha

/-- The steps of `__ThreadFunc`. -/
theorem LoopInv.threadFunc {s : CEventLoopThread F T} {a : Action F T} (h : s.LoopInv)
    (ha : a.part = .threadFunc) (hen : a.Enabled s) : (a.next s).LoopInv := by
  cases a with
  | construct =>
      have hpc : s.threadPc = .constructing := hen
      refine LoopInv.of_thread .locking rfl (by simp) CEventLoop.controlInv_new rfl
        (fun hset => ?_) (h.owner_ne hpc (by simp))
      exact absurd hpc (h.published hset).2.1
  | threadLock =>
      have hpc : s.threadPc = .locking := hen.1
      have hout := h.pc_eq_outside hpc (by simp)
      refine LoopInv.of_thread .publishing rfl (by simp) h.controlInv hout (fun hset => ?_)
        (h.owner_ne hpc (by simp))
      exact absurd hpc (h.published hset).2.2.1
  | publish =>
      have hpc : s.threadPc = .publishing := hen
      have hout := h.pc_eq_outside hpc (by simp)
      exact LoopInv.of_thread .notifying rfl (by simp) h.controlInv hout (by simp)
        (h.owner_ne hpc (by simp))
  | notify =>
      have hpc : s.threadPc = .notifying := hen
      have hout := h.pc_eq_outside hpc (by simp)
      refine LoopInv.of_thread .unlocking rfl (by simp) h.controlInv hout (by simp) ?_
      -- the owning thread may be woken
      by_cases hblocked : s.ownerPc = .blocked
      · simp [Action.next, hblocked]
      · simpa [Action.next, hblocked] using h.owner_ne hpc (by simp)
  | threadUnlock =>
      have hpc : s.threadPc = .unlocking := hen
      have hout := h.pc_eq_outside hpc (by simp)
      exact LoopInv.of_thread .entering rfl (by simp) h.controlInv hout (by simp)
        (h.owner_ne hpc (by simp))
  | endScope =>
      have hpc : s.threadPc = .leaving := hen
      have hout := h.pc_eq_outside hpc (by simp)
      rcases endScope_cases s with hnext | ⟨e, hnext⟩
      · rw [hnext]
        exact LoopInv.of_thread .ended rfl (by simp) h.controlInv hout (by simp)
          (h.owner_ne hpc (by simp))
      · rw [hnext]
        exact h.of_fault _
  | _ => cases ha

/-- The steps of the destructor. -/
theorem LoopInv.destructor {s : CEventLoopThread F T} {a : Action F T} (h : s.LoopInv)
    (ha : a.part = .destructor) : (a.next s).LoopInv := by
  obtain ⟨hcalling, hlooping, hwake, hfunctors⟩ := h.controlInv
  cases a with
  | destroy => exact h.of_owner h.controlInv rfl rfl rfl (by simp [Action.next])
  | quit =>
      rcases quit_cases s with ⟨-, -, hnext⟩ | ⟨e, hnext⟩
      · rw [hnext]
        exact h.of_owner ⟨hcalling, hlooping, hwake, hfunctors⟩ rfl rfl rfl (by simp)
      · rw [hnext]
        exact h.of_fault _
  | wakeup written =>
      rcases wakeup_cases s written with hnext | ⟨e, hnext⟩
      · rw [hnext]
        exact h.of_owner ⟨hcalling, hlooping, hwake, hfunctors⟩ rfl rfl rfl (by simp)
      · rw [hnext]
        exact h.of_fault _
  | callJoin =>
      rcases callJoin_cases s with hnext | ⟨e, hnext⟩
      · rw [hnext]
        exact h.of_owner h.controlInv rfl rfl rfl (by simp)
      · rw [hnext]
        exact h.of_fault _
  | join => exact h.of_owner h.controlInv rfl rfl rfl (by simp [Action.next])
  | _ => cases ha

/-- Every step keeps the invariant. -/
theorem LoopInv.step (s : CEventLoopThread F T) (a : Action F T) (s' : CEventLoopThread F T)
    (h : s.LoopInv) (hst : Step s a s') : s'.LoopInv := by
  obtain ⟨⟨-, hen⟩, rfl⟩ := hst
  cases hpart : a.part with
  | startLoop => exact h.startLoop hpart hen
  | threadFunc => exact h.threadFunc hpart hen
  | destructor => exact h.destructor hpart
  | iLoop =>
      cases a with
      | loop a => exact h.iLoop hen.2.1 hen.2.2
      | _ => cases hpart

end CEventLoopThread

end Neconet
