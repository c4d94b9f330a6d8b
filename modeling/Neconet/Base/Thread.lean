import Neconet.Base.CountDownLatch
import Neconet.Base.Fault

/-!
# `CThread::Start`

The start of a thread by `base/CThread.cpp`: the thread that calls `Start` and, if `pthread_create`
succeeds, the new thread in `CThreadData::RunInThread`. They meet at the latch `m_clsLatch` of
`Base/CountDownLatch.lean`, one statement at a time; nobody else uses this latch.

* `CThread`, `Action`, `Step`: the states, the steps, and the step relation.
* `StartInv`: the latch is closed until the thread id is stored.
* `latch_run`: the latch neither opens early nor forgets a thread, and `Start` returns with the
  thread id stored.
-/

namespace Neconet

open Transition

/-! ## States and steps -/

/-- The users of `m_clsLatch`. -/
inductive Party
  /-- The thread that calls `Start`. -/
  | starter
  /-- The thread that `pthread_create` has made. -/
  | child
  deriving DecidableEq, Repr

/-- Where the caller of `Start` is. -/
inductive StartPc
  /-- `Start` has not been called. -/
  | outside
  /-- In front of `pthread_create`. -/
  | creating
  /-- In `m_clsLatch.Wait()`. -/
  | waiting
  /-- In front of `assert(m_tid > 0)`. -/
  | asserting
  /-- `Start` has returned, and the thread runs. -/
  | returned
  /-- `Start` has returned, and `pthread_create` had failed. -/
  | failed
  deriving DecidableEq, Repr

/-- Where the new thread is. -/
inductive ChildPc
  /-- There is no new thread. -/
  | absent
  /-- In `RunInThread`, in front of `*m_ThreadTid = neco::CurrentThread::Tid()`. -/
  | storing
  /-- In `m_clsLatch->CountDown()`. -/
  | counting
  /-- Behind it: about to call `m_pfnThreadFunc`, or inside. -/
  | running
  deriving DecidableEq, Repr

/-- The thread object with the positions of the two threads.
Source: `base/CThread.h`, `base/CThreadData.h` -/
structure CThread where
  /-- `m_bStarted`. -/
  started : Bool
  /-- `m_tid`. -/
  tid : ℤ
  /-- `m_clsLatch`. -/
  latch : CCountDownLatch Party
  /-- The position of the caller of `Start`. -/
  startPc : StartPc
  /-- The position of the new thread. -/
  childPc : ChildPc
  /-- The failed assertion, if one has failed. -/
  fault : Option Fault

namespace CThread

/-- Source: `base/CThread.cpp`, `CThread::CThread` -/
def new : CThread where
  started := false
  tid := 0
  latch := .new 1
  startPc := .outside
  childPc := .absent
  fault := none

/-- The steps of `Wait` in the thread that calls `Start`. -/
inductive WaitStep
  | lock | test | block | wakeSpuriously | relock | unlock | return
  deriving DecidableEq, Repr

/-- The step at the latch. -/
def WaitStep.action : WaitStep → CCountDownLatch.Action Party
  | lock => .lockWait .starter
  | test => .testWait .starter
  | block => .block .starter
  | wakeSpuriously => .wakeSpuriously .starter
  | relock => .relock .starter
  | unlock => .unlockWait .starter
  | .return => .returnWait .starter

/-- The steps of `CountDown` in the new thread. -/
inductive CountDownStep
  | lock | decrement | test | notifyAll | unlock
  deriving DecidableEq, Repr

/-- The step at the latch. -/
def CountDownStep.action : CountDownStep → CCountDownLatch.Action Party
  | lock => .lockCountDown .child
  | decrement => .decrement .child
  | test => .testCountDown .child
  | notifyAll => .notifyAll .child
  | unlock => .unlockCountDown .child

/-- The steps. -/
inductive Action
  /-- `Start`, up to `pthread_create`. -/
  | start
  /-- `pthread_create`, which succeeds or fails. -/
  | create (ok : Bool)
  /-- A step of `m_clsLatch.Wait()`. -/
  | wait (a : WaitStep)
  /-- `assert(m_tid > 0)`, and `Start` returns. -/
  | assertTid
  /-- `*m_ThreadTid = neco::CurrentThread::Tid()`. -/
  | storeTid
  /-- A step of `m_clsLatch->CountDown()`. -/
  | countDown (a : CountDownStep)
  deriving DecidableEq, Repr

/-- The step can be taken. -/
def Action.Enabled (s : CThread) : Action → Prop
  | start => s.startPc = .outside ∧ s.fault = none
  | create _ => s.startPc = .creating
  | wait a => s.startPc = .waiting ∧ a.action.Enabled s.latch
  | assertTid => s.startPc = .asserting
  | storeTid => s.childPc = .storing
  | countDown a => s.childPc = .counting ∧ a.action.Enabled s.latch

instance (s : CThread) (a : Action) : Decidable (a.Enabled s) := by
  cases a <;> unfold Action.Enabled <;> infer_instance

/-- The state after the step; `childTid` is the thread id of the new thread.
Source: `base/CThread.cpp`, `CThread::Start`; `base/CThreadData.cpp`, `CThreadData::RunInThread` -/
def Action.next (childTid : ℤ) (s : CThread) : Action → CThread
  | start =>
      match check (s.started = false) with
      | .ok _ => { s with started := true, startPc := .creating }
      | .error e => { s with fault := some e }
  | create ok =>
      if ok then { s with startPc := .waiting, childPc := .storing }
      else { s with started := false, startPc := .failed }
  | wait a =>
      { s with
        latch := a.action.next s.latch
        startPc := if a = .return then .asserting else .waiting }
  | assertTid =>
      match check (s.tid > 0) with
      | .ok _ => { s with startPc := .returned }
      | .error e => { s with fault := some e, startPc := .returned }
  | storeTid => { s with tid := childTid, childPc := .counting }
  | countDown a =>
      { s with
        latch := a.action.next s.latch
        childPc := if a = .unlock then .running else .counting }

/-- One step, as a relation between states. -/
def Step (childTid : ℤ) (s : CThread) (a : Action) (s' : CThread) : Prop :=
  a.Enabled s ∧ s' = a.next childTid s

/-! ## The latch and the thread id -/

/-- The new thread has stored its id. -/
def Stored (s : CThread) : Prop := s.childPc = .counting ∨ s.childPc = .running

/-- The latch is closed until the thread id is stored. -/
structure StartInv (childTid : ℤ) (s : CThread) : Prop where
  /-- The invariant of the latch. -/
  latchInv : s.latch.LatchInv
  /-- What is stored is the id. -/
  tid_eq : s.Stored → s.tid = childTid
  /-- Before, nobody has counted down. -/
  count_eq : ¬ s.Stored → s.latch.count = 1
  /-- `Wait` has returned only after that. -/
  stored : s.startPc = .asserting ∨ s.startPc = .returned → s.Stored
  /-- The assertions hold. -/
  fault_eq : 0 < childTid → s.fault = none
  /-- `Start` has not been called before. -/
  started_eq : s.startPc = .outside → s.started = false
  /-- Only `pthread_create` makes the thread. -/
  childPc_eq : s.startPc = .outside ∨ s.startPc = .creating → s.childPc = .absent

variable {childTid : ℤ}

/-- A thread object whose `Start` has not been called. -/
theorem startInv_new : StartInv childTid new where
  latchInv := CCountDownLatch.latchInv_new 1
  tid_eq h := by rcases h with h | h <;> cases h
  count_eq _ := rfl
  stored h := by rcases h with h | h <;> cases h
  fault_eq _ := rfl
  started_eq _ := rfl
  childPc_eq _ := rfl

/-- `Wait` does not change the count. -/
theorem WaitStep.count_eq (a : WaitStep) (l : CCountDownLatch Party) :
    (a.action.next l).count = l.count := by
  cases a <;> rfl

/-- `Wait` returns at a count that is not positive: the id is stored. -/
theorem StartInv.stored_of_return {s : CThread} (h : StartInv childTid s)
    (hen : (WaitStep.action .return).Enabled s.latch) : s.Stored := by
  by_contra hstored
  have hone := h.count_eq hstored
  have hle := h.latchInv.count_nonpos .starter (Or.inr hen)
  omega

/-- Once the new thread exists, `pthread_create` has returned. -/
theorem StartInv.not_creating {s : CThread} (h : StartInv childTid s) (hne : s.childPc ≠ .absent) :
    ¬ (s.startPc = .outside ∨ s.startPc = .creating) := by
  intro hpc
  exact hne (h.childPc_eq hpc)

/-- Every step keeps the invariant. -/
theorem StartInv.step (s : CThread) (a : Action) (s' : CThread) (h : StartInv childTid s)
    (hst : Step childTid s a s') : StartInv childTid s' := by
  obtain ⟨hen, rfl⟩ := hst
  cases a with
  | start =>
      have hnext : Action.next childTid s .start =
          { s with started := true, startPc := .creating } := by
        simp [Action.next, h.started_eq hen.1]
      rw [hnext]
      exact ⟨h.latchInv, h.tid_eq, h.count_eq, by simp, h.fault_eq, by simp,
        fun _ => h.childPc_eq (Or.inl hen.1)⟩
  | create ok =>
      have habsent := h.childPc_eq (Or.inr hen)
      have hone := h.count_eq (by simp [Stored, habsent])
      cases ok with
      | true =>
          exact ⟨h.latchInv, by simp [Action.next, Stored], fun _ => hone, by simp [Action.next],
            h.fault_eq, by simp [Action.next], by simp [Action.next]⟩
      | false =>
          exact ⟨h.latchInv, h.tid_eq, h.count_eq, by simp [Action.next], h.fault_eq,
            by simp [Action.next], by simp [Action.next]⟩
  | wait a =>
      obtain ⟨hpc, hen⟩ := hen
      have hpc' : (Action.next childTid s (.wait a)).startPc = .asserting ∧ a = .return ∨
          (Action.next childTid s (.wait a)).startPc = .waiting := by
        by_cases ha : a = .return <;> simp [Action.next, ha]
      have hout : ¬ ((Action.next childTid s (.wait a)).startPc = .outside ∨
          (Action.next childTid s (.wait a)).startPc = .creating) := by
        rcases hpc' with ⟨hasserting, -⟩ | hwaiting
        · simp [hasserting]
        · simp [hwaiting]
      refine ⟨h.latchInv.step _ _ _ ⟨hen, rfl⟩, h.tid_eq, fun hstored => ?_, fun hret => ?_,
        h.fault_eq, fun hpc => absurd (Or.inl hpc) hout, fun hpc => absurd hpc hout⟩
      · exact (a.count_eq s.latch).trans (h.count_eq hstored)
      · rcases hpc' with ⟨-, rfl⟩ | hwaiting
        · exact h.stored_of_return hen
        · simp [hwaiting] at hret
  | assertTid =>
      have hstored := h.stored (Or.inl hen)
      by_cases hpos : s.tid > 0
      · have hnext : Action.next childTid s .assertTid = { s with startPc := .returned } := by
          simp [Action.next, hpos]
        rw [hnext]
        exact ⟨h.latchInv, h.tid_eq, h.count_eq, fun _ => hstored, h.fault_eq, by simp, by simp⟩
      · have hnext : Action.next childTid s .assertTid =
            { s with fault := some .assertion, startPc := .returned } := by
          simp [Action.next, hpos]
        rw [hnext]
        have hnot : ¬ 0 < childTid := by
          rw [← h.tid_eq hstored]
          exact hpos
        exact ⟨h.latchInv, h.tid_eq, h.count_eq, fun _ => hstored, fun hchild => absurd hchild hnot,
          by simp, by simp⟩
  | storeTid =>
      have hpc : s.childPc = .storing := hen
      have hstored : (Action.next childTid s .storeTid).Stored := Or.inl rfl
      have hcreated := h.not_creating (by simp [hpc])
      exact ⟨h.latchInv, fun _ => rfl, fun hnot => absurd hstored hnot, fun _ => hstored, h.fault_eq,
        h.started_eq, fun hstart => absurd hstart hcreated⟩
  | countDown a =>
      obtain ⟨hpc, hen⟩ := hen
      have hstored : (Action.next childTid s (.countDown a)).Stored := by
        by_cases ha : a = .unlock <;> simp [Action.next, Stored, ha]
      have hcreated := h.not_creating (by simp [hpc])
      exact ⟨h.latchInv.step _ _ _ ⟨hen, rfl⟩, fun _ => h.tid_eq (Or.inl hpc),
        fun hnot => absurd hstored hnot, fun _ => hstored, h.fault_eq, h.started_eq,
        fun hstart => absurd hstart hcreated⟩

/-- **The latch neither opens early nor forgets a thread.** Whatever the initial count, and whatever
any number of threads do at the latch:
* `Wait` returns at a count that is not positive;
* while no thread owns the mutex and the count is not positive, no thread is blocked;
* when `pthread_create` has succeeded, `Start` returns after `RunInThread` has stored the id of the
  new thread. -/
theorem latch_run {T : Type} [DecidableEq T] :
    (∀ (nCount : ℤ) (as : List (CCountDownLatch.Action T)) (s : CCountDownLatch T),
      Run CCountDownLatch.Step (CCountDownLatch.new nCount) as s →
      (∀ t, s.pc t = .waitUnlock ∨ s.pc t = .waitReturn → s.count ≤ 0) ∧
      (s.owner = none → s.count ≤ 0 → ∀ t, s.pc t ≠ .blocked)) ∧
    (∀ (childTid : ℤ) (as : List Action) (s : CThread), Run (Step childTid) new as s →
      (s.startPc = .asserting ∨ s.startPc = .returned → s.Stored ∧ s.tid = childTid) ∧
      (0 < childTid → s.fault = none)) := by
  refine ⟨fun nCount as s hrun => ?_, fun childTid as s hrun => ?_⟩
  · have hinv := hrun.invariant CCountDownLatch.LatchInv.step (CCountDownLatch.latchInv_new nCount)
    exact ⟨hinv.count_nonpos, hinv.not_blocked⟩
  · have hinv := hrun.invariant StartInv.step startInv_new
    refine ⟨fun hpc => ?_, hinv.fault_eq⟩
    have hstored := hinv.stored hpc
    exact ⟨hstored, hinv.tid_eq hstored⟩

/-- The theorem on a thread that waits, on its own decrement of a count of one, and on a `Start`
that waits for the new thread. -/
theorem latch_run_one :
    (∃ s : CCountDownLatch Bool, Run CCountDownLatch.Step (CCountDownLatch.new 1)
      [.lockWait true, .testWait true, .block true, .lockCountDown false, .decrement false,
        .testCountDown false, .notifyAll false, .unlockCountDown false] s ∧
      ∀ t, s.pc t ≠ .blocked) ∧
    (∃ s : CThread, Run (Step 42) new [.start, .create true, .wait .lock, .wait .test,
      .wait .block, .storeTid, .countDown .lock, .countDown .decrement, .countDown .test,
      .countDown .notifyAll, .countDown .unlock, .wait .relock, .wait .test, .wait .unlock,
      .wait .return, .assertTid] s ∧ s.Stored ∧ s.tid = 42) := by
  constructor
  · have hrun : ∃ s : CCountDownLatch Bool, Run CCountDownLatch.Step (CCountDownLatch.new 1)
        [.lockWait true, .testWait true, .block true, .lockCountDown false, .decrement false,
          .testCountDown false, .notifyAll false, .unlockCountDown false] s ∧
        s.owner = none ∧ s.count = 0 :=
      ⟨_, run_of_execute rfl, rfl, rfl⟩
    obtain ⟨s, hrun, hfree, hcount⟩ := hrun
    exact ⟨s, hrun, (latch_run.1 1 _ s hrun).2 hfree (by omega)⟩
  · have hrun : ∃ s : CThread, Run (Step 42) new [.start, .create true, .wait .lock, .wait .test,
        .wait .block, .storeTid, .countDown .lock, .countDown .decrement, .countDown .test,
        .countDown .notifyAll, .countDown .unlock, .wait .relock, .wait .test, .wait .unlock,
        .wait .return, .assertTid] s ∧ s.startPc = .returned :=
      ⟨_, run_of_execute rfl, rfl⟩
    obtain ⟨s, hrun, hpc⟩ := hrun
    exact ⟨s, hrun, (latch_run (T := Bool).2 42 _ s hrun).1 (Or.inr hpc)⟩

end CThread

end Neconet
