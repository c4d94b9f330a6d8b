import Neconet.Base.Thread

/-!
# The life of a `CThread`

A `CThread` from its constructor to its destructor: `Start`, which may be called again after a
failure of `pthread_create`, `ThreadJoin`, and the destructor, in one thread; the new thread up to
the end of `StartThread`, with the `CThreadData` that `Start` hands to it. The new thread knows the
object by two pointers, to `m_tid` and to `m_clsLatch`; the latch is what keeps it from using them
too late.

* `HandInv`: `Start` returns behind the last step of the new thread at the latch.
* `ThreadObject`, `Action`, `Step`: the object, its `CThreadData`, and the threads.
* `threadLife_run`: the new thread never touches a destroyed object, every `CThreadData` is deleted
  once, and every thread is joined or detached once.
-/

namespace Neconet

open Transition Monitor

namespace CThread

/-! ## The hand-over at the latch -/

/-- The new thread is past its last step at the latch when `Wait` has seen the count at zero. -/
structure HandInv (childTid : ℤ) (s : CThread) : Prop where
  /-- The thread id. -/
  start : StartInv childTid s
  /-- Without a new thread, `Start` may be called. -/
  absent : s.childPc = .absent → s.startPc = .outside ∨ s.startPc = .creating ∨ s.startPc = .failed
  /-- After a failure, there is none. -/
  failed : s.startPc = .failed → s.childPc = .absent
  /-- `m_bStarted`. -/
  started_iff : s.started = true ↔ s.startPc ≠ .outside ∧ s.startPc ≠ .failed
  /-- The new thread is at the latch in `CountDown` only. -/
  child_idle : s.childPc ≠ .counting → s.latch.pc .child = .idle
  /-- The count in `CountDown`. -/
  child_counting : s.childPc = .counting →
    (s.latch.pc .child = .idle ∨ s.latch.pc .child = .decrement) ∧ s.latch.count = 1 ∨
    (s.latch.pc .child = .countTest ∨ s.latch.pc .child = .countNotify ∨
      s.latch.pc .child = .countUnlock) ∧ s.latch.count = 0
  /-- The count behind it. -/
  child_running : s.childPc = .running → s.latch.count = 0
  /-- The caller of `Start` is at the latch in `Wait` only. -/
  starter_idle : s.startPc ≠ .waiting → s.latch.pc .starter = .idle
  /-- Where it is then. -/
  starter_waiting : s.latch.pc .starter ≠ .decrement ∧ s.latch.pc .starter ≠ .countTest ∧
    s.latch.pc .starter ≠ .countNotify ∧ s.latch.pc .starter ≠ .countUnlock
  /-- `Wait` is over only behind `CountDown`. -/
  passed : s.latch.pc .starter = .waitUnlock ∨ s.latch.pc .starter = .waitReturn ∨
    s.startPc = .asserting ∨ s.startPc = .returned → s.childPc = .running

variable {childTid : ℤ} {s s' : CThread}

/-- A new object. -/
theorem handInv_new : HandInv childTid new where
  start := startInv_new
  absent _ := Or.inl rfl
  failed h := by cases h
  started_iff := by simp [new]
  child_idle _ := rfl
  child_counting h := by cases h
  child_running h := by cases h
  starter_idle _ := rfl
  starter_waiting := by simp [new, CCountDownLatch.new]
  passed h := by simp [new, CCountDownLatch.new] at h

/-- While the caller of `Start` has the mutex, the new thread is not inside. -/
theorem HandInv.child_of_starter_inside (h : HandInv childTid s)
    (hin : (s.latch.pc .starter).place = .inside) : (s.latch.pc .child).place ≠ .inside := by
  intro hchild
  have heq := h.start.latchInv.eq_of_inside hin hchild
  cases heq

/-- `Wait` finds the count at zero only when the new thread is behind `CountDown`. -/
theorem HandInv.running_of_test (h : HandInv childTid s) (hpc : s.startPc = .waiting)
    (htest : s.latch.pc .starter = .waitTest) (hcount : ¬ s.latch.count > 0) :
    s.childPc = .running := by
  have hout := h.child_of_starter_inside (by simp [htest, LatchPc.place])
  rcases hchild : s.childPc with _ | _ | _ | _
  · have hpc' := h.absent hchild
    simp [hpc] at hpc'
  · have hone := h.start.count_eq (by simp [Stored, hchild])
    omega
  · rcases h.child_counting hchild with ⟨-, hone⟩ | ⟨hin, -⟩
    · omega
    · exfalso
      apply hout
      rcases hin with hin | hin | hin <;> simp [hin, LatchPc.place]
  · rfl

/-- A step of `Wait`, of which only the position of the caller is left to look at. -/
theorem HandInv.of_wait (h : HandInv childTid s) (hpc : s.startPc = .waiting)
    (hstart : StartInv childTid s') (hchildPc : s'.childPc = s.childPc)
    (hstarted : s'.started = s.started) (hcount : s'.latch.count = s.latch.count)
    (hchild : s'.latch.pc .child = s.latch.pc .child)
    (hpc' : s'.startPc = .waiting ∨ s'.startPc = .asserting ∧ s'.latch.pc .starter = .idle)
    (hplace : s'.latch.pc .starter ≠ .decrement ∧ s'.latch.pc .starter ≠ .countTest ∧
      s'.latch.pc .starter ≠ .countNotify ∧ s'.latch.pc .starter ≠ .countUnlock)
    (hpassed : s'.latch.pc .starter = .waitUnlock ∨ s'.latch.pc .starter = .waitReturn ∨
      s'.startPc = .asserting → s.childPc = .running) : HandInv childTid s' where
  start := hstart
  absent habsent := by
    have hbefore := h.absent (hchildPc ▸ habsent)
    simp [hpc] at hbefore
  failed hfailed := by simp [hfailed] at hpc'
  started_iff := by
    rw [hstarted, h.started_iff, hpc]
    rcases hpc' with hpc' | ⟨hpc', -⟩ <;> simp [hpc']
  child_idle := by rw [hchildPc, hchild]; exact h.child_idle
  child_counting := by rw [hchildPc, hchild, hcount]; exact h.child_counting
  child_running := by rw [hchildPc, hcount]; exact h.child_running
  starter_idle hne := (hpc'.resolve_left hne).2
  starter_waiting := hplace
  passed hpast := by
    rw [hchildPc]
    apply hpassed
    rcases hpast with hpast | hpast | hpast | hpast
    · exact Or.inl hpast
    · exact Or.inr (Or.inl hpast)
    · exact Or.inr (Or.inr hpast)
    · simp [hpast] at hpc'

/-- A step of `Wait` keeps the invariant. -/
theorem HandInv.wait (h : HandInv childTid s) {a : WaitStep}
    (hen : Action.Enabled s (.wait a)) : HandInv childTid (Action.next childTid s (.wait a)) := by
  have hstart := StartInv.step s (.wait a) _ h.start ⟨hen, rfl⟩
  obtain ⟨hpc, hen⟩ := hen
  have hother : ∀ p, (s.latch.goto .starter p).pc .child = s.latch.pc .child :=
    fun p => CCountDownLatch.goto_pc_of_ne p (by decide)
  cases a with
  | lock =>
      exact h.of_wait hpc hstart rfl rfl rfl (hother .waitTest) (Or.inl rfl)
        (by simp [Action.next, WaitStep.action, CCountDownLatch.Action.next])
        (by simp [Action.next, WaitStep.action, CCountDownLatch.Action.next])
  | block =>
      exact h.of_wait hpc hstart rfl rfl rfl (hother .blocked) (Or.inl rfl)
        (by simp [Action.next, WaitStep.action, CCountDownLatch.Action.next])
        (by simp [Action.next, WaitStep.action, CCountDownLatch.Action.next])
  | wakeSpuriously =>
      exact h.of_wait hpc hstart rfl rfl rfl (hother .woken) (Or.inl rfl)
        (by simp [Action.next, WaitStep.action, CCountDownLatch.Action.next])
        (by simp [Action.next, WaitStep.action, CCountDownLatch.Action.next])
  | relock =>
      exact h.of_wait hpc hstart rfl rfl rfl (hother .waitTest) (Or.inl rfl)
        (by simp [Action.next, WaitStep.action, CCountDownLatch.Action.next])
        (by simp [Action.next, WaitStep.action, CCountDownLatch.Action.next])
  | test =>
      by_cases hcount : s.latch.count > 0
      · exact h.of_wait hpc hstart rfl rfl rfl (hother _) (Or.inl rfl)
          (by simp [Action.next, WaitStep.action, CCountDownLatch.Action.next, hcount])
          (by simp [Action.next, WaitStep.action, CCountDownLatch.Action.next, hcount])
      · exact h.of_wait hpc hstart rfl rfl rfl (hother _) (Or.inl rfl)
          (by simp [Action.next, WaitStep.action, CCountDownLatch.Action.next, hcount])
          (fun _ => h.running_of_test hpc hen hcount)
  | unlock =>
      exact h.of_wait hpc hstart rfl rfl rfl (hother .waitReturn) (Or.inl rfl)
        (by simp [Action.next, WaitStep.action, CCountDownLatch.Action.next])
        (fun _ => h.passed (Or.inl hen))
  | «return» =>
      exact h.of_wait hpc hstart rfl rfl rfl (hother .idle)
        (Or.inr ⟨rfl, CCountDownLatch.goto_pc_self _ _ _⟩)
        (by simp [Action.next, WaitStep.action, CCountDownLatch.Action.next])
        (fun _ => h.passed (Or.inr (Or.inl hen)))

/-- The new thread exists when it is at the latch. -/
theorem HandInv.startPc_of_child (h : HandInv childTid s) (hchild : s.childPc ≠ .absent) :
    s.startPc ≠ .outside ∧ s.startPc ≠ .creating ∧ s.startPc ≠ .failed := by
  have hcreated := h.start.not_creating hchild
  exact ⟨fun hpc => hcreated (Or.inl hpc), fun hpc => hcreated (Or.inr hpc),
    fun hpc => hchild (h.failed hpc)⟩

/-- A step of `CountDown`, of which only the position of the new thread is left to look at. -/
theorem HandInv.of_countDown (h : HandInv childTid s) (hpc : s.childPc = .counting)
    (hstart : StartInv childTid s') (hstartPc : s'.startPc = s.startPc)
    (hstarted : s'.started = s.started)
    (hstarter : s'.latch.pc .starter = s.latch.pc .starter ∨
      s.latch.pc .starter = .blocked ∧ s'.latch.pc .starter = .woken)
    (hchild : s'.childPc = .running ∧ s'.latch.pc .child = .idle ∧ s'.latch.count = 0 ∨
      s'.childPc = .counting ∧
        ((s'.latch.pc .child = .idle ∨ s'.latch.pc .child = .decrement) ∧ s'.latch.count = 1 ∨
          (s'.latch.pc .child = .countTest ∨ s'.latch.pc .child = .countNotify ∨
            s'.latch.pc .child = .countUnlock) ∧ s'.latch.count = 0)) :
    HandInv childTid s' := by
  obtain ⟨houtside, hcreating, hfailed⟩ := h.startPc_of_child (by simp [hpc])
  have hnotPassed : ¬ (s.latch.pc .starter = .waitUnlock ∨ s.latch.pc .starter = .waitReturn ∨
      s.startPc = .asserting ∨ s.startPc = .returned) := by
    intro hpast
    have hrunning := h.passed hpast
    simp [hpc] at hrunning
  refine ⟨hstart, fun habsent => ?_, fun hfail => ?_, ?_, fun hne => ?_, fun hcounting => ?_,
    fun hrunning => ?_, fun hne => ?_, ?_, fun hpast => ?_⟩
  · rcases hchild with ⟨hrunning, -⟩ | ⟨hcounting, -⟩ <;> simp_all
  · exact absurd (hstartPc ▸ hfail) hfailed
  · rw [hstarted, hstartPc]
    exact h.started_iff
  · rcases hchild with ⟨-, hidle, -⟩ | ⟨hcounting, -⟩
    · exact hidle
    · exact absurd hcounting hne
  · rcases hchild with ⟨hrunning, -⟩ | ⟨-, hcount⟩
    · simp [hcounting] at hrunning
    · exact hcount
  · rcases hchild with ⟨-, -, hcount⟩ | ⟨hcounting, -⟩
    · exact hcount
    · simp [hrunning] at hcounting
  · have hidle := h.starter_idle (hstartPc ▸ hne)
    rcases hstarter with hsame | ⟨hblocked, -⟩
    · exact hsame.trans hidle
    · simp [hidle] at hblocked
  · rcases hstarter with hsame | ⟨-, hwoken⟩
    · rw [hsame]
      exact h.starter_waiting
    · simp [hwoken]
  · exfalso
    apply hnotPassed
    rw [hstartPc] at hpast
    rcases hstarter with hsame | ⟨-, hwoken⟩
    · rwa [hsame] at hpast
    · simp only [hwoken, reduceCtorEq, false_or] at hpast
      exact Or.inr (Or.inr hpast)

/-- A step of `CountDown` keeps the invariant. -/
theorem HandInv.countDown (h : HandInv childTid s) {a : CountDownStep}
    (hen : Action.Enabled s (.countDown a)) :
    HandInv childTid (Action.next childTid s (.countDown a)) := by
  have hstart := StartInv.step s (.countDown a) _ h.start ⟨hen, rfl⟩
  obtain ⟨hpc, hen⟩ := hen
  have hother : ∀ p, (s.latch.goto .child p).pc .starter = s.latch.pc .starter :=
    fun p => CCountDownLatch.goto_pc_of_ne p (by decide)
  have hself : ∀ p, (s.latch.goto .child p).pc .child = p :=
    fun p => CCountDownLatch.goto_pc_self s.latch .child p
  have hcount := h.child_counting hpc
  cases a with
  | lock =>
      have hidle : s.latch.pc .child = .idle := hen.1
      have hone : s.latch.count = 1 := by simpa [hidle] using hcount
      exact h.of_countDown hpc hstart rfl rfl (Or.inl (hother .decrement))
        (Or.inr ⟨rfl, Or.inl ⟨Or.inr (hself .decrement), hone⟩⟩)
  | decrement =>
      have hdecrement : s.latch.pc .child = .decrement := hen
      have hone : s.latch.count = 1 := by simpa [hdecrement] using hcount
      have hzero : s.latch.count - 1 = 0 := by omega
      exact h.of_countDown hpc hstart rfl rfl (Or.inl (hother .countTest))
        (Or.inr ⟨rfl, Or.inr ⟨Or.inl (hself .countTest), hzero⟩⟩)
  | test =>
      have htest : s.latch.pc .child = .countTest := hen
      have hzero : s.latch.count = 0 := by simpa [htest] using hcount
      refine h.of_countDown hpc hstart rfl rfl (Or.inl (hother _))
        (Or.inr ⟨rfl, Or.inr ⟨Or.inr (Or.inl ?_), hzero⟩⟩)
      exact (hself _).trans (if_pos hzero)
  | notifyAll =>
      have hnotify : s.latch.pc .child = .countNotify := hen
      have hzero : s.latch.count = 0 := by simpa [hnotify] using hcount
      refine h.of_countDown hpc hstart rfl rfl ?_
        (Or.inr ⟨rfl, Or.inr ⟨Or.inr (Or.inr ?_), hzero⟩⟩)
      · have hwake : (Action.next childTid s (.countDown .notifyAll)).latch.pc .starter =
            s.latch.wakeAll.pc .starter := CCountDownLatch.goto_pc_of_ne _ (by decide)
        rw [hwake]
        unfold CCountDownLatch.wakeAll
        dsimp only
        by_cases hblocked : s.latch.pc .starter = .blocked
        · exact Or.inr ⟨hblocked, by simp [hblocked, LatchPc.place]⟩
        · have hplace : (s.latch.pc .starter).place ≠ .blocked := by
            intro hplace
            apply hblocked
            cases hpc : s.latch.pc .starter <;> simp [hpc, LatchPc.place] at hplace ⊢
          exact Or.inl (if_neg hplace)
      · exact CCountDownLatch.goto_pc_self _ _ _
  | unlock =>
      have hunlock : s.latch.pc .child = .countUnlock := hen
      have hzero : s.latch.count = 0 := by simpa [hunlock] using hcount
      exact h.of_countDown hpc hstart rfl rfl (Or.inl (hother .idle))
        (Or.inl ⟨rfl, hself .idle, hzero⟩)

/-- The new thread stores its id. -/
theorem HandInv.storeTid (h : HandInv childTid s) (hen : Action.Enabled s .storeTid) :
    HandInv childTid (Action.next childTid s .storeTid) := by
  have hstart := StartInv.step s .storeTid _ h.start ⟨hen, rfl⟩
  have hpc : s.childPc = .storing := hen
  have hone := h.start.count_eq (by simp [Stored, hpc])
  have hidle := h.child_idle (by simp [hpc])
  obtain ⟨houtside, hcreating, hfailed⟩ := h.startPc_of_child (by simp [hpc])
  refine ⟨hstart, fun habsent => (by cases habsent), fun hfail => absurd hfail hfailed,
    h.started_iff, fun hne => absurd rfl hne, fun _ => Or.inl ⟨Or.inl hidle, hone⟩,
    fun hrunning => (by cases hrunning), h.starter_idle, h.starter_waiting, fun hpast => ?_⟩
  have hrunning := h.passed hpast
  simp [hpc] at hrunning

/-- `assert(m_tid > 0)` behind `Wait`. -/
theorem HandInv.assertTid (h : HandInv childTid s) (hpos : 0 < childTid)
    (hen : Action.Enabled s .assertTid) :
    Action.next childTid s .assertTid = { s with startPc := .returned } ∧
      HandInv childTid (Action.next childTid s .assertTid) := by
  have hstart := StartInv.step s .assertTid _ h.start ⟨hen, rfl⟩
  have hpc : s.startPc = .asserting := hen
  have hrunning := h.passed (Or.inr (Or.inr (Or.inl hpc)))
  have htid : s.tid > 0 := by
    rw [h.start.tid_eq (Or.inr hrunning)]
    exact hpos
  have hnext : Action.next childTid s .assertTid = { s with startPc := .returned } := by
    simp [Action.next, htid]
  rw [hnext] at hstart
  refine ⟨hnext, ?_⟩
  rw [hnext]
  have hidle := h.starter_idle (by simp [hpc])
  refine ⟨hstart, fun habsent => ?_, fun hfail => (by cases hfail), ?_, h.child_idle,
    h.child_counting, h.child_running, fun _ => hidle, h.starter_waiting, fun _ => hrunning⟩
  · have habsent' : s.childPc = .absent := habsent
    simp [hrunning] at habsent'
  · have hstarted := h.started_iff.mpr (by simp [hpc])
    simp [hstarted]

/-- `Start` is called, for the first time or after a failure. -/
theorem HandInv.begin (h : HandInv childTid s) (hstarted : s.started = false) :
    Action.next childTid { s with startPc := .outside } .start =
        { s with started := true, startPc := .creating } ∧
      HandInv childTid { s with started := true, startPc := .creating } := by
  have hpc : s.startPc = .outside ∨ s.startPc = .failed := by
    have hiff := h.started_iff
    rw [hstarted] at hiff
    by_contra hnot
    rw [not_or] at hnot
    exact absurd (hiff.mpr hnot) (by simp)
  have habsent : s.childPc = .absent := by
    rcases hpc with hpc | hpc
    · exact h.start.childPc_eq (Or.inl hpc)
    · exact h.failed hpc
  have hidle := h.starter_idle (by rcases hpc with hpc | hpc <;> simp [hpc])
  refine ⟨by simp [Action.next, hstarted], ?_⟩
  refine ⟨⟨h.start.latchInv, h.start.tid_eq, h.start.count_eq, fun hret => ?_, h.start.fault_eq,
    fun hout => (by cases hout), fun _ => habsent⟩, fun _ => Or.inr (Or.inl rfl),
    fun hfail => (by cases hfail), by simp, h.child_idle, h.child_counting, h.child_running,
    fun _ => hidle, h.starter_waiting, fun hpast => ?_⟩
  · rcases hret with hret | hret <;> cases hret
  · apply h.passed
    rcases hpast with hpast | hpast | hpast | hpast
    · exact Or.inl hpast
    · exact Or.inr (Or.inl hpast)
    · cases hpast
    · cases hpast

/-- `pthread_create`. -/
theorem HandInv.create (h : HandInv childTid s) {ok : Bool} (hpc : s.startPc = .creating) :
    HandInv childTid (Action.next childTid s (.create ok)) := by
  have hstart := StartInv.step s (.create ok) _ h.start ⟨hpc, rfl⟩
  have habsent := h.start.childPc_eq (Or.inr hpc)
  have hidle := h.starter_idle (by simp [hpc])
  have hchild := h.child_idle (by simp [habsent])
  have hstarted := h.started_iff.mpr (by simp [hpc])
  cases ok with
  | true =>
      refine ⟨hstart, fun hab => (by cases hab), fun hfail => (by cases hfail), ?_, fun _ => hchild,
        fun hcounting => (by cases hcounting), fun hrunning => (by cases hrunning), fun _ => hidle,
        h.starter_waiting, fun hpast => ?_⟩
      · simp [Action.next, hstarted]
      · have hpast' : s.latch.pc .starter = .waitUnlock ∨ s.latch.pc .starter = .waitReturn ∨
            StartPc.waiting = .asserting ∨ StartPc.waiting = .returned := hpast
        simp [hidle] at hpast'
  | false =>
      refine ⟨hstart, fun _ => Or.inr (Or.inr rfl), fun _ => habsent, ?_, h.child_idle,
        h.child_counting, h.child_running, fun _ => hidle, h.starter_waiting, fun hpast => ?_⟩
      · simp [Action.next]
      · have hpast' : s.latch.pc .starter = .waitUnlock ∨ s.latch.pc .starter = .waitReturn ∨
            StartPc.failed = .asserting ∨ StartPc.failed = .returned := hpast
        simp [hidle] at hpast'

end CThread

/-! ## The object and its threads -/

/-- Where the owner of the object is. -/
inductive ObjectPc
  /-- In no member function. -/
  | free
  /-- In `Start`. -/
  | starting
  /-- In `pthread_join` of `ThreadJoin`. -/
  | joining
  /-- Behind the destructor. -/
  | destroyed
  deriving DecidableEq, Repr

/-- The object with the positions of the two threads, and what has been counted since its
constructor.
Source: `base/CThread.h` -/
structure ThreadObject where
  /-- The fields that `Start` uses. -/
  thread : CThread
  /-- `m_bJoined`. -/
  joined : Bool
  /-- The position of the owner. -/
  ownerPc : ObjectPc
  /-- The new thread has returned from `StartThread`. -/
  ended : Bool
  /-- How many `CThreadData` have been allocated. -/
  allocated : ℕ
  /-- How many `CThreadData` have been deleted. -/
  deleted : ℕ
  /-- How many threads have been created. -/
  created : ℕ
  /-- How many calls of `pthread_join` have returned, or of `pthread_detach` been made. -/
  reaped : ℕ
  /-- What has ended the program. -/
  fault : Option Fault

namespace ThreadObject

/-- Source: `base/CThread.cpp`, `CThread::CThread` -/
def new : ThreadObject where
  thread := .new
  joined := false
  ownerPc := .free
  ended := false
  allocated := 0
  deleted := 0
  created := 0
  reaped := 0
  fault := none

/-- The steps. -/
inductive Action
  /-- `Start`, up to `pthread_create`. -/
  | start
  /-- `pthread_create`, and `delete data` if it fails. -/
  | create (ok : Bool)
  /-- A step of `m_clsLatch.Wait()`. -/
  | wait (a : CThread.WaitStep)
  /-- `assert(m_tid > 0)`, and `Start` returns. -/
  | assertTid
  /-- `*m_ThreadTid = neco::CurrentThread::Tid()`. -/
  | storeTid
  /-- A step of `m_clsLatch->CountDown()`. -/
  | countDown (a : CThread.CountDownStep)
  /-- `m_pfnThreadFunc` returns, and `StartThread` deletes its data. -/
  | endThread
  /-- `ThreadJoin`, up to `pthread_join`. -/
  | threadJoin
  /-- `pthread_join` returns. -/
  | returnJoin
  /-- The destructor. -/
  | destroy
  deriving DecidableEq, Repr

/-- The step can be taken. -/
def Action.Enabled (s : ThreadObject) : Action → Prop
  | start | threadJoin | destroy => s.ownerPc = .free ∧ s.fault = none
  | create ok =>
      s.ownerPc = .starting ∧ CThread.Action.Enabled s.thread (.create ok) ∧ s.fault = none
  | wait a => s.ownerPc = .starting ∧ CThread.Action.Enabled s.thread (.wait a) ∧ s.fault = none
  | assertTid =>
      s.ownerPc = .starting ∧ CThread.Action.Enabled s.thread .assertTid ∧ s.fault = none
  | storeTid => CThread.Action.Enabled s.thread .storeTid ∧ s.fault = none
  | countDown a => CThread.Action.Enabled s.thread (.countDown a) ∧ s.fault = none
  | endThread => s.thread.childPc = .running ∧ s.ended = false ∧ s.fault = none
  | returnJoin => s.ownerPc = .joining ∧ s.ended = true ∧ s.fault = none

instance (s : ThreadObject) (a : Action) : Decidable (a.Enabled s) := by
  cases a <;> unfold Action.Enabled <;> infer_instance

/-- The new thread uses one of its two pointers into the object. -/
def touch (s s' : ThreadObject) : ThreadObject :=
  if s.ownerPc = .destroyed then { s with fault := some .useAfterFree } else s'

/-- The state after the step; `childTid` is the thread id of the new thread.
Source: `base/CThread.cpp`, `CThread::Start`, `CThread::ThreadJoin`, `CThread::~CThread`;
`base/CThreadData.cpp`, `CThreadData::RunInThread`, `StartThread` -/
def Action.next (childTid : ℤ) (s : ThreadObject) : Action → ThreadObject
  | start =>
      match check (s.thread.started = false) with
      | .ok _ => { s with
          thread := CThread.Action.next childTid { s.thread with startPc := .outside } .start
          ownerPc := .starting
          allocated := s.allocated + 1 }
      | .error e => { s with fault := some e }
  | create ok =>
      let s := { s with thread := CThread.Action.next childTid s.thread (.create ok) }
      if ok then { s with created := s.created + 1 }
      else { s with deleted := s.deleted + 1, ownerPc := .free }
  | wait a => { s with thread := CThread.Action.next childTid s.thread (.wait a) }
  | assertTid =>
      let s := { s with thread := CThread.Action.next childTid s.thread .assertTid }
      { s with fault := s.thread.fault, ownerPc := .free }
  | storeTid => s.touch { s with thread := CThread.Action.next childTid s.thread .storeTid }
  | countDown a => s.touch { s with thread := CThread.Action.next childTid s.thread (.countDown a) }
  | endThread => { s with ended := true, deleted := s.deleted + 1 }
  | threadJoin =>
      match check (s.thread.started = true ∧ s.joined = false) with
      | .ok _ => { s with joined := true, ownerPc := .joining }
      | .error e => { s with fault := some e }
  | returnJoin => { s with ownerPc := .free, reaped := s.reaped + 1 }
  | destroy =>
      { s with
        ownerPc := .destroyed
        reaped := if s.thread.started ∧ ¬ s.joined then s.reaped + 1 else s.reaped }

/-- One step, as a relation between states. -/
def Step (childTid : ℤ) (s : ThreadObject) (a : Action) (s' : ThreadObject) : Prop :=
  a.Enabled s ∧ s' = a.next childTid s

/-! ## The invariant -/

/-- A `CThreadData` is in use: by `Start`, or by the new thread. -/
def DataInUse (s : ThreadObject) : Prop :=
  s.thread.startPc = .creating ∨ s.thread.childPc ≠ .absent ∧ s.ended = false

instance : DecidablePred DataInUse := fun s => by
  unfold DataInUse
  infer_instance

/-- The new thread has been joined, or detached by the destructor. -/
def Reaped (s : ThreadObject) : Prop :=
  s.joined = true ∧ s.ownerPc ≠ .joining ∨ s.ownerPc = .destroyed ∧ s.thread.started = true

instance : DecidablePred Reaped := fun s => by
  unfold Reaped
  infer_instance

/-- What holds in every run. -/
structure ObjectInv (childTid : ℤ) (s : ThreadObject) : Prop where
  /-- The hand-over at the latch. -/
  hand : CThread.HandInv childTid s.thread
  /-- The owner is in `Start`. -/
  starting_iff : s.ownerPc = .starting ↔ s.thread.startPc = .creating ∨
    s.thread.startPc = .waiting ∨ s.thread.startPc = .asserting
  /-- Only a started thread is joined. -/
  joined_started : s.joined = true → s.thread.started = true ∧ s.ownerPc ≠ .starting
  /-- `ThreadJoin` has set `m_bJoined`. -/
  joining : s.ownerPc = .joining → s.joined = true
  /-- The new thread has run before it ended. -/
  ended : s.ended = true → s.thread.childPc = .running
  /-- `CThreadData` that is not deleted is in use. -/
  data_eq : s.allocated = s.deleted + if s.DataInUse then 1 else 0
  /-- One thread is created at most. -/
  created_eq : s.created = if s.thread.childPc = .absent then 0 else 1
  /-- It is joined or detached once. -/
  reaped_eq : s.reaped = if s.Reaped then 1 else 0
  /-- Only an assertion of the owner ends the program. -/
  fault_eq : s.fault = none ∨ s.fault = some .assertion

variable {childTid : ℤ} {s s' : ThreadObject}

/-- A new object. -/
theorem objectInv_new : ObjectInv childTid new where
  hand := CThread.handInv_new
  starting_iff := by simp [new, CThread.new]
  joined_started h := by cases h
  joining h := by cases h
  ended h := by cases h
  data_eq := rfl
  created_eq := rfl
  reaped_eq := rfl
  fault_eq := Or.inl rfl

/-- **The new thread is done with a destroyed object.** -/
theorem ObjectInv.child_of_not_starting (h : ObjectInv childTid s) (hpc : s.ownerPc ≠ .starting) :
    s.thread.childPc = .absent ∨ s.thread.childPc = .running := by
  have hstartPc := mt h.starting_iff.mpr hpc
  rcases hstart : s.thread.startPc with _ | _ | _ | _ | _ | _
  · exact Or.inl (h.hand.start.childPc_eq (Or.inl hstart))
  · exact absurd (Or.inl hstart) hstartPc
  · exact absurd (Or.inr (Or.inl hstart)) hstartPc
  · exact absurd (Or.inr (Or.inr hstart)) hstartPc
  · exact Or.inr (h.hand.passed (Or.inr (Or.inr (Or.inr hstart))))
  · exact Or.inl (h.hand.failed hstart)

/-- The end of the program changes nothing else. -/
theorem ObjectInv.of_assertion (h : ObjectInv childTid s) :
    ObjectInv childTid { s with fault := some .assertion } :=
  { h with fault_eq := Or.inr rfl }

/-- `Start` is called. -/
theorem ObjectInv.start (h : ObjectInv childTid s) (hen : Action.Enabled s .start) :
    ObjectInv childTid (Action.next childTid s .start) := by
  obtain ⟨hfree, -⟩ := hen
  by_cases hstarted : s.thread.started = false
  · obtain ⟨hthread, hhand⟩ := h.hand.begin hstarted
    have hjoined : s.joined = false := by
      by_contra hjoined
      have hstarted' := (h.joined_started (by simpa using hjoined)).1
      simp [hstarted] at hstarted'
    have habsent : s.thread.childPc = .absent := hhand.start.childPc_eq (Or.inr rfl)
    have hended : s.ended = false := by
      by_contra hended
      have hrunning := h.ended (by simpa using hended)
      simp [habsent] at hrunning
    have hpc : s.thread.startPc ≠ .creating := by
      intro hpc
      have hstarting := h.starting_iff.mpr (Or.inl hpc)
      simp [hfree] at hstarting
    have hnext : Action.next childTid s .start = { s with
        thread := { s.thread with started := true, startPc := .creating }
        ownerPc := .starting
        allocated := s.allocated + 1 } := by
      simp only [Action.next, check_of hstarted, hthread]
    have hdata := h.data_eq
    have hreaped := h.reaped_eq
    rw [hnext]
    refine ⟨hhand, by simp, fun hj => ?_, fun hj => (by cases hj), h.ended, ?_, h.created_eq, ?_,
      h.fault_eq⟩
    · simp [hjoined] at hj
    · simp [DataInUse, hpc, habsent] at hdata ⊢
      omega
    · simp [Reaped, hjoined, hfree] at hreaped ⊢
      exact hreaped
  · have hnext : Action.next childTid s .start = { s with fault := some .assertion } := by
      simp only [Action.next, check_of_not hstarted]
    rw [hnext]
    exact h.of_assertion

/-- `pthread_create`. -/
theorem ObjectInv.create (h : ObjectInv childTid s) {ok : Bool}
    (hen : Action.Enabled s (.create ok)) :
    ObjectInv childTid (Action.next childTid s (.create ok)) := by
  obtain ⟨hstarting, hpc, -⟩ := hen
  have hpc : s.thread.startPc = .creating := hpc
  have hhand : CThread.HandInv childTid (CThread.Action.next childTid s.thread (.create ok)) :=
    h.hand.create hpc
  have habsent := h.hand.start.childPc_eq (Or.inr hpc)
  have hjoined : s.joined = false := by
    by_contra hjoined
    exact (h.joined_started (by simpa using hjoined)).2 hstarting
  have hended : s.ended = false := by
    by_contra hended
    have hrunning := h.ended (by simpa using hended)
    simp [habsent] at hrunning
  have huse : s.DataInUse := Or.inl hpc
  have hone : s.allocated = s.deleted + 1 := by rw [h.data_eq, if_pos huse]
  have hcreated := h.created_eq
  have hreaped := h.reaped_eq
  cases ok with
  | true =>
      refine ⟨hhand, ?_, fun hj => ?_, fun hj => ?_, fun hend => ?_, ?_, ?_, ?_, h.fault_eq⟩
      · simp [Action.next, CThread.Action.next, hstarting]
      · simp [Action.next, hjoined] at hj
      · simp [Action.next, hstarting] at hj
      · simp [Action.next, hended] at hend
      · simp [Action.next, CThread.Action.next, DataInUse, hended, hone]
      · simp [Action.next, CThread.Action.next, habsent] at hcreated ⊢
        exact hcreated
      · simp [Action.next, Reaped, hjoined, hstarting] at hreaped ⊢
        exact hreaped
  | false =>
      refine ⟨hhand, ?_, fun hj => ?_, fun hj => (by cases hj), fun hend => ?_, ?_, ?_, ?_,
        h.fault_eq⟩
      · simp [Action.next, CThread.Action.next]
      · simp [Action.next, hjoined] at hj
      · simp [Action.next, hended] at hend
      · simp [Action.next, CThread.Action.next, DataInUse, habsent, hone]
      · simp [Action.next, CThread.Action.next, habsent] at hcreated ⊢
        exact hcreated
      · simp [Action.next, Reaped, hjoined, hstarting] at hreaped ⊢
        exact hreaped

/-- A step that only moves the thread object's own parts: the position of `Start` stays in `Start`,
and the new thread stays what it is. -/
theorem ObjectInv.of_thread (h : ObjectInv childTid s) {thread : CThread}
    (hhand : CThread.HandInv childTid thread) (hstarted : thread.started = s.thread.started)
    (hstartPc : s.thread.startPc = .creating ∨ s.thread.startPc = .waiting ∨
        s.thread.startPc = .asserting ↔ thread.startPc = .creating ∨ thread.startPc = .waiting ∨
        thread.startPc = .asserting)
    (hcreating : thread.startPc = .creating ↔ s.thread.startPc = .creating)
    (habsent : thread.childPc = .absent ↔ s.thread.childPc = .absent)
    (hended : s.ended = true → thread.childPc = .running) :
    ObjectInv childTid { s with thread := thread } where
  hand := hhand
  starting_iff := h.starting_iff.trans hstartPc
  joined_started := by
    rw [hstarted]
    exact h.joined_started
  joining := h.joining
  ended := hended
  data_eq := by
    have hdata : DataInUse { s with thread := thread } ↔ s.DataInUse := by
      unfold DataInUse
      dsimp only
      rw [hcreating, ne_eq, habsent]
    simp only [hdata]
    exact h.data_eq
  created_eq := by
    simp only [habsent]
    exact h.created_eq
  reaped_eq := by
    have hreaped : Reaped { s with thread := thread } ↔ s.Reaped := by
      unfold Reaped
      dsimp only
      rw [hstarted]
    simp only [hreaped]
    exact h.reaped_eq
  fault_eq := h.fault_eq

/-- A step of `Wait`. -/
theorem ObjectInv.wait (h : ObjectInv childTid s) {a : CThread.WaitStep}
    (hen : Action.Enabled s (.wait a)) : ObjectInv childTid (Action.next childTid s (.wait a)) := by
  obtain ⟨-, hthread, -⟩ := hen
  have hpc : s.thread.startPc = .waiting := hthread.1
  refine h.of_thread (h.hand.wait hthread) rfl ?_ ?_ Iff.rfl h.ended
  · by_cases ha : a = .return <;> simp [CThread.Action.next, hpc, ha]
  · by_cases ha : a = .return <;> simp [CThread.Action.next, hpc, ha]

/-- In front of the end of `CountDown`, the object is there. -/
theorem ObjectInv.touch_eq (h : ObjectInv childTid s)
    (hchild : s.thread.childPc = .storing ∨ s.thread.childPc = .counting) : s.touch s' = s' := by
  refine if_neg fun hdestroyed => ?_
  have hdone := h.child_of_not_starting (by simp [hdestroyed])
  rcases hchild with hchild | hchild <;> simp [hchild] at hdone

/-- The new thread stores its id. -/
theorem ObjectInv.storeTid (h : ObjectInv childTid s) (hen : Action.Enabled s .storeTid) :
    ObjectInv childTid (Action.next childTid s .storeTid) := by
  obtain ⟨hthread, -⟩ := hen
  have hpc : s.thread.childPc = .storing := hthread
  have hnext : Action.next childTid s .storeTid =
      { s with thread := CThread.Action.next childTid s.thread .storeTid } :=
    h.touch_eq (Or.inl hpc)
  rw [hnext]
  refine h.of_thread (h.hand.storeTid hthread) rfl Iff.rfl Iff.rfl ?_ fun hended => ?_
  · simp [CThread.Action.next, hpc]
  · have hrunning := h.ended hended
    simp [hpc] at hrunning

/-- A step of `CountDown`. -/
theorem ObjectInv.countDown (h : ObjectInv childTid s) {a : CThread.CountDownStep}
    (hen : Action.Enabled s (.countDown a)) :
    ObjectInv childTid (Action.next childTid s (.countDown a)) := by
  obtain ⟨hthread, -⟩ := hen
  have hpc : s.thread.childPc = .counting := hthread.1
  have hnext : Action.next childTid s (.countDown a) =
      { s with thread := CThread.Action.next childTid s.thread (.countDown a) } :=
    h.touch_eq (Or.inr hpc)
  rw [hnext]
  refine h.of_thread (h.hand.countDown hthread) rfl Iff.rfl Iff.rfl ?_ fun hended => ?_
  · by_cases ha : a = .unlock <;> simp [CThread.Action.next, hpc, ha]
  · have hrunning := h.ended hended
    simp [hpc] at hrunning

/-- In `Start`, nobody has joined the thread. -/
theorem ObjectInv.joined_eq_false (h : ObjectInv childTid s) (hpc : s.ownerPc = .starting) :
    s.joined = false := by
  by_contra hjoined
  exact (h.joined_started (by simpa using hjoined)).2 hpc

/-- `Start` returns. -/
theorem ObjectInv.assertTid (h : ObjectInv childTid s) (hpos : 0 < childTid)
    (hen : Action.Enabled s .assertTid) :
    ObjectInv childTid (Action.next childTid s .assertTid) := by
  obtain ⟨hstarting, hthread, hfault⟩ := hen
  have hpc : s.thread.startPc = .asserting := hthread
  obtain ⟨hnext, hhand⟩ := h.hand.assertTid hpos hthread
  have hjoined := h.joined_eq_false hstarting
  have hdata := h.data_eq
  have hreaped := h.reaped_eq
  have hnoFault := h.hand.start.fault_eq hpos
  rw [hnext] at hhand
  have hobject : Action.next childTid s .assertTid =
      { s with thread := { s.thread with startPc := .returned }, ownerPc := .free } := by
    simp only [Action.next, hnext, hnoFault, hfault]
  rw [hobject]
  refine ⟨hhand, by simp, fun hj => ?_, fun hj => (by cases hj), h.ended, ?_, h.created_eq, ?_,
    h.fault_eq⟩
  · simp [hjoined] at hj
  · simp [DataInUse, hpc] at hdata ⊢
    exact hdata
  · simp [Reaped, hjoined, hstarting] at hreaped ⊢
    exact hreaped

/-- `StartThread` deletes its data. -/
theorem ObjectInv.endThread (h : ObjectInv childTid s) (hen : Action.Enabled s .endThread) :
    ObjectInv childTid (Action.next childTid s .endThread) := by
  obtain ⟨hrunning, hended, -⟩ := hen
  have hpc := (h.hand.startPc_of_child (by simp [hrunning])).2.1
  have huse : s.DataInUse := Or.inr ⟨by simp [hrunning], hended⟩
  have hone : s.allocated = s.deleted + 1 := by rw [h.data_eq, if_pos huse]
  refine ⟨h.hand, h.starting_iff, h.joined_started, h.joining, fun _ => hrunning, ?_, h.created_eq,
    h.reaped_eq, h.fault_eq⟩
  simp [Action.next, DataInUse, hpc, hone]

/-- `ThreadJoin` is called. -/
theorem ObjectInv.threadJoin (h : ObjectInv childTid s) (hen : Action.Enabled s .threadJoin) :
    ObjectInv childTid (Action.next childTid s .threadJoin) := by
  obtain ⟨hfree, -⟩ := hen
  by_cases hok : s.thread.started = true ∧ s.joined = false
  · have hnext : Action.next childTid s .threadJoin =
        { s with joined := true, ownerPc := .joining } := by
      simp only [Action.next, check_of hok]
    have hstarting := h.starting_iff
    have hreaped := h.reaped_eq
    rw [hnext]
    refine ⟨h.hand, ?_, fun _ => ⟨hok.1, by simp⟩, fun _ => rfl, h.ended, h.data_eq, h.created_eq,
      ?_, h.fault_eq⟩
    · simp [hfree] at hstarting ⊢
      exact hstarting
    · simp [Reaped, hok.2, hfree] at hreaped ⊢
      exact hreaped
  · have hnext : Action.next childTid s .threadJoin = { s with fault := some .assertion } := by
      simp only [Action.next, check_of_not hok]
    rw [hnext]
    exact h.of_assertion

/-- `pthread_join` returns. -/
theorem ObjectInv.returnJoin (h : ObjectInv childTid s) (hen : Action.Enabled s .returnJoin) :
    ObjectInv childTid (Action.next childTid s .returnJoin) := by
  obtain ⟨hjoining, -, -⟩ := hen
  have hjoined := h.joining hjoining
  have hstarting := h.starting_iff
  have hreaped := h.reaped_eq
  refine ⟨h.hand, ?_, fun hj => ⟨(h.joined_started hj).1, by simp [Action.next]⟩,
    fun hj => (by cases hj), h.ended, h.data_eq, h.created_eq, ?_, h.fault_eq⟩
  · simp [Action.next, hjoining] at hstarting ⊢
    exact hstarting
  · simp [Action.next, Reaped, hjoined, hjoining] at hreaped ⊢
    exact hreaped

/-- The destructor. -/
theorem ObjectInv.destroy (h : ObjectInv childTid s) (hen : Action.Enabled s .destroy) :
    ObjectInv childTid (Action.next childTid s .destroy) := by
  obtain ⟨hfree, -⟩ := hen
  have hstarting := h.starting_iff
  have hreaped := h.reaped_eq
  refine ⟨h.hand, ?_, fun hj => ⟨(h.joined_started hj).1, by simp [Action.next]⟩,
    fun hj => (by cases hj), h.ended, h.data_eq, h.created_eq, ?_, h.fault_eq⟩
  · simp [Action.next, hfree] at hstarting ⊢
    exact hstarting
  · rcases hjoined : s.joined with _ | _
    · rcases hstarted : s.thread.started with _ | _ <;>
        simp [Action.next, Reaped, hfree, hjoined, hstarted] at hreaped ⊢ <;> exact hreaped
    · have hstarted := (h.joined_started hjoined).1
      simp [Action.next, Reaped, hfree, hjoined, hstarted] at hreaped ⊢
      exact hreaped

/-- Every step keeps the invariant. -/
theorem ObjectInv.step (hpos : 0 < childTid) (s : ThreadObject) (a : Action) (s' : ThreadObject)
    (h : ObjectInv childTid s) (hst : Step childTid s a s') : ObjectInv childTid s' := by
  obtain ⟨hen, rfl⟩ := hst
  cases a with
  | start => exact h.start hen
  | create ok => exact h.create hen
  | wait a => exact h.wait hen
  | assertTid => exact h.assertTid hpos hen
  | storeTid => exact h.storeTid hen
  | countDown a => exact h.countDown hen
  | endThread => exact h.endThread hen
  | threadJoin => exact h.threadJoin hen
  | returnJoin => exact h.returnJoin hen
  | destroy => exact h.destroy hen

/-- Outside `Start`, the thread has been created when `m_bStarted` is set. -/
theorem ObjectInv.created_of_not_starting (h : ObjectInv childTid s) (hpc : s.ownerPc ≠ .starting) :
    s.created = if s.thread.started = true then 1 else 0 := by
  rw [h.created_eq]
  have hstartPc := mt h.starting_iff.mpr hpc
  by_cases hstarted : s.thread.started = true
  · have hbegun := h.hand.started_iff.mp hstarted
    rcases hchild : s.thread.childPc with _ | _ | _ | _
    · have habsent := h.hand.absent hchild
      rcases habsent with habsent | habsent | habsent
      · exact absurd habsent hbegun.1
      · exact absurd (Or.inl habsent) hstartPc
      · exact absurd habsent hbegun.2
    all_goals simp [hstarted]
  · have hnot := mt h.hand.started_iff.mpr hstarted
    have habsent : s.thread.childPc = .absent := by
      by_contra hchild
      obtain ⟨houtside, -, hfailed⟩ := h.hand.startPc_of_child hchild
      exact hnot ⟨houtside, hfailed⟩
    simp [habsent, hstarted]

/-- **A thread does not outlive what it uses.** For a thread id that is positive, whatever the owner
does, and however the two threads are interleaved:
* the new thread never uses a pointer into a destroyed object;
* every `CThreadData` is deleted once, when its last user is done with it;
* no thread is joined or detached twice, and in a destroyed object every thread has been. -/
theorem threadLife_run (hpos : 0 < childTid) {as : List Action}
    (hrun : Run (Step childTid) new as s) :
    s.fault ≠ some .useAfterFree ∧
      (s.ownerPc = .destroyed → s.thread.childPc = .absent ∨ s.thread.childPc = .running) ∧
      s.allocated = s.deleted + (if s.DataInUse then 1 else 0) ∧
      s.reaped ≤ s.created ∧ (s.ownerPc = .destroyed → s.reaped = s.created) := by
  have hinv := hrun.invariant (ObjectInv.step hpos) objectInv_new
  refine ⟨fun hfault => ?_, fun hpc => ?_, hinv.data_eq, ?_, fun hpc => ?_⟩
  · rcases hinv.fault_eq with hnone | hassertion
    · simp [hnone] at hfault
    · simp [hassertion] at hfault
  · exact hinv.child_of_not_starting (by simp [hpc])
  · rw [hinv.reaped_eq]
    by_cases hreaped : s.Reaped
    · have hstarted : s.thread.started = true ∧ s.ownerPc ≠ .starting := by
        rcases hreaped with ⟨hjoined, -⟩ | ⟨hpc, hstarted⟩
        · exact hinv.joined_started hjoined
        · exact ⟨hstarted, by simp [hpc]⟩
      rw [hinv.created_of_not_starting hstarted.2, if_pos hstarted.1, if_pos hreaped]
    · rw [if_neg hreaped]
      exact Nat.zero_le _
  · have hreaped : s.Reaped ↔ s.thread.started = true := by
      unfold Reaped
      constructor
      · rintro (⟨hjoined, -⟩ | ⟨-, hstarted⟩)
        · exact (hinv.joined_started hjoined).1
        · exact hstarted
      · exact fun hstarted => Or.inr ⟨hpc, hstarted⟩
    rw [hinv.reaped_eq, hinv.created_of_not_starting (by simp [hpc])]
    simp only [hreaped]

/-- The theorem on an object that is destroyed while its thread runs: `pthread_create` fails once,
and the thread of the second `Start` outlives the object. -/
theorem threadLife_run_detached :
    ∃ s : ThreadObject, Run (Step 42) new [.start, .create false, .start, .create true, .wait .lock,
        .wait .test, .wait .block, .storeTid, .countDown .lock, .countDown .decrement,
        .countDown .test, .countDown .notifyAll, .countDown .unlock, .wait .relock, .wait .test,
        .wait .unlock, .wait .return, .assertTid, .destroy, .endThread] s ∧
      s.fault ≠ some .useAfterFree ∧ s.allocated = s.deleted ∧ s.reaped = s.created := by
  have hrun : ∃ s : ThreadObject, Run (Step 42) new [.start, .create false, .start, .create true,
        .wait .lock, .wait .test, .wait .block, .storeTid, .countDown .lock, .countDown .decrement,
        .countDown .test, .countDown .notifyAll, .countDown .unlock, .wait .relock, .wait .test,
        .wait .unlock, .wait .return, .assertTid, .destroy, .endThread] s ∧
      s.ownerPc = .destroyed ∧ ¬ s.DataInUse :=
    ⟨_, run_of_execute rfl, rfl, by decide⟩
  obtain ⟨s, hrun, hpc, huse⟩ := hrun
  obtain ⟨hfault, -, hdata, -, hreaped⟩ := threadLife_run (by decide) hrun
  rw [if_neg huse] at hdata
  exact ⟨s, hrun, hfault, hdata, hreaped hpc⟩

end ThreadObject

end Neconet
