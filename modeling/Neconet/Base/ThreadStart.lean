import Neconet.Base.ThreadObject
import Neconet.Lib.Progress

/-!
# `CThread::Start` returns

Neither thread waits for the other in vain: the caller of `Start` blocks at the latch only while the
new thread is still to notify it, and the mutex of the latch is held for a few statements. So short
of spurious wakeups, of which there may be any number before, `Start` is over after a few steps of
the two threads.

* `startRank`: how many steps are left.
* `HandInv.progress`: one of the two threads can take a step.
* `start_returns_run`: `Start` returns.
-/

namespace Neconet

open Transition Monitor

/-- What the caller of `Start` has left from a position in `Wait`. -/
def LatchPc.waitRank (count : ℤ) : LatchPc → ℕ
  | idle | woken => if 0 < count then 8 else 5
  | waitTest => if 0 < count then 7 else 4
  | waitLoop => 6
  | blocked => 5
  | waitUnlock => 3
  | waitReturn => 2
  | decrement | countTest | countNotify | countUnlock => 0

/-- What the new thread has left from a position in `CountDown`. -/
def LatchPc.countDownRank : LatchPc → ℕ
  | idle => 5
  | decrement => 4
  | countTest => 3
  | countNotify => 2
  | countUnlock => 1
  | waitTest | waitLoop | blocked | woken | waitUnlock | waitReturn => 0

theorem LatchPc.waitRank_le (count : ℤ) (p : LatchPc) : p.waitRank count ≤ 8 := by
  cases p with
  | idle | woken | waitTest =>
      simp only [waitRank]
      split_ifs <;> omega
  | _ => simp [waitRank]

theorem LatchPc.countDownRank_le (p : LatchPc) : p.countDownRank ≤ 5 := by
  cases p <;> simp [countDownRank]

/-- The decrement brings `Wait` nearer to its end. -/
theorem LatchPc.waitRank_sub_one_le (count : ℤ) (p : LatchPc) :
    p.waitRank (count - 1) ≤ p.waitRank count := by
  cases p <;> simp only [waitRank, le_refl] <;> split_ifs <;> omega

/-- At zero, so does the notification. -/
theorem LatchPc.waitRank_woken {count : ℤ} (hcount : count = 0) (p : LatchPc) :
    (if p.place = .blocked then LatchPc.woken else p).waitRank count = p.waitRank count := by
  rw [hcount]
  cases p <;> rfl

namespace CThread

variable {childTid : ℤ} {s : CThread}

/-- What the caller of `Start` has left. -/
def starterRank (s : CThread) : ℕ :=
  match s.startPc with
  | .creating => 9
  | .waiting => (s.latch.pc .starter).waitRank s.latch.count
  | .asserting => 1
  | .outside | .returned | .failed => 0

/-- What the new thread has left until it is past the latch. -/
def childRank (s : CThread) : ℕ :=
  match s.childPc with
  | .absent | .storing => 6
  | .counting => (s.latch.pc .child).countDownRank
  | .running => 0

/-- What the two threads have left. -/
def startRank (s : CThread) : ℕ := s.starterRank + s.childRank

/-- There are 15 steps in all. -/
theorem startRank_le (s : CThread) : s.startRank ≤ 15 := by
  have hstarter : s.starterRank ≤ 9 := by
    unfold starterRank
    cases s.startPc with
    | waiting => exact (LatchPc.waitRank_le _ _).trans (by omega)
    | _ => simp
  have hchild : s.childRank ≤ 6 := by
    unfold childRank
    cases s.childPc with
    | counting => exact (LatchPc.countDownRank_le _).trans (by omega)
    | _ => simp
  unfold startRank
  omega

/-- Every step of `Start` and of the new thread keeps the invariant. -/
theorem HandInv.step (hpos : 0 < childTid) (s : CThread) (a : Action) (s' : CThread)
    (h : HandInv childTid s) (hst : Step childTid s a s') : HandInv childTid s' := by
  obtain ⟨hen, rfl⟩ := hst
  cases a with
  | start =>
      obtain ⟨hnext, hhand⟩ := h.begin (h.start.started_eq hen.1)
      have hsame : { s with startPc := .outside } = s := by
        rw [← hen.1]
      rw [hsame] at hnext
      rw [hnext]
      exact hhand
  | create ok => exact h.create hen
  | wait a => exact h.wait hen
  | assertTid => exact (h.assertTid hpos hen).2
  | storeTid => exact h.storeTid hen
  | countDown a => exact h.countDown hen

/-- A step of `Wait` that is no spurious wakeup. -/
theorem startRank_wait {a : WaitStep} (ha : a ≠ .wakeSpuriously)
    (hen : Action.Enabled s (.wait a)) :
    (Action.next childTid s (.wait a)).startRank + 1 ≤ s.startRank := by
  obtain ⟨hpc, hen⟩ := hen
  have hchild : ∀ p, (s.latch.goto .starter p).pc .child = s.latch.pc .child :=
    fun p => CCountDownLatch.goto_pc_of_ne p (by decide)
  have hchildRank : (Action.next childTid s (.wait a)).childRank = s.childRank := by
    unfold childRank
    cases a <;> simp [Action.next, WaitStep.action, CCountDownLatch.Action.next, hchild]
  have hstarterRank : (Action.next childTid s (.wait a)).starterRank + 1 ≤ s.starterRank := by
    cases a with
    | wakeSpuriously => exact absurd rfl ha
    | test =>
        have htest : s.latch.pc .starter = .waitTest := hen
        by_cases hcount : 0 < s.latch.count <;>
          simp [starterRank, Action.next, WaitStep.action, CCountDownLatch.Action.next,
            CCountDownLatch.goto, LatchPc.waitRank, hpc, htest, hcount]
    | lock | relock =>
        have hfrom := hen.1
        by_cases hcount : 0 < s.latch.count <;>
          simp [starterRank, Action.next, WaitStep.action, CCountDownLatch.Action.next,
            CCountDownLatch.goto, LatchPc.waitRank, hpc, hfrom, hcount]
    | block | unlock | «return» =>
        have hfrom : s.latch.pc .starter = _ := hen
        simp [starterRank, Action.next, WaitStep.action, CCountDownLatch.Action.next,
          CCountDownLatch.goto, LatchPc.waitRank, hpc, hfrom]
  unfold startRank
  omega

/-- A step of `CountDown`. -/
theorem HandInv.startRank_countDown (h : HandInv childTid s) {a : CountDownStep}
    (hen : Action.Enabled s (.countDown a)) :
    (Action.next childTid s (.countDown a)).startRank + 1 ≤ s.startRank := by
  obtain ⟨hpc, hen⟩ := hen
  have hcount := h.child_counting hpc
  have hchildRank : (Action.next childTid s (.countDown a)).childRank + 1 ≤ s.childRank := by
    cases a with
    | lock =>
        have hfrom : s.latch.pc .child = .idle := hen.1
        simp [childRank, Action.next, CountDownStep.action, CCountDownLatch.Action.next,
          CCountDownLatch.goto, LatchPc.countDownRank, hpc, hfrom]
    | test =>
        have hfrom : s.latch.pc .child = .countTest := hen
        have hzero : s.latch.count = 0 := by simpa [hfrom] using hcount
        simp [childRank, Action.next, CountDownStep.action, CCountDownLatch.Action.next,
          CCountDownLatch.goto, LatchPc.countDownRank, hpc, hfrom, hzero]
    | decrement | notifyAll | unlock =>
        have hfrom : s.latch.pc .child = _ := hen
        simp [childRank, Action.next, CountDownStep.action, CCountDownLatch.Action.next,
          CCountDownLatch.goto, LatchPc.countDownRank, hpc, hfrom]
  have hstarterRank : (Action.next childTid s (.countDown a)).starterRank ≤ s.starterRank := by
    unfold starterRank
    cases hstart : s.startPc with
    | waiting =>
        cases a with
        | lock | test | unlock =>
            simp [Action.next, CountDownStep.action, CCountDownLatch.Action.next, hstart,
              CCountDownLatch.goto]
        | decrement =>
            simp [Action.next, CountDownStep.action, CCountDownLatch.Action.next, hstart,
              CCountDownLatch.goto, LatchPc.waitRank_sub_one_le]
        | notifyAll =>
            have hfrom : s.latch.pc .child = .countNotify := hen
            have hzero : s.latch.count = 0 := by simpa [hfrom] using hcount
            simp [Action.next, CountDownStep.action, CCountDownLatch.Action.next, hstart,
              CCountDownLatch.goto, CCountDownLatch.wakeAll, LatchPc.waitRank_woken hzero]
    | _ => simp [Action.next, hstart]
  unfold startRank
  omega

/-- Every step but a spurious wakeup brings `Start` nearer to its end. -/
theorem HandInv.startRank_step (h : HandInv childTid s) (hpos : 0 < childTid) {a : Action}
    (houtside : s.startPc ≠ .outside) (ha : a ≠ .wait .wakeSpuriously)
    (hen : a.Enabled s) : (a.next childTid s).startRank + 1 ≤ s.startRank := by
  cases a with
  | start => exact absurd hen.1 houtside
  | create ok =>
      have hpc : s.startPc = .creating := hen
      have habsent := h.start.childPc_eq (Or.inr hpc)
      have hidle := h.starter_idle (by simp [hpc])
      cases ok with
      | true =>
          have hone := h.start.count_eq (by simp [Stored, habsent])
          simp [startRank, starterRank, childRank, Action.next, hpc, habsent, hidle, hone,
            LatchPc.waitRank]
      | false => simp [startRank, starterRank, childRank, Action.next, hpc, habsent]
  | wait a => exact startRank_wait (fun hw => ha (congrArg _ hw)) hen
  | assertTid =>
      have hpc : s.startPc = .asserting := hen
      rw [(h.assertTid hpos hen).1]
      simp [startRank, starterRank, childRank, hpc]
  | storeTid =>
      have hpc : s.childPc = .storing := hen
      have hidle := h.child_idle (by simp [hpc])
      simp [startRank, starterRank, childRank, Action.next, hpc, hidle, LatchPc.countDownRank]
  | countDown a => exact h.startRank_countDown hen

/-- With nobody inside, the mutex is free. -/
theorem HandInv.owner_eq_none (h : HandInv childTid s)
    (hstarter : (s.latch.pc .starter).place ≠ .inside)
    (hchild : (s.latch.pc .child).place ≠ .inside) : s.latch.owner = none := by
  rcases howner : s.latch.owner with _ | (_ | _)
  · rfl
  · exact absurd ((h.start.latchInv.consistent .starter).mpr howner) hstarter
  · exact absurd ((h.start.latchInv.consistent .child).mpr howner) hchild

/-- Behind `CountDown`, the caller of `Start` can go on in `Wait`. -/
theorem HandInv.progress_of_running (h : HandInv childTid s) (hpc : s.startPc = .waiting)
    (hrunning : s.childPc = .running) :
    ∃ a : WaitStep, a ≠ .wakeSpuriously ∧ Action.Enabled s (.wait a) := by
  have hidle := h.child_idle (by simp [hrunning])
  have hchild : (s.latch.pc .child).place ≠ .inside := by simp [hidle, LatchPc.place]
  have hzero := h.child_running hrunning
  obtain ⟨hdecrement, htest, hnotify, hunlock⟩ := h.starter_waiting
  cases hstarter : s.latch.pc .starter with
  | idle =>
      have hfree := h.owner_eq_none (by simp [hstarter, LatchPc.place]) hchild
      exact ⟨.lock, by simp, hpc, hstarter, hfree⟩
  | waitTest => exact ⟨.test, by simp, hpc, hstarter⟩
  | waitLoop => exact ⟨.block, by simp, hpc, hstarter⟩
  | blocked =>
      have hfree := h.owner_eq_none (by simp [hstarter, LatchPc.place]) hchild
      exact absurd hstarter (h.start.latchInv.not_blocked hfree (by omega) .starter)
  | woken =>
      have hfree := h.owner_eq_none (by simp [hstarter, LatchPc.place]) hchild
      exact ⟨.relock, by simp, hpc, hstarter, hfree⟩
  | waitUnlock => exact ⟨.unlock, by simp, hpc, hstarter⟩
  | waitReturn => exact ⟨.return, by simp, hpc, hstarter⟩
  | decrement => exact absurd hstarter hdecrement
  | countTest => exact absurd hstarter htest
  | countNotify => exact absurd hstarter hnotify
  | countUnlock => exact absurd hstarter hunlock

/-- In `CountDown`, one of the two threads can go on: the new thread, or who has the mutex. -/
theorem HandInv.progress_of_counting (h : HandInv childTid s) (hpc : s.startPc = .waiting)
    (hcounting : s.childPc = .counting) :
    ∃ a : Action, a ≠ .wait .wakeSpuriously ∧ a.Enabled s := by
  rcases h.child_counting hcounting with ⟨hidle | hdecrement, -⟩ | ⟨htest | hnotify | hunlock, -⟩
  · have hchild : (s.latch.pc .child).place ≠ .inside := by simp [hidle, LatchPc.place]
    obtain ⟨hdecrement, htest, hnotify, hunlock⟩ := h.starter_waiting
    have hlock : (s.latch.pc .starter).place ≠ .inside → s.latch.owner = none :=
      fun hstarter => h.owner_eq_none hstarter hchild
    cases hstarter : s.latch.pc .starter with
    | waitTest => exact ⟨.wait .test, by simp, hpc, hstarter⟩
    | waitLoop => exact ⟨.wait .block, by simp, hpc, hstarter⟩
    | waitUnlock => exact ⟨.wait .unlock, by simp, hpc, hstarter⟩
    | decrement => exact absurd hstarter hdecrement
    | countTest => exact absurd hstarter htest
    | countNotify => exact absurd hstarter hnotify
    | countUnlock => exact absurd hstarter hunlock
    | idle | blocked | woken | waitReturn =>
        have hfree := hlock (by simp [hstarter, LatchPc.place])
        exact ⟨.countDown .lock, by simp, hcounting, hidle, hfree⟩
  · exact ⟨.countDown .decrement, by simp, hcounting, hdecrement⟩
  · exact ⟨.countDown .test, by simp, hcounting, htest⟩
  · exact ⟨.countDown .notifyAll, by simp, hcounting, hnotify⟩
  · exact ⟨.countDown .unlock, by simp, hcounting, hunlock⟩

/-- In `Start`, one of the two threads can take a step that is no spurious wakeup. -/
theorem HandInv.progress (h : HandInv childTid s) (houtside : s.startPc ≠ .outside)
    (hin : ¬ (s.startPc = .returned ∨ s.startPc = .failed)) :
    ∃ a : Action, a ≠ .wait .wakeSpuriously ∧ a.Enabled s := by
  cases hpc : s.startPc with
  | outside => exact absurd hpc houtside
  | returned => exact absurd (Or.inl hpc) hin
  | failed => exact absurd (Or.inr hpc) hin
  | creating => exact ⟨.create true, by simp, hpc⟩
  | asserting => exact ⟨.assertTid, by simp, hpc⟩
  | waiting =>
      cases hchild : s.childPc with
      | absent =>
          have hbefore := h.absent hchild
          simp [hpc] at hbefore
      | storing => exact ⟨.storeTid, by simp, hchild⟩
      | counting => exact h.progress_of_counting hpc hchild
      | running =>
          obtain ⟨a, ha, hen⟩ := h.progress_of_running hpc hchild
          exact ⟨.wait a, by simpa using ha, hen⟩

/-- `Start` is called once. -/
theorem startPc_ne_outside {s s' : CThread} {a : Action} (houtside : s.startPc ≠ .outside)
    (hst : Step childTid s a s') : s'.startPc ≠ .outside := by
  obtain ⟨hen, rfl⟩ := hst
  cases a with
  | start => exact absurd hen.1 houtside
  | create ok => cases ok <;> simp [Action.next]
  | wait a => by_cases ha : a = .return <;> simp [Action.next, ha]
  | assertTid => by_cases htid : s.tid > 0 <;> simp [Action.next, htid]
  | storeTid | countDown a => exact houtside

/-- **`Start` returns.** Once it is called, however the caller and the new thread are interleaved,
and whether `pthread_create` succeeds or not: as long as `Start` has not returned, one of the two
threads can take a step, and after 15 steps at most that are no spurious wakeups, it has. -/
theorem start_returns_run (hpos : 0 < childTid) {as : List Action}
    (hrun : Run (Step childTid) new as s) (hcalled : s.startPc ≠ .outside) :
    LeadsWithin (Step childTid) (fun a => a ≠ .wait .wakeSpuriously) (fun _ => true)
      (fun t => t.startPc = .returned ∨ t.startPc = .failed) 15 s := by
  have hinv := hrun.invariant (HandInv.step hpos) handInv_new
  have hwithin : LeadsWithin (Step childTid) (fun a => a ≠ .wait .wakeSpuriously) (fun _ => true)
      (fun t => t.startPc = .returned ∨ t.startPc = .failed) s.startRank s := by
    refine leadsWithin_of_rank (I := fun t => HandInv childTid t ∧ t.startPc ≠ .outside) ?_ ?_
      ⟨hinv, hcalled⟩
    · rintro t a u ⟨ht, houtside⟩ ⟨-, ha⟩ hst
      refine ⟨⟨ht.step hpos t a u hst, startPc_ne_outside houtside hst⟩, ?_⟩
      obtain ⟨hen, rfl⟩ := hst
      exact ht.startRank_step hpos houtside ha hen
    · rintro t ⟨ht, houtside⟩ hin
      obtain ⟨a, ha, hen⟩ := ht.progress houtside hin
      exact ⟨a, _, rfl, ha, hen, rfl⟩
  exact hwithin.mono s.startRank_le

/-- The theorem on a caller that is blocked at the latch. -/
theorem start_returns_run_blocked : ∃ s : CThread,
    Run (Step 42) new [.start, .create true, .wait .lock, .wait .test, .wait .block] s ∧
      LeadsWithin (Step 42) (fun a => a ≠ .wait .wakeSpuriously) (fun _ => true)
        (fun t => t.startPc = .returned ∨ t.startPc = .failed) 15 s := by
  have hrun : ∃ s : CThread, Run (Step 42) new [.start, .create true, .wait .lock, .wait .test,
      .wait .block] s ∧ s.startPc = .waiting :=
    ⟨_, run_of_execute rfl, rfl⟩
  obtain ⟨s, hrun, hpc⟩ := hrun
  exact ⟨s, hrun, start_returns_run (by decide) hrun (by simp [hpc])⟩

end CThread

end Neconet
