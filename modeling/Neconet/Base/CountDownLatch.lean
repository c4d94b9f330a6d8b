import Neconet.Lib.Monitor
import Neconet.Lib.Transition

/-!
# `CCountDownLatch`

The latch of `base/CCountDownLatch.cpp`: any number of threads inside `Wait` and `CountDown`, one
statement at a time. `CMutexLockGuard` and `CCondition` on the latch's mutex are the monitor of
`Lib/Monitor.lean`; that `CMutexLock` and `CCondition` are such a monitor is
`CMutexLock.monitor_step`.

* `CCountDownLatch`, `Action`, `Step`: the states, the steps, and the step relation.
* `monitor_step`: every step is one of the monitor.
* `LatchInv`: what the count is at the positions of the threads.
-/

namespace Neconet

set_option linter.unusedSectionVars false

open Transition Monitor

/-! ## States and steps -/

/-- Where a thread is. -/
inductive LatchPc
  /-- In no call, or in front of the mutex. -/
  | idle
  /-- In `Wait`, in front of `while (m_nCount > 0)`. -/
  | waitTest
  /-- In `Wait`, in front of `m_clsCondition.Wait()`. -/
  | waitLoop
  /-- Blocked in `m_clsCondition.Wait()`. -/
  | blocked
  /-- Woken in `m_clsCondition.Wait()`, but without the mutex. -/
  | woken
  /-- In `Wait`, behind the loop. -/
  | waitUnlock
  /-- `Wait` has released the mutex and returns. -/
  | waitReturn
  /-- In `CountDown`, in front of `--m_nCount`. -/
  | decrement
  /-- In `CountDown`, in front of `if (m_nCount == 0)`. -/
  | countTest
  /-- In `CountDown`, in front of `m_clsCondition.NotifyAll()`. -/
  | countNotify
  /-- In `CountDown`, at its end. -/
  | countUnlock
  deriving DecidableEq, Repr

/-- The place of a thread at the monitor. -/
def LatchPc.place : LatchPc → Place
  | idle | waitReturn => .outside
  | blocked => .blocked
  | woken => .woken
  | _ => .inside

/-- The latch with the position of every thread.
Source: `base/CCountDownLatch.h` -/
structure CCountDownLatch (T : Type) where
  /-- The owner of `m_clsMutex`. -/
  owner : Option T
  /-- `m_nCount`. -/
  count : ℤ
  /-- The position of every thread. -/
  pc : T → LatchPc

namespace CCountDownLatch

variable {T : Type}

/-- Source: `base/CCountDownLatch.cpp`, `CCountDownLatch::CCountDownLatch` -/
def new (nCount : ℤ) : CCountDownLatch T where
  owner := none
  count := nCount
  pc _ := .idle

/-- The steps; each is taken by the thread `t`. -/
inductive Action (T : Type)
  /-- `Wait` takes the mutex. -/
  | lockWait (t : T)
  /-- The condition of the loop in `Wait`. -/
  | testWait (t : T)
  /-- `m_clsCondition.Wait()` releases the mutex and blocks. -/
  | block (t : T)
  /-- The thread is woken without a notification. -/
  | wakeSpuriously (t : T)
  /-- `m_clsCondition.Wait()` has the mutex again and returns. -/
  | relock (t : T)
  /-- `Wait` releases the mutex. -/
  | unlockWait (t : T)
  /-- `Wait` returns. -/
  | returnWait (t : T)
  /-- `CountDown` takes the mutex. -/
  | lockCountDown (t : T)
  /-- `--m_nCount`. -/
  | decrement (t : T)
  /-- The condition in `CountDown`. -/
  | testCountDown (t : T)
  /-- `m_clsCondition.NotifyAll()`. -/
  | notifyAll (t : T)
  /-- `CountDown` releases the mutex and returns. -/
  | unlockCountDown (t : T)
  deriving DecidableEq, Repr

/-- The step can be taken. -/
def Action.Enabled (s : CCountDownLatch T) : Action T → Prop
  | lockWait t => s.pc t = .idle ∧ s.owner = none
  | testWait t => s.pc t = .waitTest
  | block t => s.pc t = .waitLoop
  | wakeSpuriously t => s.pc t = .blocked
  | relock t => s.pc t = .woken ∧ s.owner = none
  | unlockWait t => s.pc t = .waitUnlock
  | returnWait t => s.pc t = .waitReturn
  | lockCountDown t => s.pc t = .idle ∧ s.owner = none
  | decrement t => s.pc t = .decrement
  | testCountDown t => s.pc t = .countTest
  | notifyAll t => s.pc t = .countNotify
  | unlockCountDown t => s.pc t = .countUnlock

instance [DecidableEq T] (s : CCountDownLatch T) (a : Action T) : Decidable (a.Enabled s) := by
  cases a <;> unfold Action.Enabled <;> infer_instance

variable [DecidableEq T]

/-- The thread `t` goes to `p`. -/
def goto (s : CCountDownLatch T) (t : T) (p : LatchPc) : CCountDownLatch T :=
  { s with pc := Function.update s.pc t p }

/-- Every blocked thread is woken. -/
def wakeAll (s : CCountDownLatch T) : CCountDownLatch T :=
  { s with pc := fun u => if (s.pc u).place = .blocked then .woken else s.pc u }

/-- The state after the step.
Source: `base/CCountDownLatch.cpp`, `CCountDownLatch::Wait`, `CCountDownLatch::CountDown` -/
def Action.next (s : CCountDownLatch T) : Action T → CCountDownLatch T
  | lockWait t => { s.goto t .waitTest with owner := some t }
  | testWait t => s.goto t (if s.count > 0 then .waitLoop else .waitUnlock)
  | block t => { s.goto t .blocked with owner := none }
  | wakeSpuriously t => s.goto t .woken
  | relock t => { s.goto t .waitTest with owner := some t }
  | unlockWait t => { s.goto t .waitReturn with owner := none }
  | returnWait t => s.goto t .idle
  | lockCountDown t => { s.goto t .decrement with owner := some t }
  | decrement t => { s.goto t .countTest with count := s.count - 1 }
  | testCountDown t => s.goto t (if s.count = 0 then .countNotify else .countUnlock)
  | notifyAll t => s.wakeAll.goto t .countUnlock
  | unlockCountDown t => { s.goto t .idle with owner := none }

/-- One step, as a relation between states. -/
def Step (s : CCountDownLatch T) (a : Action T) (s' : CCountDownLatch T) : Prop :=
  a.Enabled s ∧ s' = a.next s

/-! ## The monitor under the latch -/

/-- The mutex and the condition variable as a monitor. -/
def monitor (s : CCountDownLatch T) : Monitor T := ofPositions LatchPc.place s.owner s.pc

/-- Every step is a step of the monitor. -/
theorem monitor_step {s s' : CCountDownLatch T} {a : Action T} (hst : Step s a s') :
    Monitor.Step s.monitor s'.monitor := by
  obtain ⟨hen, rfl⟩ := hst
  cases a with
  | lockWait t => exact .goto_lock (congrArg LatchPc.place hen.1) hen.2 rfl
  | testWait t =>
      refine .goto_stay (congrArg LatchPc.place hen) ?_
      split_ifs <;> rfl
  | block t => exact .goto_wait (congrArg LatchPc.place hen) rfl
  | wakeSpuriously t => exact .goto_wake (congrArg LatchPc.place hen) rfl
  | relock t => exact .goto_relock (congrArg LatchPc.place hen.1) hen.2 rfl
  | unlockWait t => exact .goto_unlock (congrArg LatchPc.place hen) rfl
  | returnWait t => exact .goto_stay (congrArg LatchPc.place hen) rfl
  | lockCountDown t => exact .goto_lock (congrArg LatchPc.place hen.1) hen.2 rfl
  | decrement t => exact .goto_stay (congrArg LatchPc.place hen) rfl
  | testCountDown t =>
      refine .goto_stay (congrArg LatchPc.place hen) ?_
      split_ifs <;> rfl
  | notifyAll t =>
      have hpc : ((s.wakeAll).pc t).place = .inside := by
        simp [wakeAll, show s.pc t = _ from hen, LatchPc.place]
      have hwake : (Action.next s (.notifyAll t)).monitor = s.monitor.wakeAll :=
        (ofPositions_update_of_place hpc rfl).trans (ofPositions_wakeAll rfl)
      rw [hwake]
      exact .wakeAll
  | unlockCountDown t => exact .goto_unlock (congrArg LatchPc.place hen) rfl

/-! ## The count -/

/-- A blocked thread need not be notified yet, or a `CountDown` in progress will do it. -/
def NotifyDue (s : CCountDownLatch T) : Prop :=
  0 < s.count ∨ s.count = 0 ∧ ∃ t, s.pc t = .countTest ∨ s.pc t = .countNotify

/-- What the count is at the positions of the threads. -/
structure LatchInv (s : CCountDownLatch T) : Prop where
  /-- The owner of the mutex is the one thread inside. -/
  consistent : s.monitor.Consistent
  /-- A thread is about to wait for a positive count. -/
  count_pos : ∀ t, s.pc t = .waitLoop → 0 < s.count
  /-- The loop of `Wait` ends at a count that is not positive, and the count does not grow. -/
  count_nonpos : ∀ t, s.pc t = .waitUnlock ∨ s.pc t = .waitReturn → s.count ≤ 0
  /-- No blocked thread is forgotten. -/
  notifyDue : ∀ t, s.pc t = .blocked → s.NotifyDue

/-- A new latch meets the invariant, whatever its count. -/
theorem latchInv_new (nCount : ℤ) : LatchInv (new nCount : CCountDownLatch T) where
  consistent := consistent_free rfl fun t h => by cases h
  count_pos t h := by cases h
  count_nonpos t h := by rcases h with h | h <;> cases h
  notifyDue t h := by cases h

/-- While one thread is inside, no other thread is. -/
theorem LatchInv.eq_of_inside {s : CCountDownLatch T} (h : s.LatchInv) {t u : T}
    (ht : (s.pc t).place = .inside) (hu : (s.pc u).place = .inside) : u = t :=
  h.consistent.eq_of_inside hu ht

/-- A thread that goes from one position to another leaves the others where they are. -/
theorem goto_pc_of_ne {s : CCountDownLatch T} {t u : T} (p : LatchPc) (hu : u ≠ t) :
    (s.goto t p).pc u = s.pc u :=
  Function.update_of_ne hu _ _

@[simp] theorem goto_pc_self (s : CCountDownLatch T) (t : T) (p : LatchPc) :
    (s.goto t p).pc t = p :=
  Function.update_self _ _ _

/-- A thread that does not come from the middle of `CountDown` cancels no notification. -/
theorem NotifyDue.goto {s : CCountDownLatch T} (h : s.NotifyDue) {t : T} (p : LatchPc)
    (htest : s.pc t ≠ .countTest) (hnotify : s.pc t ≠ .countNotify) : (s.goto t p).NotifyDue := by
  rcases h with hpos | ⟨hzero, u, hu⟩
  · exact Or.inl hpos
  · have hut : u ≠ t := by
      rintro rfl
      exact hu.elim htest hnotify
    rw [← goto_pc_of_ne p hut] at hu
    exact Or.inr ⟨hzero, u, hu⟩

/-- A step of one thread that leaves the count alone, if it is right for this thread. -/
theorem LatchInv.of_goto {s s' : CCountDownLatch T} (h : s.LatchInv) (hcons : s'.monitor.Consistent)
    {t : T} {p : LatchPc} (hcount : s'.count = s.count) (hpc : s'.pc = (s.goto t p).pc)
    (htest : s.pc t ≠ .countTest) (hnotify : s.pc t ≠ .countNotify)
    (hpos : p = .waitLoop → 0 < s.count) (hnonpos : p = .waitUnlock ∨ p = .waitReturn → s.count ≤ 0)
    (hblocked : p = .blocked → 0 < s.count) : s'.LatchInv := by
  have hdue : s.NotifyDue → s'.NotifyDue := by
    intro hdue
    have hdue' := hdue.goto p htest hnotify
    rw [NotifyDue, ← hpc] at hdue'
    rw [NotifyDue, hcount]
    exact hdue'
  refine ⟨hcons, fun u hu => ?_, fun u hu => ?_, fun u hu => ?_⟩
  all_goals
    rw [hpc] at hu
    by_cases hut : u = t
  · rw [hut, goto_pc_self] at hu
    rw [hcount]
    exact hpos hu
  · rw [goto_pc_of_ne p hut] at hu
    rw [hcount]
    exact h.count_pos u hu
  · rw [hut, goto_pc_self] at hu
    rw [hcount]
    exact hnonpos hu
  · rw [goto_pc_of_ne p hut] at hu
    rw [hcount]
    exact h.count_nonpos u hu
  · rw [hut, goto_pc_self] at hu
    apply hdue
    exact Or.inl (hblocked hu)
  · rw [goto_pc_of_ne p hut] at hu
    exact hdue (h.notifyDue u hu)

/-- The decrement: from one on, it leads to a notification. -/
theorem LatchInv.decrement {s : CCountDownLatch T} (h : s.LatchInv) {t : T}
    (hpc : s.pc t = .decrement)
    (hcons : (Action.next s (.decrement t)).monitor.Consistent) :
    (Action.next s (.decrement t)).LatchInv := by
  have hinside : (s.pc t).place = .inside := by simp [hpc, LatchPc.place]
  have hold : ∀ u, (Action.next s (.decrement t)).pc u ≠ .countTest →
      (Action.next s (.decrement t)).pc u = s.pc u ∧ u ≠ t := by
    intro u hu
    have hut : u ≠ t := by
      rintro rfl
      exact hu (goto_pc_self s u _)
    exact ⟨goto_pc_of_ne _ hut, hut⟩
  refine ⟨hcons, fun u hu => ?_, fun u hu => ?_, fun u hu => ?_⟩
  · obtain ⟨hsame, hut⟩ := hold u (by simp [hu])
    rw [hsame] at hu
    exact absurd (h.eq_of_inside hinside (by simp [hu, LatchPc.place])) hut
  · obtain ⟨hsame, -⟩ := hold u (by rcases hu with hu | hu <;> simp [hu])
    rw [hsame] at hu
    have hle := h.count_nonpos u hu
    simp only [Action.next]
    omega
  · obtain ⟨hsame, -⟩ := hold u (by simp [hu])
    rw [hsame] at hu
    have hpos : 0 < s.count := by
      rcases h.notifyDue u hu with hpos | ⟨-, v, hv⟩
      · exact hpos
      · -- the mutex keeps two threads from being in `CountDown` at once
        have hvt : v = t := by
          apply h.eq_of_inside hinside
          rcases hv with hv | hv <;> simp [hv, LatchPc.place]
        rw [hvt, hpc] at hv
        rcases hv with hv | hv <;> cases hv
    by_cases hone : s.count = 1
    · refine Or.inr ⟨?_, t, Or.inl (goto_pc_self s t _)⟩
      simp [Action.next, hone]
    · left
      simp only [Action.next]
      omega

/-- The condition in `CountDown`: at zero, the notification follows. -/
theorem LatchInv.testCountDown {s : CCountDownLatch T} (h : s.LatchInv) {t : T}
    (hpc : s.pc t = .countTest)
    (hcons : (Action.next s (.testCountDown t)).monitor.Consistent) :
    (Action.next s (.testCountDown t)).LatchInv := by
  have hold : ∀ {u p}, p ≠ LatchPc.countNotify → p ≠ .countUnlock →
      (Action.next s (.testCountDown t)).pc u = p → s.pc u = p := by
    intro u p hnotify hunlock hu
    have hut : u ≠ t := by
      rintro rfl
      rw [Action.next, goto_pc_self] at hu
      split_ifs at hu
      · exact hnotify hu.symm
      · exact hunlock hu.symm
    rw [← hu]
    exact (goto_pc_of_ne _ hut).symm
  refine ⟨hcons, fun u hu => ?_, fun u hu => ?_, fun u hu => ?_⟩
  · exact h.count_pos u (hold (by simp) (by simp) hu)
  · apply h.count_nonpos u
    exact hu.imp (hold (by simp) (by simp)) (hold (by simp) (by simp))
  · rcases h.notifyDue u (hold (by simp) (by simp) hu) with hpos | ⟨hzero, -⟩
    · exact Or.inl hpos
    · refine Or.inr ⟨hzero, t, Or.inr ?_⟩
      simp [Action.next, hzero]

/-- The notification reaches every blocked thread. -/
theorem LatchInv.notifyAll {s : CCountDownLatch T} (h : s.LatchInv) {t : T}
    (hcons : (Action.next s (.notifyAll t)).monitor.Consistent) :
    (Action.next s (.notifyAll t)).LatchInv := by
  have hold : ∀ {u p}, p ≠ LatchPc.countUnlock → p ≠ .woken →
      (Action.next s (.notifyAll t)).pc u = p → s.pc u = p ∧ (s.pc u).place ≠ .blocked := by
    intro u p hunlock hwoken hu
    have hut : u ≠ t := by
      rintro rfl
      rw [Action.next, goto_pc_self] at hu
      exact hunlock hu.symm
    rw [Action.next, goto_pc_of_ne _ hut, wakeAll] at hu
    by_cases hplace : (s.pc u).place = .blocked
    · simp only [hplace, if_true] at hu
      exact absurd hu.symm hwoken
    · simp only [hplace, if_false] at hu
      exact ⟨hu, hplace⟩
  refine ⟨hcons, fun u hu => ?_, fun u hu => ?_, fun u hu => ?_⟩
  · exact h.count_pos u (hold (by simp) (by simp) hu).1
  · apply h.count_nonpos u
    exact hu.imp (fun hu => (hold (by simp) (by simp) hu).1)
      fun hu => (hold (by simp) (by simp) hu).1
  · obtain ⟨hsame, hplace⟩ := hold (by simp) (by simp) hu
    simp [hsame, LatchPc.place] at hplace

/-- Every step keeps the invariant. -/
theorem LatchInv.step (s : CCountDownLatch T) (a : Action T) (s' : CCountDownLatch T)
    (h : s.LatchInv) (hst : Step s a s') : s'.LatchInv := by
  have hcons := (monitor_step hst).consistent h.consistent
  obtain ⟨hen, rfl⟩ := hst
  cases a with
  | lockWait t =>
      exact h.of_goto hcons rfl rfl (by simp [hen.1]) (by simp [hen.1]) (by simp) (by simp) (by simp)
  | testWait t =>
      have hpc : s.pc t = .waitTest := hen
      by_cases hpos : s.count > 0
      · have hnext : Action.next s (.testWait t) = s.goto t .waitLoop := by simp [Action.next, hpos]
        rw [hnext] at hcons ⊢
        exact h.of_goto hcons rfl rfl (by simp [hpc]) (by simp [hpc]) (fun _ => hpos) (by simp)
          (by simp)
      · have hnext : Action.next s (.testWait t) = s.goto t .waitUnlock := by
          simp [Action.next, hpos]
        rw [hnext] at hcons ⊢
        exact h.of_goto hcons rfl rfl (by simp [hpc]) (by simp [hpc]) (by simp)
          (fun _ => not_lt.mp hpos) (by simp)
  | block t =>
      have hpc : s.pc t = .waitLoop := hen
      exact h.of_goto hcons rfl rfl (by simp [hpc]) (by simp [hpc]) (by simp) (by simp)
        fun _ => h.count_pos t hpc
  | wakeSpuriously t =>
      have hpc : s.pc t = .blocked := hen
      exact h.of_goto hcons rfl rfl (by simp [hpc]) (by simp [hpc]) (by simp) (by simp) (by simp)
  | relock t =>
      exact h.of_goto hcons rfl rfl (by simp [hen.1]) (by simp [hen.1]) (by simp) (by simp) (by simp)
  | unlockWait t =>
      have hpc : s.pc t = .waitUnlock := hen
      exact h.of_goto hcons rfl rfl (by simp [hpc]) (by simp [hpc]) (by simp)
        (fun _ => h.count_nonpos t (Or.inl hpc)) (by simp)
  | returnWait t =>
      have hpc : s.pc t = .waitReturn := hen
      exact h.of_goto hcons rfl rfl (by simp [hpc]) (by simp [hpc]) (by simp) (by simp) (by simp)
  | lockCountDown t =>
      exact h.of_goto hcons rfl rfl (by simp [hen.1]) (by simp [hen.1]) (by simp) (by simp) (by simp)
  | decrement t => exact h.decrement hen hcons
  | testCountDown t => exact h.testCountDown hen hcons
  | notifyAll t => exact h.notifyAll hcons
  | unlockCountDown t =>
      have hpc : s.pc t = .countUnlock := hen
      exact h.of_goto hcons rfl rfl (by simp [hpc]) (by simp [hpc]) (by simp) (by simp) (by simp)

/-- A free mutex and a count that is not positive: no thread is blocked. -/
theorem LatchInv.not_blocked {s : CCountDownLatch T} (h : s.LatchInv) (hfree : s.owner = none)
    (hcount : s.count ≤ 0) (t : T) : s.pc t ≠ .blocked := by
  intro hpc
  rcases h.notifyDue t hpc with hpos | ⟨-, u, hu⟩
  · omega
  · apply h.consistent.not_inside hfree u
    rcases hu with hu | hu <;> simp [monitor, ofPositions, hu, LatchPc.place]

end CCountDownLatch

end Neconet
