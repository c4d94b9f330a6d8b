import Neconet.Base.Fault
import Neconet.Lib.Monitor
import Neconet.Lib.Transition

/-!
# `CMutexLock` and `CCondition`

The mutex of `base/CMutex.cpp`, which records its holder, and the condition variable of
`base/CCondition.cpp` on it: any number of threads inside `Lock`, `Unlock`, `Wait`,
`WaitForSeconds`, `Notify` and `NotifyAll`, one statement at a time. The pthread mutex and the
pthread condition variable are the monitor of `Lib/Monitor.lean`.

A `Lock` by the owner itself never returns, and is left out; so is an `Unlock` or a wait by a thread
that is not the owner, which POSIX leaves undefined.

* `Tids`: the threads with their ids.
* `CMutexLock`, `Action`, `Step`: the states, the steps, and the step relation.
* `monitor_step`: every step is one of the monitor.
* `holder_run`: the recorded holder tells the truth.
-/

namespace Neconet

set_option linter.unusedSectionVars false

open Transition Monitor

/-- The threads of the process: `CurrentThread::Tid()` of every one, distinct and not zero.
Source: `base/CurrentThread.cpp`, `CurrentThread::Tid` -/
structure Tids (T : Type) where
  /-- `CurrentThread::Tid()`. -/
  tid : T → ℤ
  /-- Two threads have two ids. -/
  injective : Function.Injective tid
  /-- No id is zero. -/
  ne_zero : ∀ t, tid t ≠ 0

/-! ## States and steps -/

/-- Where a thread is. -/
inductive LockPc
  /-- The thread does not have the mutex: in no call, or in `Lock`. -/
  | idle
  /-- In `Lock`, between `pthread_mutex_lock` and `AssignHolder`. -/
  | locked
  /-- `Lock`, `Wait` or `WaitForSeconds` has returned, and no `Unlock` or wait has begun. -/
  | holding
  /-- In `Unlock`, between `UnassignHolder` and `pthread_mutex_unlock`. -/
  | unlocking
  /-- In `Wait` or, if `timed`, `WaitForSeconds`, behind the constructor of the guard. -/
  | aboutToWait (timed : Bool)
  /-- Blocked in `pthread_cond_wait` or, if `timed`, `pthread_cond_timedwait`. -/
  | waiting (timed : Bool)
  /-- In the same call, woken, but without the mutex. -/
  | woken
  /-- Behind that call, in front of the destructor of the guard. -/
  | reacquired
  deriving DecidableEq, Repr

/-- The place of a thread at the monitor. -/
def LockPc.place : LockPc → Place
  | idle => .outside
  | waiting _ => .blocked
  | woken => .woken
  | _ => .inside

/-- The mutex with the position of every thread.
Source: `base/CMutex.h`, `base/CCondition.h` -/
structure CMutexLock (T : Type) where
  /-- The owner of `m_Mutex`. -/
  owner : Option T
  /-- `m_pidHolder`. -/
  pidHolder : ℤ
  /-- The position of every thread. -/
  pc : T → LockPc
  /-- `pthread_cond_timedwait` has answered `ETIMEDOUT` to the thread's last `WaitForSeconds`. -/
  timedOut : T → Bool

namespace CMutexLock

variable {T : Type}

/-- Source: `base/CMutex.cpp`, `CMutexLock::CMutexLock` -/
def new : CMutexLock T where
  owner := none
  pidHolder := 0
  pc _ := .idle
  timedOut _ := false

/-- `IslockedByThisThread`, called by the thread `t`.
Source: `base/CMutex.cpp`, `CMutexLock::IslockedByThisThread` -/
def IslockedByThisThread (tids : Tids T) (s : CMutexLock T) (t : T) : Bool :=
  s.pidHolder = tids.tid t

/-- `AssertLocked`, called by the thread `t`.
Source: `base/CMutex.cpp`, `CMutexLock::AssertLocked` -/
def AssertLocked (tids : Tids T) (s : CMutexLock T) (t : T) : Except Fault Unit :=
  check (s.IslockedByThisThread tids t = true)

/-- The assertion of the destructor.
Source: `base/CMutex.cpp`, `CMutexLock::~CMutexLock` -/
def destroy (s : CMutexLock T) : Except Fault Unit := check (s.pidHolder = 0)

/-- The steps; each is taken by the thread `t`. -/
inductive Action (T : Type)
  /-- `pthread_mutex_lock` returns. -/
  | lock (t : T)
  /-- `AssignHolder`, in `Lock` or in the destructor of the guard. -/
  | assignHolder (t : T)
  /-- `UnassignHolder` in `Unlock`. -/
  | unassignHolder (t : T)
  /-- `pthread_mutex_unlock`. -/
  | unlock (t : T)
  /-- `Wait` or, if `timed`, `WaitForSeconds`, up to and with `UnassignHolder` in the constructor of
  the guard. -/
  | beginWait (t : T) (timed : Bool)
  /-- `pthread_cond_wait` or `pthread_cond_timedwait` releases the mutex and blocks. -/
  | block (t : T)
  /-- `pthread_cond_timedwait` returns with an error at once and keeps the mutex. -/
  | refuse (t : T)
  /-- The thread is woken without a notification. -/
  | wakeSpuriously (t : T)
  /-- The time of `pthread_cond_timedwait` is up. -/
  | timeout (t : T)
  /-- `pthread_cond_wait` or `pthread_cond_timedwait` has the mutex again and returns. -/
  | relock (t : T)
  /-- `Notify` wakes the thread `u`. -/
  | notify (t u : T)
  /-- `Notify` while no thread is blocked. -/
  | notifyNobody (t : T)
  /-- `NotifyAll`. -/
  | notifyAll (t : T)
  deriving DecidableEq, Repr

/-- The thread is in no call, or holds the mutex and is in no call. -/
def BetweenCalls (s : CMutexLock T) (t : T) : Prop := s.pc t = .idle ∨ s.pc t = .holding

instance (s : CMutexLock T) (t : T) : Decidable (s.BetweenCalls t) :=
  inferInstanceAs (Decidable (_ ∨ _))

/-- The step can be taken. -/
def Action.Enabled (s : CMutexLock T) : Action T → Prop
  | lock t => s.pc t = .idle ∧ s.owner = none
  | assignHolder t => s.pc t = .locked ∨ s.pc t = .reacquired
  | unassignHolder t => s.pc t = .holding
  | unlock t => s.pc t = .unlocking
  | beginWait t _ => s.pc t = .holding
  | block t => ∃ timed, s.pc t = .aboutToWait timed
  | refuse t => s.pc t = .aboutToWait true
  | wakeSpuriously t => ∃ timed, s.pc t = .waiting timed
  | timeout t => s.pc t = .waiting true
  | relock t => s.pc t = .woken ∧ s.owner = none
  | notify t u => s.BetweenCalls t ∧ ∃ timed, s.pc u = .waiting timed
  | notifyNobody t => s.BetweenCalls t ∧ ∀ u timed, s.pc u ≠ .waiting timed
  | notifyAll t => s.BetweenCalls t

variable [DecidableEq T]

/-- The thread `t` goes to `p`. -/
def goto (s : CMutexLock T) (t : T) (p : LockPc) : CMutexLock T :=
  { s with pc := Function.update s.pc t p }

/-- The state after the step.
Source: `base/CMutex.cpp`, `CMutexLock::Lock`, `CMutexLock::Unlock`, `CMutexLock::AssignHolder`,
`CMutexLock::UnassignHolder`, `CUnassignGuard`; `base/CCondition.cpp`, `CCondition::Wait`,
`CCondition::WaitForSeconds`, `CCondition::Notify`, `CCondition::NotifyAll` -/
def Action.next (tids : Tids T) (s : CMutexLock T) : Action T → CMutexLock T
  | lock t => { s.goto t .locked with owner := some t }
  | assignHolder t => { s.goto t .holding with pidHolder := tids.tid t }
  | unassignHolder t => { s.goto t .unlocking with pidHolder := 0 }
  | unlock t => { s.goto t .idle with owner := none }
  | beginWait t timed =>
      { s.goto t (.aboutToWait timed) with
        pidHolder := 0, timedOut := Function.update s.timedOut t false }
  | block t => { s.goto t (.waiting (s.pc t = .aboutToWait true)) with owner := none }
  | refuse t => s.goto t .reacquired
  | wakeSpuriously t => s.goto t .woken
  | timeout t => { s.goto t .woken with timedOut := Function.update s.timedOut t true }
  | relock t => { s.goto t .reacquired with owner := some t }
  | notify _ u => s.goto u .woken
  | notifyNobody _ => s
  | notifyAll _ =>
      { s with pc := fun u => if (s.pc u).place = .blocked then .woken else s.pc u }

/-- One step, as a relation between states. -/
def Step (tids : Tids T) (s : CMutexLock T) (a : Action T) (s' : CMutexLock T) : Prop :=
  a.Enabled s ∧ s' = a.next tids s

/-! ## The monitor under the mutex -/

/-- The mutex and the condition variable as a monitor. -/
def monitor (s : CMutexLock T) : Monitor T := ofPositions LockPc.place s.owner s.pc

/-- Every step is a step of the monitor. -/
theorem monitor_step (tids : Tids T) {s s' : CMutexLock T} {a : Action T}
    (hst : Step tids s a s') : Monitor.Step s.monitor s'.monitor := by
  obtain ⟨hen, rfl⟩ := hst
  cases a with
  | lock t => exact .goto_lock (congrArg LockPc.place hen.1) hen.2 rfl
  | assignHolder t =>
      rcases hen with hpc | hpc
      · exact .goto_stay (congrArg LockPc.place hpc) rfl
      · exact .goto_stay (congrArg LockPc.place hpc) rfl
  | unassignHolder t => exact .goto_stay (congrArg LockPc.place hen) rfl
  | unlock t => exact .goto_unlock (congrArg LockPc.place hen) rfl
  | beginWait t timed => exact .goto_stay (congrArg LockPc.place hen) rfl
  | block t =>
      obtain ⟨timed, hpc⟩ := hen
      exact .goto_wait (congrArg LockPc.place hpc) rfl
  | refuse t => exact .goto_stay (congrArg LockPc.place hen) rfl
  | wakeSpuriously t =>
      obtain ⟨timed, hpc⟩ := hen
      exact .goto_wake (congrArg LockPc.place hpc) rfl
  | timeout t => exact .goto_wake (congrArg LockPc.place hen) rfl
  | relock t => exact .goto_relock (congrArg LockPc.place hen.1) hen.2 rfl
  | notify t u =>
      obtain ⟨-, timed, hpc⟩ := hen
      exact .goto_wake (congrArg LockPc.place hpc) rfl
  | notifyNobody t => exact .stay
  | notifyAll t =>
      have hwake : (Action.next tids s (.notifyAll t)).monitor = s.monitor.wakeAll :=
        ofPositions_wakeAll rfl
      rw [hwake]
      exact .wakeAll

/-! ## The recorded holder -/

/-- What `m_pidHolder` says, in every reachable state. -/
structure HolderInv (tids : Tids T) (s : CMutexLock T) : Prop where
  /-- The owner of the mutex is the one thread inside. -/
  consistent : s.monitor.Consistent
  /-- The holder is recorded. -/
  holder_eq : ∀ t, s.pc t = .holding → s.pidHolder = tids.tid t
  /-- Nothing is recorded but a holder. -/
  exists_holding : s.pidHolder ≠ 0 → ∃ t, s.pc t = .holding

variable {tids : Tids T}

/-- Nothing is recorded at first. -/
theorem holderInv_new : HolderInv tids (new : CMutexLock T) where
  consistent := consistent_free rfl fun t h => by cases h
  holder_eq t h := by cases h
  exists_holding h := absurd rfl h

/-- The thread that holds the mutex owns it. -/
theorem HolderInv.owner_of_holding {s : CMutexLock T} (h : HolderInv tids s) {t : T}
    (ht : s.pc t = .holding) : s.owner = some t := by
  apply (h.consistent t).mp
  simp [monitor, ofPositions, ht, LockPc.place]

/-- No thread holds the mutex while another is inside. -/
theorem HolderInv.eq_of_holding {s : CMutexLock T} (h : HolderInv tids s) {t u : T}
    (ht : (s.pc t).place = .inside) (hu : s.pc u = .holding) : u = t := by
  have howner := (h.consistent t).mp ht
  rw [monitor, h.owner_of_holding hu] at howner
  exact Option.some.inj howner

/-- A thread that comes from or goes to a position other than `holding`. -/
theorem holding_goto_iff {s : CMutexLock T} {t : T} {p : LockPc} (hpc : s.pc t ≠ .holding)
    (hp : p ≠ .holding) (u : T) : (s.goto t p).pc u = .holding ↔ s.pc u = .holding := by
  by_cases hu : u = t
  · simp [goto, hu, hpc, hp]
  · simp [goto, hu]

/-- When the thread inside leaves `holding`, nobody is there. -/
theorem HolderInv.not_holding_goto {s : CMutexLock T} (h : HolderInv tids s) {t : T} {p : LockPc}
    (hpc : s.pc t = .holding) (hp : p ≠ .holding) (u : T) : (s.goto t p).pc u ≠ .holding := by
  by_cases hu : u = t
  · simpa [goto, hu] using hp
  · intro hholding
    have hold : s.pc u = .holding := (Function.update_of_ne hu _ _).symm.trans hholding
    exact hu (h.eq_of_holding (by simp [hpc, LockPc.place]) hold)

/-- A step that leaves `m_pidHolder` alone, and takes no thread to `holding` or from there. -/
theorem HolderInv.keep {s s' : CMutexLock T} (h : HolderInv tids s)
    (hcons : s'.monitor.Consistent) (hholder : s'.pidHolder = s.pidHolder)
    (hpc : ∀ u, s'.pc u = .holding ↔ s.pc u = .holding) : HolderInv tids s' where
  consistent := hcons
  holder_eq u hu := hholder.trans (h.holder_eq u ((hpc u).mp hu))
  exists_holding hne := by
    obtain ⟨u, hu⟩ := h.exists_holding (hholder ▸ hne)
    exact ⟨u, (hpc u).mpr hu⟩

/-- A step that clears `m_pidHolder` and after which no thread is at `holding`. -/
theorem holderInv_erase {s' : CMutexLock T} (hcons : s'.monitor.Consistent)
    (hholder : s'.pidHolder = 0) (hpc : ∀ u, s'.pc u ≠ .holding) : HolderInv tids s' where
  consistent := hcons
  holder_eq u hu := absurd hu (hpc u)
  exists_holding hne := absurd hholder hne

/-- Every step keeps the record true. -/
theorem HolderInv.step (s : CMutexLock T) (a : Action T) (s' : CMutexLock T)
    (h : HolderInv tids s) (hst : Step tids s a s') : HolderInv tids s' := by
  have hcons := (monitor_step tids hst).consistent h.consistent
  obtain ⟨hen, rfl⟩ := hst
  cases a with
  | lock t => exact h.keep hcons rfl (holding_goto_iff (by simp [hen.1]) (by simp))
  | assignHolder t =>
      have hinside : (s.pc t).place = .inside := by
        rcases hen with hpc | hpc <;> simp [hpc, LockPc.place]
      refine ⟨hcons, fun u hu => ?_, fun _ => ⟨t, Function.update_self _ _ _⟩⟩
      by_cases hut : u = t
      · rw [hut]
        rfl
      · -- only the thread inside can be at `holding`
        have hold : s.pc u = .holding := (Function.update_of_ne hut _ _).symm.trans hu
        exact absurd (h.eq_of_holding hinside hold) hut
  | unassignHolder t => exact holderInv_erase hcons rfl (h.not_holding_goto hen (by simp))
  | unlock t =>
      exact h.keep hcons rfl (holding_goto_iff (by simp [show s.pc t = _ from hen]) (by simp))
  | beginWait t timed => exact holderInv_erase hcons rfl (h.not_holding_goto hen (by simp))
  | block t =>
      obtain ⟨timed, hpc⟩ := hen
      exact h.keep hcons rfl (holding_goto_iff (by simp [hpc]) (by simp))
  | refuse t =>
      exact h.keep hcons rfl (holding_goto_iff (by simp [show s.pc t = _ from hen]) (by simp))
  | wakeSpuriously t =>
      obtain ⟨timed, hpc⟩ := hen
      exact h.keep hcons rfl (holding_goto_iff (by simp [hpc]) (by simp))
  | timeout t =>
      exact h.keep hcons rfl (holding_goto_iff (by simp [show s.pc t = _ from hen]) (by simp))
  | relock t => exact h.keep hcons rfl (holding_goto_iff (by simp [hen.1]) (by simp))
  | notify t u =>
      obtain ⟨-, timed, hpc⟩ := hen
      exact h.keep hcons rfl (holding_goto_iff (by simp [hpc]) (by simp))
  | notifyNobody t => exact h.keep hcons rfl fun u => Iff.rfl
  | notifyAll t =>
      refine h.keep hcons rfl fun u => ?_
      by_cases hplace : (s.pc u).place = .blocked
      · have hne : s.pc u ≠ .holding := by
          intro hpc
          simp [hpc, LockPc.place] at hplace
        simp [Action.next, hplace, hne]
      · simp [Action.next, hplace]

/-- **The recorded holder tells the truth.** In every state that the threads can bring about:
* if `m_pidHolder` is not zero, it is the id of the thread that owns the mutex;
* when `Lock`, `Wait` or `WaitForSeconds` has returned to a thread, until its next `Unlock` or wait,
  `IslockedByThisThread` is true in this thread and in no other, and `AssertLocked` passes;
* while no thread owns the mutex, the assertion of the destructor holds. -/
theorem holder_run (tids : Tids T) {as : List (Action T)} {s : CMutexLock T}
    (hrun : Run (Step tids) new as s) :
    (s.pidHolder ≠ 0 → ∃ t, s.pidHolder = tids.tid t ∧ s.owner = some t) ∧
    (∀ t, s.pc t = .holding →
      (∀ u, s.IslockedByThisThread tids u = true ↔ u = t) ∧ s.AssertLocked tids t = .ok ()) ∧
    (s.owner = none → s.destroy = .ok ()) := by
  have hinv := hrun.invariant HolderInv.step holderInv_new
  have hholder : s.pidHolder ≠ 0 → ∃ t, s.pidHolder = tids.tid t ∧ s.owner = some t := by
    intro hne
    obtain ⟨t, ht⟩ := hinv.exists_holding hne
    exact ⟨t, hinv.holder_eq t ht, hinv.owner_of_holding ht⟩
  refine ⟨hholder, fun t ht => ?_, fun hfree => ?_⟩
  · have hiff : ∀ u, s.IslockedByThisThread tids u = true ↔ u = t := by
      intro u
      simp [IslockedByThisThread, hinv.holder_eq t ht, tids.injective.eq_iff, eq_comm]
    exact ⟨hiff, check_of ((hiff t).mpr rfl)⟩
  · apply check_of
    by_contra hne
    obtain ⟨t, -, howner⟩ := hholder hne
    rw [hfree] at howner
    cases howner

/-- The theorem on a thread that has locked the mutex while another one waited with a time limit,
and the time of the other one is up. -/
theorem holder_run_timeout : ∃ (tids : Tids ℕ) (s : CMutexLock ℕ),
    Run (Step tids) new [.lock 0, .assignHolder 0, .beginWait 0 true, .block 0, .lock 1,
      .assignHolder 1, .timeout 0] s ∧ s.pc 0 = .woken ∧ s.pc 1 = .holding ∧
    (∀ u, s.IslockedByThisThread tids u = true ↔ u = 1) ∧ s.AssertLocked tids 1 = .ok () := by
  let tids : Tids ℕ := ⟨fun t => t + 1, fun t u h => by simpa using h, fun t => by omega⟩
  have hrun : ∃ s : CMutexLock ℕ, Run (Step tids) new [.lock 0, .assignHolder 0,
      .beginWait 0 true, .block 0, .lock 1, .assignHolder 1, .timeout 0] s ∧
      s.pc 0 = .woken ∧ s.pc 1 = .holding :=
    ⟨_, Run.cons ⟨⟨rfl, rfl⟩, rfl⟩ <| Run.cons ⟨Or.inl rfl, rfl⟩ <| Run.cons ⟨rfl, rfl⟩ <|
      Run.cons ⟨⟨true, rfl⟩, rfl⟩ <| Run.cons ⟨⟨rfl, rfl⟩, rfl⟩ <| Run.cons ⟨Or.inl rfl, rfl⟩ <|
      Run.single ⟨rfl, rfl⟩, rfl, rfl⟩
  obtain ⟨s, hrun, hwoken, hholding⟩ := hrun
  exact ⟨tids, s, hrun, hwoken, hholding, (holder_run tids hrun).2.1 1 hholding⟩

end CMutexLock

end Neconet
