import Neconet.Lib.Progress
import Neconet.Net.EventLoopThread

/-!
# `CEventLoopThread::StartLoop` returns

Whether `StartLoop` comes back with the loop. It waits until `__ThreadFunc` has set the pointer; so
it returns exactly if there is a loop thread, that is, if `pthread_create` has succeeded.
`CThread::Start` does not say so: after a failure, `StartLoop` goes on to wait.

* `MeetInv`: the mutex, the pointer and the notification, in every reachable state.
* `meetRank`: how many steps the two threads have left.
* `startLoop_returns_iff_run`: `StartLoop` returns, whatever the loop and its clients do meanwhile,
  if and only if the thread has been created.
-/

namespace Neconet

set_option linter.unusedSectionVars false

open Transition

/-- In `StartLoop`, behind `m_iThread.Start()`. -/
def OwnerPc.Starting (p : OwnerPc) : Prop :=
  p = .locking ∨ p = .testing ∨ p = .waiting ∨ p = .blocked ∨ p = .woken ∨ p = .unlocking

/-- The loop thread is behind the publication of the loop. -/
def LoopThreadPc.Published (p : LoopThreadPc) : Prop :=
  p ≠ .absent ∧ p ≠ .constructing ∧ p ≠ .locking ∧ p ≠ .publishing

/-- What the owning thread has left in `StartLoop`. -/
def OwnerPc.meetRank (eventLoop : Bool) : OwnerPc → ℕ
  | locking | woken => if eventLoop then 3 else 6
  | testing => if eventLoop then 2 else 5
  | waiting => 4
  | blocked => 3
  | unlocking => 1
  | outside | creating | started | quitting | waking | joining | joined | destroyed => 0

theorem OwnerPc.meetRank_le (eventLoop : Bool) (p : OwnerPc) : p.meetRank eventLoop ≤ 6 := by
  cases eventLoop <;> cases p <;> simp [meetRank]

/-- A set pointer brings `StartLoop` nearer to its end. -/
theorem OwnerPc.meetRank_true_le (eventLoop : Bool) (p : OwnerPc) :
    p.meetRank true ≤ p.meetRank eventLoop := by
  cases eventLoop <;> cases p <;> simp [meetRank]

/-- What the loop thread has left in front of `iLoop.StartLoop()`. -/
def LoopThreadPc.meetRank : LoopThreadPc → ℕ
  | absent | constructing => 5
  | locking => 4
  | publishing => 3
  | notifying => 2
  | unlocking => 1
  | entering | looping | leaving | ended => 0

theorem LoopThreadPc.meetRank_le (p : LoopThreadPc) : p.meetRank ≤ 5 := by
  cases p <;> simp [meetRank]

namespace CEventLoopThread

variable {F T : Type} [DecidableEq T]

/-! ## The meeting of the two threads -/

/-- The mutex, the pointer and the notification, in every reachable state. -/
structure MeetInv (s : CEventLoopThread F T) : Prop where
  /-- The owning thread has the mutex at these positions. -/
  mutex_owner : s.mutexOwner = some .owner ↔ s.ownerPc.Inside
  /-- The loop thread has the mutex at these positions. -/
  mutex_thread : s.mutexOwner = some .loopThread ↔ s.threadPc.Inside
  /-- The pointer is set by `__ThreadFunc`. -/
  eventLoop_iff : s.eventLoop = true ↔ s.threadPc.Published
  /-- `StartLoop` leaves its loop when the pointer is set. -/
  unlocking : s.ownerPc = .unlocking → s.eventLoop = true
  /-- A null pointer makes `StartLoop` wait. -/
  waiting : s.ownerPc = .waiting → s.eventLoop = false
  /-- A set pointer is followed by a notification. -/
  blocked : s.ownerPc = .blocked → s.eventLoop = false ∨ s.threadPc = .notifying

variable {s s' : CEventLoopThread F T}

/-- A new object. -/
theorem meetInv_new : MeetInv (new : CEventLoopThread F T) := by
  constructor <;> simp [new, OwnerPc.Inside, LoopThreadPc.Inside, LoopThreadPc.Published]

/-- While one thread has the mutex, the other has not. -/
theorem MeetInv.not_inside (h : s.MeetInv) (howner : s.ownerPc.Inside) : ¬ s.threadPc.Inside := by
  intro hthread
  have heq := (h.mutex_thread.mpr hthread).symm.trans (h.mutex_owner.mpr howner)
  cases heq

/-- With nobody inside, the mutex is free. -/
theorem MeetInv.mutex_eq_none (h : s.MeetInv) (howner : ¬ s.ownerPc.Inside)
    (hthread : ¬ s.threadPc.Inside) : s.mutexOwner = none := by
  rcases hmutex : s.mutexOwner with _ | (_ | _)
  · rfl
  · exact absurd (h.mutex_owner.mp hmutex) howner
  · exact absurd (h.mutex_thread.mp hmutex) hthread

/-- The owning thread goes on. -/
theorem MeetInv.of_owner (h : s.MeetInv) (hthread : s'.threadPc = s.threadPc)
    (hevent : s'.eventLoop = s.eventLoop)
    (howner : s'.mutexOwner = some .owner ↔ s'.ownerPc.Inside)
    (hmutex : s'.mutexOwner = some .loopThread ↔ s.threadPc.Inside)
    (hunlocking : s'.ownerPc = .unlocking → s.eventLoop = true)
    (hwaiting : s'.ownerPc = .waiting → s.eventLoop = false)
    (hblocked : s'.ownerPc = .blocked → s.eventLoop = false ∨ s.threadPc = .notifying) :
    s'.MeetInv where
  mutex_owner := howner
  mutex_thread := by rw [hthread, hmutex]
  eventLoop_iff := by rw [hthread, hevent, h.eventLoop_iff]
  unlocking := by rwa [hevent]
  waiting := by rwa [hevent]
  blocked := by rwa [hevent, hthread]

/-- The owning thread goes from one position away from the meeting to another. -/
theorem MeetInv.of_outside (h : s.MeetInv) (hthread : s'.threadPc = s.threadPc)
    (hevent : s'.eventLoop = s.eventLoop) (hmutex : s'.mutexOwner = s.mutexOwner)
    (hfrom : ¬ s.ownerPc.Inside) (hto : ¬ s'.ownerPc.Inside ∧ s'.ownerPc ≠ .blocked) :
    s'.MeetInv := by
  refine h.of_owner hthread hevent ?_ ?_ (fun hpc => ?_) (fun hpc => ?_)
    (fun hpc => absurd hpc hto.2)
  · rw [hmutex, h.mutex_owner]
    exact iff_of_false hfrom hto.1
  · rw [hmutex, h.mutex_thread]
  · exact absurd (Or.inr (Or.inr hpc)) hto.1
  · exact absurd (Or.inr (Or.inl hpc)) hto.1

/-- The loop thread goes on, without a change of the pointer. -/
theorem MeetInv.of_thread (h : s.MeetInv) (howner : s'.ownerPc = s.ownerPc)
    (hevent : s'.eventLoop = s.eventLoop)
    (hpublished : s.threadPc.Published ↔ s'.threadPc.Published)
    (hmutex : s'.mutexOwner = some .owner ↔ s.ownerPc.Inside)
    (hthread : s'.mutexOwner = some .loopThread ↔ s'.threadPc.Inside)
    (hnotify : s.threadPc ≠ .notifying) : s'.MeetInv where
  mutex_owner := by rw [howner, hmutex]
  mutex_thread := hthread
  eventLoop_iff := by rw [hevent, h.eventLoop_iff, hpublished]
  unlocking := by rw [howner, hevent]; exact h.unlocking
  waiting := by rw [howner, hevent]; exact h.waiting
  blocked hpc := by
    rw [hevent]
    rw [howner] at hpc
    exact Or.inl ((h.blocked hpc).resolve_right hnotify)

/-- The end of the program changes nothing else. -/
theorem MeetInv.of_fault (h : s.MeetInv) (e : Option Fault) : MeetInv { s with fault := e } :=
  ⟨h.mutex_owner, h.mutex_thread, h.eventLoop_iff, h.unlocking, h.waiting, h.blocked⟩

/-- The owning thread takes the mutex. -/
theorem MeetInv.acquire (h : s.MeetInv) (hfree : s.mutexOwner = none) :
    MeetInv { s with mutexOwner := some .owner, ownerPc := .testing } := by
  have hthread : ¬ s.threadPc.Inside := by
    rw [← h.mutex_thread, hfree]
    simp
  exact h.of_owner rfl rfl (by simp [OwnerPc.Inside]) (iff_of_false (by simp) hthread) (by simp)
    (by simp) (by simp)

/-- The steps of `StartLoop`. -/
theorem MeetInv.startLoop (h : s.MeetInv) (hloop : s.LoopInv) {a : Action F T}
    (ha : a.part = .startLoop) (hen : a.Enabled s) : (a.next s).MeetInv := by
  cases a with
  | callStartLoop =>
      have hpc : s.ownerPc = .outside := hen
      rcases callStartLoop_cases s with hnext | ⟨e, hnext⟩ <;> rw [hnext]
      · exact h.of_outside rfl rfl rfl (by simp [OwnerPc.Inside, hpc]) (by simp [OwnerPc.Inside])
      · exact h.of_fault _
  | create ok =>
      have hpc : s.ownerPc = .creating := hen
      have habsent := hloop.absent (Or.inr hpc)
      cases ok with
      | true =>
          refine ⟨h.mutex_owner.trans ?_, h.mutex_thread.trans ?_, h.eventLoop_iff.trans ?_, ?_, ?_,
            ?_⟩
          · simp [Action.next, OwnerPc.Inside, hpc]
          · simp [Action.next, LoopThreadPc.Inside, habsent]
          · simp [Action.next, LoopThreadPc.Published, habsent]
          all_goals simp [Action.next]
      | false =>
          exact h.of_outside rfl rfl rfl (by simp [OwnerPc.Inside, hpc])
            (by simp [Action.next, OwnerPc.Inside])
  | lock => exact h.acquire hen.2
  | relock => exact h.acquire hen.2
  | wakeSpuriously =>
      have hpc : s.ownerPc = .blocked := hen
      exact h.of_outside rfl rfl rfl (by simp [OwnerPc.Inside, hpc])
        (by simp [Action.next, OwnerPc.Inside])
  | test =>
      have hpc : s.ownerPc = .testing := hen
      have howner := h.mutex_owner.mpr (Or.inl hpc)
      by_cases hnull : s.eventLoop = false
      · rw [Action.next, if_pos hnull]
        exact h.of_owner rfl rfl (iff_of_true howner (by simp [OwnerPc.Inside])) h.mutex_thread
          (by simp) (fun _ => hnull) (by simp)
      · rw [Action.next, if_neg hnull]
        exact h.of_owner rfl rfl (iff_of_true howner (by simp [OwnerPc.Inside])) h.mutex_thread
          (fun _ => by simpa using hnull) (by simp) (by simp)
  | block =>
      have hpc : s.ownerPc = .waiting := hen
      have hthread := h.not_inside (Or.inr (Or.inl hpc))
      exact h.of_owner rfl rfl (by simp [Action.next, OwnerPc.Inside])
        (iff_of_false (by simp [Action.next]) hthread) (by simp [Action.next])
        (by simp [Action.next]) (fun _ => Or.inl (h.waiting hpc))
  | unlock =>
      have hpc : s.ownerPc = .unlocking := hen
      have hthread := h.not_inside (Or.inr (Or.inr hpc))
      exact h.of_owner rfl rfl (by simp [Action.next, OwnerPc.Inside])
        (iff_of_false (by simp [Action.next]) hthread) (by simp [Action.next])
        (by simp [Action.next]) (by simp [Action.next])
  | _ => cases ha

/-- The steps of `__ThreadFunc`. -/
theorem MeetInv.threadFunc (h : s.MeetInv) {a : Action F T} (ha : a.part = .threadFunc)
    (hen : a.Enabled s) : (a.next s).MeetInv := by
  cases a with
  | construct =>
      have hpc : s.threadPc = .constructing := hen
      exact h.of_thread rfl rfl (by simp [Action.next, LoopThreadPc.Published, hpc]) h.mutex_owner
        (h.mutex_thread.trans (by simp [Action.next, LoopThreadPc.Inside, hpc])) (by simp [hpc])
  | threadLock =>
      have hpc : s.threadPc = .locking := hen.1
      have howner : ¬ s.ownerPc.Inside := by
        rw [← h.mutex_owner, hen.2]
        simp
      exact h.of_thread rfl rfl (by simp [Action.next, LoopThreadPc.Published, hpc])
        (iff_of_false (by simp [Action.next]) howner) (by simp [Action.next, LoopThreadPc.Inside])
        (by simp [hpc])
  | publish =>
      have hpc : s.threadPc = .publishing := hen
      have hthread : s.threadPc.Inside := Or.inl hpc
      have howner : ¬ s.ownerPc.Inside := fun hin => h.not_inside hin hthread
      refine ⟨h.mutex_owner, h.mutex_thread.trans ?_, ?_, fun _ => rfl, fun hwaiting => ?_,
        fun _ => Or.inr rfl⟩
      · exact iff_of_true hthread (Or.inr (Or.inl rfl))
      · simp [Action.next, LoopThreadPc.Published]
      · exact absurd (Or.inr (Or.inl hwaiting)) howner
  | notify =>
      have hpc : s.threadPc = .notifying := hen
      have hset : s.eventLoop = true := h.eventLoop_iff.mpr (by simp [LoopThreadPc.Published, hpc])
      have hthread : s.mutexOwner = some .loopThread := h.mutex_thread.mpr (Or.inr (Or.inl hpc))
      have howner : ¬ s.ownerPc.Inside := fun hin => h.not_inside hin (Or.inr (Or.inl hpc))
      have howner' : ¬ (Action.next s .notify).ownerPc.Inside := by
        by_cases hblocked : s.ownerPc = .blocked
        · simp [Action.next, OwnerPc.Inside, hblocked]
        · simpa [Action.next, hblocked] using howner
      refine ⟨iff_of_false (by simp [Action.next, hthread]) howner', ?_, ?_, fun _ => hset,
        fun hwaiting => absurd (Or.inr (Or.inl hwaiting)) howner', fun hblocked => ?_⟩
      · exact iff_of_true hthread (Or.inr (Or.inr rfl))
      · exact iff_of_true hset (by simp [Action.next, LoopThreadPc.Published])
      · by_cases hbefore : s.ownerPc = .blocked <;> simp [Action.next, hbefore] at hblocked
  | threadUnlock =>
      have hpc : s.threadPc = .unlocking := hen
      have hthread : s.threadPc.Inside := Or.inr (Or.inr hpc)
      have howner : ¬ s.ownerPc.Inside := fun hin => h.not_inside hin hthread
      exact h.of_thread rfl rfl (by simp [Action.next, LoopThreadPc.Published, hpc])
        (iff_of_false (by simp [Action.next]) howner) (by simp [Action.next, LoopThreadPc.Inside])
        (by simp [hpc])
  | endScope =>
      have hpc : s.threadPc = .leaving := hen
      rcases endScope_cases s with hnext | ⟨e, hnext⟩ <;> rw [hnext]
      · exact h.of_thread rfl rfl (by simp [LoopThreadPc.Published, hpc]) h.mutex_owner
          (h.mutex_thread.trans (by simp [LoopThreadPc.Inside, hpc])) (by simp [hpc])
      · exact h.of_fault _
  | _ => cases ha

/-- The steps of the destructor. -/
theorem MeetInv.destructor (h : s.MeetInv) {a : Action F T} (ha : a.part = .destructor)
    (hen : a.Enabled s) : (a.next s).MeetInv := by
  cases a with
  | destroy =>
      have hfrom : ¬ s.ownerPc.Inside := by
        rcases hen.1 with hpc | hpc <;> simp [OwnerPc.Inside, hpc]
      exact h.of_outside rfl rfl rfl hfrom (by simp [Action.next, OwnerPc.Inside])
  | quit =>
      have hpc : s.ownerPc = .quitting := hen
      rcases quit_cases s with ⟨-, -, hnext⟩ | ⟨e, hnext⟩ <;> rw [hnext]
      · exact h.of_outside rfl rfl rfl (by simp [OwnerPc.Inside, hpc]) (by simp [OwnerPc.Inside])
      · exact h.of_fault _
  | wakeup written =>
      have hpc : s.ownerPc = .waking := hen.1
      rcases wakeup_cases s written with hnext | ⟨e, hnext⟩ <;> rw [hnext]
      · exact h.of_outside rfl rfl rfl (by simp [OwnerPc.Inside, hpc]) (by simp [OwnerPc.Inside])
      · exact h.of_fault _
  | callJoin =>
      have hpc : s.ownerPc = .joining := hen
      rcases callJoin_cases s with hnext | ⟨e, hnext⟩ <;> rw [hnext]
      · exact h.of_outside rfl rfl rfl (by simp [OwnerPc.Inside, hpc]) (by simp [OwnerPc.Inside])
      · exact h.of_fault _
  | join =>
      have hpc : s.ownerPc = .joined := hen.1
      exact h.of_outside rfl rfl rfl (by simp [OwnerPc.Inside, hpc])
        (by simp [Action.next, OwnerPc.Inside])
  | _ => cases ha

/-- Every step keeps the invariant. -/
theorem MeetInv.step (h : s.MeetInv) (hloop : s.LoopInv) {a : Action F T} (hst : Step s a s') :
    s'.MeetInv := by
  obtain ⟨⟨-, hen⟩, rfl⟩ := hst
  cases hpart : a.part with
  | startLoop => exact h.startLoop hloop hpart hen
  | threadFunc => exact h.threadFunc hpart hen
  | destructor => exact h.destructor hpart hen
  | iLoop =>
      cases a with
      | loop a =>
          rcases loop_threadPc hen.2.1 with hsame | ⟨hfrom, hto⟩
          · exact h.of_owner hsame rfl h.mutex_owner h.mutex_thread h.unlocking h.waiting h.blocked
          · refine h.of_thread rfl rfl ?_ h.mutex_owner (h.mutex_thread.trans ?_) ?_
            · rcases hfrom with hfrom | hfrom <;> rcases hto with hto | hto <;>
                simp [LoopThreadPc.Published, hfrom, hto]
            · rcases hfrom with hfrom | hfrom <;> rcases hto with hto | hto <;>
                simp [LoopThreadPc.Inside, hfrom, hto]
            · rcases hfrom with hfrom | hfrom <;> simp [hfrom]
      | _ => cases hpart

/-! ## What is left to do -/

/-- The steps of `StartLoop` behind `m_iThread.Start()`, and those of `__ThreadFunc` in front of
`iLoop.StartLoop()`. -/
def Action.isMeeting : Action F T → Bool
  | lock | test | block | relock | unlock => true
  | construct | threadLock | publish | notify | threadUnlock => true
  | callStartLoop | create _ | wakeSpuriously | loop _ | endScope => false
  | destroy | quit | wakeup _ | callJoin | join => false

/-- These are steps of the two functions. -/
theorem Action.part_of_isMeeting {a : Action F T} (h : a.isMeeting = true) :
    a.part = .startLoop ∨ a.part = .threadFunc := by
  cases a <;> simp [isMeeting, part] at h ⊢

/-- What the two threads have left. -/
def meetRank (s : CEventLoopThread F T) : ℕ := s.ownerPc.meetRank s.eventLoop + s.threadPc.meetRank

/-- There are 11 steps in all. -/
theorem meetRank_le (s : CEventLoopThread F T) : s.meetRank ≤ 11 := by
  have howner := s.ownerPc.meetRank_le s.eventLoop
  have hthread := s.threadPc.meetRank_le
  unfold meetRank
  omega

/-- In `StartLoop`, behind the creation of the thread, and nothing has gone wrong. -/
structure Meeting (s : CEventLoopThread F T) : Prop where
  /-- The two threads at the mutex. -/
  meet : s.MeetInv
  /-- The loop. -/
  loop : s.LoopInv
  /-- There is a loop thread. -/
  created : s.threadPc ≠ .absent
  /-- The owning thread is in `StartLoop`, or just behind it. -/
  owner : s.ownerPc.Starting ∨ s.ownerPc = .started
  /-- Nothing has gone wrong. -/
  fault_eq : s.fault = none

/-- A step that stays within the meeting. -/
theorem Meeting.of_step (h : s.Meeting) {a : Action F T} (hen : a.Enabled s)
    (hcreated : (a.next s).threadPc ≠ .absent)
    (howner : (a.next s).ownerPc.Starting ∨ (a.next s).ownerPc = .started)
    (hfault : (a.next s).fault = s.fault) : (a.next s).Meeting := by
  have hst : Step s a (a.next s) := ⟨⟨h.fault_eq, hen⟩, rfl⟩
  exact ⟨h.meet.step h.loop hst, h.loop.step s a _ hst, hcreated, howner, hfault.trans h.fault_eq⟩

/-- A step of `StartLoop` that is no spurious wakeup. -/
theorem Meeting.startLoop (h : s.Meeting) (hin : s.ownerPc.Starting) {a : Action F T}
    (ha : a.part = .startLoop) (hspurious : a ≠ .wakeSpuriously) (hen : a.Enabled s) :
    (a.next s).Meeting ∧ (a.next s).meetRank + 1 ≤ s.meetRank := by
  cases a with
  | callStartLoop =>
      have hpc : s.ownerPc = .outside := hen
      simp [OwnerPc.Starting, hpc] at hin
  | create ok =>
      have hpc : s.ownerPc = .creating := hen
      simp [OwnerPc.Starting, hpc] at hin
  | wakeSpuriously => exact absurd rfl hspurious
  | lock | relock =>
      have hpc := hen.1
      refine ⟨h.of_step hen h.created (Or.inl (Or.inr (Or.inl rfl))) rfl, ?_⟩
      cases hset : s.eventLoop <;>
        simp only [meetRank, OwnerPc.meetRank, Action.next, hpc, hset] <;> grind
  | test =>
      have hpc : s.ownerPc = .testing := hen
      refine ⟨h.of_step hen h.created (Or.inl ?_) rfl, ?_⟩
      · by_cases hnull : s.eventLoop = false <;> simp [OwnerPc.Starting, Action.next, hnull]
      · cases hset : s.eventLoop <;>
          simp only [meetRank, OwnerPc.meetRank, Action.next, hpc, hset] <;> grind
  | block =>
      have hpc : s.ownerPc = .waiting := hen
      refine ⟨h.of_step hen h.created (Or.inl ?_) rfl, ?_⟩
      · simp [OwnerPc.Starting, Action.next]
      · simp only [meetRank, OwnerPc.meetRank, Action.next, hpc]
        omega
  | unlock =>
      have hpc : s.ownerPc = .unlocking := hen
      refine ⟨h.of_step hen h.created (Or.inr rfl) rfl, ?_⟩
      simp only [meetRank, OwnerPc.meetRank, Action.next, hpc]
      omega
  | _ => cases ha

/-- A step of `__ThreadFunc` in front of `iLoop.StartLoop()`. -/
theorem Meeting.threadFunc (h : s.Meeting) {a : Action F T} (ha : a.part = .threadFunc)
    (hmeeting : a.isMeeting = true) (hen : a.Enabled s) :
    (a.next s).Meeting ∧ (a.next s).meetRank + 1 ≤ s.meetRank := by
  cases a with
  | construct =>
      have hpc : s.threadPc = .constructing := hen
      refine ⟨h.of_step hen (by simp [Action.next]) h.owner rfl, ?_⟩
      simp only [meetRank, LoopThreadPc.meetRank, Action.next, hpc]
      omega
  | threadLock =>
      have hpc : s.threadPc = .locking := hen.1
      refine ⟨h.of_step hen (by simp [Action.next]) h.owner rfl, ?_⟩
      simp only [meetRank, LoopThreadPc.meetRank, Action.next, hpc]
      omega
  | publish =>
      have hpc : s.threadPc = .publishing := hen
      refine ⟨h.of_step hen (by simp [Action.next]) h.owner rfl, ?_⟩
      have howner := OwnerPc.meetRank_true_le s.eventLoop s.ownerPc
      simp only [meetRank, LoopThreadPc.meetRank, Action.next, hpc]
      omega
  | notify =>
      have hpc : s.threadPc = .notifying := hen
      have hset : s.eventLoop = true :=
        h.meet.eventLoop_iff.mpr (by simp [LoopThreadPc.Published, hpc])
      by_cases hblocked : s.ownerPc = .blocked
      · refine ⟨h.of_step hen (by simp [Action.next]) (Or.inl ?_) rfl, ?_⟩
        · simp [OwnerPc.Starting, Action.next, hblocked]
        · simp [meetRank, OwnerPc.meetRank, LoopThreadPc.meetRank, Action.next, hpc, hblocked, hset]
      · refine ⟨h.of_step hen (by simp [Action.next]) ?_ rfl, ?_⟩
        · simpa [Action.next, hblocked] using h.owner
        · simp [meetRank, LoopThreadPc.meetRank, Action.next, hpc, hblocked]
  | threadUnlock =>
      have hpc : s.threadPc = .unlocking := hen
      refine ⟨h.of_step hen (by simp [Action.next]) h.owner rfl, ?_⟩
      simp only [meetRank, LoopThreadPc.meetRank, Action.next, hpc]
      omega
  | endScope => cases hmeeting
  | _ => cases ha

/-- What the loop and its clients do, and the end of the loop, are not waited for. -/
theorem Meeting.other (h : s.Meeting) (hin : s.ownerPc.Starting) {a : Action F T}
    (hspurious : a ≠ .wakeSpuriously) (hmeeting : a.isMeeting = false) (hen : a.Enabled s) :
    (a.next s).Meeting ∧ (a.next s).meetRank ≤ s.meetRank := by
  cases a with
  | loop a =>
      rcases loop_threadPc hen.2.1 with hsame | ⟨hfrom, hto⟩
      · refine ⟨h.of_step hen (hsame ▸ h.created) h.owner rfl, le_of_eq ?_⟩
        simp only [meetRank, hsame]
        rfl
      · refine ⟨h.of_step hen ?_ h.owner rfl, le_of_eq ?_⟩
        · rcases hto with hto | hto <;> simp [hto]
        · rcases hfrom with hfrom | hfrom <;> rcases hto with hto | hto <;>
            simp only [meetRank, hfrom, hto] <;> rfl
  | endScope =>
      have hpc : s.threadPc = .leaving := hen
      have houtside : s.loop.inLooping = false := by
        rw [← Bool.not_eq_true, h.loop.controlInv.inLooping_iff, ← h.loop.looping_iff]
        simp [hpc]
      have hnext : Action.next s .endScope = { s with threadPc := .ended } := by
        simp only [Action.next, check_of houtside]
      have hkeep := h.of_step hen (by simp [hnext]) (by rw [hnext]; exact h.owner) (by rw [hnext])
      refine ⟨hkeep, ?_⟩
      rw [hnext]
      simp [meetRank, LoopThreadPc.meetRank, hpc]
  | wakeSpuriously => exact absurd rfl hspurious
  | callStartLoop =>
      have hpc : s.ownerPc = .outside := hen
      simp [OwnerPc.Starting, hpc] at hin
  | create ok =>
      have hpc : s.ownerPc = .creating := hen
      simp [OwnerPc.Starting, hpc] at hin
  | destroy => rcases hen.1 with hpc | hpc <;> simp [OwnerPc.Starting, hpc] at hin
  | quit =>
      have hpc : s.ownerPc = .quitting := hen
      simp [OwnerPc.Starting, hpc] at hin
  | wakeup written => simp [OwnerPc.Starting, hen.1] at hin
  | callJoin =>
      have hpc : s.ownerPc = .joining := hen
      simp [OwnerPc.Starting, hpc] at hin
  | join => simp [OwnerPc.Starting, hen.1] at hin
  | _ => cases hmeeting

/-- Every step of the two threads in the meeting is one step less, and the others change nothing. -/
theorem Meeting.step (h : s.Meeting) (hin : s.ownerPc.Starting) {a : Action F T}
    (hspurious : a ≠ .wakeSpuriously) (hst : Step s a s') :
    s'.Meeting ∧ s'.meetRank + (if a.isMeeting = true then 1 else 0) ≤ s.meetRank := by
  obtain ⟨⟨-, hen⟩, rfl⟩ := hst
  by_cases hmeeting : a.isMeeting = true
  · rw [if_pos hmeeting]
    rcases Action.part_of_isMeeting hmeeting with hpart | hpart
    · exact h.startLoop hin hpart hspurious hen
    · exact h.threadFunc hpart hmeeting hen
  · rw [if_neg hmeeting]
    exact h.other hin hspurious (by simpa using hmeeting) hen

/-- In `StartLoop`, one of the two threads can take a step. -/
theorem Meeting.progress (h : s.Meeting) (hin : s.ownerPc.Starting) :
    ∃ a : Action F T, a.isMeeting = true ∧ a ≠ .wakeSpuriously ∧ a.Enabled s := by
  -- who has the mutex can go on
  have hthread : s.threadPc.Inside →
      ∃ a : Action F T, a.isMeeting = true ∧ a ≠ .wakeSpuriously ∧ a.Enabled s := by
    rintro (hpc | hpc | hpc)
    · exact ⟨.publish, rfl, by simp, hpc⟩
    · exact ⟨.notify, rfl, by simp, hpc⟩
    · exact ⟨.threadUnlock, rfl, by simp, hpc⟩
  have hfree : ¬ s.threadPc.Inside → ¬ s.ownerPc.Inside → s.mutexOwner = none :=
    fun hthread howner => h.meet.mutex_eq_none howner hthread
  rcases hin with hpc | hpc | hpc | hpc | hpc | hpc
  · by_cases hinside : s.threadPc.Inside
    · exact hthread hinside
    · exact ⟨.lock, rfl, by simp, hpc, hfree hinside (by simp [OwnerPc.Inside, hpc])⟩
  · exact ⟨.test, rfl, by simp, hpc⟩
  · exact ⟨.block, rfl, by simp, hpc⟩
  · by_cases hinside : s.threadPc.Inside
    · exact hthread hinside
    · have hnull : s.eventLoop = false := by
        refine (h.meet.blocked hpc).resolve_right fun hnotify => ?_
        exact hinside (Or.inr (Or.inl hnotify))
      have hunpublished : ¬ s.threadPc.Published := by
        rw [← h.meet.eventLoop_iff, hnull]
        simp
      have hbefore : s.threadPc = .constructing ∨ s.threadPc = .locking := by
        cases hpc : s.threadPc with
        | absent => exact absurd hpc h.created
        | constructing => exact Or.inl rfl
        | locking => exact Or.inr rfl
        | publishing => exact absurd (Or.inl hpc) hinside
        | _ => simp [LoopThreadPc.Published, hpc] at hunpublished
      rcases hbefore with hbefore | hbefore
      · exact ⟨.construct, rfl, by simp, hbefore⟩
      · exact ⟨.threadLock, rfl, by simp, hbefore,
          hfree hinside (by simp [OwnerPc.Inside, hpc])⟩
  · by_cases hinside : s.threadPc.Inside
    · exact hthread hinside
    · exact ⟨.relock, rfl, by simp, hpc, hfree hinside (by simp [OwnerPc.Inside, hpc])⟩
  · exact ⟨.unlock, rfl, by simp, hpc⟩

/-! ## `StartLoop` returns -/

/-- `StartLoop` returns within `n` steps of the two threads, if no wakeup is spurious. -/
def StartLoopReturns (n : ℕ) : CEventLoopThread F T → Prop :=
  LeadsWithin Step (fun a => a ≠ .wakeSpuriously) Action.isMeeting (fun t => t.ownerPc = .started) n

/-- When the thread has been created, `StartLoop` returns. -/
theorem Meeting.startLoopReturns (h : s.Meeting) : s.StartLoopReturns 11 := by
  have hwithin : s.StartLoopReturns s.meetRank := by
    refine leadsWithin_of_rank (I := Meeting) ?_ ?_ h
    · rintro t a u ht ⟨hin, hspurious⟩ hst
      exact ht.step (ht.owner.resolve_right hin) hspurious hst
    · rintro t ht hin
      obtain ⟨a, hmeeting, hspurious, hen⟩ := ht.progress (ht.owner.resolve_right hin)
      exact ⟨a, _, hmeeting, hspurious, ⟨ht.fault_eq, hen⟩, rfl⟩
  exact hwithin.mono s.meetRank_le

/-- A step towards the end of `StartLoop`, when it returns. -/
theorem StartLoopReturns.tail {n : ℕ} (h : s.StartLoopReturns n) {a : Action F T}
    (hfault : s.fault = none) (hpc : s.ownerPc ≠ .started) (ha : a ≠ .wakeSpuriously)
    (hen : a.Enabled s) : (a.next s).StartLoopReturns n :=
  LeadsWithin.tail h hpc ha ⟨⟨hfault, hen⟩, rfl⟩ fun _ hu => hu.2

/-- Blocked without a loop thread. -/
theorem not_returns_of_blocked (hpc : s.ownerPc = .blocked) (habsent : s.threadPc = .absent)
    (n : ℕ) : ¬ s.StartLoopReturns n := by
  refine not_leadsWithin_of_idle (by simp [hpc]) fun a u hmeeting _ hst => ?_
  have hen := hst.1.2
  cases a <;> simp [Action.isMeeting, Action.Enabled, hpc, habsent] at hmeeting hen

/-- About to block without a loop thread. -/
theorem not_returns_of_waiting (hfault : s.fault = none) (hpc : s.ownerPc = .waiting)
    (habsent : s.threadPc = .absent) (n : ℕ) : ¬ s.StartLoopReturns n := by
  intro hreturns
  have hnext : (Action.next s .block).StartLoopReturns n :=
    hreturns.tail hfault (by simp [hpc]) (by simp) hpc
  exact not_returns_of_blocked (s := Action.next s .block) rfl habsent n hnext

/-- At the condition of the loop without a loop thread. -/
theorem not_returns_of_testing (hfault : s.fault = none) (hpc : s.ownerPc = .testing)
    (habsent : s.threadPc = .absent) (hnull : s.eventLoop = false) (n : ℕ) :
    ¬ s.StartLoopReturns n := by
  intro hreturns
  have hnext : (Action.next s .test).StartLoopReturns n :=
    hreturns.tail hfault (by simp [hpc]) (by simp) hpc
  exact not_returns_of_waiting (s := Action.next s .test) hfault (if_pos hnull) habsent n hnext

/-- Without a loop thread, `StartLoop` blocks, and does not return. -/
theorem MeetInv.not_returns (h : s.MeetInv) (hfault : s.fault = none) (hin : s.ownerPc.Starting)
    (habsent : s.threadPc = .absent) (n : ℕ) : ¬ s.StartLoopReturns n := by
  have hnull : s.eventLoop = false := by
    rw [← Bool.not_eq_true, h.eventLoop_iff]
    simp [LoopThreadPc.Published, habsent]
  have hfree : ¬ s.ownerPc.Inside → s.mutexOwner = none :=
    fun howner => h.mutex_eq_none howner (by simp [LoopThreadPc.Inside, habsent])
  intro hreturns
  rcases hin with hpc | hpc | hpc | hpc | hpc | hpc
  · have hmutex := hfree (by simp [OwnerPc.Inside, hpc])
    have hnext : (Action.next s .lock).StartLoopReturns n :=
      hreturns.tail hfault (by simp [hpc]) (by simp) ⟨hpc, hmutex⟩
    exact not_returns_of_testing (s := Action.next s .lock) hfault rfl habsent hnull n hnext
  · exact not_returns_of_testing hfault hpc habsent hnull n hreturns
  · exact not_returns_of_waiting hfault hpc habsent n hreturns
  · exact not_returns_of_blocked hpc habsent n hreturns
  · have hmutex := hfree (by simp [OwnerPc.Inside, hpc])
    have hnext : (Action.next s .relock).StartLoopReturns n :=
      hreturns.tail hfault (by simp [hpc]) (by simp) ⟨hpc, hmutex⟩
    exact not_returns_of_testing (s := Action.next s .relock) hfault rfl habsent hnull n hnext
  · have hset := h.unlocking hpc
    simp [hnull] at hset

/-- **When `StartLoop` returns.** In every reachable state in which the owning thread is in
`StartLoop` behind `m_iThread.Start()`, with any number of clients at the loop and any spurious
wakeups before: `StartLoop` returns within 11 steps of the two threads that are no spurious wakeups,
whatever the loop and its clients do between them, exactly if `pthread_create` has made the loop
thread. -/
theorem startLoop_returns_iff_run {as : List (Action F T)} (hrun : Run Step new as s)
    (hfault : s.fault = none) (hin : s.ownerPc.Starting) :
    s.StartLoopReturns 11 ↔ s.threadPc ≠ .absent := by
  have hkeep : ∀ (s : CEventLoopThread F T) a s', s.MeetInv ∧ s.LoopInv → Step s a s' →
      s'.MeetInv ∧ s'.LoopInv :=
    fun s a s' h hst => ⟨h.1.step h.2 hst, h.2.step s a s' hst⟩
  obtain ⟨hmeet, hloop⟩ := hrun.invariant hkeep ⟨meetInv_new, loopInv_new⟩
  constructor
  · intro hreturns habsent
    exact hmeet.not_returns hfault hin habsent 11 hreturns
  · intro hcreated
    exact Meeting.startLoopReturns ⟨hmeet, hloop, hcreated, Or.inl hin, hfault⟩

/-- The theorem on an owning thread that is blocked, with a loop thread and without one. -/
theorem startLoop_returns_iff_run_blocked :
    (∃ s : CEventLoopThread ℕ Unit, Run Step new [.callStartLoop, .create true, .lock, .test,
      .block] s ∧ s.StartLoopReturns 11) ∧
    (∃ s : CEventLoopThread ℕ Unit, Run Step new [.callStartLoop, .create false, .lock, .test,
      .block] s ∧ ¬ s.StartLoopReturns 11) := by
  constructor
  · have hrun : ∃ s : CEventLoopThread ℕ Unit, Run Step new [.callStartLoop, .create true, .lock,
        .test, .block] s ∧ s.fault = none ∧ s.ownerPc = .blocked ∧ s.threadPc = .constructing :=
      ⟨_, run_of_execute rfl, rfl, rfl, rfl⟩
    obtain ⟨s, hrun, hfault, hpc, hthread⟩ := hrun
    exact ⟨s, hrun, (startLoop_returns_iff_run hrun hfault (by simp [OwnerPc.Starting, hpc])).mpr
      (by simp [hthread])⟩
  · have hrun : ∃ s : CEventLoopThread ℕ Unit, Run Step new [.callStartLoop, .create false, .lock,
        .test, .block] s ∧ s.fault = none ∧ s.ownerPc = .blocked ∧ s.threadPc = .absent :=
      ⟨_, run_of_execute rfl, rfl, rfl, rfl⟩
    obtain ⟨s, hrun, hfault, hpc, hthread⟩ := hrun
    exact ⟨s, hrun, fun hreturns =>
      (startLoop_returns_iff_run hrun hfault (by simp [OwnerPc.Starting, hpc])).mp hreturns hthread⟩

end CEventLoopThread

end Neconet
