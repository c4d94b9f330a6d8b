import Neconet.Net.EventLoopThread

/-!
# The life of a `CEventLoopThread`

What can go wrong between the constructor and the destructor of a `CEventLoopThread`, and when
nothing does. The destructor calls `m_iEventLoop->QuitLoop()` without a look at the pointer or at
the loop thread, and `CThread::Start` hides a failure of `pthread_create`; so the lives in which
nothing goes wrong are those in which the thread was created, `StartLoop` was called, and the loop
still runs when the destructor stops it.

* `LifeOk`: the conditions on the steps.
* `CallerOk`: those that a caller can see to; `along_lifeOk`: they are enough.
* `LifeInv`: where the threads are and what the fields are, under these conditions.
* `lifeSafe_run`: the destructor finds the loop and the thread, and `StartLoop` waits only for a
  thread that will notify it.
* `not_lifeSafe`: what goes wrong without each of the conditions.
-/

namespace Neconet

set_option linter.unusedSectionVars false

open Transition

namespace CEventLoopThread

variable {F T : Type} [DecidableEq T]

/-! ## The lives in which nothing goes wrong -/

/-- What the lives have in common in which nothing goes wrong: `pthread_create` succeeds, the
destructor begins after `StartLoop`, and `iLoop` goes out of scope only after the destructor has set
`m_bQuit`. -/
def LifeOk (s : CEventLoopThread F T) : Action F T → Prop
  | .create ok => ok = true
  | .destroy => s.ownerPc ≠ .outside
  | .endScope => s.ownerPc.QuitCalled
  | _ => True

/-- Where the threads are and what the fields are, in these lives. -/
structure LifeInv (s : CEventLoopThread F T) : Prop where
  /-- The owning thread has the mutex at these positions. -/
  mutex_owner : s.mutexOwner = some .owner ↔ s.ownerPc.Inside
  /-- The loop thread has the mutex at these positions. -/
  mutex_thread : s.mutexOwner = some .loopThread ↔ s.threadPc.Inside
  /-- There is a loop thread from the return of `m_iThread.Start()` on. -/
  absent_iff : s.threadPc = .absent ↔ s.ownerPc = .outside ∨ s.ownerPc = .creating
  /-- `StartLoop` starts the thread. -/
  started_iff : s.started = true ↔ s.ownerPc ≠ .outside
  /-- The destructor joins it. -/
  joined_eq : s.joined = true → s.ownerPc = .joined ∨ s.ownerPc = .destroyed
  /-- The pointer is set by `__ThreadFunc`. -/
  eventLoop_iff : s.eventLoop = true ↔ s.threadPc ≠ .absent ∧ s.threadPc ≠ .constructing ∧
    s.threadPc ≠ .locking ∧ s.threadPc ≠ .publishing
  /-- `StartLoop` leaves its loop when the pointer is set. -/
  hasLoop : s.ownerPc.HasLoop → s.eventLoop = true
  /-- A null pointer makes `StartLoop` wait. -/
  waiting : s.ownerPc = .waiting → s.eventLoop = false
  /-- A set pointer is followed by a notification. -/
  blocked : s.ownerPc = .blocked → s.eventLoop = false ∨ s.threadPc = .notifying
  /-- `iLoop` is in scope until `m_bQuit` is set. -/
  ended : s.threadPc = .ended → s.ownerPc.QuitCalled

/-- A new object. -/
theorem lifeInv_new : LifeInv (new : CEventLoopThread F T) := by
  constructor <;> simp [new, OwnerPc.Inside, LoopThreadPc.Inside, OwnerPc.HasLoop,
    OwnerPc.QuitCalled]

/-- The mutex keeps the two threads apart. -/
theorem LifeInv.not_inside {s : CEventLoopThread F T} (h : s.LifeInv) (hthread : s.threadPc.Inside) :
    ¬ s.ownerPc.Inside := by
  intro howner
  have heq := (h.mutex_thread.mpr hthread).symm.trans (h.mutex_owner.mpr howner)
  cases heq

/-- The destructor finds the loop. -/
theorem LifeInv.inScope {s : CEventLoopThread F T} (h : s.LifeInv) (hpc : s.ownerPc = .quitting) :
    s.eventLoop = true ∧ s.threadPc.InScope := by
  have hloop : s.eventLoop = true := h.hasLoop (by simp [OwnerPc.HasLoop, hpc])
  have hpublished := h.eventLoop_iff.mp hloop
  refine ⟨hloop, hpublished.1, hpublished.2.1, fun hended => ?_⟩
  have hcalled := h.ended hended
  simp [OwnerPc.QuitCalled, hpc] at hcalled

/-- The end of the program changes nothing else. -/
theorem LifeInv.of_fault {s : CEventLoopThread F T} (h : s.LifeInv) (e : Option Fault) :
    LifeInv { s with fault := e } :=
  ⟨h.mutex_owner, h.mutex_thread, h.absent_iff, h.started_iff, h.joined_eq, h.eventLoop_iff,
    h.hasLoop, h.waiting, h.blocked, h.ended⟩

/-- Nobody has a free mutex. -/
theorem LifeInv.not_inside_of_free {s : CEventLoopThread F T} (h : s.LifeInv)
    (hfree : s.mutexOwner = none) : ¬ s.ownerPc.Inside ∧ ¬ s.threadPc.Inside := by
  constructor
  · rw [← h.mutex_owner, hfree]
    simp
  · rw [← h.mutex_thread, hfree]
    simp

/-- Only the destructor joins the thread. -/
theorem LifeInv.not_joined {s : CEventLoopThread F T} (h : s.LifeInv) {p : OwnerPc}
    (hpc : s.ownerPc = p) (hp : ¬ (p = .joined ∨ p = .destroyed)) : s.joined ≠ true := by
  intro hjoined
  exact hp (hpc ▸ h.joined_eq hjoined)

/-- The owning thread goes on, when the thread has been created. -/
theorem LifeInv.of_owner {s : CEventLoopThread F T} (h : s.LifeInv) {p q : OwnerPc}
    {m : Option Side} {e j : Bool} {l : CEventLoop F (Option T)} (hpc : s.ownerPc = p)
    (hp : p ≠ .outside ∧ p ≠ .creating) (hq : q ≠ .outside ∧ q ≠ .creating)
    (howner : m = some .owner ↔ q.Inside) (hthread : m = some .loopThread ↔ s.threadPc.Inside)
    (hjoined : j = true → q = .joined ∨ q = .destroyed) (hhas : q.HasLoop → s.eventLoop = true)
    (hwaiting : q = .waiting → s.eventLoop = false)
    (hblocked : q = .blocked → s.eventLoop = false ∨ s.threadPc = .notifying)
    (hquit : p.QuitCalled → q.QuitCalled) :
    LifeInv { s with ownerPc := q, mutexOwner := m, exiting := e, joined := j, loop := l } where
  mutex_owner := howner
  mutex_thread := hthread
  absent_iff := by
    have hcreated : ¬ (s.ownerPc = .outside ∨ s.ownerPc = .creating) := by
      rw [hpc]
      exact not_or.mpr hp
    exact iff_of_false (mt h.absent_iff.mp hcreated) (not_or.mpr hq)
  started_iff := by
    have hstarted : s.started = true := h.started_iff.mpr (by rw [hpc]; exact hp.1)
    exact iff_of_true hstarted hq.1
  joined_eq := hjoined
  eventLoop_iff := h.eventLoop_iff
  hasLoop := hhas
  waiting := hwaiting
  blocked := hblocked
  ended hended := by
    have hcalled := h.ended hended
    rw [hpc] at hcalled
    exact hquit hcalled

/-- `StartLoop` goes on behind the creation of the thread. -/
theorem LifeInv.of_startLoop {s : CEventLoopThread F T} (h : s.LifeInv) {p q : OwnerPc}
    {m : Option Side} (hpc : s.ownerPc = p)
    (hp : p ≠ .outside ∧ p ≠ .creating ∧ ¬ p.QuitCalled) (hq : q ≠ .outside ∧ q ≠ .creating)
    (howner : m = some .owner ↔ q.Inside) (hthread : m = some .loopThread ↔ s.threadPc.Inside)
    (hhas : q.HasLoop → s.eventLoop = true) (hwaiting : q = .waiting → s.eventLoop = false)
    (hblocked : q = .blocked → s.eventLoop = false ∨ s.threadPc = .notifying) :
    LifeInv { s with ownerPc := q, mutexOwner := m } := by
  have hnot : ¬ (p = .joined ∨ p = .destroyed) := fun hend => hp.2.2 (Or.inr (Or.inr hend))
  exact h.of_owner hpc ⟨hp.1, hp.2.1⟩ hq howner hthread
    (fun hjoined => absurd hjoined (h.not_joined hpc hnot)) hhas hwaiting hblocked
    (fun hcalled => absurd hcalled hp.2.2)

/-- The destructor goes on. -/
theorem LifeInv.of_destructor {s : CEventLoopThread F T} (h : s.LifeInv) {p q : OwnerPc}
    {e j : Bool} {l : CEventLoop F (Option T)} (hpc : s.ownerPc = p)
    (hp : p = .started ∨ p = .quitting ∨ p.QuitCalled) (hq : q = .quitting ∨ q.QuitCalled)
    (hjoined : j = true → q = .joined ∨ q = .destroyed) (hquit : p.QuitCalled → q.QuitCalled) :
    LifeInv { s with ownerPc := q, exiting := e, joined := j, loop := l } := by
  have hloop : s.eventLoop = true := h.hasLoop (hpc ▸ Or.inr hp)
  have hbefore : ¬ p.Inside ∧ p ≠ .outside ∧ p ≠ .creating := by
    rcases hp with rfl | rfl | rfl | rfl | rfl | rfl <;> simp [OwnerPc.Inside]
  have hafter : ¬ q.Inside ∧ q ≠ .outside ∧ q ≠ .creating ∧ q ≠ .waiting ∧ q ≠ .blocked := by
    rcases hq with rfl | rfl | rfl | rfl | rfl <;> simp [OwnerPc.Inside]
  have howner : s.ownerPc.Inside ↔ q.Inside := by
    rw [hpc]
    exact iff_of_false hbefore.1 hafter.1
  exact h.of_owner hpc hbefore.2 ⟨hafter.2.1, hafter.2.2.1⟩ (h.mutex_owner.trans howner)
    h.mutex_thread hjoined (fun _ => hloop) (fun hq => absurd hq hafter.2.2.2.1)
    (fun hq => absurd hq hafter.2.2.2.2) hquit

/-- The owning thread is woken. -/
theorem LifeInv.wake {s : CEventLoopThread F T} (h : s.LifeInv) (hpc : s.ownerPc = .blocked) :
    LifeInv { s with ownerPc := .woken } := by
  have howner : s.ownerPc.Inside ↔ OwnerPc.woken.Inside := by simp [OwnerPc.Inside, hpc]
  exact h.of_startLoop hpc (by decide) (by simp) (h.mutex_owner.trans howner) h.mutex_thread
    (by simp [OwnerPc.HasLoop, OwnerPc.QuitCalled]) (by simp) (by simp)

/-- The owning thread takes the mutex. -/
theorem LifeInv.acquire {s : CEventLoopThread F T} (h : s.LifeInv)
    (hpc : s.ownerPc = .locking ∨ s.ownerPc = .woken) (hfree : s.mutexOwner = none) :
    LifeInv { s with mutexOwner := some .owner, ownerPc := .testing } := by
  have hthread : some Side.owner = some .loopThread ↔ s.threadPc.Inside :=
    iff_of_false (by simp) (h.not_inside_of_free hfree).2
  rcases hpc with hpc | hpc
  · exact h.of_startLoop hpc (by decide) (by simp) (by simp [OwnerPc.Inside]) hthread
      (by simp [OwnerPc.HasLoop, OwnerPc.QuitCalled]) (by simp) (by simp)
  · exact h.of_startLoop hpc (by decide) (by simp) (by simp [OwnerPc.Inside]) hthread
      (by simp [OwnerPc.HasLoop, OwnerPc.QuitCalled]) (by simp) (by simp)

/-- The loop thread goes on, without a change of the pointer. -/
theorem LifeInv.of_thread {s : CEventLoopThread F T} (h : s.LifeInv) {p q : LoopThreadPc}
    {m : Option Side} {l : CEventLoop F (Option T)} (hpc : s.threadPc = p)
    (hp : p ≠ .absent) (hnotify : s.ownerPc = .blocked → p ≠ .notifying)
    (hpublished : (p ≠ .absent ∧ p ≠ .constructing ∧ p ≠ .locking ∧ p ≠ .publishing) ↔
      q ≠ .absent ∧ q ≠ .constructing ∧ q ≠ .locking ∧ q ≠ .publishing) (hq : q ≠ .absent)
    (howner : m = some .owner ↔ s.ownerPc.Inside) (hthread : m = some .loopThread ↔ q.Inside)
    (hended : q = .ended → s.ownerPc.QuitCalled) :
    LifeInv { s with threadPc := q, mutexOwner := m, loop := l } where
  mutex_owner := howner
  mutex_thread := hthread
  absent_iff := by
    have hcreated : ¬ (s.ownerPc = .outside ∨ s.ownerPc = .creating) := by
      rw [← h.absent_iff, hpc]
      exact hp
    exact iff_of_false hq hcreated
  started_iff := h.started_iff
  joined_eq := h.joined_eq
  eventLoop_iff := by
    rw [h.eventLoop_iff, hpc]
    exact hpublished
  hasLoop := h.hasLoop
  waiting := h.waiting
  blocked hblocked := by
    rcases h.blocked hblocked with hnull | hnotifying
    · exact Or.inl hnull
    · exact absurd (hpc.symm.trans hnotifying) (hnotify hblocked)
  ended := hended

/-- The loop thread goes on behind the publication, in the scope of `iLoop`. -/
theorem LifeInv.of_looping {s : CEventLoopThread F T} (h : s.LifeInv) {q : LoopThreadPc}
    {l : CEventLoop F (Option T)} (hpc : s.threadPc = .entering ∨ s.threadPc = .looping)
    (hq : q = .looping ∨ q = .leaving) : LifeInv { s with threadPc := q, loop := l } := by
  have hthread : s.threadPc.Inside ↔ q.Inside := by
    rcases hpc with hpc | hpc <;> rcases hq with rfl | rfl <;> simp [LoopThreadPc.Inside, hpc]
  rcases hpc with hpc | hpc <;> rcases hq with rfl | rfl <;>
    exact h.of_thread hpc (by simp) (by simp) (by simp) (by simp) h.mutex_owner
      (h.mutex_thread.trans hthread) (by simp)

/-- The steps of `StartLoop`. -/
theorem LifeInv.startLoop {s : CEventLoopThread F T} {a : Action F T} (h : s.LifeInv)
    (ha : a.part = .startLoop) (hok : s.LifeOk a) (hen : a.Enabled s) : (a.next s).LifeInv := by
  cases a with
  | callStartLoop =>
      have hpc : s.ownerPc = .outside := hen
      have habsent : s.threadPc = .absent := h.absent_iff.mpr (Or.inl hpc)
      rcases callStartLoop_cases s with hnext | ⟨e, hnext⟩
      · rw [hnext]
        exact {
          mutex_owner := h.mutex_owner.trans (by simp [OwnerPc.Inside, hpc])
          mutex_thread := h.mutex_thread
          absent_iff := iff_of_true habsent (Or.inr rfl)
          started_iff := iff_of_true rfl (by simp)
          joined_eq := fun hjoined => absurd hjoined (h.not_joined hpc (by decide))
          eventLoop_iff := h.eventLoop_iff
          hasLoop := by simp [OwnerPc.HasLoop, OwnerPc.QuitCalled]
          waiting := by simp
          blocked := by simp
          ended := by simp [habsent] }
      · rw [hnext]
        exact h.of_fault _
  | create ok =>
      have hpc : s.ownerPc = .creating := hen
      have habsent : s.threadPc = .absent := h.absent_iff.mpr (Or.inr hpc)
      obtain rfl : ok = true := hok
      exact {
        mutex_owner := h.mutex_owner.trans (by simp [OwnerPc.Inside, hpc, Action.next])
        mutex_thread := h.mutex_thread.trans (by simp [LoopThreadPc.Inside, habsent, Action.next])
        absent_iff := by simp [Action.next]
        started_iff := iff_of_true (h.started_iff.mpr (by simp [hpc])) (by simp [Action.next])
        joined_eq := fun hjoined => absurd hjoined (h.not_joined hpc (by decide))
        eventLoop_iff := h.eventLoop_iff.trans (by simp [habsent, Action.next])
        hasLoop := by simp [OwnerPc.HasLoop, OwnerPc.QuitCalled, Action.next]
        waiting := by simp [Action.next]
        blocked := by simp [Action.next]
        ended := by simp [Action.next] }
  | lock => exact h.acquire (Or.inl hen.1) hen.2
  | relock => exact h.acquire (Or.inr hen.1) hen.2
  | wakeSpuriously => exact h.wake hen
  | test =>
      have hpc : s.ownerPc = .testing := hen
      by_cases hnull : s.eventLoop = false
      · have howner : s.ownerPc.Inside ↔ OwnerPc.waiting.Inside := by simp [OwnerPc.Inside, hpc]
        rw [Action.next, if_pos hnull]
        exact h.of_startLoop hpc (by decide) (by simp) (h.mutex_owner.trans howner) h.mutex_thread
          (by simp [OwnerPc.HasLoop, OwnerPc.QuitCalled]) (fun _ => hnull) (by simp)
      · have howner : s.ownerPc.Inside ↔ OwnerPc.unlocking.Inside := by
          simp [OwnerPc.Inside, hpc]
        rw [Action.next, if_neg hnull]
        exact h.of_startLoop hpc (by decide) (by simp) (h.mutex_owner.trans howner) h.mutex_thread
          (fun _ => by simpa using hnull) (by simp) (by simp)
  | block =>
      have hpc : s.ownerPc = .waiting := hen
      have hthread : ¬ s.threadPc.Inside := by
        intro hin
        exact h.not_inside hin (by simp [OwnerPc.Inside, hpc])
      exact h.of_startLoop hpc (by decide) (by simp) (by simp [OwnerPc.Inside])
        (iff_of_false (by simp) hthread) (by simp [OwnerPc.HasLoop, OwnerPc.QuitCalled]) (by simp)
        (fun _ => Or.inl (h.waiting hpc))
  | unlock =>
      have hpc : s.ownerPc = .unlocking := hen
      have hthread : ¬ s.threadPc.Inside := by
        intro hin
        exact h.not_inside hin (by simp [OwnerPc.Inside, hpc])
      have hloop : s.eventLoop = true := h.hasLoop (Or.inl hpc)
      exact h.of_startLoop hpc (by decide) (by simp) (by simp [OwnerPc.Inside])
        (iff_of_false (by simp) hthread) (fun _ => hloop) (by simp) (by simp)
  | _ => cases ha

/-- The steps of `__ThreadFunc`. -/
theorem LifeInv.threadFunc {s : CEventLoopThread F T} {a : Action F T} (h : s.LifeInv)
    (ha : a.part = .threadFunc) (hok : s.LifeOk a) (hen : a.Enabled s) : (a.next s).LifeInv := by
  cases a with
  | construct =>
      have hpc : s.threadPc = .constructing := hen
      have hthread : s.threadPc.Inside ↔ LoopThreadPc.locking.Inside := by
        simp [LoopThreadPc.Inside, hpc]
      exact h.of_thread hpc (by simp) (by simp) (by simp) (by simp) h.mutex_owner
        (h.mutex_thread.trans hthread) (by simp)
  | threadLock =>
      have howner := (h.not_inside_of_free hen.2).1
      exact h.of_thread hen.1 (by simp) (by simp) (by simp) (by simp)
        (iff_of_false (by simp) howner) (by simp [LoopThreadPc.Inside]) (by simp)
  | publish =>
      have hpc : s.threadPc = .publishing := hen
      have howner := h.not_inside (Or.inl hpc)
      have hcreated : ¬ (s.ownerPc = .outside ∨ s.ownerPc = .creating) := by
        rw [← h.absent_iff, hpc]
        simp
      exact {
        mutex_owner := h.mutex_owner
        mutex_thread := h.mutex_thread.trans (by simp [LoopThreadPc.Inside, hpc, Action.next])
        absent_iff := iff_of_false (by simp [Action.next]) hcreated
        started_iff := h.started_iff
        joined_eq := h.joined_eq
        eventLoop_iff := by simp [Action.next]
        hasLoop := fun _ => rfl
        -- the owning thread does not wait: it would have the mutex
        waiting := fun hwaiting => absurd (Or.inr (Or.inl hwaiting)) howner
        blocked := fun _ => Or.inr rfl
        ended := by simp [Action.next] }
  | notify =>
      have hpc : s.threadPc = .notifying := hen
      have hthread : s.threadPc.Inside ↔ LoopThreadPc.unlocking.Inside := by
        simp [LoopThreadPc.Inside, hpc]
      by_cases hblocked : s.ownerPc = .blocked
      · have h' := h.wake hblocked
        rw [Action.next, if_pos hblocked]
        exact h'.of_thread hpc (by simp) (by simp) (by simp) (by simp) h'.mutex_owner
          (h'.mutex_thread.trans hthread) (by simp)
      · rw [Action.next, if_neg hblocked]
        exact h.of_thread hpc (by simp) (fun hpc' => absurd hpc' hblocked) (by simp) (by simp)
          h.mutex_owner (h.mutex_thread.trans hthread) (by simp)
  | threadUnlock =>
      have hpc : s.threadPc = .unlocking := hen
      have howner := h.not_inside (Or.inr (Or.inr hpc))
      exact h.of_thread hpc (by simp) (by simp) (by simp) (by simp) (iff_of_false (by simp) howner)
        (by simp [LoopThreadPc.Inside]) (by simp)
  | endScope =>
      have hpc : s.threadPc = .leaving := hen
      have hthread : s.threadPc.Inside ↔ LoopThreadPc.ended.Inside := by
        simp [LoopThreadPc.Inside, hpc]
      rcases endScope_cases s with hnext | ⟨e, hnext⟩
      · rw [hnext]
        exact h.of_thread hpc (by simp) (by simp) (by simp) (by simp) h.mutex_owner
          (h.mutex_thread.trans hthread) (fun _ => hok)
      · rw [hnext]
        exact h.of_fault _
  | _ => cases ha

/-- The steps of the destructor. -/
theorem LifeInv.destructor {s : CEventLoopThread F T} {a : Action F T} (h : s.LifeInv)
    (ha : a.part = .destructor) (hok : s.LifeOk a) (hen : a.Enabled s) : (a.next s).LifeInv := by
  cases a with
  | destroy =>
      have hpc : s.ownerPc = .started := hen.1.resolve_left hok
      exact h.of_destructor hpc (by decide) (by decide)
        (fun hjoined => absurd hjoined (h.not_joined hpc (by decide))) (by decide)
  | quit =>
      have hpc : s.ownerPc = .quitting := hen
      rcases quit_cases s with ⟨-, -, hnext⟩ | ⟨e, hnext⟩
      · rw [hnext]
        exact h.of_destructor hpc (by decide) (by decide)
          (fun hjoined => absurd hjoined (h.not_joined hpc (by decide))) (by decide)
      · rw [hnext]
        exact h.of_fault _
  | wakeup written =>
      have hpc : s.ownerPc = .waking := hen.1
      rcases wakeup_cases s written with hnext | ⟨e, hnext⟩
      · rw [hnext]
        exact h.of_destructor hpc (by decide) (by decide)
          (fun hjoined => absurd hjoined (h.not_joined hpc (by decide))) (by decide)
      · rw [hnext]
        exact h.of_fault _
  | callJoin =>
      have hpc : s.ownerPc = .joining := hen
      rcases callJoin_cases s with hnext | ⟨e, hnext⟩
      · rw [hnext]
        exact h.of_destructor hpc (by decide) (by decide) (fun _ => Or.inl rfl) (by decide)
      · rw [hnext]
        exact h.of_fault _
  | join =>
      have hpc : s.ownerPc = .joined := hen.1
      exact h.of_destructor hpc (by decide) (by decide) (fun _ => Or.inr rfl) (by decide)
  | _ => cases ha

/-- The steps in and at `iLoop`. -/
theorem LifeInv.iLoop {s : CEventLoopThread F T} {a : CEventLoop.Action F (Option T)}
    (h : s.LifeInv) (hmay : s.MayStep a) : (Action.next s (.loop a)).LifeInv := by
  rcases loop_threadPc hmay with hpc | ⟨hpc, hpc'⟩
  · have hs' : Action.next s (.loop a) = { s with loop := a.next s.loop } := by
      rw [show s.threadPc = _ from hpc.symm]
      rfl
    rw [hs']
    exact ⟨h.mutex_owner, h.mutex_thread, h.absent_iff, h.started_iff, h.joined_eq, h.eventLoop_iff,
      h.hasLoop, h.waiting, h.blocked, h.ended⟩
  · exact h.of_looping hpc hpc'

/-- Every step of such a life keeps the invariant. -/
theorem LifeInv.step (s : CEventLoopThread F T) (a : Action F T) (s' : CEventLoopThread F T)
    (h : s.LifeInv) (hok : s.LifeOk a) (hst : Step s a s') : s'.LifeInv := by
  obtain ⟨⟨-, hen⟩, rfl⟩ := hst
  cases hpart : a.part with
  | startLoop => exact h.startLoop hpart hok hen
  | threadFunc => exact h.threadFunc hpart hok hen
  | destructor => exact h.destructor hpart hok hen
  | iLoop =>
      cases a with
      | loop a => exact h.iLoop hen.2.1
      | _ => cases hpart

/-! ## What the caller can do for it -/

/-- The caller's part: `pthread_create` succeeds, the destructor begins after `StartLoop`, and
nobody but the destructor calls `QuitLoop`. -/
def CallerOk (s : CEventLoopThread F T) : Action F T → Prop
  | .create ok => ok = true
  | .destroy => s.ownerPc ≠ .outside
  | .loop .quitLoop => False
  | .loop (.threadQuitLoop _) => False
  | _ => True

/-- The loop has been told to end, or has ended, only by the destructor. -/
def QuitInv (s : CEventLoopThread F T) : Prop :=
  s.loop.quit = true ∨ s.threadPc = .leaving ∨ s.threadPc = .ended → s.ownerPc.QuitCalled

/-- A new object. -/
theorem quitInv_new : QuitInv (new : CEventLoopThread F T) := by
  simp [QuitInv, new, CEventLoop.new]

/-- A step at the loop that is no `QuitLoop`. -/
theorem QuitInv.loop {s : CEventLoopThread F T} {a : CEventLoop.Action F (Option T)} (h : s.QuitInv)
    (hok : s.CallerOk (.loop a)) : (Action.next s (.loop a)).QuitInv := by
  cases a with
  | quitLoop | threadQuitLoop => exact hok.elim
  | startLoop =>
      rintro (hquit | hleaving | hended)
      · cases hquit
      · cases hleaving
      · cases hended
  | testQuit =>
      by_cases hquit : s.loop.quit = true
      · exact fun _ => h (Or.inl hquit)
      · intro hafter
        simp [Action.next, CEventLoop.Action.next, hquit] at hafter
  | poll | handleRead | enterDoPendingFunctors | swap | callFunctor | returnFunctor
  | leaveDoPendingFunctors | queueInLoop | wakeup | threadQueueInLoop | threadWakeup => exact h

/-- Every step that the caller may take keeps it so. -/
theorem QuitInv.step {s s' : CEventLoopThread F T} {a : Action F T} (h : s.QuitInv)
    (hok : s.CallerOk a) (hst : Step s a s') : s'.QuitInv := by
  obtain ⟨⟨-, hen⟩, rfl⟩ := hst
  -- in front of `QuitLoop`, nobody has told the loop to end
  have hbefore : ∀ p, s.ownerPc = p → ¬ p.QuitCalled →
      ¬ (s.loop.quit = true ∨ s.threadPc = .leaving ∨ s.threadPc = .ended) := by
    rintro p rfl hp hquit
    exact hp (h hquit)
  have hstay : ∀ p, s.ownerPc = p → ¬ p.QuitCalled → ∀ q,
      QuitInv { s with ownerPc := q } := fun p hpc hp q hquit => absurd hquit (hbefore p hpc hp)
  cases a with
  | callStartLoop =>
      rcases callStartLoop_cases s with hnext | ⟨e, hnext⟩ <;> rw [hnext]
      · exact hstay _ hen (by decide) _
      · exact h
  | create ok =>
      obtain rfl : ok = true := hok
      rintro (hquit | hleaving | hended)
      · exact absurd (Or.inl hquit) (hbefore _ hen (by decide))
      · cases hleaving
      · cases hended
  | lock => exact hstay _ hen.1 (by decide) _
  | relock => exact hstay _ hen.1 (by decide) _
  | test | block | wakeSpuriously | unlock => exact hstay _ hen (by decide) _
  | construct =>
      rintro (hquit | hleaving | hended)
      · cases hquit
      · cases hleaving
      · cases hended
  | threadLock | publish | threadUnlock =>
      rintro (hquit | hleaving | hended)
      · exact h (Or.inl hquit)
      · cases hleaving
      · cases hended
  | notify =>
      rintro (hquit | hleaving | hended)
      · have hcalled := h (Or.inl hquit)
        have hne : s.ownerPc ≠ .blocked := by
          intro hblocked
          rw [hblocked] at hcalled
          exact absurd hcalled (by decide)
        simpa [Action.next, hne] using hcalled
      · cases hleaving
      · cases hended
  | loop a => exact h.loop hok
  | endScope =>
      have hcalled := h (Or.inr (Or.inl hen))
      rcases endScope_cases s with hnext | ⟨e, hnext⟩ <;> rw [hnext] <;> exact fun _ => hcalled
  | destroy =>
      rcases hen.1 with hpc | hpc
      · exact hstay _ hpc (by decide) _
      · exact hstay _ hpc (by decide) _
  | quit =>
      rcases quit_cases s with ⟨-, -, hnext⟩ | ⟨e, hnext⟩ <;> rw [hnext]
      · exact fun _ => Or.inl rfl
      · exact h
  | wakeup written =>
      rcases wakeup_cases s written with hnext | ⟨e, hnext⟩ <;> rw [hnext]
      · exact fun _ => Or.inr (Or.inl rfl)
      · exact h
  | callJoin =>
      rcases callJoin_cases s with hnext | ⟨e, hnext⟩ <;> rw [hnext]
      · exact fun _ => Or.inr (Or.inr (Or.inl rfl))
      · exact h
  | join => exact fun _ => Or.inr (Or.inr (Or.inr rfl))

/-- A step that the caller may take is one of a life in which nothing goes wrong. -/
theorem QuitInv.lifeOk {s s' : CEventLoopThread F T} {a : Action F T} (h : s.QuitInv)
    (hok : s.CallerOk a) (hst : Step s a s') : s.LifeOk a := by
  obtain ⟨⟨-, hen⟩, -⟩ := hst
  cases a with
  | create ok => exact hok
  | destroy => exact hok
  | endScope => exact h (Or.inr (Or.inl hen))
  | _ => trivial

/-- **If nobody but the destructor calls `QuitLoop`, `iLoop` is in scope when the destructor does**:
without a `QuitLoop` the loop does not end, and so its scope does not. -/
theorem along_lifeOk {as : List (Action F T)} {s t : CEventLoopThread F T} (hrun : Run Step s as t)
    (h : s.QuitInv) (hok : Along Step CallerOk s as) : Along Step LifeOk s as := by
  induction hrun with
  | nil s => exact along_nil
  | cons head tail ih =>
      obtain ⟨ha, htail⟩ := along_cons_iff.mp hok
      refine along_cons_iff.mpr ⟨h.lifeOk ha head, fun u hu => ?_⟩
      rw [hu.2.trans head.2.symm]
      exact ih (h.step ha head) (htail _ head)

/-! ## Safety of the life -/

/-- `iLoop` stays in scope while the destructor is inside `QuitLoop`. -/
def ScopeOk (s : CEventLoopThread F T) : Action F T → Prop
  | .endScope => s.ownerPc ≠ .waking
  | _ => True

/-- The destructor joins a thread that has been started, and once. -/
theorem LifeInv.callJoin {s : CEventLoopThread F T} (h : s.LifeInv) (hpc : s.ownerPc = .joining) :
    s.started = true ∧ s.joined = false := by
  constructor
  · exact h.started_iff.mpr (by simp [hpc])
  · rw [← Bool.not_eq_true]
    intro hjoined
    have hpc' := h.joined_eq hjoined
    simp [hpc] at hpc'

/-- `StartLoop` waits for a thread that will notify it. -/
theorem LifeInv.willNotify {s : CEventLoopThread F T} (h : s.LifeInv)
    (hpc : s.ownerPc = .waiting ∨ s.ownerPc = .blocked) : s.threadPc.WillNotify := by
  have hcreated : s.threadPc ≠ .absent := by
    intro habsent
    have houtside := h.absent_iff.mp habsent
    rcases hpc with hpc | hpc <;> simp [hpc] at houtside
  have hnull : s.eventLoop = false ∨ s.threadPc = .notifying :=
    hpc.elim (fun hpc => Or.inl (h.waiting hpc)) h.blocked
  rcases hnull with hnull | hnotify
  · have hnot : ¬ s.eventLoop = true := by simp [hnull]
    rw [h.eventLoop_iff] at hnot
    by_contra hno
    simp only [LoopThreadPc.WillNotify, not_or] at hno
    exact hnot ⟨hcreated, hno.1, hno.2.1, hno.2.2.1⟩
  · exact Or.inr (Or.inr (Or.inr hnotify))

/-- Nothing goes wrong in a step, if `Wakeup` finds the loop. -/
theorem LifeInv.fault_eq {s s' : CEventLoopThread F T} {a : Action F T} (h : s.LifeInv)
    (hloop : s.LoopInv) (hwaking : s.ownerPc = .waking → s.threadPc.InScope)
    (hst : Step s a s') : s'.fault = none := by
  obtain ⟨⟨hfault, hen⟩, rfl⟩ := hst
  cases a with
  | callStartLoop =>
      have hstarted : s.started = false := by
        rw [← Bool.not_eq_true, h.started_iff]
        simp [show s.ownerPc = _ from hen]
      simp [Action.next, hstarted, hfault]
  | create ok => cases ok <;> exact hfault
  | endScope =>
      have houtside : s.loop.inLooping = false := by
        rw [← Bool.not_eq_true, hloop.controlInv.inLooping_iff, ← hloop.looping_iff]
        simp [show s.threadPc = _ from hen]
      simp [Action.next, houtside, hfault]
  | quit =>
      obtain ⟨hset, hin⟩ := h.inScope hen
      simp [Action.next, hset, hin, hfault]
  | wakeup written => simp [Action.next, hwaking hen.1, hfault]
  | callJoin =>
      obtain ⟨hstarted, hjoined⟩ := h.callJoin hen
      simp [Action.next, hstarted, hjoined, hfault]
  | _ => exact hfault

/-- Only the end of the scope takes the loop thread to its end. -/
theorem threadPc_eq_ended {s : CEventLoopThread F T} {a : Action F T} (hen : a.Enabled s)
    (hended : (a.next s).threadPc = .ended) :
    s.threadPc = .ended ∨ a = .endScope ∧ (a.next s).ownerPc = s.ownerPc := by
  cases a with
  | endScope =>
      right
      rcases endScope_cases s with hnext | ⟨e, hnext⟩ <;> rw [hnext] <;> exact ⟨rfl, rfl⟩
  | loop a =>
      rcases loop_threadPc hen.2.1 with hpc | ⟨-, hpc | hpc⟩
      · exact Or.inl (hpc ▸ hended)
      all_goals
        rw [hpc] at hended
        cases hended
  | create ok =>
      cases ok with
      | true => cases hended
      | false => exact Or.inl hended
  | callStartLoop =>
      rcases callStartLoop_cases s with hnext | ⟨e, hnext⟩ <;> rw [hnext] at hended <;>
        exact Or.inl hended
  | quit =>
      rcases quit_cases s with ⟨-, -, hnext⟩ | ⟨e, hnext⟩ <;> rw [hnext] at hended <;>
        exact Or.inl hended
  | wakeup written =>
      rcases wakeup_cases s written with hnext | ⟨e, hnext⟩ <;> rw [hnext] at hended <;>
        exact Or.inl hended
  | callJoin =>
      rcases callJoin_cases s with hnext | ⟨e, hnext⟩ <;> rw [hnext] at hended <;>
        exact Or.inl hended
  | construct | threadLock | publish | notify | threadUnlock => cases hended
  | lock | test | block | wakeSpuriously | relock | unlock | destroy | join => exact Or.inl hended

/-- Only `QuitLoop` takes the owning thread into `QuitLoop`. -/
theorem ownerPc_eq_waking {s : CEventLoopThread F T} {a : Action F T} (hen : a.Enabled s)
    (hpc : (a.next s).ownerPc = .waking) : s.ownerPc = .waking ∨ a = .quit := by
  cases a with
  | quit => exact Or.inr rfl
  | callStartLoop =>
      rcases callStartLoop_cases s with hnext | ⟨e, hnext⟩ <;> rw [hnext] at hpc
      · cases hpc
      · exact Or.inl hpc
  | create ok => cases ok <;> cases hpc
  | test => by_cases hnull : s.eventLoop = false <;> simp [Action.next, hnull] at hpc
  | notify =>
      left
      by_cases hblocked : s.ownerPc = .blocked
      · simp [Action.next, hblocked] at hpc
      · simpa [Action.next, hblocked] using hpc
  | endScope =>
      rcases endScope_cases s with hnext | ⟨e, hnext⟩ <;> rw [hnext] at hpc <;> exact Or.inl hpc
  | wakeup written => exact Or.inl hen.1
  | callJoin =>
      rcases callJoin_cases s with hnext | ⟨e, hnext⟩ <;> rw [hnext] at hpc
      · cases hpc
      · exact Or.inl hpc
  | lock | block | wakeSpuriously | relock | unlock | destroy | join => cases hpc
  | construct | threadLock | publish | threadUnlock | loop => exact Or.inl hpc

/-- In `QuitLoop`, the loop is found, if it stays in scope until then. -/
theorem LifeInv.waking {s s' : CEventLoopThread F T} {a : Action F T} (h : s.LifeInv)
    (h' : s'.LifeInv) (hscope : s.ScopeOk a) (hwaking : s.ownerPc = .waking → s.threadPc.InScope)
    (hst : Step s a s') (hpc : s'.ownerPc = .waking) : s'.threadPc.InScope := by
  have hset : s'.eventLoop = true := h'.hasLoop (by simp [OwnerPc.HasLoop, OwnerPc.QuitCalled, hpc])
  have hpublished := h'.eventLoop_iff.mp hset
  refine ⟨hpublished.1, hpublished.2.1, fun hended => ?_⟩
  obtain ⟨⟨-, hen⟩, rfl⟩ := hst
  rcases threadPc_eq_ended hen hended with hold | ⟨rfl, hsame⟩
  · rcases ownerPc_eq_waking hen hpc with hpc | rfl
    · exact (hwaking hpc).2.2 hold
    · exact (h.inScope hen).2.2.2 hold
  · exact hscope (hsame.symm.trans hpc)

/-- **The life of a `CEventLoopThread` is safe under conditions.** In every run in which
`pthread_create` succeeds, the destructor begins after `StartLoop`, and `iLoop` goes out of scope
only after the destructor has set `m_bQuit`:
* the destructor calls `QuitLoop` on a loop whose scope has not ended;
* it joins a thread that has been started;
* `StartLoop` waits only while the loop thread will still set the pointer, or will notify;
* if `iLoop` also stays in scope until `QuitLoop` is over, no pointer is bad and no assertion fails.

The last condition is one of its own: the loop thread may see `m_bQuit` as soon as it is set, and
end the scope of `iLoop` while the destructor is still in `QuitLoop`, in front of `Wakeup`. -/
theorem lifeSafe_run {as : List (Action F T)} {s : CEventLoopThread F T} (hrun : Run Step new as s)
    (hok : Along Step LifeOk new as) :
    (s.ownerPc = .quitting → s.eventLoop = true ∧ s.threadPc.InScope) ∧
    (s.ownerPc = .joining → s.started = true) ∧
    (s.ownerPc = .waiting ∨ s.ownerPc = .blocked → s.threadPc.WillNotify) ∧
    (Along Step ScopeOk new as → s.fault = none) := by
  have hinv := hrun.invariant_along LifeInv.step hok lifeInv_new
  refine ⟨hinv.inScope, fun hpc => (hinv.callJoin hpc).1, hinv.willNotify, fun hscope => ?_⟩
  -- both invariants, and that nothing has gone wrong yet
  have hkeep : ∀ (s : CEventLoopThread F T) a s',
      s.LifeInv ∧ s.LoopInv ∧ (s.ownerPc = .waking → s.threadPc.InScope) ∧ s.fault = none →
      s.LifeOk a ∧ s.ScopeOk a → Step s a s' →
      s'.LifeInv ∧ s'.LoopInv ∧ (s'.ownerPc = .waking → s'.threadPc.InScope) ∧ s'.fault = none := by
    rintro s a s' ⟨hlife, hloop, hwaking, -⟩ ⟨hok, hscope⟩ hst
    have hlife' := hlife.step s a s' hok hst
    exact ⟨hlife', hloop.step s a s' hst, hlife.waking hlife' hscope hwaking hst,
      hlife.fault_eq hloop hwaking hst⟩
  exact (hrun.invariant_along hkeep (hok.and hscope)
    ⟨lifeInv_new, loopInv_new, (fun h => by cases h), rfl⟩).2.2.2

instance decidableLifeOk (s : CEventLoopThread F T) : ∀ a : Action F T, Decidable (s.LifeOk a)
  | .create ok => inferInstanceAs (Decidable (ok = true))
  | .destroy => inferInstanceAs (Decidable (s.ownerPc ≠ .outside))
  | .endScope => inferInstanceAs (Decidable s.ownerPc.QuitCalled)
  | .callStartLoop | .lock | .test | .block | .wakeSpuriously | .relock | .unlock | .construct
  | .threadLock | .publish | .notify | .threadUnlock | .loop _ | .quit | .wakeup _ | .callJoin
  | .join => isTrue trivial

instance decidableScopeOk (s : CEventLoopThread F T) : ∀ a : Action F T, Decidable (s.ScopeOk a)
  | .endScope => inferInstanceAs (Decidable (s.ownerPc ≠ .waking))
  | .callStartLoop | .create _ | .lock | .test | .block | .wakeSpuriously | .relock | .unlock
  | .construct | .threadLock | .publish | .notify | .threadUnlock | .loop _ | .destroy | .quit
  | .wakeup _ | .callJoin | .join => isTrue trivial

instance decidableCallerOk (s : CEventLoopThread F T) : ∀ a : Action F T, Decidable (s.CallerOk a)
  | .create ok => inferInstanceAs (Decidable (ok = true))
  | .destroy => inferInstanceAs (Decidable (s.ownerPc ≠ .outside))
  | .loop .quitLoop | .loop (.threadQuitLoop _) => isFalse id
  | .loop .startLoop | .loop .testQuit | .loop (.poll _) | .loop .handleRead
  | .loop .enterDoPendingFunctors | .loop .swap | .loop .callFunctor | .loop .returnFunctor
  | .loop .leaveDoPendingFunctors | .loop (.queueInLoop _) | .loop (.wakeup _)
  | .loop (.threadQueueInLoop _ _) | .loop (.threadWakeup _ _) => isTrue trivial
  | .callStartLoop | .lock | .test | .block | .wakeSpuriously | .relock | .unlock | .construct
  | .threadLock | .publish | .notify | .threadUnlock | .endScope | .quit | .wakeup _ | .callJoin
  | .join => isTrue trivial

/-- A life from the constructor to the end of the destructor. -/
def wholeLife : List (Action ℕ Unit) :=
  [.callStartLoop, .create true, .lock, .test, .block, .construct, .threadLock, .publish, .notify,
    .threadUnlock, .relock, .test, .unlock, .loop .startLoop, .loop .testQuit, .destroy, .quit,
    .wakeup true, .loop (.poll true), .loop .handleRead, .loop .enterDoPendingFunctors, .loop .swap,
    .loop .leaveDoPendingFunctors, .loop .testQuit, .endScope, .callJoin, .join]

/-- The theorem on a whole life. -/
theorem lifeSafe_run_wholeLife : ∃ s : CEventLoopThread ℕ Unit,
    Run Step new wholeLife s ∧ s.ownerPc = .destroyed ∧ s.fault = none := by
  have hrun : ∃ s : CEventLoopThread ℕ Unit, Run Step new wholeLife s ∧ s.ownerPc = .destroyed :=
    ⟨_, run_of_execute rfl, rfl⟩
  have hscope : Along Step ScopeOk (new : CEventLoopThread ℕ Unit) wholeLife :=
    along_of_allNext (by decide)
  obtain ⟨s, hrun, hpc⟩ := hrun
  have hok : Along Step LifeOk (new : CEventLoopThread ℕ Unit) wholeLife :=
    along_lifeOk hrun quitInv_new (along_of_allNext (by decide))
  exact ⟨s, hrun, hpc, (lifeSafe_run hrun hok).2.2.2 hscope⟩

/-- What goes wrong in other lives: without `StartLoop`, the destructor calls `QuitLoop` through a
null pointer; after a functor has ended the loop, it calls `QuitLoop` on a loop whose scope has
ended; and after `pthread_create` has failed, `StartLoop` waits without a thread that could set the
pointer. -/
theorem not_lifeSafe :
    (∃ s : CEventLoopThread ℕ Unit, Run Step new [.destroy, .quit] s ∧
      s.fault = some .nullPointer) ∧
    (∃ s : CEventLoopThread ℕ Unit, Run Step new [.callStartLoop, .create true, .construct,
        .threadLock, .publish, .notify, .threadUnlock, .lock, .test, .unlock, .loop .startLoop,
        .loop .testQuit, .loop (.poll false), .loop .quitLoop, .loop .enterDoPendingFunctors,
        .loop .swap, .loop .leaveDoPendingFunctors, .loop .testQuit, .endScope, .destroy, .quit] s ∧
      s.eventLoop = true ∧ s.threadPc = .ended ∧ s.fault = some .useAfterFree) ∧
    (∃ s : CEventLoopThread ℕ Unit, Run Step new [.callStartLoop, .create false, .lock, .test,
        .block] s ∧
      s.ownerPc = .blocked ∧ s.eventLoop = false ∧ s.threadPc = .absent) :=
  ⟨⟨_, run_of_execute rfl, rfl⟩, ⟨_, run_of_execute rfl, rfl, rfl, rfl⟩,
    ⟨_, run_of_execute rfl, rfl, rfl, rfl⟩⟩

end CEventLoopThread

end Neconet
