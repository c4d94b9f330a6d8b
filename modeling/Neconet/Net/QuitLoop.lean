import Neconet.Net.EventLoopThread

/-!
# `CEventLoop::QuitLoop`

What becomes of a request to quit. `QuitLoop` sets `m_bQuit` and wakes the loop; `StartLoop` clears
`m_bQuit` before its loop. So a request is heard if the loop thread is inside `StartLoop`, behind
that line, and lost if `StartLoop` begins after it.

* `Heeds`: the loop will stop: the flag is set, and if the poll may block, its wakeup is there or on
  its way.
* `QuitHeard`: the loop stops at the next test of the flag, whatever happens until then.
* `CEventLoop.quitHeard_iff`: which requests are heard.
* `CEventLoopThread.quitHeard_iff`: the same for the request of `~CEventLoopThread`.
* `CEventLoopThread.quitHeard_run`: both, in every reachable state.
-/

namespace Neconet

set_option linter.unusedSectionVars false

open Transition

namespace CEventLoop

variable {F T : Type}

/-- The step sets `m_bQuit`. -/
def Action.IsQuit : Action F T → Prop
  | quitLoop => True
  | threadQuitLoop _ => True
  | _ => False

/-- The flag is set, and while the loop thread is about to call the poll or is blocked in it, the
`eventfd` is readable or a thread in `QuitLoop` is about to write to it. -/
def Heeds (s : CEventLoop F T) : Prop :=
  s.quit = true ∧ (s.pc = .atPoll → 0 < s.wakeupCounter ∨ ∃ t, s.threads t = .quitting)

variable [DecidableEq T]

/-- Until the loop thread tests the flag again, it stays set and the poll is not left blocked; then
`StartLoop` returns. -/
def QuitHeard (s : CEventLoop F T) : Prop :=
  ∀ bs s', Run Step s bs s' → Action.testQuit ∉ bs →
    s'.Heeds ∧ ∀ s'', Step s' .testQuit s'' → s''.pc = .outside

/-- At the test, `StartLoop` returns. -/
theorem Heeds.testQuit {s s' : CEventLoop F T} (h : s.Heeds) (hst : Step s .testQuit s') :
    s'.pc = .outside := by
  obtain ⟨-, rfl⟩ := hst
  simp [Action.next, h.1]

/-- `QuitLoop` sets the flag, and the `Wakeup` of another thread follows. -/
theorem heeds_of_quit {s s' : CEventLoop F T} {a : Action F T} (ha : a.IsQuit)
    (hst : Step s a s') : s'.Heeds ∧ s'.pc = s.pc := by
  obtain ⟨hen, rfl⟩ := hst
  cases a with
  | quitLoop =>
      refine ⟨⟨rfl, fun hpc => ?_⟩, rfl⟩
      have hpoll : s.pc = .atPoll := hpc
      simp [Action.Enabled, hpoll] at hen
  | threadQuitLoop t => exact ⟨⟨rfl, fun _ => Or.inr ⟨t, Function.update_self _ _ _⟩⟩, rfl⟩
  | _ => exact ha.elim

/-- A `Wakeup` makes the `eventfd` readable. -/
theorem Heeds.wakeup {s : CEventLoop F T} (h : s.Heeds) {written : Bool}
    (hwritten : written = false → 0 < s.wakeupCounter) (threads : T → ThreadPc) (toWake : Bool) :
    Heeds { s.writeWakeup written with threads := threads, toWake := toWake } :=
  ⟨h.1, fun _ => Or.inl (counter_pos_of_written hwritten)⟩

/-- A thread that enters a call leaves those in `QuitLoop` there. -/
theorem Heeds.enter {s : CEventLoop F T} (h : s.Heeds) {t : T} (hidle : s.threads t = .idle)
    (p : ThreadPc) (hpoll : s.pc = .atPoll) :
    0 < s.wakeupCounter ∨ ∃ u, Function.update s.threads t p u = .quitting := by
  rcases h.2 hpoll with hpos | ⟨u, hu⟩
  · exact Or.inl hpos
  · have hut : u ≠ t := by
      rintro rfl
      rw [hidle] at hu
      cases hu
    exact Or.inr ⟨u, (Function.update_of_ne hut _ _).trans hu⟩

/-- Inside `StartLoop`, every step but the test keeps the request, and the loop thread stays
there. -/
theorem Heeds.step {s s' : CEventLoop F T} {a : Action F T} (h : s.Heeds) (hpc : s.pc ≠ .outside)
    (hst : Step s a s') (ha : a ≠ .testQuit) : s'.Heeds ∧ s'.pc ≠ .outside := by
  obtain ⟨hen, rfl⟩ := hst
  cases a with
  | startLoop => exact absurd hen.1 hpc
  | testQuit => exact absurd rfl ha
  | poll | enterDoPendingFunctors | swap | callFunctor | returnFunctor | leaveDoPendingFunctors =>
      exact ⟨⟨h.1, by simp [Action.next]⟩, by simp [Action.next]⟩
  | handleRead => exact ⟨⟨h.1, fun hpoll => absurd (hen.1.symm.trans hpoll) (by simp)⟩, hpc⟩
  | queueInLoop cb => exact ⟨h, hpc⟩
  | wakeup written => exact ⟨h.wakeup hen.2 s.threads false, hpc⟩
  | quitLoop => exact ⟨⟨rfl, h.2⟩, hpc⟩
  | threadQueueInLoop t cb => exact ⟨⟨h.1, h.enter hen .pushed⟩, hpc⟩
  | threadQuitLoop t => exact ⟨⟨rfl, fun _ => Or.inr ⟨t, Function.update_self _ _ _⟩⟩, hpc⟩
  | threadWakeup t written =>
      exact ⟨h.wakeup hen.2 (Function.update s.threads t .idle) s.toWake, hpc⟩

/-- A run inside `StartLoop` keeps the request until the next test. -/
theorem Heeds.run {s s' : CEventLoop F T} {bs : List (Action F T)} (h : s.Heeds)
    (hpc : s.pc ≠ .outside) (hrun : Run Step s bs s') (hbs : Action.testQuit ∉ bs) : s'.Heeds := by
  have hkeep : ∀ (s : CEventLoop F T) a s', s.Heeds ∧ s.pc ≠ .outside → a ≠ .testQuit →
      Step s a s' → s'.Heeds ∧ s'.pc ≠ .outside := by
    intro s a s' hs ha hst
    exact hs.1.step hs.2 hst ha
  exact (hrun.invariant_avoiding hkeep hbs ⟨h, hpc⟩).1

/-- **Which requests are heard**: those made while the loop thread is inside `StartLoop`. -/
theorem quitHeard_iff {as : List (Action F T)} {s s' : CEventLoop F T} {a : Action F T}
    (hrun : Run Step new as s) (ha : a.IsQuit) (hst : Step s a s') :
    s'.QuitHeard ↔ s.pc ≠ .outside := by
  obtain ⟨hheeds, hpc⟩ := heeds_of_quit ha hst
  constructor
  · intro hheard houtside
    -- `StartLoop` begins and clears the flag
    have hctl : s'.ControlInv :=
      (hrun.invariant ControlInv.step controlInv_new).step _ _ _ hst
    have hlooping : s'.inLooping = false := by
      rw [← Bool.not_eq_true, hctl.inLooping_iff]
      simp [hpc, houtside]
    have hstart : Run Step s' [.startLoop] (Action.startLoop.next s') :=
      Run.single ⟨⟨hpc.trans houtside, hlooping⟩, rfl⟩
    have hquit := (hheard _ _ hstart (by simp)).1.1
    cases hquit
  · intro hinside bs s'' hrun' hbs
    have hheeds' := hheeds.run (hpc ▸ hinside) hrun' hbs
    exact ⟨hheeds', fun s''' => hheeds'.testQuit⟩

end CEventLoop

namespace CEventLoopThread

variable {F T : Type} [DecidableEq T]

/-! ## The request of the destructor -/

/-- Until the loop thread tests the flag again, it stays set and the poll is not left blocked; then
`StartLoop` returns. -/
def QuitHeard (s : CEventLoopThread F T) : Prop :=
  ∀ bs s', Run Step s bs s' → Action.loop .testQuit ∉ bs →
    s'.loop.quit = true ∧ (s'.threadPc = .looping →
      s'.loop.Heeds ∧ ∀ s'', Step s' (.loop .testQuit) s'' → s''.threadPc = .leaving)

/-- The destructor has called `QuitLoop`, and the loop thread is inside `StartLoop` and will stop,
or behind it. -/
def Stopping (s : CEventLoopThread F T) : Prop :=
  s.ownerPc.QuitCalled ∧ s.loop.Heeds ∧
    (s.threadPc = .looping ∧ s.loop.pc ≠ .outside ∨
      (s.threadPc = .leaving ∨ s.threadPc = .ended) ∧ s.loop.pc = .outside)

/-- Inside `StartLoop`, a step in or at the loop. -/
theorem Stopping.of_looping {s : CEventLoopThread F T} {a : CEventLoop.Action F (Option T)}
    (h : s.Stopping) (hthread : s.threadPc = .looping) (hpc : s.loop.pc ≠ .outside)
    (hmay : s.MayStep a) (hen : a.Enabled s.loop) (ha : a ≠ .testQuit) :
    (Action.next s (.loop a)).Stopping := by
  obtain ⟨hheeds, hpc'⟩ := h.2.1.step hpc ⟨hen, rfl⟩ ha
  refine ⟨h.1, hheeds, Or.inl ⟨?_, hpc'⟩⟩
  cases a with
  | startLoop => rfl
  | testQuit => exact absurd rfl ha
  | _ => exact hthread

/-- Behind `StartLoop`, only clients take steps at the loop. -/
theorem Stopping.of_leaving {s : CEventLoopThread F T} {a : CEventLoop.Action F (Option T)}
    (h : s.Stopping) (hthread : s.threadPc = .leaving ∨ s.threadPc = .ended)
    (hpc : s.loop.pc = .outside) (hmay : s.MayStep a) : (Action.next s (.loop a)).Stopping := by
  have hnot : s.threadPc ≠ .looping ∧ s.threadPc ≠ .entering := by
    rcases hthread with hthread | hthread <;> simp [hthread]
  cases a with
  | startLoop => exact absurd hmay hnot.2
  | threadQueueInLoop t cb => exact ⟨h.1, ⟨h.2.1.1, by simp [Action.next, CEventLoop.Action.next,
      CEventLoop.push, hpc]⟩, Or.inr ⟨hthread, hpc⟩⟩
  | threadQuitLoop t => exact ⟨h.1, ⟨rfl, by simp [Action.next, CEventLoop.Action.next, hpc]⟩,
      Or.inr ⟨hthread, hpc⟩⟩
  | threadWakeup t written => exact ⟨h.1, ⟨h.2.1.1, by simp [Action.next, CEventLoop.Action.next,
      CEventLoop.writeWakeup, hpc]⟩, Or.inr ⟨hthread, hpc⟩⟩
  | _ => exact absurd hmay hnot.1

/-- Until the next test of the flag, every step keeps it so. -/
theorem Stopping.step {s s' : CEventLoopThread F T} {a : Action F T} (h : s.Stopping)
    (hst : Step s a s') (ha : a ≠ .loop .testQuit) : s'.Stopping := by
  obtain ⟨⟨-, hen⟩, rfl⟩ := hst
  obtain ⟨hcalled, hheeds, hthread⟩ := h
  have hpast : s.threadPc = .looping ∨ s.threadPc = .leaving ∨ s.threadPc = .ended :=
    hthread.imp And.left And.left
  cases a with
  | loop a =>
      rcases hthread with ⟨hlooping, hpc⟩ | ⟨hleaving, hpc⟩
      · exact of_looping ⟨hcalled, hheeds, Or.inl ⟨hlooping, hpc⟩⟩ hlooping hpc hen.2.1 hen.2.2
          fun htest => ha (congrArg _ htest)
      · exact of_leaving ⟨hcalled, hheeds, Or.inr ⟨hleaving, hpc⟩⟩ hleaving hpc hen.2.1
  | endScope =>
      have hpc : s.loop.pc = .outside := by
        rcases hthread with ⟨hlooping, -⟩ | ⟨-, hpc⟩
        · rw [show s.threadPc = _ from hen] at hlooping
          cases hlooping
        · exact hpc
      rcases endScope_cases s with hnext | ⟨e, hnext⟩ <;> rw [hnext]
      · exact ⟨hcalled, hheeds, Or.inr ⟨Or.inr rfl, hpc⟩⟩
      · exact ⟨hcalled, hheeds, hthread⟩
  | wakeup written =>
      rcases wakeup_cases s written with hnext | ⟨e, hnext⟩ <;> rw [hnext]
      · exact ⟨by simp [OwnerPc.QuitCalled], hheeds.wakeup hen.2 _ s.loop.toWake, hthread⟩
      · exact ⟨hcalled, hheeds, hthread⟩
  | callJoin =>
      rcases callJoin_cases s with hnext | ⟨e, hnext⟩ <;> rw [hnext]
      · exact ⟨by simp [OwnerPc.QuitCalled], hheeds, hthread⟩
      · exact ⟨hcalled, hheeds, hthread⟩
  | join => exact ⟨by simp [OwnerPc.QuitCalled, Action.next], hheeds, hthread⟩
  | construct | threadLock | publish | notify | threadUnlock =>
      simp only [Action.Enabled] at hen
      simp [hen] at hpast
  | destroy =>
      rcases hen.1 with hpc | hpc <;> simp [OwnerPc.QuitCalled, hpc] at hcalled
  | _ =>
      simp only [Action.Enabled] at hen
      simp [OwnerPc.QuitCalled, hen] at hcalled

/-- A run keeps it so until the next test of the flag. -/
theorem Stopping.run {s s' : CEventLoopThread F T} {bs : List (Action F T)} (h : s.Stopping)
    (hrun : Run Step s bs s') (hbs : Action.loop .testQuit ∉ bs) : s'.Stopping := by
  refine hrun.invariant_avoiding (fun s a s' hs ha hst => ?_) hbs h
  exact hs.step hst ha

/-- Behind the publication, the loop thread comes to `StartLoop`. -/
theorem run_to_entering {s : CEventLoopThread F T} (hfault : s.fault = none)
    (hpc : s.threadPc = .notifying ∨ s.threadPc = .unlocking ∨ s.threadPc = .entering) :
    ∃ bs s', Run Step s bs s' ∧ Action.loop .testQuit ∉ bs ∧ s'.threadPc = .entering ∧
      s'.loop = s.loop ∧ s'.fault = none := by
  have hunlock : ∀ s : CEventLoopThread F T, s.fault = none → s.threadPc = .unlocking →
      Run Step s [.threadUnlock] (Action.threadUnlock.next s) :=
    fun s hfault hpc => Run.single ⟨⟨hfault, hpc⟩, rfl⟩
  rcases hpc with hpc | hpc | hpc
  · have hnotify : Step s .notify (Action.notify.next s) := ⟨⟨hfault, hpc⟩, rfl⟩
    exact ⟨[.notify, .threadUnlock], _, Run.cons hnotify (hunlock _ hfault rfl), by simp, rfl, rfl,
      hfault⟩
  · exact ⟨[.threadUnlock], _, hunlock s hfault hpc, by simp, rfl, rfl, hfault⟩
  · exact ⟨[], s, Run.nil s, by simp, hpc, rfl, hfault⟩

/-- Which requests of the destructor are heard: those made when the loop thread is inside
`StartLoop` or behind it. -/
theorem quitHeard_iff {s s' : CEventLoopThread F T} (h : s.LoopInv) (hst : Step s .quit s')
    (hfault : s'.fault = none) :
    s'.QuitHeard ↔ s.threadPc = .looping ∨ s.threadPc = .leaving := by
  have h' := h.step _ _ _ hst
  obtain ⟨⟨-, hen⟩, rfl⟩ := hst
  rcases quit_cases s with ⟨hset, hin, hnext⟩ | ⟨e, hnext⟩
  swap
  · rw [hnext] at hfault
    cases hfault
  rw [hnext] at hfault h' ⊢
  constructor
  · intro hheard
    by_contra hnot
    rw [not_or] at hnot
    have hpublished := h.published hset
    have hpc : s.threadPc = .notifying ∨ s.threadPc = .unlocking ∨ s.threadPc = .entering := by
      have hended := hin.2.2
      cases hthread : s.threadPc <;> simp_all
    obtain ⟨bs, t, hrun, hbs, hentering, hloop, hfault'⟩ := run_to_entering hfault hpc
    -- `StartLoop` begins and clears the flag
    have houtside : t.loop.pc = .outside := by
      rw [hloop]
      by_contra hpc
      exact hnot.1 (h.looping_iff.mpr hpc)
    have hlooping : t.loop.inLooping = false := by
      rw [hloop, ← Bool.not_eq_true, h'.controlInv.inLooping_iff]
      rw [hloop] at houtside
      simpa using houtside
    have hstart : Step t (.loop .startLoop) (Action.next t (.loop .startLoop)) :=
      ⟨⟨hfault', by simp [LoopThreadPc.InScope, hentering], hentering, houtside, hlooping⟩, rfl⟩
    have hquit := (hheard _ _ (hrun.append (Run.single hstart)) (by simp [hbs])).1
    cases hquit
  · intro hthread bs t hrun hbs
    have hstopping : Stopping { s with
        loop := (CEventLoop.Action.threadQuitLoop none).next s.loop, ownerPc := .waking } := by
      refine ⟨Or.inl rfl, ⟨rfl, fun _ => Or.inr ⟨none, ?_⟩⟩, ?_⟩
      · simp [CEventLoop.Action.next]
      · rcases hthread with hlooping | hleaving
        · exact Or.inl ⟨hlooping, h.looping_iff.mp hlooping⟩
        · right
          refine ⟨Or.inl hleaving, ?_⟩
          by_contra hpc
          rw [h.looping_iff.mpr hpc] at hleaving
          cases hleaving
    have hheeds := (hstopping.run hrun hbs).2.1
    refine ⟨hheeds.1, fun _ => ⟨hheeds, fun t' htest => ?_⟩⟩
    obtain ⟨-, rfl⟩ := htest
    simp [Action.next, hheeds.1]

/-- **Which requests to quit are heard.** In every reachable state:
* a call of `QuitLoop`, by the loop thread or by another one, is heard exactly if the loop thread is
  inside `StartLoop`: its flag stays set until the next test, at which `StartLoop` returns, and the
  poll is not left blocked until then;
* the call of `~CEventLoopThread` is heard exactly if the loop thread is inside `StartLoop` or
  behind it, so that `ThreadJoin` does not wait for a loop that goes on. -/
theorem quitHeard_run :
    (∀ (as : List (CEventLoop.Action F T)) (s s' : CEventLoop F T) (a : CEventLoop.Action F T),
      Run CEventLoop.Step CEventLoop.new as s → a.IsQuit → CEventLoop.Step s a s' →
      (s'.QuitHeard ↔ s.pc ≠ .outside)) ∧
    (∀ (as : List (Action F T)) (s s' : CEventLoopThread F T), Run Step new as s →
      Step s .quit s' → s'.fault = none →
      (s'.QuitHeard ↔ s.threadPc = .looping ∨ s.threadPc = .leaving)) := by
  refine ⟨fun as s s' a hrun ha hst => ?_, fun as s s' hrun hst hfault => ?_⟩
  · exact CEventLoop.quitHeard_iff hrun ha hst
  · exact quitHeard_iff (hrun.invariant LoopInv.step loopInv_new) hst hfault

/-- The theorem on a request of another thread while the loop thread is in front of the poll, and on
the destructor while the loop thread is there. -/
theorem quitHeard_run_atPoll :
    (∃ s s' : CEventLoop ℕ Unit, Run CEventLoop.Step CEventLoop.new [.startLoop, .testQuit] s ∧
      CEventLoop.Step s (.threadQuitLoop ()) s' ∧ s'.QuitHeard) ∧
    (∃ s s' : CEventLoopThread ℕ Unit, Run Step new [.callStartLoop, .create true, .construct,
        .threadLock, .publish, .notify, .threadUnlock, .lock, .test, .unlock, .loop .startLoop,
        .loop .testQuit, .destroy] s ∧
      Step s .quit s' ∧ s'.QuitHeard) := by
  constructor
  · have hrun : ∃ s : CEventLoop ℕ Unit, Run CEventLoop.Step CEventLoop.new
        [.startLoop, .testQuit] s ∧ s.pc = .atPoll ∧ s.threads () = .idle :=
      ⟨_, run_of_execute rfl, rfl, rfl⟩
    obtain ⟨s, hrun, hpc, hidle⟩ := hrun
    have hst : CEventLoop.Step s (.threadQuitLoop ()) _ := ⟨hidle, rfl⟩
    exact ⟨s, _, hrun, hst, (quitHeard_run.1 _ s _ (.threadQuitLoop ()) hrun trivial hst).mpr
      (by simp [hpc])⟩
  · have hrun : ∃ s s' : CEventLoopThread ℕ Unit, Run Step new [.callStartLoop, .create true,
        .construct, .threadLock, .publish, .notify, .threadUnlock, .lock, .test, .unlock,
        .loop .startLoop, .loop .testQuit, .destroy] s ∧ Step s .quit s' ∧ s'.fault = none ∧
        s.threadPc = .looping :=
      ⟨_, _, run_of_execute rfl, ⟨by decide, rfl⟩, rfl, rfl⟩
    obtain ⟨s, s', hrun, hst, hfault, hpc⟩ := hrun
    exact ⟨s, s', hrun, hst, (quitHeard_run.2 _ s s' hrun hst hfault).mpr (Or.inl hpc)⟩

/-- The destructor calls `QuitLoop` right after `StartLoop` has returned, before the loop thread has
entered `CEventLoop::StartLoop`: the request is lost, and the destructor waits in `pthread_join` for
a loop that polls on, without a wakeup. -/
theorem not_quitHeard_before_loop : ∃ s : CEventLoopThread ℕ Unit,
    Run Step new [.callStartLoop, .create true, .construct, .threadLock, .publish, .notify,
      .threadUnlock, .lock, .test, .unlock, .destroy, .quit, .wakeup true, .callJoin,
      .loop .startLoop, .loop .testQuit, .loop (.poll true), .loop .handleRead,
      .loop .enterDoPendingFunctors, .loop .swap, .loop .leaveDoPendingFunctors,
      .loop .testQuit] s ∧
    s.fault = none ∧ s.ownerPc = .joined ∧ s.threadPc = .looping ∧ s.loop.pc = .atPoll ∧
    s.loop.quit = false ∧ s.loop.wakeupCounter = 0 :=
  ⟨_, run_of_execute rfl, rfl, rfl, rfl, rfl, rfl, rfl⟩

end CEventLoopThread

end Neconet
