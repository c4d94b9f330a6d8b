import Neconet.Net.EventLoop
import Neconet.Net.TimerArming

/-!
# The loop with its timers

`CEventLoop` together with its `m_unpTimerQueue`: the loop thread calls `__HandleRead` of the timers
for an active timerfd, and `AddTimer` from user code on the spot; the other threads hand their
timers to the loop thread as functors of the loop, bound to `__AddTimerInLoop`. What
`Neconet/Net/TimerQueue` keeps as the list `queued` is here what stands in the queue of the loop.

* `TimedLoop`, `Action`, `Step`: the states, the steps, and the step relation.
* `LinkInv`: the functors of the loop that are bound to timers are those that the timers know of.
* `runs_of_run`: the loop and the timers each take their own steps, so that what holds of the runs
  of either holds here.
* `noTimerForgotten_run`: in front of the poll, every timer is in the set with the timerfd set, or
  pending with a wakeup on its way.
* `timersInserted_run`: the timers of other threads are inserted once and in lock order.

The loop is not destroyed in these runs.
-/

namespace Neconet

set_option linter.unusedSectionVars false

open Transition

/-! ## States and steps -/

/-- A functor in `m_vPendingFunctors`. -/
inductive LoopFunctor (F : Type)
  /-- `CTimerQueue::__AddTimerInLoop`, bound to the timer at `p`. -/
  | addTimerInLoop (p : ℕ)
  /-- A functor of the user. -/
  | user (cb : F)
  deriving DecidableEq, Repr

namespace LoopFunctor

variable {F : Type}

/-- The timer to which the functor is bound. -/
def timer? : LoopFunctor F → Option ℕ
  | addTimerInLoop p => some p
  | user _ => none

/-- The functor is the user's. -/
def IsUser (f : LoopFunctor F) : Prop := f.timer? = none

instance (f : LoopFunctor F) : Decidable f.IsUser :=
  inferInstanceAs (Decidable (f.timer? = none))

end LoopFunctor

/-- The loop with its timers.
Source: `net/CEventLoop.h` -/
structure TimedLoop (F T : Type) where
  /-- The loop itself. -/
  loop : CEventLoop (LoopFunctor F) T
  /-- `m_unpTimerQueue`. -/
  timerQueue : CTimerQueue
  /-- The channel of the timerfd is among `m_vActiveChannels` and has not been handled. -/
  timerActive : Bool

/-- The step is one of `__HandleRead` behind `__GetExpired`. -/
def CTimerQueue.Action.InPass : CTimerQueue.Action → Prop
  | .run | .returnCallback | .beginReset | .reset | .endReset _ => True
  | _ => False

namespace TimedLoop

variable {F T : Type}

/-- Source: `net/CEventLoop.cpp`, `CEventLoop::CEventLoop` -/
def new : TimedLoop F T := ⟨.new, .new, false⟩

/-- The loop thread is in code of the user: outside `StartLoop`, in a handler, in the callback of a
timer, or in a functor. -/
def InUserCode (s : TimedLoop F T) : Prop :=
  s.timerQueue.pass.AllowsAdd ∧
    (s.loop.pc = .outside ∨ s.loop.pc = .handling ∨
      s.loop.pc = .inFunctor ∧ ∃ cb, s.loop.ran.getLast? = some (.user cb))

/-- The steps. -/
inductive Action (F T : Type)
  /-- A step of the loop in which the timers have no part. -/
  | loop (a : CEventLoop.Action (LoopFunctor F) T)
  /-- `Poll` returns, with the wakeup channel and the channel of the timerfd among the active ones
  or not. -/
  | poll (readable fired : Bool)
  /-- The handler of the timerfd, which is `CTimerQueue::__HandleRead`, up to its loop. -/
  | handleTimer (iNow : ℤ)
  /-- The rest of `CTimerQueue::__HandleRead`. -/
  | inPass (a : CTimerQueue.Action)
  /-- `AddTimer` in the loop thread. -/
  | addTimer (iWhen delta : ℤ) (repeats : Bool) (p : ℕ) (now : ℤ)
  /-- `AddTimer` in another thread, up to the write of `Wakeup`. -/
  | threadAddTimer (t : T) (iWhen delta : ℤ) (repeats : Bool) (p : ℕ)
  /-- The next functor of the batch is called, and is bound to a timer. -/
  | callAddTimer (now : ℤ)
  deriving DecidableEq, Repr

/-- The step of the loop is one in which the timers have no part, and comes when the loop thread is
not inside `CTimerQueue`. -/
def OnLoop (s : TimedLoop F T) : CEventLoop.Action (LoopFunctor F) T → Prop
  | .poll _ => False
  | .handleRead => s.timerQueue.pass = .idle
  | .enterDoPendingFunctors => s.timerQueue.pass = .idle ∧ s.timerActive = false
  | .callFunctor => ∃ cb rest, s.loop.functors = .user cb :: rest
  | .queueInLoop cb => s.InUserCode ∧ cb.IsUser
  | .quitLoop => s.InUserCode
  | .threadQueueInLoop _ cb => cb.IsUser
  | _ => True

variable [DecidableEq T]

/-- One step, as a relation between states. The timerfd is readable only if it was set since it was
last read.
Source: `net/CEventLoop.cpp`, `CEventLoop::StartLoop`, `CEventLoop::RunInLoop`;
`net/CTimerQueue.cpp`, `CTimerQueue::AddTimer` -/
inductive Step (s : TimedLoop F T) : Action F T → TimedLoop F T → Prop
  | loop {a : CEventLoop.Action (LoopFunctor F) T} {loop : CEventLoop (LoopFunctor F) T}
      (ha : s.OnLoop a) (hloop : CEventLoop.Step s.loop a loop) :
      Step s (.loop a) { s with loop := loop }
  | poll (readable fired : Bool) {loop : CEventLoop (LoopFunctor F) T}
      (hfired : fired = true → s.timerQueue.setting ≠ none)
      (hloop : CEventLoop.Step s.loop (.poll readable) loop) :
      Step s (.poll readable fired) { s with loop := loop, timerActive := fired }
  | handleTimer (iNow : ℤ) {timerQueue : CTimerQueue} (hpc : s.loop.pc = .handling)
      (hactive : s.timerActive = true)
      (htimers : CTimerQueue.Step s.timerQueue (.handleRead iNow) timerQueue) :
      Step s (.handleTimer iNow) { s with timerQueue := timerQueue, timerActive := false }
  | inPass {a : CTimerQueue.Action} {timerQueue : CTimerQueue} (ha : a.InPass)
      (htimers : CTimerQueue.Step s.timerQueue a timerQueue) :
      Step s (.inPass a) { s with timerQueue := timerQueue }
  | addTimer (iWhen delta : ℤ) (repeats : Bool) (p : ℕ) (now : ℤ) {timerQueue : CTimerQueue}
      (huser : s.InUserCode)
      (htimers : CTimerQueue.Step s.timerQueue (.addTimer iWhen delta repeats p now) timerQueue) :
      Step s (.addTimer iWhen delta repeats p now) { s with timerQueue := timerQueue }
  | threadAddTimer (t : T) (iWhen delta : ℤ) (repeats : Bool) (p : ℕ) {timerQueue : CTimerQueue}
      {loop : CEventLoop (LoopFunctor F) T}
      (hloop : CEventLoop.Step s.loop (.threadQueueInLoop t (.addTimerInLoop p)) loop)
      (htimers : CTimerQueue.Step s.timerQueue (.queueTimer iWhen delta repeats p) timerQueue) :
      Step s (.threadAddTimer t iWhen delta repeats p)
        { s with loop := loop, timerQueue := timerQueue }
  -- the functor calls `__AddTimerInLoop` of the timer it is bound to, whatever `queued` says
  | callAddTimer (now : ℤ) {p : ℕ} {rest : List (LoopFunctor F)}
      {loop : CEventLoop (LoopFunctor F) T} (hfault : s.timerQueue.fault = none)
      (hfunctors : s.loop.functors = .addTimerInLoop p :: rest)
      (hloop : CEventLoop.Step s.loop .callFunctor loop) :
      Step s (.callAddTimer now) { s with
        loop := loop
        timerQueue := s.timerQueue.settle (CTimerQueue.addTimerInLoop
          { s.timerQueue with queued := s.timerQueue.queued.tail } p now) }

/-- The steps of the loop. -/
def Action.onLoop : Action F T → List (CEventLoop.Action (LoopFunctor F) T)
  | loop a => [a]
  | poll readable _ => [.poll readable]
  | threadAddTimer t _ _ _ p => [.threadQueueInLoop t (.addTimerInLoop p)]
  | callAddTimer _ => [.callFunctor]
  | _ => []

/-- The steps of the timers. -/
def Action.onTimers : Action F T → List CTimerQueue.Action
  | handleTimer iNow => [.handleRead iNow]
  | inPass a => [a]
  | addTimer iWhen delta repeats p now => [.addTimer iWhen delta repeats p now]
  | threadAddTimer _ iWhen delta repeats p => [.queueTimer iWhen delta repeats p]
  | callAddTimer now => [.callFunctor now]
  | _ => []

/-! ## The loop and the timers -/

/-- The functors of the loop that are bound to timers are those that the timers know of, and the
loop thread is inside `__HandleRead` of the timers only among the handlers. -/
structure LinkInv (s : TimedLoop F T) : Prop where
  /-- The flags of the loop agree with the position of its thread. -/
  control : s.loop.ControlInv
  /-- Every timer is in one place. -/
  own : s.timerQueue.OwnInv
  /-- The timers bound in functors, in order. -/
  queued_eq : s.loop.queue.filterMap LoopFunctor.timer? = s.timerQueue.queued
  /-- A pass is made by a handler. -/
  pc_of_pass : s.timerQueue.pass ≠ .idle → s.loop.pc = .handling

/-- There is nothing at first. -/
theorem linkInv_new : LinkInv (new : TimedLoop F T) where
  control := CEventLoop.controlInv_new
  own := CTimerQueue.ownInv_new
  queued_eq := rfl
  pc_of_pass h := absurd rfl h

/-- What is pushed by a step in which the timers have no part is the user's. -/
theorem isUser_of_pushed {s : TimedLoop F T} {a : CEventLoop.Action (LoopFunctor F) T}
    (ha : s.OnLoop a) : a.pushed.toList.filterMap LoopFunctor.timer? = [] := by
  cases a with
  | queueInLoop cb =>
      have hcb : cb.timer? = none := ha.2
      simp [CEventLoop.Action.pushed, hcb]
  | threadQueueInLoop t cb =>
      have hcb : cb.timer? = none := ha
      simp [CEventLoop.Action.pushed, hcb]
  | _ => rfl

/-- The timers bound in functors after a step of the loop in which the timers have no part. -/
theorem LinkInv.queue_loop {s : TimedLoop F T} (h : s.LinkInv)
    {a : CEventLoop.Action (LoopFunctor F) T} {loop : CEventLoop (LoopFunctor F) T}
    (ha : s.OnLoop a) (hloop : CEventLoop.Step s.loop a loop) :
    loop.queue.filterMap LoopFunctor.timer? = s.loop.queue.filterMap LoopFunctor.timer? := by
  cases hcall : a.isCall with
  | true =>
      cases a with
      | callFunctor =>
          obtain ⟨cb, rest, hfunctors⟩ := ha
          obtain ⟨-, rfl⟩ := hloop
          rw [(CEventLoop.queue_callFunctor hfunctors).2]
          rfl
      | _ => cases hcall
  | false =>
      rw [(h.control.queue_step hloop hcall).2, List.filterMap_append, isUser_of_pushed ha,
        List.append_nil]

/-- A step inside a pass leaves the functors alone, and finds the loop thread in a pass. -/
theorem inPass_of_step {q q' : CTimerQueue} {a : CTimerQueue.Action} (h : q.OwnInv) (ha : a.InPass)
    (hst : CTimerQueue.Step q a q') : q'.queued = q.queued ∧ q.pass ≠ .idle := by
  cases h.effect hst with
  | run hpass | returnCallback hpass | beginReset hpass | restart hpass | free hpass
  | endReset now hpass => exact ⟨rfl, by simp [hpass]⟩
  | addTimer | queueTimer | callFunctor | handleRead | destroy => exact absurd ha id

/-- Outside the handlers there is no pass. -/
theorem LinkInv.pass_eq {s : TimedLoop F T} (h : s.LinkInv) (hpc : s.loop.pc ≠ .handling) :
    s.timerQueue.pass = .idle := by
  by_contra hpass
  exact hpc (h.pc_of_pass hpass)

/-- A step of the loop in which the timers have no part does not leave the handlers during a
pass. -/
theorem LinkInv.pc_loop {s : TimedLoop F T} (h : s.LinkInv)
    {a : CEventLoop.Action (LoopFunctor F) T} {loop : CEventLoop (LoopFunctor F) T}
    (ha : s.OnLoop a) (hloop : CEventLoop.Step s.loop a loop) (hpass : s.timerQueue.pass ≠ .idle) :
    loop.pc = .handling := by
  obtain ⟨hen, rfl⟩ := hloop
  apply CEventLoop.pc_of_handling hen (h.pc_of_pass hpass)
  rintro rfl
  exact hpass ha.1

/-- The functor of another thread's timer is pushed. -/
theorem LinkInv.threadAddTimer {s : TimedLoop F T} (h : s.LinkInv) {t : T} {p : ℕ}
    {loop : CEventLoop (LoopFunctor F) T}
    (hloop : CEventLoop.Step s.loop (.threadQueueInLoop t (.addTimerInLoop p)) loop) :
    loop.queue.filterMap LoopFunctor.timer? = s.timerQueue.queued ++ [p] := by
  rw [(h.control.queue_step hloop rfl).2, List.filterMap_append, h.queued_eq]
  rfl

/-- A functor that is bound to a timer is called: it is the first one that the timers know of. -/
theorem LinkInv.callAddTimer {s : TimedLoop F T} (h : s.LinkInv) {p : ℕ}
    {rest : List (LoopFunctor F)} {loop : CEventLoop (LoopFunctor F) T}
    (hfunctors : s.loop.functors = .addTimerInLoop p :: rest)
    (hloop : CEventLoop.Step s.loop .callFunctor loop) :
    s.timerQueue.queued = p :: loop.queue.filterMap LoopFunctor.timer? := by
  obtain ⟨-, rfl⟩ := hloop
  rw [← h.queued_eq, (CEventLoop.queue_callFunctor hfunctors).2]
  rfl

/-- **One step**: the functors and the timers stay in agreement, and the loop and the timers each
take steps of their own. -/
theorem LinkInv.step (s : TimedLoop F T) (a : Action F T) (s' : TimedLoop F T) (h : s.LinkInv)
    (hst : Step s a s') : s'.LinkInv ∧ Run CEventLoop.Step s.loop a.onLoop s'.loop ∧
      Run CTimerQueue.Step s.timerQueue a.onTimers s'.timerQueue := by
  cases hst with
  | loop ha hloop =>
      refine ⟨⟨h.control.step _ _ _ hloop, h.own, ?_, h.pc_loop ha hloop⟩, Run.single hloop,
        Run.nil _⟩
      rw [h.queue_loop ha hloop]
      exact h.queued_eq
  | poll readable fired hfired hloop =>
      refine ⟨⟨h.control.step _ _ _ hloop, h.own, ?_, ?_⟩, Run.single hloop, Run.nil _⟩
      · rw [(h.control.queue_step hloop rfl).2, ← h.queued_eq]
        simp [CEventLoop.Action.pushed]
      · obtain ⟨-, rfl⟩ := hloop
        exact fun _ => rfl
  | handleTimer iNow hpc hactive htimers =>
      refine ⟨⟨h.control, h.own.step _ _ _ htimers, ?_, fun _ => hpc⟩, Run.nil _,
        Run.single htimers⟩
      cases h.own.effect htimers with
      | handleRead iNow hpass => exact h.queued_eq
  | inPass ha htimers =>
      obtain ⟨hqueued, hpass⟩ := inPass_of_step h.own ha htimers
      exact ⟨⟨h.control, h.own.step _ _ _ htimers, h.queued_eq.trans hqueued.symm,
        fun _ => h.pc_of_pass hpass⟩, Run.nil _, Run.single htimers⟩
  | addTimer iWhen delta repeats p now huser htimers =>
      have hsame := h.own.effect htimers
      refine ⟨⟨h.control, h.own.step _ _ _ htimers, ?_, ?_⟩, Run.nil _, Run.single htimers⟩
      · cases hsame with
        | addTimer => exact h.queued_eq
      · cases hsame with
        | addTimer => exact h.pc_of_pass
  | threadAddTimer t iWhen delta repeats p hloop htimers =>
      have hsame := h.own.effect htimers
      refine ⟨⟨h.control.step _ _ _ hloop, h.own.step _ _ _ htimers, ?_, ?_⟩, Run.single hloop,
        Run.single htimers⟩
      · cases hsame with
        | queueTimer => exact h.threadAddTimer hloop
      · cases hsame with
        | queueTimer =>
            obtain ⟨-, rfl⟩ := hloop
            exact h.pc_of_pass
  | callAddTimer now hfault hfunctors hloop =>
      have hqueued := h.callAddTimer hfunctors hloop
      have hpass : s.timerQueue.pass = .idle := h.pass_eq (by simp [hloop.1.1])
      have htimers := CTimerQueue.Step.callFunctor now hfault hpass hqueued
      rw [hqueued, List.tail_cons]
      have hsame := h.own.effect htimers
      refine ⟨⟨h.control.step _ _ _ hloop, h.own.step _ _ _ htimers, ?_, ?_⟩, Run.single hloop,
        Run.single htimers⟩
      · generalize s.timerQueue.settle _ = q at hsame ⊢
        cases hsame with
        | callFunctor now hpass' hqueued' ht hnew =>
            rw [hqueued, List.cons.injEq] at hqueued'
            exact hqueued'.2
      · generalize s.timerQueue.settle _ = q at hsame ⊢
        cases hsame with
        | callFunctor now hpass' hqueued' ht hnew => exact fun hne => absurd hpass hne

/-! ## The timers of other threads -/

/-- The timer to which the functor that the step pushes is bound. -/
def Action.pushedTimer? : Action F T → Option ℕ
  | threadAddTimer _ _ _ _ p => some p
  | _ => none

/-- The step calls a functor that is bound to a timer. -/
def Action.isAddTimerCall : Action F T → Bool
  | callAddTimer _ => true
  | _ => false

/-- The timers to which functors are bound, in the order in which these have been and will be
called. -/
def timerLine (s : TimedLoop F T) : List ℕ := s.loop.line.filterMap LoopFunctor.timer?

/-- The timers to which the functors that have been called are bound. -/
def ranTimers (s : TimedLoop F T) : List ℕ := s.loop.ran.filterMap LoopFunctor.timer?

/-- The functors called and those not called yet are all of them. -/
theorem timerLine_eq (s : TimedLoop F T) :
    s.timerLine = s.ranTimers ++ s.loop.queue.filterMap LoopFunctor.timer? := by
  rw [timerLine, ranTimers, ← List.filterMap_append, CEventLoop.line, CEventLoop.queue,
    List.append_assoc]

/-- A step adds the timer of another thread to the end of the line, and changes nothing else in
it. -/
theorem LinkInv.timerLine_step {s s' : TimedLoop F T} {a : Action F T} (h : s.LinkInv)
    (hst : Step s a s') : s'.timerLine = s.timerLine ++ a.pushedTimer?.toList := by
  cases hst with
  | loop ha hloop =>
      rw [timerLine, h.control.line_step hloop, List.filterMap_append, isUser_of_pushed ha]
      rfl
  | poll readable fired hfired hloop =>
      rw [timerLine, h.control.line_step hloop, List.filterMap_append]
      rfl
  | handleTimer | inPass | addTimer => exact (List.append_nil _).symm
  | threadAddTimer t iWhen delta repeats p hloop htimers =>
      rw [timerLine, h.control.line_step hloop, List.filterMap_append]
      rfl
  | callAddTimer now hfault hfunctors hloop =>
      rw [timerLine, h.control.line_step hloop, List.filterMap_append]
      rfl

/-- A call of a functor that is bound to a timer adds it to those that have been called. -/
theorem LinkInv.ranTimers_step {s s' : TimedLoop F T} {a : Action F T} (h : s.LinkInv)
    (hst : Step s a s') :
    s'.ranTimers.length = s.ranTimers.length + if a.isAddTimerCall then 1 else 0 := by
  cases hst with
  | @loop a loop ha hloop =>
      cases hcall : a.isCall with
      | false =>
          rw [ranTimers, (h.control.queue_step hloop hcall).1]
          rfl
      | true =>
          cases a with
          | callFunctor =>
              obtain ⟨cb, rest, hfunctors⟩ := ha
              obtain ⟨-, rfl⟩ := hloop
              rw [ranTimers, (CEventLoop.queue_callFunctor hfunctors).1, List.filterMap_append,
                List.length_append]
              rfl
          | _ => cases hcall
  | poll readable fired hfired hloop =>
      rw [ranTimers, (h.control.queue_step hloop rfl).1]
      rfl
  | handleTimer | inPass | addTimer => rfl
  | threadAddTimer t iWhen delta repeats p hloop htimers =>
      rw [ranTimers, (h.control.queue_step hloop rfl).1]
      rfl
  | callAddTimer now hfault hfunctors hloop =>
      obtain ⟨-, rfl⟩ := hloop
      rw [ranTimers, (CEventLoop.queue_callFunctor hfunctors).1, List.filterMap_append,
        List.length_append]
      rfl

/-- The line after a run, and how many functors that are bound to timers have been called. -/
theorem LinkInv.timerLine_run {s s' : TimedLoop F T} {as : List (Action F T)} (h : s.LinkInv)
    (hrun : Run Step s as s') :
    s'.timerLine = s.timerLine ++ as.filterMap Action.pushedTimer? ∧
      s'.ranTimers.length = s.ranTimers.length + as.countP Action.isAddTimerCall := by
  induction hrun with
  | nil s => simp
  | @cons s t u a as head tail ih =>
      obtain ⟨hline, hran⟩ := ih (h.step s a t head).1
      refine ⟨?_, ?_⟩
      · rw [hline, h.timerLine_step head, List.append_assoc]
        cases hpushed : a.pushedTimer? <;> simp [hpushed]
      · rw [hran, h.ranTimers_step head, List.countP_cons]
        omega

/-! ## Runs -/

section run

variable {as : List (Action F T)} {s : TimedLoop F T}

/-- **The loop and the timers take steps of their own**: every run is one of the loop and one of the
timers, and at its end the functors and the timers are in agreement. -/
theorem runs_of_run (hrun : Run Step new as s) : s.LinkInv ∧
    Run CEventLoop.Step .new (as.flatMap Action.onLoop) s.loop ∧
    Run CTimerQueue.Step .new (as.flatMap Action.onTimers) s.timerQueue := by
  have hloop : ∀ (s : TimedLoop F T) a s', s.LinkInv → Step s a s' →
      s'.LinkInv ∧ Run CEventLoop.Step s.loop a.onLoop s'.loop :=
    fun s a s' h hst => ⟨(h.step s a s' hst).1, (h.step s a s' hst).2.1⟩
  have htimers : ∀ (s : TimedLoop F T) a s', s.LinkInv → Step s a s' →
      s'.LinkInv ∧ Run CTimerQueue.Step s.timerQueue a.onTimers s'.timerQueue :=
    fun s a s' h hst => ⟨(h.step s a s' hst).1, (h.step s a s' hst).2.2⟩
  obtain ⟨hlink, hrunLoop⟩ := hrun.project (f := TimedLoop.loop) hloop linkInv_new
  exact ⟨hlink, hrunLoop, (hrun.project (f := TimedLoop.timerQueue) htimers linkInv_new).2⟩

/-- **No timer is forgotten.** Whatever the loop thread, the callbacks and the other threads do and
whenever they do it, as long as no repeating timer has a negative interval and the clock is
positive: when the loop thread is about to call the poll or is blocked in it, every timer that is
there
* either is bound in a pending functor, in no entry of the set, and the `eventfd` is readable or
  will be written to by the thread that has pushed it;
* or is bound in no pending functor and has its entry in the set, and the timerfd has been set since
  it was last read, for an expiration that is not later, and at most for the time left until then or
  for 100 microseconds. -/
theorem noTimerForgotten_run (hrun : Run Step new as s)
    (hok : ∀ b ∈ as.flatMap Action.onTimers, b.ClockOk) (hpc : s.loop.pc = .atPoll) {p : ℕ}
    {t : CTimer} (ht : s.timerQueue.heap p = some t) :
    (.addTimerInLoop p ∈ s.loop.pendingFunctors ∧
      (∀ e ∈ s.timerQueue.timers, e.second ≠ p) ∧
      (0 < s.loop.wakeupCounter ∨ s.loop.WakeupDue)) ∨
    (.addTimerInLoop p ∉ s.loop.pendingFunctors ∧
      ⟨t.expiration, p⟩ ∈ s.timerQueue.timers ∧
      ∃ setting, s.timerQueue.setting = some setting ∧ setting.expiration ≤ t.expiration ∧
        setting.value.nanoseconds = 1000 * max 100 (setting.expiration - setting.now)) := by
  obtain ⟨hlink, hrunLoop, hrunTimers⟩ := runs_of_run hrun
  obtain ⟨hown, harm⟩ := CTimerQueue.armInv_run hrunTimers hok
  have hpass : s.timerQueue.pass = .idle := hlink.pass_eq (by simp [hpc])
  have hbatch : s.loop.functors = [] :=
    hlink.control.functors_eq_nil (by simp [hpc]) (by simp [hpc])
  have hpending : .addTimerInLoop p ∈ s.loop.pendingFunctors ↔ p ∈ s.timerQueue.queued := by
    rw [← hlink.queued_eq, CEventLoop.queue, hbatch, List.nil_append, List.mem_filterMap]
    constructor
    · exact fun hmem => ⟨_, hmem, rfl⟩
    · rintro ⟨cb, hmem, htimer⟩
      cases cb with
      | addTimerInLoop q =>
          cases htimer
          exact hmem
      | user cb => cases htimer
  have howned : p ∈ s.timerQueue.owners := (hown.owns.mem_iff p).mpr (by simp [ht])
  by_cases hqueued : p ∈ s.timerQueue.queued
  · left
    refine ⟨hpending.mpr hqueued, ?_, ?_⟩
    · rintro ⟨first, second⟩ he rfl
      exact hown.not_mem_of_queued hqueued first he
    · apply CEventLoop.noLostWakeup_run hrunLoop hpc
      exact List.ne_nil_of_mem (hpending.mpr hqueued)
  · right
    -- with no pass and no functor, only the set is left as the place of the timer
    have hentry : ∃ e ∈ s.timerQueue.timers, e.second = p := by
      simpa [CTimerQueue.owners, OrderedSet.mem_iff, hpass, hqueued, Pass.hasRun, Pass.toRun] using howned
    obtain ⟨e, he, rfl⟩ := hentry
    obtain ⟨t', ht', hfirst⟩ := hown.key e he
    rw [ht, Option.some.injEq] at ht'
    subst ht'
    have hmem : (⟨t.expiration, e.second⟩ : Entry) ∈ s.timerQueue.timers := by
      rw [hfirst]
      exact he
    refine ⟨fun hmem' => hqueued (hpending.mp hmem'), hmem, ?_⟩
    have hne : s.timerQueue.timers.begin? ≠ none := by
      rw [ne_eq, OrderedSet.begin?_eq_none]
      exact List.ne_nil_of_mem he
    obtain ⟨first, hbegin⟩ := Option.ne_none_iff_exists'.mp hne
    obtain ⟨now, hset⟩ := harm.armed first hbegin (Or.inl hpass)
    refine ⟨_, hset, ?_, howMuchTimeFromNow_nanoseconds first.first now⟩
    exact Entry.first_le_of_le ((OrderedSet.begin?_eq_some.mp hbegin).2 _ hmem)

/-- **Timers of other threads are inserted once and in order.** In every run, for the timers of
other threads in lock order: those bound in functors that have been called, then those bound in
functors that wait in the loop, are all of them, and `__AddTimerInLoop` has been called once for
each of the former; the assertions of `__InsertTimer` and `__GetExpired` have held and no timer was
called that was gone; and every timer that is there is in one place: a waiting functor, the set, or
the part of the pass that `__ResetTimers` has not processed. -/
theorem timersInserted_run (hrun : Run Step new as s) :
    as.filterMap Action.pushedTimer? =
      s.ranTimers ++ s.loop.queue.filterMap LoopFunctor.timer? ∧
    as.countP Action.isAddTimerCall = s.ranTimers.length ∧
    s.timerQueue.fault = none ∧
    Owns s.timerQueue.heap (s.loop.queue.filterMap LoopFunctor.timer? ++
      (s.timerQueue.timers.toList ++
        (s.timerQueue.pass.hasRun ++ s.timerQueue.pass.toRun)).map Entry.second) := by
  obtain ⟨hlink, -, -⟩ := runs_of_run hrun
  obtain ⟨hline, hran⟩ := linkInv_new.timerLine_run hrun
  have hnone : (new : TimedLoop F T).ranTimers.length = 0 := rfl
  refine ⟨?_, ?_, hlink.own.fault_eq, ?_⟩
  · rw [← timerLine_eq, hline]
    rfl
  · rw [hran, hnone, Nat.zero_add]
  · rw [hlink.queued_eq]
    exact hlink.own.owns

end run

/-- The loop thread adds a timer in front of the loop, and another thread one while the loop thread
is about to call the poll. -/
def addedByTwo : List (Action ℕ Unit) :=
  [.addTimer 40 5 true 1 2, .loop .startLoop, .loop .testQuit, .threadAddTimer () 50 0 false 2]

/-- The run, step by step. -/
theorem run_addedByTwo : ∃ s : TimedLoop ℕ Unit, Run Step new addedByTwo s ∧ s.loop.pc = .atPoll ∧
    s.timerQueue.heap 1 = some ⟨40, 5, true, 0⟩ ∧ s.timerQueue.heap 2 = some ⟨50, 0, false, 1⟩ ∧
    s.loop.pendingFunctors = [.addTimerInLoop 2] :=
  ⟨_, Run.cons (.addTimer 40 5 true 1 2 ⟨trivial, Or.inl rfl⟩
      (.addTimer 40 5 true 1 2 rfl trivial rfl (by decide))) <|
    Run.cons (.loop trivial ⟨⟨rfl, rfl⟩, rfl⟩) <|
    Run.cons (.loop trivial ⟨rfl, rfl⟩) <|
    Run.cons (.threadAddTimer () 50 0 false 2 ⟨rfl, rfl⟩
      (.queueTimer 50 0 false 2 rfl (by decide) rfl (by decide))) <| Run.nil _,
    rfl, rfl, rfl, rfl⟩

/-- The two theorems on this run. -/
theorem noTimerForgotten_run_addedByTwo : ∃ s : TimedLoop ℕ Unit, Run Step new addedByTwo s ∧
    (.addTimerInLoop 2 ∈ s.loop.pendingFunctors ∧ (0 < s.loop.wakeupCounter ∨ s.loop.WakeupDue)) ∧
    ∃ setting, s.timerQueue.setting = some setting ∧ setting.expiration ≤ 40 := by
  obtain ⟨s, hrun, hpc, hfirst, hsecond, hpending⟩ := run_addedByTwo
  have hok : ∀ b ∈ addedByTwo.flatMap Action.onTimers, b.ClockOk := by decide
  refine ⟨s, hrun, ?_, ?_⟩
  · rcases noTimerForgotten_run hrun hok hpc hsecond with ⟨hmem, -, hwake⟩ | ⟨hnot, -⟩
    · exact ⟨hmem, hwake⟩
    · simp [hpending] at hnot
  · rcases noTimerForgotten_run hrun hok hpc hfirst with ⟨hmem, -⟩ | ⟨-, -, setting, hset, hle, -⟩
    · simp [hpending] at hmem
    · exact ⟨setting, hset, hle⟩

/-- The functor of the other thread has not been called. -/
theorem timersInserted_run_addedByTwo : ∃ s : TimedLoop ℕ Unit, Run Step new addedByTwo s ∧
    s.ranTimers = [] ∧ s.timerQueue.fault = none := by
  obtain ⟨s, hrun, -⟩ := run_addedByTwo
  obtain ⟨-, hcount, hfault, -⟩ := timersInserted_run hrun
  exact ⟨s, hrun, List.length_eq_zero_iff.mp hcount.symm, hfault⟩

end TimedLoop

end Neconet
