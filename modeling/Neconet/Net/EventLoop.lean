import Neconet.Lib.Transition

/-!
# `CEventLoop`

The loop of `net/CEventLoop.cpp` and the queue through which any thread hands it functors: the loop
thread inside `StartLoop` and `__DoPendingFunctors`, step by step, beside any number of other
threads inside `QueueInLoop` and `QuitLoop`. The mutex makes the locked parts of `QueueInLoop` and
`__DoPendingFunctors` single steps. Of the `eventfd` it is assumed that a write adds to the counter
and fails only if the counter is positive, and that a read sets it to zero.

`RunInLoop` is no step of its own: in the loop thread it calls the functor on the spot, in another
thread it is `QueueInLoop`.

* `CEventLoop`, `Action`, `Step`: the states, the steps, and the step relation.
* `ControlInv`: the flags agree with the position of the loop thread.
* `noLostWakeup_run`: in front of the poll, a pending functor has a wakeup on its way.
* `functors_run`: functors run once, in the order in which they were pushed, and a call of
  `__DoPendingFunctors` runs those that were pushed before its swap.
-/

namespace Neconet

set_option linter.unusedSectionVars false

open Transition

/-! ## States and steps -/

/-- Where the loop thread is. -/
inductive LoopPc
  /-- Not inside `StartLoop`. -/
  | outside
  /-- In front of `while (!m_bQuit)`. -/
  | atCheck
  /-- About to call `Poll`, or blocked in it. -/
  | atPoll
  /-- Between the handlers of the active channels, or inside one. -/
  | handling
  /-- In `__DoPendingFunctors`, in front of the swap. -/
  | aboutToSwap
  /-- Between the functors of the batch. -/
  | running
  /-- Inside a functor of the batch. -/
  | inFunctor
  deriving DecidableEq, Repr

/-- Where another thread is. -/
inductive ThreadPc
  /-- In no call on the loop. -/
  | idle
  /-- In `QueueInLoop`, between the push and `Wakeup`. -/
  | pushed
  /-- In `QuitLoop`, between setting `m_bQuit` and `Wakeup`. -/
  | quitting
  deriving DecidableEq, Repr

/-- The fields of the loop, with the position of every thread; `F` are the functors and `T` the
threads besides the loop thread.
Source: `net/CEventLoop.h` -/
structure CEventLoop (F T : Type) where
  /-- `m_bInLooping`. -/
  inLooping : Bool
  /-- `m_bQuit`. -/
  quit : Bool
  /-- `m_bCallingPendingFunctors`. -/
  callingPendingFunctors : Bool
  /-- `m_vPendingFunctors`. -/
  pendingFunctors : List F
  /-- The part of `vFunctors` in `__DoPendingFunctors` that has not been called. -/
  functors : List F
  /-- The counter of the `eventfd` behind `m_nWakeupFd`. -/
  wakeupCounter : ℕ
  /-- The wakeup channel is among `m_vActiveChannels` and has not been handled. -/
  wakeupActive : Bool
  /-- The position of the loop thread. -/
  pc : LoopPc
  /-- The loop thread is in `QueueInLoop`, between the push and `Wakeup`. -/
  toWake : Bool
  /-- The positions of the other threads. -/
  threads : T → ThreadPc
  /-- The functors that `__DoPendingFunctors` has called so far. -/
  ran : List F

namespace CEventLoop

variable {F T : Type}

/-- Source: `net/CEventLoop.cpp`, `CEventLoop::CEventLoop` -/
def new : CEventLoop F T where
  inLooping := false
  quit := false
  callingPendingFunctors := false
  pendingFunctors := []
  functors := []
  wakeupCounter := 0
  wakeupActive := false
  pc := .outside
  toWake := false
  threads _ := .idle
  ran := []

/-- The locked part of `QueueInLoop`.
Source: `net/CEventLoop.cpp`, `CEventLoop::QueueInLoop` -/
def push (s : CEventLoop F T) (cb : F) : CEventLoop F T :=
  { s with pendingFunctors := s.pendingFunctors ++ [cb] }

/-- The write of `Wakeup`, which may fail on a positive counter.
Source: `net/CEventLoop.cpp`, `CEventLoop::Wakeup` -/
def writeWakeup (s : CEventLoop F T) (written : Bool) : CEventLoop F T :=
  { s with wakeupCounter := if written then s.wakeupCounter + 1 else s.wakeupCounter }

/-- The steps. Those without a thread are steps of the loop thread. -/
inductive Action (F T : Type)
  /-- `StartLoop`, up to the loop. -/
  | startLoop
  /-- The condition of the loop; `StartLoop` returns if it fails. -/
  | testQuit
  /-- `Poll` returns, with the wakeup channel among the active ones or not. -/
  | poll (readable : Bool)
  /-- The handler of the wakeup channel. -/
  | handleRead
  /-- All active channels are handled, and `__DoPendingFunctors` begins. -/
  | enterDoPendingFunctors
  /-- The locked part of `__DoPendingFunctors`. -/
  | swap
  /-- The next functor of the batch is called. -/
  | callFunctor
  /-- The functor returns. -/
  | returnFunctor
  /-- `__DoPendingFunctors` ends. -/
  | leaveDoPendingFunctors
  /-- The locked part of `QueueInLoop`. -/
  | queueInLoop (cb : F)
  /-- The write of the loop thread's `Wakeup`. -/
  | wakeup (written : Bool)
  /-- `QuitLoop`. -/
  | quitLoop
  /-- The locked part of another thread's `QueueInLoop`. -/
  | threadQueueInLoop (t : T) (cb : F)
  /-- The first line of another thread's `QuitLoop`. -/
  | threadQuitLoop (t : T)
  /-- The write of another thread's `Wakeup`. -/
  | threadWakeup (t : T) (written : Bool)
  deriving DecidableEq, Repr

/-- The step can be taken. The loop thread calls `QueueInLoop` and `QuitLoop` from event handlers
and from functors, `QuitLoop` also outside the loop, and does nothing else while a call is not
over. -/
def Action.Enabled (s : CEventLoop F T) : Action F T → Prop
  | startLoop => s.pc = .outside ∧ s.inLooping = false
  | testQuit => s.pc = .atCheck
  | poll readable => s.pc = .atPoll ∧ (readable = true → 0 < s.wakeupCounter)
  | handleRead => s.pc = .handling ∧ s.toWake = false ∧ s.wakeupActive = true
  | enterDoPendingFunctors => s.pc = .handling ∧ s.toWake = false ∧ s.wakeupActive = false
  | swap => s.pc = .aboutToSwap
  | callFunctor => s.pc = .running ∧ s.functors ≠ []
  | returnFunctor => s.pc = .inFunctor ∧ s.toWake = false
  | leaveDoPendingFunctors => s.pc = .running ∧ s.functors = []
  | queueInLoop _ => (s.pc = .handling ∨ s.pc = .inFunctor) ∧ s.toWake = false
  | wakeup written => s.toWake = true ∧ (written = false → 0 < s.wakeupCounter)
  | quitLoop => (s.pc = .outside ∨ s.pc = .handling ∨ s.pc = .inFunctor) ∧ s.toWake = false
  | threadQueueInLoop t _ => s.threads t = .idle
  | threadQuitLoop t => s.threads t = .idle
  | threadWakeup t written => s.threads t ≠ .idle ∧ (written = false → 0 < s.wakeupCounter)

instance (s : CEventLoop F T) (a : Action F T) : Decidable (a.Enabled s) := by
  cases a <;> unfold Action.Enabled <;> infer_instance

variable [DecidableEq T]

/-- The state after the step.
Source: `net/CEventLoop.cpp`, `CEventLoop::StartLoop`, `CEventLoop::QuitLoop`,
`CEventLoop::QueueInLoop`, `CEventLoop::Wakeup`, `CEventLoop::__HandleRead`,
`CEventLoop::__DoPendingFunctors` -/
def Action.next (s : CEventLoop F T) : Action F T → CEventLoop F T
  | startLoop => { s with inLooping := true, quit := false, pc := .atCheck }
  | testQuit =>
      if s.quit then { s with inLooping := false, pc := .outside } else { s with pc := .atPoll }
  | poll readable => { s with wakeupActive := readable, pc := .handling }
  | handleRead => { s with wakeupCounter := 0, wakeupActive := false }
  | enterDoPendingFunctors => { s with callingPendingFunctors := true, pc := .aboutToSwap }
  | swap => { s with functors := s.pendingFunctors, pendingFunctors := [], pc := .running }
  | callFunctor =>
      { s with functors := s.functors.tail, ran := s.ran ++ s.functors.take 1, pc := .inFunctor }
  | returnFunctor => { s with pc := .running }
  | leaveDoPendingFunctors => { s with callingPendingFunctors := false, pc := .atCheck }
  | queueInLoop cb => { s.push cb with toWake := s.callingPendingFunctors }
  | wakeup written => { s.writeWakeup written with toWake := false }
  | quitLoop => { s with quit := true }
  | threadQueueInLoop t cb => { s.push cb with threads := Function.update s.threads t .pushed }
  | threadQuitLoop t =>
      { s with quit := true, threads := Function.update s.threads t .quitting }
  | threadWakeup t written =>
      { s.writeWakeup written with threads := Function.update s.threads t .idle }

/-- One step, as a relation between states. -/
def Step (s : CEventLoop F T) (a : Action F T) (s' : CEventLoop F T) : Prop :=
  a.Enabled s ∧ s' = a.next s

/-! ## The flags and the position of the loop thread -/

/-- The flags agree with the position of the loop thread. -/
structure ControlInv (s : CEventLoop F T) : Prop where
  /-- `m_bCallingPendingFunctors` is set inside `__DoPendingFunctors`. -/
  calling_iff : s.callingPendingFunctors = true ↔
    s.pc = .aboutToSwap ∨ s.pc = .running ∨ s.pc = .inFunctor
  /-- `m_bInLooping` is set inside `StartLoop`. -/
  inLooping_iff : s.inLooping = true ↔ s.pc ≠ .outside
  /-- Only a functor makes the loop thread wake itself. -/
  pc_of_toWake : s.toWake = true → s.pc = .inFunctor
  /-- There is a batch only while it runs. -/
  functors_eq_nil : s.pc ≠ .running → s.pc ≠ .inFunctor → s.functors = []

/-- A new loop meets the invariant. -/
theorem controlInv_new : ControlInv (new : CEventLoop F T) where
  calling_iff := by simp [new]
  inLooping_iff := by simp [new]
  pc_of_toWake h := by simp [new] at h
  functors_eq_nil _ _ := rfl

/-- Every step keeps the flags in agreement. -/
theorem ControlInv.step (s : CEventLoop F T) (a : Action F T) (s' : CEventLoop F T)
    (h : s.ControlInv) (hst : Step s a s') : s'.ControlInv := by
  obtain ⟨hen, rfl⟩ := hst
  obtain ⟨hcalling, hlooping, hwake, hfunctors⟩ := h
  cases a with
  | testQuit =>
      have hpc : s.pc = .atCheck := hen
      by_cases hquit : s.quit = true <;> constructor <;> simp_all [Action.next]
  | queueInLoop cb =>
      refine ⟨hcalling, hlooping, fun hset => ?_, hfunctors⟩
      -- the loop thread wakes itself only inside `__DoPendingFunctors`
      rcases hen.1 with hpc | hpc
      · have hinside := hcalling.mp hset
        simp [hpc] at hinside
      · exact hpc
  | startLoop | poll | enterDoPendingFunctors | swap | callFunctor | returnFunctor
  | leaveDoPendingFunctors => constructor <;> simp_all [Action.Enabled, Action.next]
  | wakeup => exact ⟨hcalling, hlooping, (fun hset => by cases hset), hfunctors⟩
  | handleRead | quitLoop | threadQueueInLoop | threadQuitLoop | threadWakeup =>
      exact ⟨hcalling, hlooping, hwake, hfunctors⟩

/-- From the handlers, the loop thread goes on to `__DoPendingFunctors`. -/
theorem pc_of_handling {s : CEventLoop F T} {a : Action F T} (hen : a.Enabled s)
    (hpc : s.pc = .handling) (ha : a ≠ .enterDoPendingFunctors) : (a.next s).pc = .handling := by
  cases a with
  | enterDoPendingFunctors => exact absurd rfl ha
  | startLoop | testQuit | poll | swap | callFunctor | returnFunctor | leaveDoPendingFunctors =>
      simp [Action.Enabled, hpc] at hen
  | handleRead | queueInLoop | wakeup | quitLoop | threadQueueInLoop | threadQuitLoop
  | threadWakeup => exact hpc

/-- A functor ends by returning. -/
theorem pc_of_inFunctor {s : CEventLoop F T} {a : Action F T} (hen : a.Enabled s)
    (hpc : s.pc = .inFunctor) (ha : a ≠ .returnFunctor) : (a.next s).pc = .inFunctor := by
  cases a with
  | returnFunctor => exact absurd rfl ha
  | startLoop | testQuit | poll | handleRead | enterDoPendingFunctors | swap | callFunctor
  | leaveDoPendingFunctors => simp [Action.Enabled, hpc] at hen
  | queueInLoop | wakeup | quitLoop | threadQueueInLoop | threadQuitLoop | threadWakeup =>
      exact hpc

/-! ## Wakeups -/

/-- Another thread has pushed a functor and has not written to the `eventfd` yet. -/
def WakeupDue (s : CEventLoop F T) : Prop := ∃ t, s.threads t = .pushed

/-- Unless the loop thread is on its way to the swap, a pending functor has a wakeup: written, or
due from another thread or from the loop thread. -/
def WakeInv (s : CEventLoop F T) : Prop :=
  s.pc ≠ .handling → s.pc ≠ .aboutToSwap → s.pendingFunctors ≠ [] →
    0 < s.wakeupCounter ∨ s.WakeupDue ∨ s.toWake = true

/-- A `Wakeup` of another thread leaves the counter positive. -/
theorem counter_pos_of_written {s : CEventLoop F T} {written : Bool}
    (h : written = false → 0 < s.wakeupCounter) : 0 < (s.writeWakeup written).wakeupCounter := by
  cases written with
  | false => exact h rfl
  | true => exact Nat.succ_pos _

/-- Every step keeps a wakeup for pending functors. -/
theorem WakeInv.step (s : CEventLoop F T) (a : Action F T) (s' : CEventLoop F T)
    (hctl : s.ControlInv) (h : s.WakeInv) (hst : Step s a s') : s'.WakeInv := by
  obtain ⟨hen, rfl⟩ := hst
  intro hpc hpc' hne
  cases a with
  | startLoop => exact h (by simp [hen.1]) (by simp [hen.1]) hne
  | testQuit =>
      have hold := h (by simp [show s.pc = _ from hen]) (by simp [show s.pc = _ from hen])
      by_cases hquit : s.quit = true
      · simp only [Action.next, if_pos hquit] at hne ⊢
        exact hold hne
      · simp only [Action.next, if_neg hquit] at hne ⊢
        exact hold hne
  | poll => exact absurd rfl hpc
  | handleRead => exact absurd hen.1 hpc
  | enterDoPendingFunctors => exact absurd rfl hpc'
  | swap => exact absurd rfl hne
  | callFunctor => exact h (by simp [hen.1]) (by simp [hen.1]) hne
  | returnFunctor => exact h (by simp [hen.1]) (by simp [hen.1]) hne
  | leaveDoPendingFunctors => exact h (by simp [hen.1]) (by simp [hen.1]) hne
  | queueInLoop cb =>
      -- in a handler the swap comes before the poll; in a functor `Wakeup` follows
      rcases hen.1 with hhandling | hfunctor
      · exact absurd hhandling hpc
      · exact Or.inr (Or.inr (hctl.calling_iff.mpr (Or.inr (Or.inr hfunctor))))
  | wakeup written => exact Or.inl (counter_pos_of_written hen.2)
  | quitLoop => exact h hpc hpc' hne
  | threadQueueInLoop t cb => exact Or.inr (Or.inl ⟨t, Function.update_self _ _ _⟩)
  | threadQuitLoop t =>
      rcases h hpc hpc' hne with hpos | ⟨u, hu⟩ | hwake
      · exact Or.inl hpos
      · have hut : u ≠ t := by
          rintro rfl
          rw [show s.threads u = .idle from hen] at hu
          cases hu
        exact Or.inr (Or.inl ⟨u, (Function.update_of_ne hut _ _).trans hu⟩)
      · exact Or.inr (Or.inr hwake)
  | threadWakeup t written => exact Or.inl (counter_pos_of_written hen.2)

/-- **No lost wakeup.** Whatever the other threads do and whenever they do it: while the loop thread
is about to call the poll or is blocked in it, a pending functor means that the `eventfd` is
readable or that another thread has pushed a functor and will write to it. -/
theorem noLostWakeup_run {as : List (Action F T)} {s : CEventLoop F T} (hrun : Run Step new as s)
    (hpc : s.pc = .atPoll) (hne : s.pendingFunctors ≠ []) : 0 < s.wakeupCounter ∨ s.WakeupDue := by
  have hkeep : ∀ (s : CEventLoop F T) a s', s.ControlInv ∧ s.WakeInv → Step s a s' →
      s'.ControlInv ∧ s'.WakeInv :=
    fun s a s' h hst => ⟨h.1.step s a s' hst, h.2.step s a s' h.1 hst⟩
  have hinv := hrun.invariant hkeep ⟨controlInv_new, fun _ _ hne => absurd rfl hne⟩
  rcases hinv.2 (by simp [hpc]) (by simp [hpc]) hne with hpos | hdue | hwake
  · exact Or.inl hpos
  · exact Or.inr hdue
  · rw [hinv.1.pc_of_toWake hwake] at hpc
    cases hpc

/-- The theorem on a functor that is pushed just before the poll. -/
theorem noLostWakeup_push_before_poll : ∃ s : CEventLoop ℕ Unit,
    Run Step new [.startLoop, .testQuit, .threadQueueInLoop () 7] s ∧
    s.pendingFunctors = [7] ∧ (0 < s.wakeupCounter ∨ s.WakeupDue) := by
  have hrun : Run Step (new : CEventLoop ℕ Unit) [.startLoop, .testQuit, .threadQueueInLoop () 7] _ :=
    Run.cons ⟨⟨rfl, rfl⟩, rfl⟩ (Run.cons ⟨rfl, rfl⟩ (Run.single ⟨rfl, rfl⟩))
  exact ⟨_, hrun, rfl, noLostWakeup_run hrun rfl (List.cons_ne_nil _ _)⟩

/-! ## The order of functors -/

/-- The functor that the step pushes. -/
def Action.pushed : Action F T → Option F
  | queueInLoop cb => some cb
  | threadQueueInLoop _ cb => some cb
  | _ => none

/-- The step calls a functor. -/
def Action.isCall : Action F T → Bool
  | callFunctor => true
  | _ => false

/-- All functors, in the order in which they have been and will be called. -/
def line (s : CEventLoop F T) : List F := s.ran ++ s.functors ++ s.pendingFunctors

/-- A step adds the functor it pushes to the end of the line, and changes nothing else in it. -/
theorem ControlInv.line_step {s s' : CEventLoop F T} {a : Action F T} (h : s.ControlInv)
    (hst : Step s a s') : s'.line = s.line ++ a.pushed.toList := by
  obtain ⟨hen, rfl⟩ := hst
  cases a with
  | testQuit =>
      by_cases hquit : s.quit = true <;> simp [line, Action.next, Action.pushed, hquit]
  | swap =>
      have hnil : s.functors = [] :=
        h.functors_eq_nil (by simp [show s.pc = _ from hen]) (by simp [show s.pc = _ from hen])
      simp [line, Action.next, Action.pushed, hnil]
  | callFunctor =>
      obtain ⟨cb, rest, hcons⟩ := List.exists_cons_of_ne_nil hen.2
      simp [line, Action.next, Action.pushed, hcons]
  | _ => simp [line, Action.next, Action.pushed, push, writeWakeup]

/-- The line after a run: what was pushed on the way has been added in lock order. -/
theorem ControlInv.line_run {s s' : CEventLoop F T} {as : List (Action F T)} (h : s.ControlInv)
    (hrun : Run Step s as s') : s'.line = s.line ++ as.filterMap Action.pushed := by
  induction hrun with
  | nil s => simp
  | @cons s t u a as head tail ih =>
      rw [ih (h.step s a t head), h.line_step head, List.append_assoc]
      congr 1
      cases hpush : a.pushed <;> simp [hpush]

/-- The functors that have not been called, in order. -/
def queue (s : CEventLoop F T) : List F := s.functors ++ s.pendingFunctors

/-- Only the swap and a call touch the batch, and the other steps add the functor they push to the
end of `m_vPendingFunctors`. -/
theorem batch_step {s s' : CEventLoop F T} {a : Action F T} (hst : Step s a s')
    (hcall : a.isCall = false) (hswap : a ≠ .swap) :
    s'.functors = s.functors ∧ s'.pendingFunctors = s.pendingFunctors ++ a.pushed.toList := by
  obtain ⟨-, rfl⟩ := hst
  cases a with
  | callFunctor => cases hcall
  | swap => exact absurd rfl hswap
  | testQuit =>
      by_cases hquit : s.quit = true <;> simp [Action.next, Action.pushed, hquit]
  | _ => simp [Action.next, Action.pushed, push, writeWakeup]

/-- A step that calls no functor adds the functor it pushes to the end of the queue. -/
theorem ControlInv.queue_step {s s' : CEventLoop F T} {a : Action F T} (h : s.ControlInv)
    (hst : Step s a s') (ha : a.isCall = false) :
    s'.ran = s.ran ∧ s'.queue = s.queue ++ a.pushed.toList := by
  have hran : s'.ran = s.ran := by
    obtain ⟨-, rfl⟩ := hst
    cases a with
    | callFunctor => cases ha
    | testQuit => by_cases hquit : s.quit = true <;> simp [Action.next, hquit]
    | _ => rfl
  have hline := h.line_step hst
  rw [line, line, hran, List.append_assoc, List.append_assoc, List.append_assoc,
    List.append_cancel_left_eq, ← List.append_assoc] at hline
  exact ⟨hran, hline⟩

/-- A step that calls a functor takes the first one from the queue. -/
theorem queue_callFunctor {s : CEventLoop F T} {cb : F} {rest : List F}
    (h : s.functors = cb :: rest) :
    (Action.callFunctor.next s).ran = s.ran ++ [cb] ∧
      s.queue = cb :: (Action.callFunctor.next s).queue := by
  simp [Action.next, queue, h]

/-- The batch after the call of its first functor. -/
theorem functors_callFunctor {s : CEventLoop F T} {cb : F} {rest : List F}
    (h : s.functors = cb :: rest) : (Action.callFunctor.next s).functors = rest := by
  simp [Action.next, h]

/-- The loop thread is between the swap and the end of `__DoPendingFunctors`. -/
def InBatch (s : CEventLoop F T) : Prop := s.pc = .running ∨ s.pc = .inFunctor

/-- Until `__DoPendingFunctors` ends, a step calls the next functor of the batch or leaves the batch
alone. -/
theorem InBatch.step {s s' : CEventLoop F T} {a : Action F T} (h : s.InBatch)
    (hst : Step s a s') (ha : a ≠ .leaveDoPendingFunctors) :
    s'.InBatch ∧ s'.ran ++ s'.functors = s.ran ++ s.functors ∧
      (if a.isCall then 1 else 0) + s'.functors.length = s.functors.length := by
  obtain ⟨hen, rfl⟩ := hst
  have hpc : s.pc ≠ .outside ∧ s.pc ≠ .atCheck ∧ s.pc ≠ .atPoll ∧ s.pc ≠ .handling ∧
      s.pc ≠ .aboutToSwap := by
    rcases h with h | h <;> simp [h]
  obtain ⟨houtside, hcheck, hpoll, hhandling, hswap⟩ := hpc
  cases a with
  | startLoop => exact absurd hen.1 houtside
  | testQuit => exact absurd hen hcheck
  | poll => exact absurd hen.1 hpoll
  | handleRead => exact absurd hen.1 hhandling
  | enterDoPendingFunctors => exact absurd hen.1 hhandling
  | swap => exact absurd hen hswap
  | callFunctor =>
      obtain ⟨cb, rest, hcons⟩ := List.exists_cons_of_ne_nil hen.2
      refine ⟨Or.inr rfl, ?_, ?_⟩
      · simp [Action.next, hcons]
      · simp [Action.next, Action.isCall, hcons, Nat.add_comm]
  | leaveDoPendingFunctors => exact absurd rfl ha
  | returnFunctor => exact ⟨Or.inl rfl, rfl, Nat.zero_add _⟩
  | queueInLoop | wakeup | quitLoop | threadQueueInLoop | threadQuitLoop | threadWakeup =>
      exact ⟨h, rfl, Nat.zero_add _⟩

/-- Until `__DoPendingFunctors` ends, the batch shrinks by the functors that are called. -/
theorem InBatch.run {s s' : CEventLoop F T} {as : List (Action F T)} (h : s.InBatch)
    (hrun : Run Step s as s') (has : Action.leaveDoPendingFunctors ∉ as) :
    s'.ran ++ s'.functors = s.ran ++ s.functors ∧
      as.countP Action.isCall + s'.functors.length = s.functors.length := by
  induction hrun with
  | nil s => exact ⟨rfl, by simp⟩
  | @cons s t u a as head tail ih =>
      rw [List.mem_cons, not_or] at has
      obtain ⟨hbatch, hline, hlen⟩ := h.step head (Ne.symm has.1)
      obtain ⟨hline', hlen'⟩ := ih hbatch has.2
      refine ⟨hline'.trans hline, ?_⟩
      rw [List.countP_cons, ← hlen, ← hlen']
      split_ifs <;> omega

/-- **Queued functors run exactly once and in order.** In every run, for the functors pushed so far,
in lock order:
* those already run, then the rest of the batch, then `m_vPendingFunctors` are all of them;
* outside `StartLoop`, those that have not run are still in `m_vPendingFunctors`;
* from its swap on, a call of `__DoPendingFunctors` works off those pushed before the swap, as many
  as were pending then, whatever is pushed meanwhile; when it ends, exactly these have run. -/
theorem functors_run {as : List (Action F T)} {s : CEventLoop F T} (hrun : Run Step new as s) :
    s.ran ++ s.functors ++ s.pendingFunctors = as.filterMap Action.pushed ∧
    (s.pc = .outside → s.ran ++ s.pendingFunctors = as.filterMap Action.pushed) ∧
    (s.pc = .aboutToSwap → ∀ mid s', Run Step s (.swap :: mid) s' →
      Action.leaveDoPendingFunctors ∉ mid →
      s'.ran ++ s'.functors = as.filterMap Action.pushed ∧
      mid.countP Action.isCall + s'.functors.length = s.pendingFunctors.length ∧
      ∀ s'', Step s' .leaveDoPendingFunctors s'' →
        s''.ran = as.filterMap Action.pushed ∧
        mid.countP Action.isCall = s.pendingFunctors.length) := by
  have hctl : s.ControlInv := hrun.invariant ControlInv.step controlInv_new
  have hline : s.ran ++ s.functors ++ s.pendingFunctors = as.filterMap Action.pushed :=
    (controlInv_new.line_run hrun).trans (List.nil_append _)
  refine ⟨hline, fun hpc => ?_, fun hpc mid s' hrun' hmid => ?_⟩
  · rw [← hline, hctl.functors_eq_nil (by simp [hpc]) (by simp [hpc]), List.append_nil]
  · obtain ⟨t, hswap, htail⟩ := run_cons_iff.mp hrun'
    have hnil := hctl.functors_eq_nil (by simp [hpc]) (by simp [hpc])
    rw [hnil, List.append_nil] at hline
    obtain ⟨-, rfl⟩ := hswap
    have hbatch : (Action.next s .swap).InBatch := Or.inl rfl
    obtain ⟨hran, hlen⟩ := hbatch.run htail hmid
    have hran' := hran.trans hline
    refine ⟨hran', hlen, fun s'' hleave => ?_⟩
    obtain ⟨⟨-, hdone⟩, rfl⟩ := hleave
    rw [hdone, List.append_nil] at hran'
    rw [hdone] at hlen
    exact ⟨hran', hlen⟩

/-- The theorem on a functor that a handler queues and that queues itself again. -/
theorem functors_run_requeue : ∃ s : CEventLoop ℕ Unit,
    Run Step new [.startLoop, .testQuit, .poll false, .queueInLoop 7, .enterDoPendingFunctors,
      .swap, .callFunctor, .queueInLoop 7, .wakeup true] s ∧
    s.ran = [7] ∧ s.ran ++ s.functors ++ s.pendingFunctors = [7, 7] := by
  have hrun : ∃ s : CEventLoop ℕ Unit, Run Step new [.startLoop, .testQuit, .poll false,
      .queueInLoop 7, .enterDoPendingFunctors, .swap, .callFunctor, .queueInLoop 7,
      .wakeup true] s ∧ s.ran = [7] :=
    ⟨_, Run.cons ⟨⟨rfl, rfl⟩, rfl⟩ <| Run.cons ⟨rfl, rfl⟩ <| Run.cons ⟨⟨rfl, nofun⟩, rfl⟩ <|
      Run.cons ⟨⟨Or.inl rfl, rfl⟩, rfl⟩ <| Run.cons ⟨⟨rfl, rfl, rfl⟩, rfl⟩ <|
      Run.cons ⟨rfl, rfl⟩ <| Run.cons ⟨⟨rfl, List.cons_ne_nil _ _⟩, rfl⟩ <|
      Run.cons ⟨⟨Or.inr rfl, rfl⟩, rfl⟩ <| Run.single ⟨⟨rfl, nofun⟩, rfl⟩, rfl⟩
  obtain ⟨s, hrun, hran⟩ := hrun
  exact ⟨s, hrun, hran, (functors_run hrun).1⟩

end CEventLoop

end Neconet
