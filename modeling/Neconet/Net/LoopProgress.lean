import Neconet.Lib.Behaviour
import Neconet.Net.QuitLoop

/-!
# The loop goes on

What a `CEventLoop` comes to in the end, if nobody stops for ever: handlers and functors return,
`Poll` returns when the `eventfd` is readable, and a thread in `QueueInLoop` or `QuitLoop` comes to
its `Wakeup`. Nothing is assumed of the time-out of `Poll` and of other descriptors: it is the
wakeup that brings the loop thread out of `Poll`.

* `Goes`: nobody stops for ever.
* `Wait`: what is waited for, in front of `Poll` the `Wakeup` of another thread.
* `callsFunctor_run`: every functor that is pushed is called, as long as `StartLoop` goes on.
* `quitReturns_run`: after a call of `QuitLoop`, `StartLoop` returns.
* `Goes.exists_atPoll`: until then, the loop thread comes to `Poll` again and again.
-/

namespace Neconet

set_option linter.unusedSectionVars false

open Transition

/-- How far the loop thread is from the `k`-th call of a functor from now on, with `f` functors left
in the batch, and `n` in the counter of the `eventfd`. -/
def LoopPc.callRank (k f n : ℕ) : LoopPc → ℕ
  | running => if k ≤ f then 2 * k - 1 else 2 * k + 5
  | inFunctor => if k ≤ f then 2 * k else 2 * k + 6
  | aboutToSwap => 2 * k
  | handling => 2 * k + 1
  | atPoll => if 0 < n then 2 * k + 2 else 2 * k + 3
  | atCheck => 2 * k + 4
  | outside => 0

/-- How far the loop thread is from the end of `StartLoop` when `m_bQuit` is set. In front of the
swap, the batch to come may still grow. -/
def LoopPc.quitRank (f n : ℕ) : LoopPc → ℕ ×ₗ ℕ
  | atPoll => toLex (if 0 < n then 3 else 4, 0)
  | handling => toLex (2, 0)
  | aboutToSwap => toLex (1, 0)
  | inFunctor => toLex (0, 2 * f + 3)
  | running => toLex (0, 2 * f + 2)
  | atCheck => toLex (0, 1)
  | outside => toLex (0, 0)

namespace CEventLoop

variable {F T : Type} [DecidableEq T]

/-- Nobody stops for ever. -/
structure Goes (x : Behaviour (Step (F := F) (T := T))) : Prop where
  /-- The loop thread leaves its position, unless it is in front of a `Poll` without a wakeup. -/
  leaves : ∀ n, (x.state n).pc ≠ .outside →
    ((x.state n).pc = .atPoll → 0 < (x.state n).wakeupCounter) →
    ∃ m, n ≤ m ∧ (x.state m).pc ≠ (x.state n).pc
  /-- The other threads come to the end of their calls. -/
  returns : ∀ n t, (x.state n).threads t ≠ .idle → ∃ m, n ≤ m ∧ (x.state m).threads t = .idle

/-! ## What is waited for -/

/-- What may be waited for. -/
inductive Wait (T : Type)
  /-- The loop thread leaves its position. -/
  | position (p : LoopPc)
  /-- The `Wakeup` of a thread. -/
  | wakeup (t : T)

/-- It is waited for. -/
def Wait.Holds (s : CEventLoop F T) : Wait T → Prop
  | position p => s.pc = p ∧ p ≠ .outside ∧ (p = .atPoll → 0 < s.wakeupCounter)
  | wakeup t => s.pc = .atPoll ∧ s.wakeupCounter = 0 ∧ s.threads t ≠ .idle

/-- Nothing is waited for for ever. -/
theorem Goes.just {x : Behaviour (Step (F := F) (T := T))} (h : Goes x) (w : Wait T) (n : ℕ)
    (hw : w.Holds (x.state n)) : ∃ m, n ≤ m ∧ ¬ w.Holds (x.state m) := by
  cases w with
  | position p =>
      obtain ⟨hpc, hin, hpoll⟩ := hw
      obtain ⟨m, hnm, hne⟩ := h.leaves n (hpc ▸ hin) fun hat => hpoll (hpc ▸ hat)
      exact ⟨m, hnm, fun hm => hne (hm.1.trans hpc.symm)⟩
  | wakeup t =>
      obtain ⟨m, hnm, hidle⟩ := h.returns n t hw.2.2
      exact ⟨m, hnm, fun hm => hm.2.2 hidle⟩

/-- The step moves the loop thread. -/
def Action.isControl : Action F T → Bool
  | startLoop | testQuit | poll _ | enterDoPendingFunctors | swap => true
  | callFunctor | returnFunctor | leaveDoPendingFunctors => true
  | handleRead | queueInLoop _ | wakeup _ | quitLoop => false
  | threadQueueInLoop _ _ | threadQuitLoop _ | threadWakeup _ _ => false

/-- The other steps move nothing in the loop, and in front of `Poll` they only add wakeups. -/
theorem quiet_step {s : CEventLoop F T} {a : Action F T} (hen : a.Enabled s)
    (ha : a.isControl = false) :
    ((a.next s).pc = s.pc ∧ (a.next s).ran = s.ran ∧ (a.next s).functors = s.functors) ∧
      (s.pc = .atPoll → s.wakeupCounter ≤ (a.next s).wakeupCounter) ∧
      ∀ t, s.threads t ≠ .idle → (a.next s).threads t ≠ .idle ∨ 0 < (a.next s).wakeupCounter := by
  have henter : ∀ (u : T) (p : ThreadPc), p ≠ .idle → ∀ t, s.threads t ≠ .idle →
      Function.update s.threads u p t ≠ .idle := by
    intro u p hp t ht
    by_cases htu : t = u
    · rw [htu, Function.update_self]
      exact hp
    · rwa [Function.update_of_ne htu]
  cases a with
  | handleRead =>
      refine ⟨⟨rfl, rfl, rfl⟩, fun hpc => ?_, fun t ht => Or.inl ht⟩
      have hhandling := hen.1
      simp [hpc] at hhandling
  | queueInLoop cb => exact ⟨⟨rfl, rfl, rfl⟩, fun _ => le_rfl, fun t ht => Or.inl ht⟩
  | quitLoop => exact ⟨⟨rfl, rfl, rfl⟩, fun _ => le_rfl, fun t ht => Or.inl ht⟩
  | wakeup written =>
      refine ⟨⟨rfl, rfl, rfl⟩, fun _ => ?_, fun t ht => Or.inl ht⟩
      cases written <;> simp [Action.next, writeWakeup]
  | threadQueueInLoop u cb =>
      exact ⟨⟨rfl, rfl, rfl⟩, fun _ => le_rfl, fun t ht => Or.inl (henter u _ (by simp) t ht)⟩
  | threadQuitLoop u =>
      exact ⟨⟨rfl, rfl, rfl⟩, fun _ => le_rfl, fun t ht => Or.inl (henter u _ (by simp) t ht)⟩
  | threadWakeup u written =>
      refine ⟨⟨rfl, rfl, rfl⟩, fun _ => ?_, fun t _ => Or.inr (counter_pos_of_written hen.2)⟩
      cases written <;> simp [Action.next, writeWakeup]
  | _ => cases ha

/-- They do not end a wait, but by a wakeup in front of `Poll`. -/
theorem Wait.Holds.quiet {s : CEventLoop F T} {w : Wait T} (h : w.Holds s) {a : Action F T}
    (hen : a.Enabled s) (ha : a.isControl = false) :
    w.Holds (a.next s) ∧ (s.pc = .atPoll → (0 < (a.next s).wakeupCounter ↔ 0 < s.wakeupCounter)) ∨
      s.pc = .atPoll ∧ s.wakeupCounter = 0 ∧ 0 < (a.next s).wakeupCounter := by
  obtain ⟨⟨hpc, -, -⟩, hcounter, hthreads⟩ := quiet_step hen ha
  cases w with
  | position p =>
      obtain ⟨hp, hin, hpoll⟩ := h
      have hpos : s.pc = .atPoll → 0 < (a.next s).wakeupCounter := by
        intro hat
        exact (hpoll (hp ▸ hat)).trans_le (hcounter hat)
      refine Or.inl ⟨⟨hpc.trans hp, hin, fun hat => hpos (hp.trans hat)⟩, fun hat => ?_⟩
      exact iff_of_true (hpos hat) (hpoll (hp ▸ hat))
  | wakeup t =>
      obtain ⟨hat, hzero, ht⟩ := h
      by_cases hpos : 0 < (a.next s).wakeupCounter
      · exact Or.inr ⟨hat, hzero, hpos⟩
      · refine Or.inl ⟨⟨hpc.trans hat, by omega, (hthreads t ht).resolve_right hpos⟩, fun _ => ?_⟩
        exact iff_of_false hpos (by omega)

/-- Inside `StartLoop`, something is waited for, if in front of `Poll` a wakeup is there or due. -/
theorem exists_wait {s : CEventLoop F T} (hin : s.pc ≠ .outside)
    (hwake : s.pc = .atPoll → 0 < s.wakeupCounter ∨ ∃ t, s.threads t ≠ .idle) :
    ∃ w : Wait T, w.Holds s := by
  by_cases hat : s.pc = .atPoll
  · by_cases hpos : 0 < s.wakeupCounter
    · exact ⟨.position s.pc, rfl, hin, fun _ => hpos⟩
    · obtain ⟨t, ht⟩ := (hwake hat).resolve_left hpos
      exact ⟨.wakeup t, hat, by omega, ht⟩
  · exact ⟨.position s.pc, rfl, hin, fun hp => absurd hp hat⟩

/-! ## Functors are called -/

/-- How far the loop thread is from the call of the functor at place `i` of the line. -/
def callRank (i : ℕ) (s : CEventLoop F T) : ℕ :=
  s.pc.callRank (i + 1 - s.ran.length) s.functors.length s.wakeupCounter

/-- A step of the loop thread from one position to the next brings the call nearer. -/
theorem callRank_control {s : CEventLoop F T} {a : Action F T} {i : ℕ} (hctl : s.ControlInv)
    (hi : s.ran.length ≤ i) (hline : i < s.line.length) (hin : s.pc ≠ .outside) (hen : a.Enabled s)
    (ha : a.isControl = true) :
    i < (a.next s).ran.length ∨ (a.next s).pc = .outside ∨
      (a.next s).callRank i < s.callRank i := by
  cases a with
  | startLoop => exact absurd hen.1 hin
  | testQuit =>
      have hpc : s.pc = .atCheck := hen
      by_cases hquit : s.quit = true
      · exact Or.inr (Or.inl (by simp [Action.next, hquit]))
      · right; right
        simp only [callRank, Action.next, hpc, LoopPc.callRank]
        simp [hquit]
        split_ifs <;> simp
  | poll readable =>
      have hpc := hen.1
      right; right
      simp only [callRank, Action.next, hpc, LoopPc.callRank]
      split_ifs <;> simp
  | enterDoPendingFunctors =>
      have hpc := hen.1
      right; right
      simp only [callRank, Action.next, hpc, LoopPc.callRank]
      omega
  | swap =>
      have hpc : s.pc = .aboutToSwap := hen
      have hnil := hctl.functors_eq_nil (by simp [hpc]) (by simp [hpc])
      right; right
      have hle : i + 1 - s.ran.length ≤ s.pendingFunctors.length := by
        simp [line, hnil] at hline
        omega
      simp only [callRank, Action.next, hpc]
      rw [LoopPc.callRank, if_pos hle, LoopPc.callRank]
      omega
  | callFunctor =>
      obtain ⟨hpc, hne⟩ := hen
      obtain ⟨cb, rest, hcons⟩ := List.exists_cons_of_ne_nil hne
      by_cases hlast : i = s.ran.length
      · left
        simp [Action.next, hcons, hlast]
      · right; right
        simp only [callRank, Action.next, hpc, hcons, List.take_succ_cons, List.take_zero,
          List.length_append, List.length_cons, List.length_nil, List.tail_cons]
        simp only [LoopPc.callRank]
        split_ifs <;> omega
  | returnFunctor =>
      have hpc := hen.1
      right; right
      simp only [callRank, Action.next, hpc]
      simp only [LoopPc.callRank]
      split_ifs <;> omega
  | leaveDoPendingFunctors =>
      obtain ⟨hpc, hnil⟩ := hen
      right; right
      simp only [callRank, Action.next, hpc, hnil, List.length_nil]
      simp only [LoopPc.callRank]
      split_ifs <;> omega
  | _ => cases ha

/-- Every other step leaves it where it is, or ends a wait for a wakeup. -/
theorem callRank_quiet {s : CEventLoop F T} {a : Action F T} {w : Wait T} {i : ℕ}
    (hw : w.Holds s) (hen : a.Enabled s) (ha : a.isControl = false) :
    (a.next s).callRank i < s.callRank i ∨
      (a.next s).callRank i = s.callRank i ∧ w.Holds (a.next s) := by
  obtain ⟨⟨hpc, hran, hfunctors⟩, -, -⟩ := quiet_step hen ha
  rcases hw.quiet hen ha with ⟨hholds, hcounter⟩ | ⟨hat, hzero, hpos⟩
  · refine Or.inr ⟨?_, hholds⟩
    unfold callRank
    rw [hpc, hran, hfunctors]
    cases hp : s.pc with
    | atPoll => simp only [LoopPc.callRank, hcounter hp]
    | _ => rfl
  · left
    simp [callRank, LoopPc.callRank, hpc, hran, hat, hzero, hpos]

/-- In front of `Poll`, a functor that has not been called has a wakeup, there or due. -/
theorem wakeup_of_line {s : CEventLoop F T} (hctl : s.ControlInv) (hwake : s.WakeInv) {i : ℕ}
    (hi : s.ran.length ≤ i) (hline : i < s.line.length) (hat : s.pc = .atPoll) :
    0 < s.wakeupCounter ∨ ∃ t, s.threads t ≠ .idle := by
  have hnil := hctl.functors_eq_nil (by simp [hat]) (by simp [hat])
  have hne : s.pendingFunctors ≠ [] := by
    intro hpending
    simp [line, hnil, hpending] at hline
    omega
  rcases hwake (by simp [hat]) (by simp [hat]) hne with hpos | ⟨t, ht⟩ | hset
  · exact Or.inl hpos
  · exact Or.inr ⟨t, by simp [ht]⟩
  · have hpc := hctl.pc_of_toWake hset
    simp [hat] at hpc

/-- What is in the line stays there. -/
theorem ControlInv.getElem?_line {s s' : CEventLoop F T} {a : Action F T} (h : s.ControlInv)
    (hst : Step s a s') {i : ℕ} {cb : F} (hcb : s.line[i]? = some cb) : s'.line[i]? = some cb := by
  rw [h.line_step hst, List.getElem?_append_left (List.getElem?_eq_some_iff.mp hcb).1]
  exact hcb

/-- What is known of the loop in every state of a behaviour. -/
theorem kept_step (s : CEventLoop F T) (a : Action F T) (s' : CEventLoop F T)
    (h : s.ControlInv ∧ s.WakeInv) (hst : Step s a s') : s'.ControlInv ∧ s'.WakeInv :=
  ⟨h.1.step s a s' hst, h.2.step s a s' h.1 hst⟩

/-- The line only grows. -/
theorem line_mono {x : Behaviour (Step (F := F) (T := T))} {n m : ℕ} (hnm : n ≤ m)
    (h : (x.state n).ControlInv) : (x.state n).line <+: (x.state m).line := by
  refine (x.invariant (I := fun s => s.ControlInv ∧ (x.state n).line <+: s.line) ?_ hnm
    ⟨h, List.prefix_refl _⟩).2
  rintro s a t ⟨hctl, hline⟩ hst
  refine ⟨hctl.step s a t hst, hline.trans ?_⟩
  rw [hctl.line_step hst]
  exact List.prefix_append _ _

/-- A functor that has been called has been called. -/
theorem mem_ran {x : Behaviour (Step (F := F) (T := T))} {n m : ℕ} {cb : F} (hnm : n ≤ m)
    (h : (x.state n).ControlInv) (hran : cb ∈ (x.state n).ran) : cb ∈ (x.state m).ran := by
  refine (x.invariant (I := fun s => s.ControlInv ∧ cb ∈ s.ran) ?_ hnm ⟨h, hran⟩).2
  rintro s a t ⟨hctl, hmem⟩ hst
  refine ⟨hctl.step s a t hst, ?_⟩
  cases hcall : a.isCall with
  | true =>
      cases a <;> cases hcall
      rw [hst.2]
      exact List.mem_append_left _ hmem
  | false =>
      rw [(hctl.queue_step hst hcall).1]
      exact hmem

/-- What is in the line is called, as long as `StartLoop` goes on. -/
theorem Goes.callsFunctor {x : Behaviour (Step (F := F) (T := T))} (hgoes : Goes x) {n i : ℕ} {cb : F}
    (hinv : (x.state n).ControlInv ∧ (x.state n).WakeInv) (hcb : (x.state n).line[i]? = some cb)
    (hin : ∀ m, n ≤ m → (x.state m).pc ≠ .outside) :
    ∃ m, n ≤ m ∧ (x.state m).ran[i]? = some cb := by
  have hreach : ∃ m, n ≤ m ∧ (i < (x.state m).ran.length ∨ (x.state m).pc = .outside) := by
    refine x.eventually (fun s => (s.ControlInv ∧ s.WakeInv) ∧ s.line[i]? = some cb)
      (fun s => i < s.ran.length ∨ s.pc = .outside) (callRank i) (fun w s => Wait.Holds s w) ?_ ?_
      hgoes.just ⟨hinv, hcb⟩
    · rintro w s a t ⟨hs, hcbs⟩ hgoal hw hst
      rw [not_or, not_lt] at hgoal
      refine ⟨⟨kept_step s a t hs hst, hs.1.getElem?_line hst hcbs⟩, ?_⟩
      obtain ⟨hen, rfl⟩ := hst
      cases hcontrol : a.isControl with
      | true =>
          have hline := (List.getElem?_eq_some_iff.mp hcbs).1
          rcases callRank_control hs.1 hgoal.1 hline hgoal.2 hen hcontrol with hran | hout | hlt
          · exact Or.inl (Or.inl hran)
          · exact Or.inl (Or.inr hout)
          · exact Or.inr (Or.inl hlt)
      | false => exact Or.inr (callRank_quiet hw hen hcontrol)
    · rintro s ⟨hs, hcbs⟩ hgoal
      rw [not_or, not_lt] at hgoal
      have hline := (List.getElem?_eq_some_iff.mp hcbs).1
      exact exists_wait hgoal.2 (wakeup_of_line hs.1 hs.2 hgoal.1 hline)
  obtain ⟨m, hnm, hgoal⟩ := hreach
  have hran := hgoal.resolve_right (hin m hnm)
  obtain ⟨l, hl⟩ := line_mono hnm hinv.1
  have hline : (x.state m).line[i]? = some cb := by
    rwa [← hl, List.getElem?_append_left (List.getElem?_eq_some_iff.mp hcb).1]
  refine ⟨m, hnm, ?_⟩
  rwa [line, List.append_assoc, List.getElem?_append_left hran] at hline

/-- **Every functor that is pushed is called.** In every behaviour from the constructor on in which
nobody stops for ever, any number of threads push functors at any time, and functors and handlers
push others: as long as `StartLoop` goes on, the functor that was pushed as number `i + 1` becomes
number `i + 1` of those that have been called. -/
theorem callsFunctor_run {x : Behaviour (Step (F := F) (T := T))} (hnew : x.state 0 = new)
    (hgoes : Goes x) {n i : ℕ} {cb : F} (hcb : (x.state n).line[i]? = some cb)
    (hin : ∀ m, n ≤ m → (x.state m).pc ≠ .outside) :
    ∃ m, n ≤ m ∧ (x.state m).ran[i]? = some cb := by
  refine hgoes.callsFunctor (x.invariant kept_step (Nat.zero_le n) ?_) hcb hin
  rw [hnew]
  exact ⟨controlInv_new, fun _ _ hne => absurd rfl hne⟩

/-! ## `StartLoop` returns -/

/-- How far the loop thread is from the end of `StartLoop`. -/
def quitRank (s : CEventLoop F T) : ℕ ×ₗ ℕ := s.pc.quitRank s.functors.length s.wakeupCounter

/-- A step of the loop thread from one position to the next, up to the condition of the loop. -/
theorem quitRank_control {s : CEventLoop F T} {a : Action F T} (hin : s.pc ≠ .outside)
    (hen : a.Enabled s) (ha : a.isControl = true) (htest : a ≠ .testQuit) :
    (a.next s).quitRank < s.quitRank := by
  cases a with
  | startLoop => exact absurd hen.1 hin
  | testQuit => exact absurd rfl htest
  | poll readable =>
      have hpc := hen.1
      simp only [quitRank, Action.next, hpc, LoopPc.quitRank, Prod.Lex.toLex_lt_toLex]
      split_ifs <;> omega
  | enterDoPendingFunctors =>
      have hpc := hen.1
      simp [quitRank, Action.next, hpc, LoopPc.quitRank, Prod.Lex.toLex_lt_toLex]
  | swap =>
      have hpc : s.pc = .aboutToSwap := hen
      simp [quitRank, Action.next, hpc, LoopPc.quitRank, Prod.Lex.toLex_lt_toLex]
  | callFunctor =>
      obtain ⟨hpc, hne⟩ := hen
      obtain ⟨cb, rest, hcons⟩ := List.exists_cons_of_ne_nil hne
      simp [quitRank, Action.next, hpc, hcons, LoopPc.quitRank, Prod.Lex.toLex_lt_toLex]
      omega
  | returnFunctor =>
      have hpc := hen.1
      simp [quitRank, Action.next, hpc, LoopPc.quitRank, Prod.Lex.toLex_lt_toLex]
  | leaveDoPendingFunctors =>
      obtain ⟨hpc, hnil⟩ := hen
      simp [quitRank, Action.next, hpc, hnil, LoopPc.quitRank, Prod.Lex.toLex_lt_toLex]
  | _ => cases ha

/-- If the loop is to end, every step from one position to the next brings the end nearer. -/
theorem Heeds.quitRank_control {s : CEventLoop F T} {a : Action F T} (h : s.Heeds)
    (hin : s.pc ≠ .outside) (hen : a.Enabled s) (ha : a.isControl = true) :
    (a.next s).pc = .outside ∨ (a.next s).quitRank < s.quitRank := by
  by_cases htest : a = .testQuit
  · subst htest
    exact Or.inl (h.testQuit ⟨hen, rfl⟩)
  · exact Or.inr (CEventLoop.quitRank_control hin hen ha htest)

/-- Every other step leaves it where it is, or ends a wait for a wakeup. -/
theorem quitRank_quiet {s : CEventLoop F T} {a : Action F T} {w : Wait T} (hw : w.Holds s)
    (hen : a.Enabled s) (ha : a.isControl = false) :
    (a.next s).quitRank < s.quitRank ∨
      (a.next s).quitRank = s.quitRank ∧ w.Holds (a.next s) := by
  obtain ⟨⟨hpc, -, hfunctors⟩, -, -⟩ := quiet_step hen ha
  rcases hw.quiet hen ha with ⟨hholds, hcounter⟩ | ⟨hat, hzero, hpos⟩
  · refine Or.inr ⟨?_, hholds⟩
    unfold quitRank
    rw [hpc, hfunctors]
    cases hp : s.pc with
    | atPoll => simp only [LoopPc.quitRank, hcounter hp]
    | _ => rfl
  · left
    simp [quitRank, LoopPc.quitRank, Prod.Lex.toLex_lt_toLex, hpc, hat, hzero, hpos]

/-- **`QuitLoop` ends the loop.** In every behaviour in which nobody stops for ever: after a call of
`QuitLoop`, by the loop thread or by another one, `StartLoop` returns, if the loop thread is inside,
whatever is pushed and called meanwhile. -/
theorem quitReturns_run {x : Behaviour (Step (F := F) (T := T))} (hgoes : Goes x) {n : ℕ}
    {a : Action F T} (ha : a.IsQuit) (hst : Step (x.state n) a (x.state (n + 1))) :
    ∃ m, n < m ∧ (x.state m).pc = .outside := by
  obtain ⟨hheeds, -⟩ := heeds_of_quit ha hst
  refine x.eventually (n := n + 1) (fun s => s.pc ≠ .outside → s.Heeds) (fun s => s.pc = .outside)
    quitRank (fun w s => Wait.Holds s w) ?_ ?_ hgoes.just fun _ => hheeds
  · intro w s b t hs hgoal hw hst
    refine ⟨fun hpc => ?_, ?_⟩
    · by_cases hb : b = .testQuit
      · rw [hb] at hst
        exact absurd ((hs hgoal).testQuit hst) hpc
      · exact ((hs hgoal).step hgoal hst hb).1
    · obtain ⟨hen, rfl⟩ := hst
      cases hcontrol : b.isControl with
      | true => exact ((hs hgoal).quitRank_control hgoal hen hcontrol).imp_right Or.inl
      | false => exact Or.inr (quitRank_quiet hw hen hcontrol)
  · intro s hs hgoal
    refine exists_wait hgoal fun hat => ?_
    exact ((hs hgoal).2 hat).imp_right fun ⟨t, ht⟩ => ⟨t, by simp [ht]⟩

/-- As long as `StartLoop` goes on, the loop thread comes to `Poll` again. -/
theorem Goes.exists_atPoll {x : Behaviour (Step (F := F) (T := T))} (hgoes : Goes x) {n : ℕ}
    (hin : ∀ m, n ≤ m → (x.state m).pc ≠ .outside) :
    ∃ m, n ≤ m ∧ (x.state m).pc = .atPoll := by
  have hreach : ∃ m, n ≤ m ∧ ((x.state m).pc = .atPoll ∨ (x.state m).pc = .outside) := by
    refine x.eventually (fun _ => True) (fun s => s.pc = .atPoll ∨ s.pc = .outside) quitRank
      (fun w s => Wait.Holds s w) ?_ ?_ hgoes.just trivial
    · rintro w s a t - hgoal hw ⟨hen, rfl⟩
      rw [not_or] at hgoal
      refine ⟨trivial, ?_⟩
      cases hcontrol : a.isControl with
      | true =>
          by_cases htest : a = .testQuit
          · subst htest
            by_cases hquit : s.quit = true <;> simp [Action.next, hquit]
          · exact Or.inr (Or.inl (quitRank_control hgoal.2 hen hcontrol htest))
      | false => exact Or.inr (quitRank_quiet hw hen hcontrol)
    · rintro s - hgoal
      rw [not_or] at hgoal
      exact exists_wait hgoal.2 fun hat => absurd hat hgoal.1
  obtain ⟨m, hnm, hat | hout⟩ := hreach
  · exact ⟨m, hnm, hat⟩
  · exact absurd hout (hin m hnm)

/-- From `Poll`, the loop thread goes to the handlers. -/
theorem pc_of_atPoll {s : CEventLoop F T} {a : Action F T} (hen : a.Enabled s) (hpc : s.pc = .atPoll) :
    (a.next s).pc = .atPoll ∨ (a.next s).pc = .handling := by
  cases a with
  | poll readable => exact Or.inr rfl
  | startLoop | testQuit | enterDoPendingFunctors | swap | callFunctor | returnFunctor
  | leaveDoPendingFunctors => simp [Action.Enabled, hpc] at hen
  | handleRead | queueInLoop | wakeup | quitLoop | threadQueueInLoop | threadQuitLoop
  | threadWakeup => exact Or.inl hpc

/-! ## Two behaviours -/

/-- A behaviour in which nobody stops before the end, and at the end, nobody has anything to do. -/
theorem Goes.of_stays {x : Behaviour (Step (F := F) (T := T))} {e : ℕ}
    (hstays : ∀ n, e ≤ n → x.state n = x.state e)
    (hleaves : ∀ n, n < e → (x.state n).pc ≠ .outside →
      ((x.state n).pc = .atPoll → 0 < (x.state n).wakeupCounter) →
      ∃ m, m < e + 1 ∧ n ≤ m ∧ (x.state m).pc ≠ (x.state n).pc)
    (hreturns : ∀ n, n < e → ∀ t, (x.state n).threads t ≠ .idle →
      ∃ m, m < e + 1 ∧ n ≤ m ∧ (x.state m).threads t = .idle)
    (hend : (x.state e).pc = .outside ∨ (x.state e).pc = .atPoll ∧ (x.state e).wakeupCounter = 0)
    (hidle : ∀ t, (x.state e).threads t = .idle) : Goes x where
  leaves n hin hpoll := by
    by_cases hn : n < e
    · obtain ⟨m, -, hnm, hm⟩ := hleaves n hn hin hpoll
      exact ⟨m, hnm, hm⟩
    · rw [hstays n (by omega)] at hin hpoll
      rcases hend with hout | ⟨hat, hzero⟩
      · exact absurd hout hin
      · have hpos := hpoll hat
        omega
  returns n t ht := by
    by_cases hn : n < e
    · obtain ⟨m, -, hnm, hm⟩ := hreturns n hn t ht
      exact ⟨m, hnm, hm⟩
    · rw [hstays n (by omega)] at ht
      exact absurd (hidle t) ht

/-- A functor is pushed while the loop thread is in front of `Poll`, and called; then the loop
thread stays in `Poll`. -/
def pushedAtPoll : Behaviour (Step (F := ℕ) (T := Unit)) :=
  .ofLabels new [.startLoop, .testQuit, .threadQueueInLoop () 7, .threadWakeup () true, .poll true,
    .handleRead, .enterDoPendingFunctors, .swap, .callFunctor, .returnFunctor,
    .leaveDoPendingFunctors, .testQuit] (by decide)

/-- The theorem on this functor. -/
theorem callsFunctor_run_pushedAtPoll :
    Goes pushedAtPoll ∧ ∃ m, 3 ≤ m ∧ (pushedAtPoll.state m).ran[0]? = some 7 := by
  have hstays : ∀ n, 12 ≤ n → pushedAtPoll.state n = pushedAtPoll.state 12 :=
    fun n hn => Behaviour.ofLabels_state_of_le _ hn
  have hgoes : Goes pushedAtPoll :=
    .of_stays hstays (by decide) (by decide) (by decide) (by decide)
  have hin : ∀ m, 3 ≤ m → (pushedAtPoll.state m).pc ≠ .outside := by
    intro m hm
    by_cases hlt : m < 12
    · revert m
      decide
    · rw [hstays m (by omega)]
      decide
  exact ⟨hgoes, callsFunctor_run rfl hgoes rfl hin⟩

/-- `QuitLoop` is called while the loop thread is in front of `Poll`. -/
def quitAtPoll : Behaviour (Step (F := ℕ) (T := Unit)) :=
  .ofLabels new [.startLoop, .testQuit, .threadQuitLoop (), .threadWakeup () true, .poll true,
    .handleRead, .enterDoPendingFunctors, .swap, .leaveDoPendingFunctors, .testQuit] (by decide)

/-- The theorem on this call. -/
theorem quitReturns_run_quitAtPoll :
    Goes quitAtPoll ∧ ∃ m, 2 < m ∧ (quitAtPoll.state m).pc = .outside := by
  have hstays : ∀ n, 10 ≤ n → quitAtPoll.state n = quitAtPoll.state 10 :=
    fun n hn => Behaviour.ofLabels_state_of_le _ hn
  have hgoes : Goes quitAtPoll :=
    .of_stays hstays (by decide) (by decide) (by decide) (by decide)
  have hst : Step (quitAtPoll.state 2) (.threadQuitLoop ()) (quitAtPoll.state 3) := ⟨rfl, rfl⟩
  have hquit : (Action.threadQuitLoop () : Action ℕ Unit).IsQuit := trivial
  exact ⟨hgoes, quitReturns_run hgoes hquit hst⟩

end CEventLoop

end Neconet
