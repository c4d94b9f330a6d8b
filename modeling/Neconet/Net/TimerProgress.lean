import Neconet.Net.LoopProgress
import Neconet.Net.TimerAlarm
import Neconet.Net.TimerPlaces

/-!
# The timerfd is reported

What a loop with timers comes to in the end, if nobody stops for ever: callbacks, handlers and
functors return, time passes, and a timerfd that is readable at one `Poll` after the other is
reported by one of them. While timers wait, the timerfd becomes readable: it is set anew only for an
earlier expiration, and expirations have 64 bits.

* `Goes`: nobody stops for ever.
* `ProgressInv`: what holds in all states.
* `Goes.leavesHandling`: the loop thread leaves the handlers, so a pass ends.
* `Goes.rings`: if the set is not empty, the timerfd is reported.
* `Goes.passBegins`: then a pass takes out of the set what is due.
-/

namespace Neconet

set_option linter.unusedSectionVars false

open Transition

/-! ## Passes end -/

/-- How far the pass is from its end. -/
def Pass.rank : Pass → ℕ
  | running _ ran rest => ran.length + 3 * rest.length + 2
  | inCallback _ ran rest => ran.length + 3 * rest.length + 3
  | resetting _ rest => rest.length + 1
  | idle | destroyed => 0

/-- A step of a pass brings its end nearer, whatever callbacks have added. -/
theorem CTimerQueue.Effect.rank_lt {s s' : CTimerQueue} {a : CTimerQueue.Action}
    (h : CTimerQueue.Effect s a s') (ha : a.InPass) : s'.pass.rank < s.pass.rank := by
  cases h with
  | run hpass | returnCallback hpass | beginReset hpass | restart hpass | free hpass
  | endReset now hpass =>
      simp only [hpass, Pass.rank, List.length_append, List.length_cons, List.length_nil]
      omega
  | addTimer | queueTimer | callFunctor | handleRead | destroy => exact absurd ha id

/-! ## The behaviours -/

namespace ClockedLoop

variable {F T : Type}

/-- What the behaviours are about: no repeating timer is made with a negative interval, and no
expiration is too small for its type. -/
def Action.TimerOk (a : Action F T) : Prop :=
  ∀ b ∈ a.onTimed.flatMap TimedLoop.Action.onTimers, b.IntervalOk ∧ b.WhenOk

instance (a : Action F T) : Decidable a.TimerOk :=
  inferInstanceAs (Decidable (∀ b ∈ a.onTimed.flatMap TimedLoop.Action.onTimers,
    b.IntervalOk ∧ b.WhenOk))

/-- Where the loop thread is, in a handler with the place in the pass and with whether the handler
of the timerfd has been called. -/
def place (s : ClockedLoop F T) : LoopPc × Pass × Bool :=
  (s.timed.loop.pc, s.timed.timerQueue.pass, s.timed.timerActive)

variable [DecidableEq T]

/-- The steps that meet it. -/
def Legal (s : ClockedLoop F T) (a : Action F T) (s' : ClockedLoop F T) : Prop :=
  a.TimerOk ∧ Step s a s'

/-- Nobody stops for ever. -/
structure Goes (x : Behaviour (Legal (F := F) (T := T))) : Prop where
  /-- The loop thread leaves its place, unless it is in front of a `Poll` with nothing to report. -/
  leaves : ∀ n, (x.state n).timed.loop.pc ≠ .outside →
    ((x.state n).timed.loop.pc = .atPoll →
      0 < (x.state n).timed.loop.wakeupCounter ∨ (x.state n).Readable) →
    ∃ m, n ≤ m ∧ (x.state m).place ≠ (x.state n).place
  /-- The other threads come to the end of their calls. -/
  returns : ∀ n t, (x.state n).timed.loop.threads t ≠ .idle →
    ∃ m, n ≤ m ∧ (x.state m).timed.loop.threads t = .idle
  /-- Time passes. -/
  time : ∀ c, ∃ n, c ≤ (x.state n).clock
  /-- If `Poll` returns again and again while the timerfd is readable, it reports the timerfd. -/
  reports : ∀ n, (∀ m, n ≤ m → ∃ k, m ≤ k ∧ (x.state k).Readable ∧
    (x.state k).timed.loop.pc = .atPoll ∧ (x.state (k + 1)).timed.loop.pc = .handling) →
    ∃ k, n ≤ k ∧ (x.state k).timed.timerActive = true

/-! ## What holds in all states -/

/-- What holds in all states. -/
structure ProgressInv (s : ClockedLoop F T) : Prop where
  /-- The timerfd and the timers. -/
  alarm : s.AlarmInv
  /-- A report is handled before the handlers are left. -/
  pc_of_active : s.timed.timerActive = true → s.timed.loop.pc = .handling
  /-- The timers are not destroyed. -/
  alive : s.timed.timerQueue.pass ≠ .destroyed
  /-- What has happened to the timers. -/
  log : s.timed.timerQueue.LogInv
  /-- No expiration is too small for its type. -/
  le_expiration : ∀ p t, s.timed.timerQueue.heap p = some t → -2 ^ 63 ≤ t.expiration

/-- A new loop at a positive time. -/
theorem progressInv_new {start : ℤ} (hstart : 0 < start) :
    ProgressInv (new start : ClockedLoop F T) where
  alarm := alarmInv_new hstart
  pc_of_active h := by cases h
  alive := nofun
  log := CTimerQueue.logInv_new
  le_expiration p t ht := by cases ht

/-- A step leaves the timers alone or takes one step of theirs. -/
theorem AlarmInv.queue_step {s s' : ClockedLoop F T} {a : Action F T} (h : s.AlarmInv)
    (hst : Step s a s') : s'.timed.timerQueue = s.timed.timerQueue ∨
      ∃ b ∈ a.onTimed.flatMap TimedLoop.Action.onTimers, b ≠ .destroy ∧
        (∀ now ∈ b.time?, now = s.clock) ∧
        CTimerQueue.Effect s.timed.timerQueue b s'.timed.timerQueue := by
  cases hst with
  | tick d => exact Or.inl rfl
  | @act a timed htime hfires htimed =>
      have hrun := (h.link.step _ _ _ htimed).2.2
      have hdestroy := destroy_not_mem htimed
      have hlen : a.onTimers.length ≤ 1 := by cases a <;> simp [TimedLoop.Action.onTimers]
      simp only [Action.onTimed, List.flatMap_singleton]
      cases hsteps : a.onTimers with
      | nil =>
          rw [hsteps, run_nil_iff] at hrun
          exact Or.inl hrun.symm
      | cons b bs =>
          have hnil : bs = [] := by
            rw [hsteps, List.length_cons] at hlen
            exact List.length_eq_zero_iff.mp (by omega)
          subst hnil
          rw [hsteps] at hrun hdestroy htime
          obtain ⟨q, hb, hend⟩ := run_cons_iff.mp hrun
          obtain rfl := run_nil_iff.mp hend
          refine Or.inr ⟨b, List.mem_singleton_self b, ?_, htime b (List.mem_singleton_self b),
            h.link.own.effect hb⟩
          rintro rfl
          exact hdestroy (List.mem_singleton_self _)

/-- A step leaves the loop alone or takes one step of its own. -/
theorem loop_step {s s' : ClockedLoop F T} {a : Action F T} (hst : Step s a s') :
    s'.timed.loop = s.timed.loop ∨ ∃ b, CEventLoop.Step s.timed.loop b s'.timed.loop := by
  cases hst with
  | tick d => exact Or.inl rfl
  | act htime hfires htimed =>
      cases htimed with
      | loop ha hloop => exact Or.inr ⟨_, hloop⟩
      | poll readable fired hfired hloop => exact Or.inr ⟨_, hloop⟩
      | threadAddTimer t iWhen delta repeats p hloop => exact Or.inr ⟨_, hloop⟩
      | callAddTimer now hfault hfunctors hloop => exact Or.inr ⟨_, hloop⟩
      | handleTimer | inPass | addTimer => exact Or.inl rfl

/-- Every step keeps it so. -/
theorem ProgressInv.step {s s' : ClockedLoop F T} {a : Action F T} (h : s.ProgressInv)
    (hst : Legal s a s') : s'.ProgressInv := by
  obtain ⟨hok, hst⟩ := hst
  have halarm := AlarmInv.step s a s' h.alarm (fun b hb => (hok b hb).1) hst
  have hactive : s'.timed.timerActive = true → s'.timed.loop.pc = .handling := by
    intro hset
    cases hst with
    | tick d => exact h.pc_of_active hset
    | act htime hfires htimed =>
        cases htimed with
        | @loop b loop ha hloop =>
            obtain ⟨hen, rfl⟩ := hloop
            refine CEventLoop.pc_of_handling hen (h.pc_of_active hset) ?_
            rintro rfl
            exact absurd hset (by simp [show s.timed.timerActive = false from ha.2])
        | poll readable fired hfired hloop =>
            obtain ⟨-, rfl⟩ := hloop
            rfl
        | handleTimer => cases hset
        | inPass | addTimer => exact h.pc_of_active hset
        | threadAddTimer t iWhen delta repeats p hloop =>
            obtain ⟨-, rfl⟩ := hloop
            exact h.pc_of_active hset
        | callAddTimer now hfault hfunctors hloop =>
            have hpc := h.pc_of_active hset
            rw [hloop.1.1] at hpc
            cases hpc
  rcases h.alarm.queue_step hst with hsame | ⟨b, hb, hdestroy, -, heffect⟩
  · refine ⟨halarm, hactive, ?_, ?_, ?_⟩ <;> rw [hsame]
    · exact h.alive
    · exact h.log
    · exact h.le_expiration
  · refine ⟨halarm, hactive, ?_, h.log.step h.alarm.link.own heffect hdestroy,
      heffect.le_expiration h.alarm.arm (hok b hb).2 h.le_expiration⟩
    have halive := h.alive
    generalize s'.timed.timerQueue = q at heffect
    cases heffect with
    | destroy => exact absurd rfl hdestroy
    | addTimer | queueTimer | callFunctor => exact halive
    | handleRead | run | returnCallback | beginReset | restart | free | endReset => exact nofun

/-! ## The handlers end -/

section behaviour

variable {x : Behaviour (Legal (F := F) (T := T))} {n : ℕ}

/-- It holds in all states. -/
theorem progressInv_state {start : ℤ} (hstart : 0 < start) (hnew : x.state 0 = new start) (n : ℕ) :
    (x.state n).ProgressInv := by
  refine x.invariant (fun s a t h hst => h.step hst) (Nat.zero_le n) ?_
  rw [hnew]
  exact progressInv_new hstart

/-- The time does not go back. -/
theorem clock_le {m : ℕ} (hnm : n ≤ m) : (x.state n).clock ≤ (x.state m).clock := by
  refine x.invariant (I := fun s => (x.state n).clock ≤ s.clock) ?_ hnm le_rfl
  rintro s a t hle ⟨-, hst⟩
  cases hst with
  | tick d => exact hle.trans (by simp)
  | act => exact hle

/-- How far the loop thread is from the end of the handlers. -/
def handlersRank (s : ClockedLoop F T) : ℕ ×ₗ ℕ :=
  toLex (if s.timed.timerActive then 1 else 0, s.timed.timerQueue.pass.rank)

/-- A step in the handlers leaves the place, brings the end nearer, or is none of the timers'. -/
theorem ProgressInv.handlersRank_step {s s' : ClockedLoop F T} {a : Action F T}
    (h : s.ProgressInv) (hpc : s.timed.loop.pc = .handling) (hst : Step s a s') :
    s'.timed.loop.pc ≠ .handling ∨ s'.handlersRank < s.handlersRank ∨ s'.place = s.place := by
  cases hst with
  | tick d => exact Or.inr (Or.inr rfl)
  | act htime hfires htimed =>
      cases htimed with
      | @loop b loop ha hloop =>
          by_cases hloop' : loop.pc = .handling
          · exact Or.inr (Or.inr (by simp [place, hloop', hpc]))
          · exact Or.inl hloop'
      | poll readable fired hfired hloop =>
          have hat := hloop.1.1
          simp [hpc] at hat
      | handleTimer iNow hpc' hactive htimers =>
          refine Or.inr (Or.inl ?_)
          simp [handlersRank, Prod.Lex.toLex_lt_toLex, hactive]
      | inPass ha htimers =>
          refine Or.inr (Or.inl ?_)
          rw [handlersRank, handlersRank, Prod.Lex.toLex_lt_toLex]
          exact Or.inr ⟨rfl, (h.alarm.link.own.effect htimers).rank_lt ha⟩
      | addTimer iWhen delta repeats p now huser htimers =>
          refine Or.inr (Or.inr ?_)
          have heffect := h.alarm.link.own.effect htimers
          simp only [place, Prod.mk.injEq, true_and, and_true]
          cases heffect with
          | addTimer => rfl
      | threadAddTimer t iWhen delta repeats p hloop htimers =>
          refine Or.inr (Or.inr ?_)
          obtain ⟨-, rfl⟩ := hloop
          have heffect := h.alarm.link.own.effect htimers
          simp only [place, CEventLoop.Action.next, CEventLoop.push, Prod.mk.injEq, true_and, and_true]
          cases heffect with
          | queueTimer => rfl
      | callAddTimer now hfault hfunctors hloop =>
          have hrunning := hloop.1.1
          simp [hpc] at hrunning

/-- The loop thread leaves the handlers. -/
theorem Goes.leavesHandling (hgoes : Goes x) (hinv : ∀ n, (x.state n).ProgressInv) (n : ℕ) :
    ∃ m, n ≤ m ∧ (x.state m).timed.loop.pc ≠ .handling := by
  refine x.eventually ProgressInv (fun s => s.timed.loop.pc ≠ .handling) handlersRank
    (fun i s => s.place = (.handling, i)) ?_ ?_ ?_ (hinv n)
  · intro i s a t hs hgoal hi hst
    refine ⟨hs.step hst, ?_⟩
    rcases hs.handlersRank_step (not_not.mp hgoal) hst.2 with hleft | hlt | hsame
    · exact Or.inl hleft
    · exact Or.inr (Or.inl hlt)
    · refine Or.inr (Or.inr ⟨?_, hsame.trans hi⟩)
      simp only [place, Prod.mk.injEq] at hsame
      rw [handlersRank, handlersRank, hsame.2.1, hsame.2.2]
  · intro s hs hgoal
    exact ⟨(s.timed.timerQueue.pass, s.timed.timerActive), by rw [place, not_not.mp hgoal]⟩
  · intro i m hi
    have hpc : (x.state m).timed.loop.pc = .handling := congrArg Prod.fst hi
    obtain ⟨k, hmk, hk⟩ := hgoes.leaves m (by simp [hpc]) (by simp [hpc])
    exact ⟨k, hmk, fun hsame => hk (hsame.trans hi.symm)⟩

/-- A pass ends. -/
theorem Goes.pass_idle (hgoes : Goes x) (hinv : ∀ n, (x.state n).ProgressInv) (n : ℕ) :
    ∃ m, n ≤ m ∧ (x.state m).timed.timerQueue.pass = .idle := by
  obtain ⟨m, hnm, hm⟩ := hgoes.leavesHandling hinv n
  exact ⟨m, hnm, (hinv m).alarm.link.pass_eq hm⟩

/-- Outside the handlers, the place is the position in the loop. -/
theorem ProgressInv.place_eq {s : ClockedLoop F T} (h : s.ProgressInv)
    (hpc : s.timed.loop.pc ≠ .handling) : s.place = (s.timed.loop.pc, .idle, false) := by
  have hactive : s.timed.timerActive = false := by
    rw [← Bool.not_eq_true]
    exact mt h.pc_of_active hpc
  rw [place, h.alarm.link.pass_eq hpc, hactive]

/-- The loop thread leaves every position in the loop, unless it is in front of a `Poll` with
nothing to report. -/
theorem Goes.leavesPosition (hgoes : Goes x) (hinv : ∀ n, (x.state n).ProgressInv)
    (hin : (x.state n).timed.loop.pc ≠ .outside)
    (hpoll : (x.state n).timed.loop.pc = .atPoll →
      0 < (x.state n).timed.loop.wakeupCounter ∨ (x.state n).Readable) :
    ∃ m, n ≤ m ∧ (x.state m).timed.loop.pc ≠ (x.state n).timed.loop.pc := by
  by_cases hpc : (x.state n).timed.loop.pc = .handling
  · rw [hpc]
    exact hgoes.leavesHandling hinv n
  · obtain ⟨m, hnm, hm⟩ := hgoes.leaves n hin hpoll
    refine ⟨m, hnm, fun hsame => hm ?_⟩
    rw [(hinv m).place_eq (hsame ▸ hpc), (hinv n).place_eq hpc, hsame]

/-- The behaviour of the loop itself. -/
def loopBehaviour (x : Behaviour (Legal (F := F) (T := T))) :
    Behaviour (CEventLoop.Step (F := LoopFunctor F) (T := T)) :=
  x.map (fun s => s.timed.loop) fun n => by
    rcases x.move n with hsame | ⟨a, -, hst⟩
    · exact Or.inl (by rw [hsame])
    · exact loop_step hst

/-- Nobody stops for ever in it. -/
theorem Goes.loop (hgoes : Goes x) (hinv : ∀ n, (x.state n).ProgressInv) :
    CEventLoop.Goes (loopBehaviour x) where
  leaves _ hin hpoll := hgoes.leavesPosition hinv hin fun hat => Or.inl (hpoll hat)
  returns := hgoes.returns

/-! ## The timerfd is reported -/

/-- While `StartLoop` goes on and the timerfd is readable, `Poll` returns again. -/
theorem Goes.polls (hgoes : Goes x) (hinv : ∀ n, (x.state n).ProgressInv)
    (hin : ∀ m, n ≤ m → (x.state m).timed.loop.pc ≠ .outside)
    (hreadable : ∀ m, n ≤ m → (x.state m).Readable) :
    ∃ k, n ≤ k ∧ (x.state k).Readable ∧ (x.state k).timed.loop.pc = .atPoll ∧
      (x.state (k + 1)).timed.loop.pc = .handling := by
  obtain ⟨m, hnm, hat⟩ := (hgoes.loop hinv).exists_atPoll hin
  obtain ⟨m', hmm', hleft⟩ :=
    hgoes.leavesPosition hinv (hin m hnm) fun _ => Or.inr (hreadable m hnm)
  obtain ⟨k, a, hmk, hatk, ⟨-, hst⟩, hnot⟩ :=
    x.exists_last (P := fun s => s.timed.loop.pc = .atPoll) hat
      ⟨m', hmm', fun hat' => hleft (hat'.trans hat.symm)⟩
  refine ⟨k, hnm.trans hmk, hreadable k (hnm.trans hmk), hatk, ?_⟩
  rcases loop_step hst with hsame | ⟨b, hen, hnext⟩
  · rw [hsame] at hnot
    exact absurd hatk hnot
  · rw [hnext] at hnot ⊢
    exact (CEventLoop.pc_of_atPoll hen hatk).resolve_left hnot

/-- A setting of the timerfd does not last without a report. -/
theorem Goes.setting_changes (hgoes : Goes x) (hinv : ∀ n, (x.state n).ProgressInv)
    (hin : ∀ m, n ≤ m → (x.state m).timed.loop.pc ≠ .outside) (g : Setting) (k : ℕ) :
    ∃ m, k ≤ m ∧ ¬ ((x.state m).timed.timerQueue.setting = some g ∧
      (x.state m).timed.timerActive = false) := by
  by_contra! hlasts
  obtain ⟨late, hlate⟩ := hgoes.time |1000 * g.now + g.value.nanoseconds|
  -- from `late` on, the timerfd is readable
  have hreadable : ∀ m, max (max k n) late ≤ m → (x.state m).Readable := by
    intro m hm
    refine ⟨g, (hlasts m (by omega)).1, ?_⟩
    have hclock := clock_le (x := x) (show late ≤ m by omega)
    have habs := le_abs_self (1000 * g.now + g.value.nanoseconds)
    have hnonneg := abs_nonneg (1000 * g.now + g.value.nanoseconds)
    omega
  obtain ⟨m, hm, hactive⟩ := hgoes.reports (max (max k n) late) fun m hm =>
    hgoes.polls hinv (fun j hj => hin j (by omega)) fun j hj => hreadable j (hm.trans hj)
  rw [(hlasts m (by omega)).2] at hactive
  cases hactive

/-- The first expiration, counted from the smallest one. -/
def firstRank (s : ClockedLoop F T) : ℕ :=
  match s.timed.timerQueue.timers.begin? with
  | some e => (e.first + 2 ^ 63).toNat
  | none => 0

/-- No entry expires too early. -/
theorem ProgressInv.le_first {s : ClockedLoop F T} (h : s.ProgressInv) {e : Entry}
    (he : s.timed.timerQueue.timers.begin? = some e) : -2 ^ 63 ≤ e.first := by
  obtain ⟨t, ht, hfirst⟩ := h.alarm.link.own.key e (OrderedSet.begin?_eq_some.mp he).1
  rw [← hfirst]
  exact h.le_expiration _ t ht

/-- No pass is made, and the set is not empty. -/
def Waits (s : ClockedLoop F T) : Prop :=
  s.timed.timerQueue.pass = .idle ∧ ∃ e, s.timed.timerQueue.timers.begin? = some e

/-- Without a report, a step lowers the first expiration or leaves the timerfd alone. -/
theorem ProgressInv.firstRank_step {s s' : ClockedLoop F T} {a : Action F T} (h : s.ProgressInv)
    (hwaits : s.Waits) (hactive : s.timed.timerActive = false) (hst : Legal s a s') :
    s'.Waits ∧ (s'.firstRank < s.firstRank ∨ s'.firstRank = s.firstRank ∧
      s'.timed.timerQueue.setting = s.timed.timerQueue.setting) := by
  have h' := h.step hst
  obtain ⟨hpass, e, he⟩ := hwaits
  rcases h.alarm.queue_step hst.2 with hsame | ⟨b, hb, hdestroy, -, heffect⟩
  · rw [Waits, firstRank, firstRank, hsame]
    exact ⟨⟨hpass, e, he⟩, Or.inr ⟨rfl, rfl⟩⟩
  · have hread : ∀ iNow, b ≠ .handleRead iNow := by
      rintro iNow rfl
      have htimed := hst.2
      cases htimed with
      | tick d => cases hb
      | act htime hfires htimed =>
          cases htimed with
          | handleTimer iNow' hpc hset => simp [hactive] at hset
          | inPass ha =>
              simp only [Action.onTimed, List.flatMap_singleton, TimedLoop.Action.onTimers,
                List.mem_singleton] at hb
              subst hb
              exact ha
          | loop | poll | addTimer | threadAddTimer | callAddTimer =>
              simp [Action.onTimed, TimedLoop.Action.onTimers] at hb
    obtain ⟨hpass', e', he', hfirst⟩ := heffect.exists_begin? hdestroy hread hpass he
    refine ⟨⟨hpass', e', he'⟩, ?_⟩
    have hle := h'.le_first he'
    simp only [firstRank, he, he']
    rcases hfirst with hlt | ⟨heq, hsetting⟩
    · left
      omega
    · rw [heq]
      exact Or.inr ⟨rfl, hsetting⟩

/-- While `StartLoop` goes on and the set is not empty, the timerfd is reported. -/
theorem Goes.rings (hgoes : Goes x) (hinv : ∀ n, (x.state n).ProgressInv)
    (hin : ∀ m, n ≤ m → (x.state m).timed.loop.pc ≠ .outside) (hwaits : (x.state n).Waits) :
    ∃ m, n ≤ m ∧ (x.state m).timed.timerActive = true := by
  refine x.eventually (fun s => s.ProgressInv ∧ s.Waits) (fun s => s.timed.timerActive = true)
    firstRank
    (fun g s => s.timed.timerQueue.setting = some g ∧ s.timed.timerActive = false) ?_ ?_
    (fun g k _ => hgoes.setting_changes hinv hin g k) ⟨hinv n, hwaits⟩
  · rintro g s a t ⟨hs, hwaits⟩ hgoal ⟨hset, hactive⟩ hst
    obtain ⟨hwaits', hfirst⟩ := hs.firstRank_step hwaits hactive hst
    refine ⟨⟨hs.step hst, hwaits'⟩, ?_⟩
    cases hactive' : t.timed.timerActive with
    | true => exact Or.inl rfl
    | false => exact Or.inr (hfirst.imp_right fun hsame => ⟨hsame.1, hsame.2.trans hset, rfl⟩)
  · rintro s ⟨hs, hpass, e, he⟩ hgoal
    obtain ⟨now, hset⟩ := hs.alarm.arm.armed e he (Or.inl hpass)
    exact ⟨_, hset, by simpa using hgoal⟩

/-- After a report, a pass takes out of the set what is due. -/
theorem Goes.passBegins (hgoes : Goes x) (hinv : ∀ n, (x.state n).ProgressInv)
    (hactive : (x.state n).timed.timerActive = true) :
    ∃ m, n ≤ m ∧ ∀ e ∈ (x.state m).timed.timerQueue.timers, (x.state m).clock < e.first := by
  obtain ⟨m, hnm, hleft⟩ := hgoes.leavesHandling hinv n
  obtain ⟨k, a, hnk, hactivek, ⟨-, hst⟩, hnot⟩ :=
    x.exists_last (P := fun s => s.timed.timerActive = true) hactive
      ⟨m, hnm, mt (hinv m).pc_of_active hleft⟩
  refine ⟨k + 1, by omega, ?_⟩
  have hpc := (hinv k).pc_of_active hactivek
  have hown := (hinv k).alarm.link.own
  generalize x.state (k + 1) = s' at hst hnot ⊢
  cases hst with
  | tick d => exact absurd hactivek hnot
  | act htime hfires htimed =>
      cases htimed with
      | handleTimer iNow hpc' hactive' htimers =>
          obtain rfl := htime (.handleRead iNow) (by simp [TimedLoop.Action.onTimers]) iNow rfl
          exact fun e he => CTimerQueue.lt_of_handleRead hown (hown.effect htimers) he
      | poll readable fired hfired hloop =>
          have hat := hloop.1.1
          simp [hpc] at hat
      | loop | inPass | addTimer | threadAddTimer | callAddTimer => exact absurd hactivek hnot

end behaviour

end ClockedLoop

end Neconet
