import Neconet.Net.TimerProgress

/-!
# Every timer runs

What becomes of every timer in the end, if nobody stops for ever: the functor to which it is bound
is called, the pass of a report takes it out of the set, it runs in that pass, and if it repeats, it
comes back to the set.

* `Goes.inSet_of_queued`, `Goes.toRun_of_inSet`, `Goes.runs_of_toRun`, `Goes.inSet_of_hasRun`: from
  place to place.
* `everyTimerRuns_run`: every timer runs, and one that repeats runs without end.
-/

namespace Neconet

set_option linter.unusedSectionVars false

open Transition

/-- When the functor at place `i` is called and is bound to the timer at `p`, that timer was the
first one that the timers knew of. -/
theorem TimedLoop.LinkInv.queued_of_called {F T : Type} [DecidableEq T] {s s' : TimedLoop F T}
    {a : TimedLoop.Action F T} (h : s.LinkInv) (hst : TimedLoop.Step s a s') {i p : ℕ}
    (hline : s.loop.line[i]? = some (.addTimerInLoop p)) (hi : s.loop.ran.length ≤ i)
    (hi' : i < s'.loop.ran.length) : s.timerQueue.queued = p :: s'.timerQueue.queued := by
  have hhead : ∀ {cb rest}, s.loop.functors = cb :: rest →
      i < (CEventLoop.Action.callFunctor.next s.loop).ran.length → cb = .addTimerInLoop p := by
    intro cb rest hfunctors hlt
    rw [(CEventLoop.queue_callFunctor hfunctors).1, List.length_append, List.length_singleton] at hlt
    obtain rfl : i = s.loop.ran.length := by omega
    simpa [CEventLoop.line, hfunctors] using hline
  have hlink := (h.step s a s' hst).1
  cases hst with
  | @loop b loop ha hloop =>
      cases hcall : b.isCall with
      | false =>
          rw [(h.control.queue_step hloop hcall).1] at hi'
          omega
      | true =>
          cases b with
          | callFunctor =>
              obtain ⟨cb, rest, hfunctors⟩ := ha
              obtain ⟨-, rfl⟩ := hloop
              cases hhead hfunctors hi'
          | _ => cases hcall
  | poll readable fired hfired hloop =>
      rw [(h.control.queue_step hloop rfl).1] at hi'
      omega
  | threadAddTimer t iWhen delta repeats q hloop =>
      rw [(h.control.queue_step hloop rfl).1] at hi'
      omega
  | handleTimer | inPass | addTimer => exact absurd hi' (not_lt.mpr hi)
  | callAddTimer now hfault hfunctors hloop =>
      have hqueued := h.callAddTimer hfunctors hloop
      have hlater := hlink.queued_eq
      obtain ⟨-, rfl⟩ := hloop
      cases hhead hfunctors hi'
      exact hqueued.trans (congrArg _ hlater)

namespace ClockedLoop

variable {F T : Type} [DecidableEq T]

section behaviour

variable {x : Behaviour (Legal (F := F) (T := T))} {n : ℕ}

/-! ## From place to place -/

/-- A step leaves the timers alone or has an effect on them, which is not that of the destructor. -/
theorem ProgressInv.effect {s s' : ClockedLoop F T} {a : Action F T} (h : s.ProgressInv)
    (hst : Legal s a s') : s'.timed.timerQueue = s.timed.timerQueue ∨
      ∃ b, b ≠ .destroy ∧ CTimerQueue.Effect s.timed.timerQueue b s'.timed.timerQueue := by
  rcases h.alarm.queue_step hst.2 with hsame | ⟨b, -, hdestroy, -, heffect⟩
  · exact Or.inl hsame
  · exact Or.inr ⟨b, hdestroy, heffect⟩

/-- What has happened to the timers stays in the log. -/
theorem log_mono (hinv : ∀ n, (x.state n).ProgressInv) {m : ℕ} (hnm : n ≤ m) :
    (x.state n).timed.timerQueue.log <+: (x.state m).timed.timerQueue.log := by
  refine (x.invariant (I := fun s => s.ProgressInv ∧
    (x.state n).timed.timerQueue.log <+: s.timed.timerQueue.log) (fun s a t hs hst => ?_) hnm
    ⟨hinv n, List.prefix_refl _⟩).2
  refine ⟨hs.1.step hst, hs.2.trans ?_⟩
  rcases hs.1.effect hst with hsame | ⟨b, -, heffect⟩
  · rw [hsame]
  · exact heffect.log_mono

section place

variable {p : ℕ} {t : CTimer}

/-- A timer of a pass runs. -/
theorem Goes.runs_of_toRun (hgoes : Goes x) (hinv : ∀ n, (x.state n).ProgressInv)
    (h : (x.state n).timed.timerQueue.ToRun p t) :
    ∃ m, n ≤ m ∧ (x.state (m + 1)).timed.timerQueue.HasRun p t ∧
      (x.state (m + 1)).timed.timerQueue.log = (x.state m).timed.timerQueue.log ++ [.run t.num] := by
  obtain ⟨m, hnm, hidle⟩ := hgoes.pass_idle hinv n
  have hnot : ¬ (x.state m).timed.timerQueue.ToRun p t := by
    rintro ⟨-, hmem⟩
    rw [hidle] at hmem
    cases hmem
  obtain ⟨k, a, hnk, hk, hst, hnext⟩ :=
    x.exists_last (P := fun s => s.timed.timerQueue.ToRun p t) h ⟨m, hnm, hnot⟩
  refine ⟨k, hnk, ?_⟩
  rcases (hinv k).effect hst with hsame | ⟨b, hdestroy, heffect⟩
  · rw [hsame] at hnext
    exact absurd hk hnext
  · exact (hk.step (hinv k).alarm.link.own heffect hdestroy).resolve_left hnext

/-- A timer in the set comes to a pass. -/
theorem Goes.toRun_of_inSet (hgoes : Goes x) (hinv : ∀ n, (x.state n).ProgressInv)
    (hin : ∀ m, n ≤ m → (x.state m).timed.loop.pc ≠ .outside)
    (h : (x.state n).timed.timerQueue.InSet p t) :
    ∃ m, n ≤ m ∧ (x.state m).timed.timerQueue.ToRun p t := by
  have hnot : ∃ m, n ≤ m ∧ ¬ (x.state m).timed.timerQueue.InSet p t := by
    by_contra! hlasts
    obtain ⟨late, hlate⟩ := hgoes.time t.expiration
    obtain ⟨m, hm, hidle⟩ := hgoes.pass_idle hinv (max n late)
    have hne : (x.state m).timed.timerQueue.timers.begin? ≠ none := by
      rw [ne_eq, OrderedSet.begin?_eq_none]
      exact List.ne_nil_of_mem (hlasts m (by omega)).2
    obtain ⟨k, hmk, hactive⟩ := hgoes.rings hinv (fun j hj => hin j (by omega))
      ⟨hidle, Option.ne_none_iff_exists'.mp hne⟩
    -- the pass finds the timer due
    obtain ⟨j, hkj, hlater⟩ := hgoes.passBegins hinv hactive
    have hexpires := hlater _ (hlasts j (by omega)).2
    have hclock := clock_le (x := x) (show late ≤ j by omega)
    simp only at hexpires
    omega
  obtain ⟨k, a, hnk, hk, hst, hnext⟩ :=
    x.exists_last (P := fun s => s.timed.timerQueue.InSet p t) h hnot
  refine ⟨k + 1, by omega, ?_⟩
  rcases (hinv k).effect hst with hsame | ⟨b, hdestroy, heffect⟩
  · rw [hsame] at hnext
    exact absurd hk hnext
  · exact (hk.step (hinv k).alarm.link.own heffect hdestroy).resolve_left hnext

/-- A repeating timer that has run comes back to the set. -/
theorem Goes.inSet_of_hasRun (hgoes : Goes x) (hinv : ∀ n, (x.state n).ProgressInv)
    (h : (x.state n).timed.timerQueue.HasRun p t) (hrepeats : t.repeats = true) :
    ∃ m t', n ≤ m ∧ (x.state m).timed.timerQueue.InSet p t' ∧ t'.num = t.num ∧
      t'.repeats = true := by
  obtain ⟨m, hnm, hidle⟩ := hgoes.pass_idle hinv n
  have hnot : ¬ (x.state m).timed.timerQueue.HasRun p t := by
    rintro ⟨-, hmem⟩
    rw [hidle] at hmem
    cases hmem
  obtain ⟨k, a, hnk, hk, hst, hnext⟩ :=
    x.exists_last (P := fun s => s.timed.timerQueue.HasRun p t) h ⟨m, hnm, hnot⟩
  rcases (hinv k).effect hst with hsame | ⟨b, hdestroy, heffect⟩
  · rw [hsame] at hnext
    exact absurd hk hnext
  · obtain ⟨t', hset, hsame⟩ := (hk.step hrepeats heffect hdestroy).resolve_left hnext
    exact ⟨k + 1, t', by omega, hset, hsame⟩

/-- A timer of another thread is inserted. -/
theorem Goes.inSet_of_queued {start : ℤ} (hgoes : Goes x) (hstart : 0 < start)
    (hnew : x.state 0 = new start) (hin : ∀ m, n ≤ m → (x.state m).timed.loop.pc ≠ .outside)
    (h : (x.state n).timed.timerQueue.Queued p t) :
    ∃ m, n ≤ m ∧ (x.state m).timed.timerQueue.InSet p t := by
  have hinv := progressInv_state hstart hnew
  have hzero : (loopBehaviour x).state 0 = CEventLoop.new := by
    change (x.state 0).timed.loop = CEventLoop.new
    rw [hnew]
    rfl
  -- the place of the functor in the line
  obtain ⟨i, hi, hline⟩ : ∃ i, (x.state n).timed.loop.ran.length ≤ i ∧
      (x.state n).timed.loop.line[i]? = some (.addTimerInLoop p) := by
    have hmem := h.2
    rw [← (hinv n).alarm.link.queued_eq, List.mem_filterMap] at hmem
    obtain ⟨cb, hcb, htimer⟩ := hmem
    cases cb with
    | user cb => cases htimer
    | addTimerInLoop q =>
        cases htimer
        obtain ⟨j, hj⟩ := List.mem_iff_getElem?.mp hcb
        refine ⟨(x.state n).timed.loop.ran.length + j, by omega, ?_⟩
        rw [CEventLoop.line, List.append_assoc, List.getElem?_append_right (by omega),
          Nat.add_sub_cancel_left]
        exact hj
  obtain ⟨m, hnm, hran⟩ := CEventLoop.callsFunctor_run hzero (hgoes.loop hinv) hline hin
  have hcalled : i < (x.state m).timed.loop.ran.length := (List.getElem?_eq_some_iff.mp hran).1
  obtain ⟨k, a, hnk, ⟨hik, hk⟩, hst, hnext⟩ :=
    x.exists_last (P := fun s => s.timed.loop.ran.length ≤ i ∧ s.timed.timerQueue.Queued p t) ⟨hi, h⟩
      ⟨m, hnm, fun hm => absurd hm.1 (by omega)⟩
  refine ⟨k + 1, by omega, ?_⟩
  have hmove : (x.state (k + 1)).timed.timerQueue.Queued p t ∨
      (x.state (k + 1)).timed.timerQueue.InSet p t := by
    rcases (hinv k).effect hst with hsame | ⟨b, hdestroy, heffect⟩
    · rw [hsame]
      exact Or.inl hk
    · exact hk.step (hinv k).alarm.link.own heffect hdestroy
  refine hmove.resolve_left fun hqueued => ?_
  -- the functor has been called, so that the timer has left the queue
  have hcall : i < (x.state (k + 1)).timed.loop.ran.length := by
    by_contra! hle
    exact hnext ⟨hle, hqueued⟩
  have hlinek : (x.state k).timed.loop.line[i]? = some (.addTimerInLoop p) := by
    refine ((loopBehaviour x).invariant (I := fun s => s.ControlInv ∧
      s.line[i]? = some (.addTimerInLoop p)) (fun s a s' hs hst => ?_) hnk ⟨?_, hline⟩).2
    · exact ⟨hs.1.step s a s' hst, hs.1.getElem?_line hst hs.2⟩
    · exact (hinv n).alarm.link.control
  have hnodup := (hinv k).alarm.link.own.owns.nodup
  have hstep := hst.2
  generalize x.state (k + 1) = s' at hstep hqueued hcall
  cases hstep with
  | tick d => exact absurd hcall (not_lt.mpr hik)
  | act htime hfires htimed =>
      have hhead := (hinv k).alarm.link.queued_of_called htimed hlinek hik hcall
      rw [CTimerQueue.owners, hhead, List.cons_append, List.nodup_cons] at hnodup
      exact hnodup.1 (List.mem_append_left _ hqueued.2)

end place

/-! ## Every timer runs -/

/-- A timer that has not run, or that repeats, runs. -/
theorem Goes.runs {start : ℤ} (hgoes : Goes x) (hstart : 0 < start) (hnew : x.state 0 = new start)
    (hin : ∀ m, n ≤ m → (x.state m).timed.loop.pc ≠ .outside) {p : ℕ} {t : CTimer}
    (ht : (x.state n).timed.timerQueue.heap p = some t)
    (hwaits : t.repeats = true ∨ .run t.num ∉ (x.state n).timed.timerQueue.log) :
    ∃ m t', n ≤ m ∧ (x.state (m + 1)).timed.timerQueue.heap p = some t' ∧ t'.num = t.num ∧
      t'.repeats = t.repeats ∧ (x.state (m + 1)).timed.timerQueue.log =
        (x.state m).timed.timerQueue.log ++ [.run t.num] := by
  have hinv := progressInv_state hstart hnew
  have hset : ∀ k t', n ≤ k → (x.state k).timed.timerQueue.InSet p t' → t'.num = t.num →
      t'.repeats = t.repeats →
      ∃ m t', n ≤ m ∧ (x.state (m + 1)).timed.timerQueue.heap p = some t' ∧ t'.num = t.num ∧
        t'.repeats = t.repeats ∧ (x.state (m + 1)).timed.timerQueue.log =
          (x.state m).timed.timerQueue.log ++ [.run t.num] := by
    intro k t' hnk hk hnum hrepeats
    obtain ⟨l, hkl, hl⟩ := hgoes.toRun_of_inSet hinv (fun j hj => hin j (by omega)) hk
    obtain ⟨m, hlm, hran, hlog⟩ := hgoes.runs_of_toRun hinv hl
    exact ⟨m, t', by omega, hran.1, hnum, hrepeats, hnum ▸ hlog⟩
  rcases (hinv n).alarm.link.own.place ht with hqueued | hk | hran | hrest
  · obtain ⟨k, hnk, hk⟩ := hgoes.inSet_of_queued hstart hnew hin hqueued
    exact hset k t hnk hk rfl rfl
  · exact hset n t le_rfl hk rfl rfl
  · have hrepeats : t.repeats = true := by
      refine hwaits.elim id fun hnot => ?_
      by_contra hone
      exact hnot ((hinv n).log.run_mem_of_hasRun hran (by simpa using hone))
    obtain ⟨k, t', hnk, hk, hnum, hrepeats'⟩ := hgoes.inSet_of_hasRun hinv hran hrepeats
    exact hset k t' hnk hk hnum (hrepeats'.trans hrepeats.symm)
  · obtain ⟨m, hnm, hm, hlog⟩ := hgoes.runs_of_toRun hinv hrest
    exact ⟨m, t, hnm, hm.1, rfl, rfl, hlog⟩

/-- **Every timer runs.** In every behaviour of the loop with its timers and the clock, from the
constructor on at a positive time, in which nobody stops for ever, no repeating timer has a negative
interval and expirations have 64 bits: as long as `StartLoop` goes on, every timer that was ever
made, by the loop thread or by another one, in front of the loop, in a handler, in a functor or in a
callback, runs; and one that repeats runs without end. -/
theorem everyTimerRuns_run {start : ℤ} (hstart : 0 < start) (hnew : x.state 0 = new start)
    (hgoes : Goes x) (hin : ∀ m, n ≤ m → (x.state m).timed.loop.pc ≠ .outside) {i : ℕ} {t : CTimer}
    (ht : (x.state n).timed.timerQueue.created[i]? = some t) :
    (∃ m, n ≤ m ∧ .run i ∈ (x.state m).timed.timerQueue.log) ∧
    (t.repeats = true →
      ∀ c, ∃ m, n ≤ m ∧ c ≤ (x.state m).timed.timerQueue.log.count (.run i)) := by
  have hlog := (progressInv_state hstart hnew n).log
  refine ⟨?_, fun hrepeats c => ?_⟩
  · by_cases hran : .run i ∈ (x.state n).timed.timerQueue.log
    · exact ⟨n, le_rfl, hran⟩
    · obtain ⟨p, u, hu, rfl⟩ : ∃ p u, (x.state n).timed.timerQueue.heap p = some u ∧ u.num = i := by
        cases hrepeats : t.repeats with
        | true => exact (hlog.repeating i t ht hrepeats).2
        | false =>
            by_contra! hdead
            have hhistory := hlog.dead i t ht hrepeats hdead
            have hmem : TimerEvent.run i ∈ (x.state n).timed.timerQueue.history i := by simp [hhistory]
            exact hran (List.mem_filter.mp hmem).1
      obtain ⟨m, -, hnm, -, -, -, hm⟩ := hgoes.runs hstart hnew hin hu (Or.inr hran)
      exact ⟨m + 1, by omega, by simp [hm]⟩
  · obtain ⟨-, p, u, hu, rfl⟩ := hlog.repeating i t ht hrepeats
    have hurepeats : u.repeats = true := (hlog.repeats_eq hu ht).symm.trans hrepeats
    -- after each run, the timer is still there
    have hagain : ∃ m v, n ≤ m ∧ (x.state m).timed.timerQueue.heap p = some v ∧ v.num = u.num ∧
        v.repeats = true ∧ c ≤ (x.state m).timed.timerQueue.log.count (.run u.num) := by
      induction c with
      | zero => exact ⟨n, u, le_rfl, hu, rfl, hurepeats, Nat.zero_le _⟩
      | succ c ih =>
          obtain ⟨m, v, hnm, hv, hnum, hvrepeats, hc⟩ := ih
          obtain ⟨k, w, hmk, hw, hwnum, hwrepeats, hk⟩ :=
            hgoes.runs hstart hnew (fun j hj => hin j (by omega)) hv (Or.inl hvrepeats)
          refine ⟨k + 1, w, by omega, hw, hwnum.trans hnum, hwrepeats.trans hvrepeats, ?_⟩
          have hcount := (log_mono (progressInv_state hstart hnew) hmk).sublist.count_le (.run u.num)
          rw [hk, hnum, List.count_append, List.count_singleton_self]
          omega
    obtain ⟨m, v, hnm, -, -, -, hc⟩ := hagain
    exact ⟨m, hnm, hc⟩

end behaviour

/-! ## A behaviour -/

/-- From some state on the loop thread stays in front of `Poll`, with nothing to report, while time
passes. -/
theorem Goes.of_idles {x : Behaviour (Legal (F := F) (T := T))} {s : ClockedLoop F T} {e : ℕ}
    (hidles : ∀ n : ℕ, x.state (e + 1 + n) = { s with clock := s.clock + n })
    (hbefore : (x.state e).timed.loop.pc ≠ .atPoll) (hpc : s.timed.loop.pc = .atPoll)
    (hcounter : s.timed.loop.wakeupCounter = 0) (hset : s.timed.timerQueue.setting = none)
    (hthreads : ∀ t, s.timed.loop.threads t = .idle) : Goes x := by
  have hafter : ∀ m, e < m → (x.state m).timed = s.timed := by
    intro m hm
    obtain ⟨d, rfl⟩ := Nat.exists_eq_add_of_le hm
    rw [hidles d]
  refine ⟨fun n _ hpoll => ?_, fun n t _ => ?_, fun c => ?_, fun n hpolls => ?_⟩
  · by_cases hn : n ≤ e
    · by_cases hat : (x.state n).timed.loop.pc = .atPoll
      · refine ⟨e, hn, fun hsame => hbefore ?_⟩
        exact (congrArg Prod.fst hsame).trans hat
      · refine ⟨e + 1, by omega, fun hsame => hat ?_⟩
        have hsame' : (x.state (e + 1)).timed.loop.pc = (x.state n).timed.loop.pc :=
          congrArg Prod.fst hsame
        rw [← hsame', hafter (e + 1) (by omega), hpc]
    · rw [Readable, hafter n (by omega), hcounter, hset] at hpoll
      rcases hpoll hpc with hpos | ⟨g, hg, -⟩
      · exact absurd hpos (Nat.lt_irrefl 0)
      · cases hg
  · exact ⟨max n (e + 1), by omega, by rw [hafter _ (by omega), hthreads]⟩
  · refine ⟨e + 1 + (c - s.clock).toNat, ?_⟩
    rw [hidles]
    simp only
    omega
  · obtain ⟨k, hk, -, -, hhandling⟩ := hpolls (max n (e + 1)) (by omega)
    rw [hafter (k + 1) (by omega), hpc] at hhandling
    cases hhandling

/-- Time passes, and nothing else happens. -/
def idles (s : ClockedLoop F T) : Behaviour (Legal (F := F) (T := T)) where
  state n := { s with clock := s.clock + n }
  move n := by
    refine Or.inr ⟨.tick 1, by simp [Action.TimerOk, Action.onTimed], ?_⟩
    have hst := Step.tick (s := { s with clock := s.clock + n }) 1
    rwa [show s.clock + (n : ℤ) + ((1 : ℕ) : ℤ) = s.clock + ((n + 1 : ℕ) : ℤ) by omega] at hst

/-- A run that does not enter `StartLoop` ends outside if it begins outside. -/
theorem outside_of_run {s s' : ClockedLoop F T} {as : List (Action F T)} (hrun : Run Legal s as s')
    (has : .act (.loop .startLoop) ∉ as) (hs : s.timed.loop.pc = .outside) :
    s'.timed.loop.pc = .outside := by
  refine hrun.invariant_avoiding (I := fun s => s.timed.loop.pc = .outside) ?_ has hs
  rintro s a t hpc ha ⟨-, hst⟩
  cases hst with
  | tick d => exact hpc
  | act htime hfires htimed =>
      cases htimed with
      | @loop b loop hon hloop =>
          obtain ⟨hen, rfl⟩ := hloop
          cases b with
          | startLoop => exact absurd rfl ha
          | testQuit | poll | handleRead | enterDoPendingFunctors | swap | callFunctor | returnFunctor
          | leaveDoPendingFunctors => simp [CEventLoop.Action.Enabled, hpc] at hen
          | queueInLoop | wakeup | quitLoop | threadQueueInLoop | threadQuitLoop | threadWakeup =>
              exact hpc
      | handleTimer | inPass | addTimer => exact hpc
      | threadAddTimer t iWhen delta repeats p hloop =>
          obtain ⟨-, rfl⟩ := hloop
          exact hpc
      | poll readable fired hfired hloop =>
          have hat := hloop.1.1
          simp [hpc] at hat
      | callAddTimer now hfault hfunctors hloop =>
          have hrunning := hloop.1.1
          simp [hpc] at hrunning

/-- From `StartLoop` on: the timer for 40 is reported at 101, runs, and is deleted. -/
def runsAt101 : List (Action ℕ Unit) :=
  [.act (.loop .testQuit), .tick 100, .act (.poll false true), .act (.handleTimer 101),
    .act (.inPass .run), .act (.inPass .returnCallback), .act (.inPass .beginReset),
    .act (.inPass .reset), .act (.inPass (.endReset 101)), .act (.loop .enterDoPendingFunctors),
    .act (.loop .swap), .act (.loop .leaveDoPendingFunctors)]

/-- The run, step by step, up to the next `Poll`. -/
theorem run_runsAt101 : ∃ s t u : ClockedLoop ℕ Unit,
    Run Legal (new 1) [.act (.addTimer 40 0 false 1 1), .act (.loop .startLoop)] s ∧
    Run Legal s runsAt101 t ∧ Legal t (.act (.loop .testQuit)) u ∧
    s.timed.timerQueue.created = [⟨40, 0, false, 0⟩] ∧ s.timed.timerQueue.log = [] ∧
    u.timed.loop.pc = .atPoll ∧ u.timed.loop.wakeupCounter = 0 ∧
    u.timed.timerQueue.setting = none ∧ ∀ t, u.timed.loop.threads t = .idle :=
  ⟨_, _, _,
    Run.cons ⟨by decide, .act (by decide) (fun h => by cases h)
      (.addTimer 40 0 false 1 1 ⟨trivial, Or.inl rfl⟩ (.addTimer 40 0 false 1 1 rfl trivial rfl
        (by decide)))⟩ <|
    Run.single ⟨by decide, .act (by decide) (fun h => by cases h) (.loop trivial ⟨⟨rfl, rfl⟩, rfl⟩)⟩,
    Run.cons ⟨by decide, .act (by decide) (fun h => by cases h) (.loop trivial ⟨rfl, rfl⟩)⟩ <|
    Run.cons ⟨by decide, .tick 100⟩ <|
    Run.cons ⟨by decide, .act (by decide) (fun _ => ⟨_, rfl, by decide⟩)
      (.poll false true (fun _ h => by cases h) ⟨⟨rfl, fun h => by cases h⟩, rfl⟩)⟩ <|
    Run.cons ⟨by decide, .act (by decide) (fun h => by cases h)
      (.handleTimer 101 rfl rfl (.handleRead 101 rfl rfl))⟩ <|
    Run.cons ⟨by decide, .act (by decide) (fun h => by cases h) (.inPass trivial (.run rfl rfl))⟩ <|
    Run.cons ⟨by decide, .act (by decide) (fun h => by cases h)
      (.inPass trivial (.returnCallback rfl rfl))⟩ <|
    Run.cons ⟨by decide, .act (by decide) (fun h => by cases h)
      (.inPass trivial (.beginReset rfl rfl))⟩ <|
    Run.cons ⟨by decide, .act (by decide) (fun h => by cases h) (.inPass trivial (.reset rfl rfl))⟩ <|
    Run.cons ⟨by decide, .act (by decide) (fun h => by cases h)
      (.inPass trivial (.endReset 101 rfl rfl))⟩ <|
    Run.cons ⟨by decide, .act (by decide) (fun h => by cases h)
      (.loop ⟨rfl, rfl⟩ ⟨⟨rfl, rfl, rfl⟩, rfl⟩)⟩ <|
    Run.cons ⟨by decide, .act (by decide) (fun h => by cases h) (.loop trivial ⟨rfl, rfl⟩)⟩ <|
    Run.single ⟨by decide, .act (by decide) (fun h => by cases h)
      (.loop trivial ⟨⟨rfl, rfl⟩, rfl⟩)⟩,
    ⟨by decide, .act (by decide) (fun h => by cases h) (.loop trivial ⟨rfl, rfl⟩)⟩,
    rfl, rfl, rfl, rfl, rfl, fun _ => rfl⟩

/-- The theorem on this timer, in a behaviour that stays in front of `Poll` afterwards. -/
theorem everyTimerRuns_run_runsAt101 : ∃ x : Behaviour (Legal (F := ℕ) (T := Unit)),
    x.state 0 = new 1 ∧ Goes x ∧ (x.state 2).timed.timerQueue.log = [] ∧
    ∃ m, 2 ≤ m ∧ .run 0 ∈ (x.state m).timed.timerQueue.log := by
  obtain ⟨s, t, u, hfront, hrun, hlast, hcreated, hlog, hpc, hcounter, hset, hthreads⟩ :=
    run_runsAt101
  obtain ⟨y, hy, hyidles, hyrest⟩ :=
    (idles u).exists_after (hrun.append (Run.single hlast)) (by simp [idles])
  obtain ⟨x, hx, hxy, -⟩ := y.exists_after hfront hy.symm
  have hidles : ∀ n : ℕ, x.state (14 + 1 + n) = { u with clock := u.clock + n } := by
    intro n
    rw [show 14 + 1 + n = 2 + (13 + n) by omega]
    exact (hxy (13 + n)).trans (hyidles n)
  have hbefore : (x.state 14).timed.loop.pc ≠ .atPoll := by
    rw [show x.state 14 = y.state 12 from hxy 12]
    obtain ⟨u', ⟨-, hst⟩, -⟩ := run_cons_iff.mp (hyrest 12 (by decide))
    cases hst with
    | act htime hfires htimed =>
        cases htimed with
        | loop hon hloop => simp [show (y.state 12).timed.loop.pc = .atCheck from hloop.1]
  have hin : ∀ m, 2 ≤ m → (x.state m).timed.loop.pc ≠ .outside := by
    intro m hm hout
    obtain ⟨k, rfl⟩ := Nat.exists_eq_add_of_le hm
    by_cases hk : k < 13
    · rw [show x.state (2 + k) = y.state k from hxy k] at hout
      have hnot : (.act (.loop .startLoop) : Action ℕ Unit) ∉
          runsAt101 ++ [.act (.loop .testQuit)] := by decide
      have hend := outside_of_run (hyrest k hk) (fun hmem => hnot (List.mem_of_mem_drop hmem)) hout
      rw [hpc] at hend
      cases hend
    · rw [show 2 + k = 14 + 1 + (k - 13) by omega, hidles, hpc] at hout
      cases hout
  have hgoes : Goes x := .of_idles hidles hbefore hpc hcounter hset hthreads
  have hzero : x.state 2 = s := (hxy 0).trans hy
  refine ⟨x, hx, hgoes, by rw [hzero, hlog], ?_⟩
  exact (everyTimerRuns_run (by decide) hx hgoes hin (i := 0) (t := ⟨40, 0, false, 0⟩)
    (by rw [hzero, hcreated]; rfl)).1

end ClockedLoop

end Neconet
