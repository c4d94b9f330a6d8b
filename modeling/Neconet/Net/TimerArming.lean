import Neconet.Net.TimerOwnership

/-!
# The timerfd is set for the earliest timer

The timerfd is set in two places: when a timer is inserted in front of all others, and at the end of
a pass, unless the first expiration is not valid then. Between the two, a pass reads the timerfd and
takes the expired timers out of the set, and its callbacks insert timers in any order. What carries
the proof is that an invalid first expiration can only have been inserted since the timerfd was
read, and in front of all others at that time, so that the timerfd was set for it.

* `convertsExactly_iff`: the conversion to a relative time beside the one in `SleepUsec`, which
  forgets to scale the microseconds below a second.
* `SetFor`: the timerfd was set for an expiration since it was last read.
* `ArmInv`: in a pass, an invalid first expiration is set for; outside, any first expiration is.
* `setForEarliest_run`: outside `__HandleRead`, the timerfd is set for the smallest expiration.
-/

namespace Neconet

set_option linter.unusedSectionVars false

open Transition

/-! ## The relative time -/

/-- The relative time in nanoseconds is at least 100 microseconds, and else exact. -/
theorem howMuchTimeFromNow_nanoseconds (iWhen now : ℤ) :
    (howMuchTimeFromNow iWhen now).nanoseconds = 1000 * max 100 (iWhen - now) := by
  have hmax : (if iWhen - now < 100 then (100 : ℤ) else iWhen - now) = max 100 (iWhen - now) := by
    split_ifs with hless
    · exact (max_eq_left hless.le).symm
    · exact (max_eq_right (not_lt.mp hless)).symm
  have hparts := Int.tmod_add_mul_tdiv (max 100 (iWhen - now)) 1000000
  simp only [howMuchTimeFromNow, Timespec.nanoseconds, hmax]
  linarith

/-- The relative time is a `timespec` that `timerfd_settime` takes. -/
theorem howMuchTimeFromNow_valid (iWhen now : ℤ) :
    0 ≤ (howMuchTimeFromNow iWhen now).sec ∧ (howMuchTimeFromNow iWhen now).Normalised := by
  have hnonneg : 0 ≤ (if iWhen - now < 100 then (100 : ℤ) else iWhen - now) := by
    split_ifs with hless
    · decide
    · omega
  have hmod := Int.tmod_lt_of_pos (if iWhen - now < 100 then (100 : ℤ) else iWhen - now)
    (show (0 : ℤ) < 1000000 by decide)
  have hmod' := Int.tmod_nonneg 1000000 hnonneg
  simp only [howMuchTimeFromNow, Timespec.Normalised]
  exact ⟨Int.tdiv_nonneg hnonneg (by decide), by omega, by omega⟩

/-- A relative time of less than 100 microseconds is set to 100 microseconds. -/
theorem howMuchTimeFromNow_of_lt {iWhen now : ℤ} (h : iWhen - now < 100) :
    howMuchTimeFromNow iWhen now = ⟨0, 100000⟩ := by
  have hnormalised : Timespec.Normalised ⟨0, 100000⟩ := by decide
  refine (howMuchTimeFromNow_valid iWhen now).2.eq_of_nanoseconds hnormalised ?_
  rw [howMuchTimeFromNow_nanoseconds, max_eq_left h.le]
  rfl

/-! ## The relative time and `SleepUsec` -/

/-- What the two conversions of a duration of `d` microseconds promise, `now` being the current
time: they agree and are exact from 100 microseconds on; below, the relative time is 100
microseconds; and the timerfd is never set to a time that is not positive. -/
def ConvertsExactly (d now : ℤ) : Prop :=
  (100 ≤ d → CurrentThread.sleepUsec d = howMuchTimeFromNow (now + d) now ∧
    (CurrentThread.sleepUsec d).Normalised ∧ (howMuchTimeFromNow (now + d) now).Normalised ∧
    (CurrentThread.sleepUsec d).nanoseconds = d * 1000 ∧
    (howMuchTimeFromNow (now + d) now).nanoseconds = d * 1000) ∧
  (d < 100 → howMuchTimeFromNow (now + d) now = ⟨0, 100000⟩) ∧
  (0 ≤ (resetTimerFd (now + d) now).value.sec ∧ (resetTimerFd (now + d) now).value.Normalised ∧
    0 < (resetTimerFd (now + d) now).value.nanoseconds)

/-- The timerfd is never set to a time that is not positive. -/
theorem resetTimerFd_pos (iExpiration now : ℤ) :
    0 ≤ (resetTimerFd iExpiration now).value.sec ∧
      (resetTimerFd iExpiration now).value.Normalised ∧
      0 < (resetTimerFd iExpiration now).value.nanoseconds := by
  obtain ⟨hsec, hnormalised⟩ := howMuchTimeFromNow_valid iExpiration now
  refine ⟨hsec, hnormalised, ?_⟩
  change 0 < (howMuchTimeFromNow iExpiration now).nanoseconds
  rw [howMuchTimeFromNow_nanoseconds]
  omega

/-- A duration from 100 microseconds on is converted exactly. -/
theorem howMuchTimeFromNow_add {d : ℤ} (now : ℤ) (h : 100 ≤ d) :
    (howMuchTimeFromNow (now + d) now).nanoseconds = d * 1000 := by
  rw [howMuchTimeFromNow_nanoseconds, add_sub_cancel_left, max_eq_right h, mul_comm]

/-- `SleepUsec` passes the microseconds below a second as nanoseconds. -/
theorem sleepUsec_nanoseconds {d : ℤ} (h : 0 ≤ d) :
    (CurrentThread.sleepUsec d).nanoseconds = d * 1000 - d % 1000000 * 999 := by
  have hdiv : d.tdiv 1000000 = d / 1000000 := Int.tdiv_eq_ediv_of_nonneg h
  have hmod : d.tmod 1000000 = d % 1000000 := Int.tmod_eq_emod_of_nonneg h
  simp only [CurrentThread.sleepUsec, Timespec.nanoseconds, hdiv, hmod]
  omega

/-- What `SleepUsec` passes is normalised. -/
theorem sleepUsec_normalised {d : ℤ} (h : 0 ≤ d) : (CurrentThread.sleepUsec d).Normalised := by
  have hlt := Int.tmod_lt_of_pos d (show (0 : ℤ) < 1000000 by decide)
  exact ⟨Int.tmod_nonneg 1000000 h, hlt.trans (by decide)⟩

/-- **The two conversions agree and are exact exactly for whole seconds.** For every duration of `d`
microseconds and every current time: `SleepUsec` and `HowMuchTimeFromNow` convert as promised if and
only if `d` is below 100, where only the second one promises anything, or a whole number of
seconds. -/
theorem convertsExactly_iff (d now : ℤ) : ConvertsExactly d now ↔ d < 100 ∨ d % 1000000 = 0 := by
  constructor
  · rintro ⟨hexact, -⟩
    by_contra! hnot
    obtain ⟨-, -, -, hnanoseconds, -⟩ := hexact hnot.1
    rw [sleepUsec_nanoseconds (by omega)] at hnanoseconds
    omega
  · intro h
    refine ⟨?_, ?_, resetTimerFd_pos (now + d) now⟩
    · intro hd
      have hsleep : (CurrentThread.sleepUsec d).nanoseconds = d * 1000 := by
        rw [sleepUsec_nanoseconds (by omega)]
        omega
      have hnormalised : (CurrentThread.sleepUsec d).Normalised := sleepUsec_normalised (by omega)
      have hvalid := (howMuchTimeFromNow_valid (now + d) now).2
      have hadd := howMuchTimeFromNow_add now hd
      exact ⟨hnormalised.eq_of_nanoseconds hvalid (hsleep.trans hadd.symm), hnormalised, hvalid,
        hsleep, hadd⟩
    · intro hd
      exact howMuchTimeFromNow_of_lt (by omega)

/-- **One and a half seconds**: `SleepUsec` sleeps one second and 500000 nanoseconds. -/
theorem not_convertsExactly_second_and_half : ∃ d now : ℤ, 100 ≤ d ∧
    CurrentThread.sleepUsec d = ⟨1, 500000⟩ ∧
    howMuchTimeFromNow (now + d) now = ⟨1, 500000000⟩ ∧ ¬ ConvertsExactly d now := by
  refine ⟨1500000, 0, by decide, by decide, by decide, ?_⟩
  rintro ⟨hexact, -⟩
  exact absurd (hexact (by decide)).1 (by decide)

/-! ## The steps of the queue -/

/-- The time that the pass has read. -/
def Pass.iNow? : Pass → Option ℤ
  | running iNow _ _ => some iNow
  | inCallback iNow _ _ => some iNow
  | resetting iNow _ => some iNow
  | _ => none

namespace CTimerQueue

/-- What the runs are about: no repeating timer has a negative interval, and the time at which the
timerfd is read is positive. -/
def Action.ClockOk : Action → Prop
  | .addTimer _ delta repeats _ _ => repeats = true → 0 ≤ delta
  | .queueTimer _ delta repeats _ => repeats = true → 0 ≤ delta
  | .handleRead iNow => 0 < iNow
  | _ => True

instance : ∀ a : Action, Decidable a.ClockOk
  | .addTimer _ delta repeats _ _ => inferInstanceAs (Decidable (repeats = true → 0 ≤ delta))
  | .queueTimer _ delta repeats _ => inferInstanceAs (Decidable (repeats = true → 0 ≤ delta))
  | .handleRead iNow => inferInstanceAs (Decidable (0 < iNow))
  | .callFunctor _ | .run | .returnCallback | .beginReset | .reset | .endReset _ | .destroy =>
      isTrue trivial

/-! ## The invariant -/

/-- The timerfd was set for the expiration, and has not been read since. -/
def SetFor (s : CTimerQueue) (iExpiration : ℤ) : Prop :=
  ∃ now, s.setting = some (resetTimerFd iExpiration now)

/-- The timerfd is set for the first expiration, in a pass at least if that is not valid. -/
structure ArmInv (s : CTimerQueue) : Prop where
  /-- No repeating timer has a negative interval. -/
  delta : ∀ p t, s.heap p = some t → t.repeats = true → 0 ≤ t.delta
  /-- The time that the pass has read is positive. -/
  iNow_pos : ∀ iNow ∈ s.pass.iNow?, 0 < iNow
  /-- The timerfd is set. -/
  armed : ∀ e, s.timers.begin? = some e → s.pass = .idle ∨ ¬ CTimer.IsValid e.first →
    s.SetFor e.first

/-- The set is empty at first. -/
theorem armInv_new : ArmInv new where
  delta p t ht := by cases ht
  iNow_pos iNow h := by cases h
  armed e he := by cases he

/-- After a timer has been added, the timerfd is set for the new first expiration, or for the first
expiration as before. -/
theorem begin?_addEntry {s : CTimerQueue} {e e' : Entry} {now : ℤ}
    (he' : (s.addEntry e now).timers.begin? = some e') :
    (s.addEntry e now).SetFor e'.first ∨
    (s.addEntry e now).setting = s.setting ∧ ∃ e₀, s.timers.begin? = some e₀ ∧
      e₀.first = e'.first := by
  obtain ⟨hmem, hle⟩ := OrderedSet.begin?_eq_some.mp he'
  by_cases hearliest : s.earliestChanged e.first = true
  · left
    have hfirst : ∀ e₀ ∈ s.timers, e < e₀ := by
      intro e₀ he₀
      rw [earliestChanged] at hearliest
      cases hbegin : s.timers.begin? with
      | none =>
          rw [OrderedSet.begin?_eq_none] at hbegin
          rw [OrderedSet.mem_iff, hbegin] at he₀
          cases he₀
      | some m =>
          rw [hbegin] at hearliest
          have hlt : e < m := Entry.lt_of_first_lt (by simpa using hearliest)
          exact hlt.trans_le ((OrderedSet.begin?_eq_some.mp hbegin).2 e₀ he₀)
    have heq := OrderedSet.begin?_insert_of_lt hfirst
    rw [addEntry, heq, Option.some.injEq] at he'
    subst he'
    exact ⟨now, if_pos hearliest⟩
  · right
    refine ⟨if_neg hearliest, ?_⟩
    rw [earliestChanged] at hearliest
    cases hbegin : s.timers.begin? with
    | none => simp [hbegin] at hearliest
    | some m =>
        have hlater : m.first ≤ e.first := by simpa [hbegin] using hearliest
        obtain ⟨hm, hleast⟩ := OrderedSet.begin?_eq_some.mp hbegin
        refine ⟨m, rfl, le_antisymm ?_ ?_⟩
        · rcases OrderedSet.mem_insert.mp hmem with rfl | hold
          · exact hlater
          · exact Entry.first_le_of_le (hleast e' hold)
        · exact Entry.first_le_of_le (hle m (OrderedSet.mem_insert.mpr (Or.inr hm)))

/-- A timer is added. -/
theorem ArmInv.addEntry {s : CTimerQueue} (h : s.ArmInv) (e : Entry) (now : ℤ) :
    (s.addEntry e now).ArmInv where
  delta := h.delta
  iNow_pos := h.iNow_pos
  armed e' he' hpass := by
    rcases begin?_addEntry he' with hset | ⟨hsetting, e₀, he₀, hfirst⟩
    · exact hset
    · obtain ⟨now', hset⟩ := h.armed e₀ he₀ (hfirst ▸ hpass)
      exact ⟨now', hsetting.trans (hfirst ▸ hset)⟩

/-- A new timer is in no entry yet. -/
theorem ArmInv.newTimer {s : CTimerQueue} (h : s.ArmInv) {iWhen delta : ℤ} {repeats : Bool} (p : ℕ)
    (hdelta : repeats = true → 0 ≤ delta) : (s.newTimer iWhen delta repeats p).ArmInv where
  delta q t ht := by
    rcases update_eq_some.mp ht with ⟨-, hnew⟩ | ⟨-, ht⟩
    · cases hnew
      exact hdelta
    · exact h.delta q t ht
  iNow_pos := h.iNow_pos
  armed := h.armed

/-- A step from one place of a pass to another. -/
theorem ArmInv.move {s : CTimerQueue} (h : s.ArmInv) {pass : Pass} (log : List TimerEvent)
    (hnow : pass.iNow? = s.pass.iNow?) (hpass : pass ≠ .idle) :
    ArmInv { s with log := log, pass := pass } where
  delta := h.delta
  iNow_pos := hnow ▸ h.iNow_pos
  armed e he hinvalid := h.armed e he (Or.inr (hinvalid.resolve_left hpass))

/-- A repeating timer is inserted again in `__ResetTimers`: its expiration is valid, so an invalid
first expiration stays the first. -/
theorem ArmInv.restart {s : CTimerQueue} (h : s.ArmInv) {iNow : ℤ} {rest : List Entry} {e : Entry}
    {t : CTimer} (hpass : s.pass = .resetting iNow (e :: rest)) (ht : s.heap e.second = some t)
    (hrepeats : t.repeats = true) :
    ArmInv { s with
      heap := Function.update s.heap e.second (some { t with expiration := iNow + t.delta })
      timers := (s.timers.insert ⟨iNow + t.delta, e.second⟩).1
      pass := .resetting iNow rest } where
  delta q u hu := by
    rcases update_eq_some.mp hu with ⟨-, hnew⟩ | ⟨-, hu⟩
    · cases hnew
      exact fun _ => h.delta _ t ht hrepeats
    · exact h.delta q u hu
  iNow_pos iNow' hnow := h.iNow_pos iNow' (by rw [hpass]; exact hnow)
  armed e' he' hinvalid := by
    replace hinvalid := hinvalid.resolve_left (by simp)
    obtain ⟨hmem, hle⟩ := OrderedSet.begin?_eq_some.mp he'
    have hvalid : CTimer.IsValid (iNow + t.delta) := by
      have hdelta := h.delta _ t ht hrepeats
      have hpos := h.iNow_pos iNow (by simp [hpass, Pass.iNow?])
      simp only [CTimer.IsValid]
      omega
    rcases OrderedSet.mem_insert.mp hmem with rfl | hold
    · exact absurd hvalid hinvalid
    · refine h.armed e' (OrderedSet.begin?_eq_some.mpr ⟨hold, fun e₀ he₀ => ?_⟩) (Or.inr hinvalid)
      exact hle e₀ (OrderedSet.mem_insert.mpr (Or.inr he₀))

/-- A timer that is there after others have been deleted was there before. -/
theorem eq_some_of_clear {heap : ℕ → Option CTimer} {ps : List ℕ} {q : ℕ} {t : CTimer}
    (ht : clear heap ps q = some t) : heap q = some t := by
  induction ps generalizing heap with
  | nil => exact ht
  | cons p ps ih =>
      rcases update_eq_some.mp (ih ht) with ⟨-, hnone⟩ | ⟨-, hkept⟩
      · cases hnone
      · exact hkept

/-- Every step keeps it so. -/
theorem ArmInv.step {s s' : CTimerQueue} {a : Action} (h : s.ArmInv) (hown : s.OwnInv)
    (hok : a.ClockOk) (hst : Step s a s') : s'.ArmInv := by
  cases hown.effect hst with
  | addTimer iWhen delta repeats p now hpass hfree hp hnew => exact (h.newTimer p hok).addEntry _ now
  | queueTimer iWhen delta repeats p hpass hfree hp =>
      have hinv : (s.newTimer iWhen delta repeats p).ArmInv := h.newTimer p hok
      exact ⟨hinv.delta, hinv.iNow_pos, hinv.armed⟩
  | @callFunctor now p rest t hpass hqueued ht hnew =>
      have hinv : ArmInv { s with queued := rest } := ⟨h.delta, h.iNow_pos, h.armed⟩
      exact hinv.addEntry _ now
  | handleRead iNow hpass =>
      refine ⟨h.delta, fun iNow' hnow => ?_, fun e he hinvalid => ?_⟩
      · rw [Pass.iNow?, Option.mem_some_iff] at hnow
        exact hnow ▸ hok
      · -- what is left in the set expires later than now
        obtain ⟨-, hle⟩ := OrderedSet.mem_eraseBelow.mp (OrderedSet.begin?_eq_some.mp he).1
        have hvalid : CTimer.IsValid e.first := lt_of_lt_of_le hok (Entry.first_le_of_le hle)
        exact absurd hvalid (hinvalid.resolve_left (by simp))
  | run hpass ht => exact h.move _ (by simp [hpass, Pass.iNow?]) (by simp)
  | returnCallback hpass => exact h.move s.log (by simp [hpass, Pass.iNow?]) (by simp)
  | beginReset hpass => exact h.move s.log (by simp [hpass, Pass.iNow?]) (by simp)
  | restart hpass ht hrepeats hnew => exact h.restart hpass ht hrepeats
  | @free iNow rest e t hpass ht hrepeats =>
      have hinv : ArmInv { s with log := s.log ++ [.free t.num], pass := .resetting iNow rest } :=
        h.move _ (by simp [hpass, Pass.iNow?]) (by simp)
      refine ⟨fun q u hu => ?_, hinv.iNow_pos, hinv.armed⟩
      rcases update_eq_some.mp hu with ⟨-, hnone⟩ | ⟨-, hu⟩
      · cases hnone
      · exact h.delta q u hu
  | @endReset now iNow hpass =>
      refine ⟨h.delta, fun iNow' hnow => (by cases hnow), fun e he _ => ?_⟩
      by_cases hvalid : CTimer.IsValid e.first
      · exact ⟨now, by simp only [rearmed, he, hvalid, if_true]⟩
      · obtain ⟨now', hset⟩ := h.armed e he (Or.inr hvalid)
        exact ⟨now', by simp only [rearmed, he, hvalid, if_false, hset]⟩
  | destroy hpass hnums =>
      refine ⟨fun q u hu => ?_, fun iNow' hnow => (by cases hnow), fun e he => (by cases he)⟩
      exact h.delta q u (eq_some_of_clear hu)

/-! ## Runs -/

/-- The invariants of a run. -/
theorem armInv_run {as : List Action} {s : CTimerQueue} (hrun : Run Step new as s)
    (hok : ∀ a ∈ as, a.ClockOk) : s.OwnInv ∧ s.ArmInv := by
  have halong : Along Step (fun _ a => a.ClockOk) new as := by
    intro done a rest t has _
    exact hok a (by simp [has])
  refine hrun.invariant_along (I := fun s => s.OwnInv ∧ s.ArmInv) ?_ halong ⟨ownInv_new, armInv_new⟩
  rintro s a s' ⟨hown, harm⟩ ha hst
  exact ⟨hown.step s a s' hst, harm.step hown ha hst⟩

/-- **The timerfd is set for the earliest timer.** In every run in which no repeating timer has a
negative interval and the times of `__HandleRead` are positive: outside `__HandleRead`, if the set
is not empty, then the timerfd has been set since it was last read, at last for the smallest
expiration in the set, with a relative time that is positive and that is the time left, or 100
microseconds if less is left. -/
theorem setForEarliest_run {as : List Action} {s : CTimerQueue} (hrun : Run Step new as s)
    (hok : ∀ a ∈ as, a.ClockOk) (hpass : s.pass = .idle) (htimers : s.timers.toList ≠ []) :
    ∃ setting, s.setting = some setting ∧
      (∃ e ∈ s.timers, e.first = setting.expiration) ∧
      (∀ e ∈ s.timers, setting.expiration ≤ e.first) ∧
      setting.value.sec * 1000000000 + setting.value.nsec =
        1000 * max 100 (setting.expiration - setting.now) ∧
      0 < max 100 (setting.expiration - setting.now) ∧
      0 ≤ setting.value.sec ∧ 0 ≤ setting.value.nsec ∧ setting.value.nsec < 1000000000 := by
  have hbegin : s.timers.begin? ≠ none := by
    rw [ne_eq, OrderedSet.begin?_eq_none]
    exact htimers
  obtain ⟨e, he⟩ := Option.ne_none_iff_exists'.mp hbegin
  obtain ⟨now, hset⟩ := (armInv_run hrun hok).2.armed e he (Or.inl hpass)
  obtain ⟨hmem, hle⟩ := OrderedSet.begin?_eq_some.mp he
  refine ⟨_, hset, ⟨e, hmem, rfl⟩, fun e' he' => Entry.first_le_of_le (hle e' he'), ?_, ?_, ?_⟩
  · exact howMuchTimeFromNow_nanoseconds e.first now
  · exact lt_max_of_lt_left (by decide)
  · exact howMuchTimeFromNow_valid e.first now

/-- A pass in which a callback adds a timer that has expired long ago; the clock goes backwards. -/
def expiredInPass : List Action :=
  [.addTimer 10 5 true 1 2, .handleRead 15, .run, .addTimer (-3) 0 false 2 14, .returnCallback,
    .beginReset, .reset, .endReset 13]

/-- The run, step by step. -/
theorem run_expiredInPass : ∃ s, Run Step new expiredInPass s ∧ s.pass = .idle ∧
    s.timers.toList = [⟨-3, 2⟩, ⟨20, 1⟩] :=
  ⟨_, Run.cons (.addTimer 10 5 true 1 2 rfl trivial rfl (by decide)) <|
    Run.cons (.handleRead 15 rfl rfl) <|
    Run.cons (.run rfl rfl) <|
    Run.cons (.addTimer (-3) 0 false 2 14 rfl trivial rfl (by decide)) <|
    Run.cons (.returnCallback rfl rfl) <|
    Run.cons (.beginReset rfl rfl) <|
    Run.cons (.reset rfl rfl) <|
    Run.cons (.endReset 13 rfl rfl) <| Run.nil _, rfl, rfl⟩

/-- The theorem on this run. -/
theorem setForEarliest_run_expiredInPass : ∃ s setting, Run Step new expiredInPass s ∧
    s.setting = some setting ∧ ∀ e ∈ s.timers, setting.expiration ≤ e.first := by
  obtain ⟨s, hrun, hpass, htimers⟩ := run_expiredInPass
  obtain ⟨setting, hset, -, hle, -⟩ :=
    setForEarliest_run hrun (by decide) hpass (by simp [htimers])
  exact ⟨s, setting, hrun, hset, hle⟩

end CTimerQueue

end Neconet
