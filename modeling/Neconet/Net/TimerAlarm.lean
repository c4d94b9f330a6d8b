import Neconet.Net.TimedLoop
import Neconet.Net.TimerPass

/-!
# The clock and the timerfd

The loop with its timers and a clock. Every time that the code reads is the time of the clock, which
does not go back, and the timerfd becomes readable when the time for which it was set has passed.
(The code reads the time of day, the timerfd goes by `CLOCK_MONOTONIC`: the time of day is not set
meanwhile.)

* `ClockedLoop`, `Step`: the loop with the clock, and its steps.
* `AlarmInv`: the timerfd is set for no time at which no timer would be due.
* `alarm_run`: a pass always finds a timer that is due, and the poll never sleeps past a timer by
  more than 100 microseconds.
-/

namespace Neconet

set_option linter.unusedSectionVars false

open Transition

/-! ## The clock -/

/-- The time, in microseconds, at which the timerfd becomes readable. -/
def Setting.deadline (g : Setting) : ℤ := max (g.now + 100) g.expiration

/-- The relative time of a setting ends at its deadline. -/
theorem deadline_resetTimerFd (iExpiration now : ℤ) :
    1000 * (resetTimerFd iExpiration now).now + (resetTimerFd iExpiration now).value.nanoseconds =
      1000 * (resetTimerFd iExpiration now).deadline := by
  have hvalue := howMuchTimeFromNow_nanoseconds iExpiration now
  simp only [resetTimerFd, Setting.deadline] at hvalue ⊢
  omega

/-- The time that the step reads. -/
def CTimerQueue.Action.time? : CTimerQueue.Action → Option ℤ
  | .addTimer _ _ _ _ now => some now
  | .callFunctor now => some now
  | .handleRead iNow => some iNow
  | .endReset now => some now
  | _ => none

/-- The step makes no repeating timer with a negative interval. -/
def CTimerQueue.Action.IntervalOk : CTimerQueue.Action → Prop
  | .addTimer _ delta repeats _ _ => repeats = true → 0 ≤ delta
  | .queueTimer _ delta repeats _ => repeats = true → 0 ≤ delta
  | _ => True

instance : ∀ a : CTimerQueue.Action, Decidable a.IntervalOk
  | .addTimer _ delta repeats _ _ => inferInstanceAs (Decidable (repeats = true → 0 ≤ delta))
  | .queueTimer _ delta repeats _ => inferInstanceAs (Decidable (repeats = true → 0 ≤ delta))
  | .callFunctor _ | .handleRead _ | .run | .returnCallback | .beginReset | .reset | .endReset _
  | .destroy => isTrue trivial

/-- The loop with its timers and the time. -/
structure ClockedLoop (F T : Type) where
  /-- The loop with its timers. -/
  timed : TimedLoop F T
  /-- The time. -/
  clock : ℤ

namespace ClockedLoop

variable {F T : Type}

/-- A new loop, at the time `start`. -/
def new (start : ℤ) : ClockedLoop F T := ⟨.new, start⟩

/-- The steps. -/
inductive Action (F T : Type)
  /-- Time passes. -/
  | tick (d : ℕ)
  /-- A step of the loop or of another thread. -/
  | act (a : TimedLoop.Action F T)
  deriving DecidableEq, Repr

/-- The step reports the timerfd as readable. -/
def Fires : TimedLoop.Action F T → Prop
  | .poll _ fired => fired = true
  | _ => False

/-- The relative time for which the timerfd was set has passed. -/
def Readable (s : ClockedLoop F T) : Prop :=
  ∃ g, s.timed.timerQueue.setting = some g ∧ 1000 * g.now + g.value.nanoseconds ≤ 1000 * s.clock

variable [DecidableEq T]

/-- One step, as a relation between states. -/
inductive Step (s : ClockedLoop F T) : Action F T → ClockedLoop F T → Prop
  | tick (d : ℕ) : Step s (.tick d) { s with clock := s.clock + d }
  | act {a : TimedLoop.Action F T} {timed : TimedLoop F T}
      (htime : ∀ b ∈ a.onTimers, ∀ now ∈ b.time?, now = s.clock) (hfires : Fires a → s.Readable)
      (htimed : TimedLoop.Step s.timed a timed) : Step s (.act a) { s with timed := timed }

/-- The steps of the loop. -/
def Action.onTimed : Action F T → List (TimedLoop.Action F T)
  | tick _ => []
  | act a => [a]

/-! ## The invariant -/

/-- The timerfd was set in the past, as `ResetTimerFd` does, and not for an expiration that is
earlier than all timers in the set. -/
def SettingInv (q : CTimerQueue) (clock : ℤ) : Prop :=
  ∀ g, q.setting = some g → g.now ≤ clock ∧ g = resetTimerFd g.expiration g.now ∧
    ∃ e ∈ q.timers, e.first ≤ g.expiration

/-- What is known of the timerfd stays so while nobody sets it and no timer leaves the set. -/
theorem SettingInv.mono {q q' : CTimerQueue} {clock : ℤ} (h : SettingInv q clock)
    (hset : q'.setting = q.setting) (hmem : ∀ e ∈ q.timers, e ∈ q'.timers) :
    SettingInv q' clock := by
  intro g hg
  rw [hset] at hg
  obtain ⟨hnow, hreset, e, he, hle⟩ := h g hg
  exact ⟨hnow, hreset, e, hmem e he, hle⟩

/-- `__AddTimerInLoop`. -/
theorem SettingInv.addEntry {q : CTimerQueue} {clock : ℤ} (h : SettingInv q clock) (e : Entry) :
    SettingInv (q.addEntry e clock) clock := by
  intro g hg
  have hnew : e ∈ (q.addEntry e clock).timers := OrderedSet.mem_insert.mpr (Or.inl rfl)
  by_cases hearliest : q.earliestChanged e.first = true
  · rw [CTimerQueue.addEntry, if_pos hearliest, Option.some.injEq] at hg
    subst hg
    exact ⟨le_rfl, rfl, e, hnew, le_rfl⟩
  · rw [CTimerQueue.addEntry, if_neg hearliest] at hg
    obtain ⟨hnow, hreset, e', he', hle⟩ := h g hg
    exact ⟨hnow, hreset, e', OrderedSet.mem_insert.mpr (Or.inr he'), hle⟩

/-- Every step of the timers but the destructor keeps it so, and takes timers out of the set only
where a pass begins. -/
theorem SettingInv.step {q q' : CTimerQueue} {a : CTimerQueue.Action} {clock : ℤ}
    (h : SettingInv q clock) (hown : q.OwnInv) (htime : ∀ now ∈ a.time?, now = clock)
    (ha : a ≠ .destroy) (hst : CTimerQueue.Step q a q') :
    SettingInv q' clock ∧ ((∀ iNow, a ≠ .handleRead iNow) → ∀ e ∈ q.timers, e ∈ q'.timers) := by
  have hinsert : ∀ (e : Entry), ∀ e' ∈ q.timers, e' ∈ (q.timers.insert e).1 :=
    fun e e' he' => OrderedSet.mem_insert.mpr (Or.inr he')
  cases hown.effect hst with
  | addTimer iWhen delta repeats p now hpass hfree hp hnew =>
      obtain rfl := htime now rfl
      have hsame : SettingInv (q.newTimer iWhen delta repeats p) now := h.mono rfl fun _ => id
      exact ⟨hsame.addEntry _, fun _ => hinsert _⟩
  | queueTimer => exact ⟨h.mono rfl fun _ => id, fun _ _ => id⟩
  | @callFunctor now p rest t hpass hqueued ht hnew =>
      obtain rfl := htime now rfl
      have hsame : SettingInv { q with queued := rest } now := h.mono rfl fun _ => id
      exact ⟨hsame.addEntry _, fun _ => hinsert _⟩
  | handleRead iNow hpass =>
      refine ⟨fun g hg => (by cases hg), fun hne => absurd rfl (hne iNow)⟩
  | run | returnCallback | beginReset | free => exact ⟨h.mono rfl fun _ => id, fun _ _ => id⟩
  | restart hpass ht hrepeats hnew => exact ⟨h.mono rfl (hinsert _), fun _ => hinsert _⟩
  | endReset now hpass =>
      obtain rfl := htime now rfl
      refine ⟨fun g hg => ?_, fun _ _ => id⟩
      cases hbegin : q.timers.begin? with
      | none =>
          simp only [CTimerQueue.rearmed, hbegin] at hg
          exact h g hg
      | some e =>
          by_cases hvalid : CTimer.IsValid e.first
          · simp only [CTimerQueue.rearmed, hbegin, hvalid, if_true, Option.some.injEq] at hg
            subst hg
            exact ⟨le_rfl, rfl, e, (OrderedSet.begin?_eq_some.mp hbegin).1, le_rfl⟩
          · simp only [CTimerQueue.rearmed, hbegin, hvalid, if_false] at hg
            exact h g hg
  | destroy => exact absurd rfl ha

/-- Steps of the timers, one after the other. -/
theorem SettingInv.run {q q' : CTimerQueue} {as : List CTimerQueue.Action} {clock : ℤ}
    (h : SettingInv q clock) (hown : q.OwnInv) (htime : ∀ b ∈ as, ∀ now ∈ b.time?, now = clock)
    (has : .destroy ∉ as) (hrun : Run CTimerQueue.Step q as q') :
    SettingInv q' clock ∧ ((∀ iNow, .handleRead iNow ∉ as) → ∀ e ∈ q.timers, e ∈ q'.timers) := by
  induction hrun with
  | nil q => exact ⟨h, fun _ _ => id⟩
  | @cons q r q' a as head tail ih =>
      rw [List.mem_cons, not_or] at has
      obtain ⟨hstep, hmem⟩ := h.step hown (htime a List.mem_cons_self) (Ne.symm has.1) head
      obtain ⟨hrest, hmem'⟩ := ih hstep (hown.step _ _ _ head)
        (fun b hb => htime b (List.mem_cons_of_mem a hb)) has.2
      refine ⟨hrest, fun hnot e he => ?_⟩
      apply hmem' (fun iNow hin => hnot iNow (List.mem_cons_of_mem a hin))
      apply hmem _ e he
      rintro iNow rfl
      exact hnot iNow List.mem_cons_self

/-- When the timerfd has been reported, a timer of the set is due. -/
structure AlarmInv (s : ClockedLoop F T) : Prop where
  /-- The time is positive. -/
  clock_pos : 0 < s.clock
  /-- The functors and the timers. -/
  link : s.timed.LinkInv
  /-- The timerfd is set for the first expiration. -/
  arm : s.timed.timerQueue.ArmInv
  /-- The timerfd. -/
  setting : SettingInv s.timed.timerQueue s.clock
  /-- The report of the timerfd. -/
  active : s.timed.timerActive = true → ∃ e ∈ s.timed.timerQueue.timers, e.first ≤ s.clock

/-- A new loop at a positive time. -/
theorem alarmInv_new {start : ℤ} (hstart : 0 < start) :
    AlarmInv (new start : ClockedLoop F T) where
  clock_pos := hstart
  link := TimedLoop.linkInv_new
  arm := CTimerQueue.armInv_new
  setting g hg := by cases hg
  active h := by cases h

/-- No step of the loop destroys the timers. -/
theorem destroy_not_mem {s s' : TimedLoop F T} {a : TimedLoop.Action F T}
    (hst : TimedLoop.Step s a s') : .destroy ∉ a.onTimers := by
  cases hst with
  | @inPass b timerQueue hb htimers =>
      cases b with
      | destroy => exact absurd hb id
      | _ => simp [TimedLoop.Action.onTimers]
  | _ => simp [TimedLoop.Action.onTimers]

/-- When the timerfd is readable, a timer of the set is due. -/
theorem AlarmInv.due_of_readable {s : ClockedLoop F T} (h : s.AlarmInv) (hreadable : s.Readable) :
    ∃ e ∈ s.timed.timerQueue.timers, e.first ≤ s.clock := by
  obtain ⟨g, hg, hpassed⟩ := hreadable
  obtain ⟨-, hreset, e, he, hle⟩ := h.setting g hg
  have hdeadline := deadline_resetTimerFd g.expiration g.now
  rw [← hreset] at hdeadline
  rw [hdeadline, Setting.deadline] at hpassed
  exact ⟨e, he, by omega⟩

/-- What a step of the loop does to the report of the timerfd: the poll makes it, the handler takes
it away, and a pass begins nowhere else. -/
theorem timerActive_step {s s' : TimedLoop F T} {a : TimedLoop.Action F T}
    (hst : TimedLoop.Step s a s') (hactive : s'.timerActive = true) :
    Fires a ∨ s.timerActive = true ∧ ∀ iNow, .handleRead iNow ∉ a.onTimers := by
  cases hst with
  | poll => exact Or.inl hactive
  | handleTimer => cases hactive
  | @inPass b timerQueue hb htimers =>
      refine Or.inr ⟨hactive, fun iNow => ?_⟩
      cases b with
      | handleRead => exact absurd hb id
      | _ => simp [TimedLoop.Action.onTimers]
  | loop | addTimer | threadAddTimer | callAddTimer =>
      exact Or.inr ⟨hactive, fun iNow => by simp [TimedLoop.Action.onTimers]⟩

/-- The steps of the timers keep the timerfd set for the first expiration. -/
theorem AlarmInv.arm_run {s : ClockedLoop F T} (h : s.AlarmInv) {bs : List CTimerQueue.Action}
    {q : CTimerQueue} (htime : ∀ b ∈ bs, ∀ now ∈ b.time?, now = s.clock)
    (hok : ∀ b ∈ bs, b.IntervalOk) (hrun : Run CTimerQueue.Step s.timed.timerQueue bs q) :
    q.ArmInv := by
  have hclock : ∀ b ∈ bs, b.ClockOk := by
    intro b hb
    cases b with
    | handleRead iNow =>
        rw [show iNow = s.clock from htime _ hb iNow rfl]
        exact h.clock_pos
    | addTimer | queueTimer => exact hok _ hb
    | callFunctor | run | returnCallback | beginReset | reset | endReset | destroy => trivial
  have halong : Along CTimerQueue.Step (fun _ b => b.ClockOk) s.timed.timerQueue bs := by
    intro done b rest t hbs _
    exact hclock b (by simp [hbs])
  refine (hrun.invariant_along (I := fun q => q.OwnInv ∧ q.ArmInv) ?_ halong ⟨h.link.own, h.arm⟩).2
  rintro q b q' ⟨hown, harm⟩ hb hst
  exact ⟨hown.step q b q' hst, harm.step hown hb hst⟩

/-- What the runs are about: no repeating timer is made with a negative interval. -/
def Action.IntervalOk (a : Action F T) : Prop :=
  ∀ b ∈ a.onTimed.flatMap TimedLoop.Action.onTimers, b.IntervalOk

instance (a : Action F T) : Decidable a.IntervalOk :=
  inferInstanceAs (Decidable (∀ b ∈ a.onTimed.flatMap TimedLoop.Action.onTimers, b.IntervalOk))

/-- Every step keeps it so. -/
theorem AlarmInv.step (s : ClockedLoop F T) (a : Action F T) (s' : ClockedLoop F T)
    (h : s.AlarmInv) (hok : a.IntervalOk) (hst : Step s a s') : s'.AlarmInv := by
  cases hst with
  | tick d =>
      have hlater : s.clock ≤ s.clock + d := by omega
      refine ⟨h.clock_pos.trans_le hlater, h.link, h.arm, fun g hg => ?_, fun hactive => ?_⟩
      · obtain ⟨hnow, hrest⟩ := h.setting g hg
        exact ⟨hnow.trans hlater, hrest⟩
      · obtain ⟨e, he, hle⟩ := h.active hactive
        exact ⟨e, he, hle.trans hlater⟩
  | @act a timed htime hfires htimed =>
      obtain ⟨hlink, -, hrun⟩ := h.link.step _ _ _ htimed
      obtain ⟨hsetting, hmem⟩ := h.setting.run h.link.own htime (destroy_not_mem htimed) hrun
      have harm := h.arm_run htime (fun b hb => hok b (by simp [Action.onTimed, hb])) hrun
      refine ⟨h.clock_pos, hlink, harm, hsetting, fun hactive => ?_⟩
      rcases timerActive_step htimed hactive with hfire | ⟨hbefore, hnot⟩
      · -- `Poll` does not touch the timers
        obtain ⟨e, he, hle⟩ := h.due_of_readable (hfires hfire)
        refine ⟨e, hmem (fun iNow hin => ?_) e he, hle⟩
        cases a with
        | poll => cases hin
        | _ => exact hfire
      · obtain ⟨e, he, hle⟩ := h.active hbefore
        exact ⟨e, hmem hnot e he, hle⟩

/-! ## Runs -/

/-- **Alarms are neither in vain nor missed.** In every run from a positive time in which no
repeating timer is made with a negative interval:
* whenever the handler of the timerfd is called, its pass finds a timer that is due, whatever the
  handlers and the other threads have done to the timers since the poll;
* when the loop thread is about to call the poll or is blocked in it, then for every timer in the
  set the timerfd is set so that it becomes readable at the expiration of the timer or 100
  microseconds from now at the latest, and not before some timer in the set is due. -/
theorem alarm_run {start : ℤ} (hstart : 0 < start) {as : List (Action F T)} {s : ClockedLoop F T}
    (hrun : Run Step (new start) as s) (hok : ∀ a ∈ as, a.IntervalOk) :
    (∀ iNow s', Step s (.act (.handleTimer iNow)) s' → ∃ e rest,
      s'.timed.timerQueue.pass = .running iNow [] (e :: rest) ∧ e.first ≤ iNow) ∧
    (s.timed.loop.pc = .atPoll → ∀ e ∈ s.timed.timerQueue.timers, ∃ g,
      s.timed.timerQueue.setting = some g ∧
      1000 * g.now + g.value.nanoseconds ≤ 1000 * max e.first (s.clock + 100) ∧
      ∃ e' ∈ s.timed.timerQueue.timers, 1000 * e'.first ≤ 1000 * g.now + g.value.nanoseconds) := by
  have halong : Along Step (fun _ a => a.IntervalOk) (new start) as := by
    intro done a rest t has _
    exact hok a (by simp [has])
  have h : s.AlarmInv := hrun.invariant_along AlarmInv.step halong (alarmInv_new hstart)
  refine ⟨fun iNow s' hst => ?_, fun hpc e he => ?_⟩
  · cases hst with
    | act htime hfires htimed =>
        obtain rfl : iNow = s.clock := htime (.handleRead iNow) (by simp [TimedLoop.Action.onTimers])
          iNow rfl
        cases htimed with
        | handleTimer iNow hpc hactive htimers =>
            obtain ⟨e, he, hle⟩ := h.active hactive
            have hown := h.link.own
            have hdue : e ∈ s.timed.timerQueue.due s.clock := CTimerQueue.mem_due.mpr ⟨he, hle⟩
            obtain ⟨d, rest, hcons⟩ := List.exists_cons_of_ne_nil (List.ne_nil_of_mem hdue)
            have hd : d ∈ s.timed.timerQueue.due s.clock := by simp [hcons]
            refine ⟨d, rest, ?_, (CTimerQueue.mem_due.mp hd).2⟩
            have hbelow := hown.keyed.below_eq s.clock
            generalize s.clock = iNow at *
            cases hown.effect htimers with
            | handleRead iNow hpass =>
                simp only
                rw [hbelow, hcons]
  · have hpass : s.timed.timerQueue.pass = .idle := h.link.pass_eq (by simp [hpc])
    have hne : s.timed.timerQueue.timers.begin? ≠ none := by
      rw [ne_eq, OrderedSet.begin?_eq_none]
      exact List.ne_nil_of_mem he
    obtain ⟨m, hbegin⟩ := Option.ne_none_iff_exists'.mp hne
    obtain ⟨hmem, hleast⟩ := OrderedSet.begin?_eq_some.mp hbegin
    obtain ⟨now, hset⟩ := h.arm.armed m hbegin (Or.inl hpass)
    obtain ⟨hnow, -⟩ := h.setting _ hset
    have hfirst : m.first ≤ e.first := Entry.first_le_of_le (hleast e he)
    refine ⟨_, hset, ?_, m, hmem, ?_⟩
    · rw [deadline_resetTimerFd]
      simp only [resetTimerFd, Setting.deadline] at hnow ⊢
      omega
    · rw [deadline_resetTimerFd]
      simp only [resetTimerFd, Setting.deadline]
      omega

/-- At the time 1 a timer for 40 is added; 100 microseconds later the poll reports the timerfd. -/
def firesOnce : List (Action ℕ Unit) :=
  [.act (.addTimer 40 5 true 1 1), .act (.loop .startLoop), .act (.loop .testQuit), .tick 100,
    .act (.poll false true)]

/-- The run, step by step. -/
theorem run_firesOnce : ∃ s : ClockedLoop ℕ Unit, Run Step (new 1) firesOnce s ∧ s.clock = 101 ∧
    s.timed.loop.pc = .handling ∧ s.timed.timerActive = true ∧ s.timed.timerQueue.fault = none ∧
    s.timed.timerQueue.pass = .idle :=
  ⟨_, Run.cons (.act (by decide) (fun h => by cases h) (.addTimer 40 5 true 1 1 ⟨trivial, Or.inl rfl⟩
      (.addTimer 40 5 true 1 1 rfl trivial rfl (by decide)))) <|
    Run.cons (.act (by decide) (fun h => by cases h) (.loop trivial ⟨⟨rfl, rfl⟩, rfl⟩)) <|
    Run.cons (.act (by decide) (fun h => by cases h) (.loop trivial ⟨rfl, rfl⟩)) <|
    Run.cons (.tick 100) <|
    Run.cons (.act (by decide) (fun _ => ⟨_, rfl, by decide⟩)
      (.poll false true (fun _ h => by cases h) ⟨⟨rfl, fun h => by cases h⟩, rfl⟩)) <| Run.nil _,
    rfl, rfl, rfl, rfl, rfl⟩

/-- The theorem on this run: the pass at the time 101 finds the timer. -/
theorem alarm_run_firesOnce : ∃ s s' : ClockedLoop ℕ Unit, Run Step (new 1) firesOnce s ∧
    Step s (.act (.handleTimer 101)) s' ∧
    ∃ e rest, s'.timed.timerQueue.pass = .running 101 [] (e :: rest) ∧ e.first ≤ 101 := by
  obtain ⟨s, hrun, hclock, hpc, hactive, hfault, hpass⟩ := run_firesOnce
  have hst : Step s (.act (.handleTimer 101)) _ :=
    .act (by simp [TimedLoop.Action.onTimers, CTimerQueue.Action.time?, hclock]) (fun h => by cases h)
      (.handleTimer 101 hpc hactive (.handleRead 101 hfault hpass))
  exact ⟨s, _, hrun, hst, (alarm_run (by decide) hrun (by decide)).1 101 _ hst⟩

end ClockedLoop

end Neconet
