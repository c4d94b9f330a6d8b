import Neconet.Lib.Spaced
import Neconet.Net.TimerArming
import Neconet.Net.TimerLife
import Neconet.Net.TimerPass

/-!
# The passes in which timers run

`__HandleRead` reads the clock once, runs the timers that are due by then, and restarts those that
repeat at that time plus their interval. So a timer runs only in a pass whose reading is not before
its expiration, and the readings of two passes in which it runs are at least its interval apart,
whatever the callbacks, the other threads and the clock do; a late pass moves all later runs.
Nothing more holds of the runs themselves: a pass that is held up by a slow callback runs its next
timer later than it has read the clock, and the pass behind it may run the same timer again at once.

* `TimerRecord`: the queue with a record of the runs, each with the time that its pass has read.
* `PeriodInv`: the readings of a timer are spaced, and its expiration allows the next one.
* `periods_run`: the readings of every timer are spaced by its interval from its first expiration
  on.
-/

namespace Neconet

set_option linter.unusedSectionVars false

open Transition

/-! ## The record -/

/-- The queue, and for every `Run` the number of the timer and the time that the pass has read. -/
structure TimerRecord where
  /-- The queue. -/
  queue : CTimerQueue
  /-- The runs, in order. -/
  runs : List (ℕ × ℤ)

namespace TimerRecord

/-- Nothing has run at first. -/
def new : TimerRecord := ⟨.new, []⟩

/-- What a step adds to the record: a run has the reading of its pass, which was taken before the
first callback of the pass was called. -/
def recorded (q : CTimerQueue) : CTimerQueue.Action → List (ℕ × ℤ)
  | .run =>
      match q.pass with
      | .running iNow _ (e :: _) => [((q.timerOf e).num, iNow)]
      | _ => []
  | _ => []

/-- The other steps add nothing. -/
theorem recorded_of_ne {q : CTimerQueue} {a : CTimerQueue.Action} (ha : a ≠ .run) :
    recorded q a = [] := by
  cases a with
  | run => exact absurd rfl ha
  | _ => rfl

/-- One step of the queue, with the record kept. -/
inductive Step (s : TimerRecord) : CTimerQueue.Action → TimerRecord → Prop
  | step {a : CTimerQueue.Action} {queue : CTimerQueue} (h : CTimerQueue.Step s.queue a queue) :
      Step s a ⟨queue, s.runs ++ recorded s.queue a⟩

/-- The readings of the passes in which the timer with the number `i` has run. -/
def readings (s : TimerRecord) (i : ℕ) : List ℤ := (s.runs.filter fun r => r.1 = i).map Prod.snd

/-- The readings after one more run. -/
theorem readings_append (s : TimerRecord) (q : CTimerQueue) (j : ℕ) (iNow : ℤ) (i : ℕ) :
    readings ⟨q, s.runs ++ [(j, iNow)]⟩ i = s.readings i ++ if j = i then [iNow] else [] := by
  by_cases hj : j = i <;> simp [readings, hj]

/-! ## The invariant -/

/-- The readings of every timer are spaced by its interval, and the expiration of a timer that waits
for its next run allows it. -/
structure PeriodInv (s : TimerRecord) : Prop where
  /-- The readings are spaced, those of deleted timers too. -/
  spaced : ∀ i t₀, s.queue.created[i]? = some t₀ →
    ∃ next, Spaced t₀.expiration t₀.delta (s.readings i) next
  /-- A live timer may run at its expiration, and one that has run in this pass may do so an
  interval later. -/
  live : ∀ p t, s.queue.heap p = some t → ∃ t₀, s.queue.created[t.num]? = some t₀ ∧
    t₀.delta = t.delta ∧ ∃ next, Spaced t₀.expiration t₀.delta (s.readings t.num) next ∧
      (p ∉ s.queue.pass.hasRun.map Entry.second → next ≤ t.expiration) ∧
      (p ∈ s.queue.pass.hasRun.map Entry.second → ∀ iNow ∈ s.queue.pass.iNow?,
        next ≤ iNow + t.delta)
  /-- The timers of the pass are due. -/
  toRun : ∀ e ∈ s.queue.pass.toRun, ∀ iNow ∈ s.queue.pass.iNow?, ∀ t,
    s.queue.heap e.second = some t → t.expiration ≤ iNow
  /-- Timers that are not there yet have not run. -/
  fresh : ∀ i, s.queue.created.length ≤ i → s.readings i = []

/-- There is no timer at first. -/
theorem periodInv_new : PeriodInv new where
  spaced i t₀ hi := by cases hi
  live p t ht := by cases ht
  toRun e he := by cases he
  fresh i hi := rfl

/-- A step in which no timer runs, is made or is restarted. -/
theorem PeriodInv.of_same {s s' : TimerRecord} (h : s.PeriodInv)
    (hheap : ∀ p t, s'.queue.heap p = some t → s.queue.heap p = some t)
    (hcreated : s'.queue.created = s.queue.created) (hruns : s'.runs = s.runs)
    (hhasRun : ∀ p t, s'.queue.heap p = some t →
      (p ∈ s'.queue.pass.hasRun.map Entry.second ↔ p ∈ s.queue.pass.hasRun.map Entry.second))
    (hnow : s'.queue.pass.hasRun ≠ [] → s'.queue.pass.iNow? = s.queue.pass.iNow?)
    (htoRun : ∀ e ∈ s'.queue.pass.toRun, ∀ iNow ∈ s'.queue.pass.iNow?, ∀ t,
      s'.queue.heap e.second = some t → t.expiration ≤ iNow) : s'.PeriodInv := by
  have hreadings : s'.readings = s.readings := by
    funext i
    rw [readings, hruns, readings]
  refine ⟨?_, fun p t ht => ?_, htoRun, ?_⟩
  · rw [hcreated, hreadings]
    exact h.spaced
  · obtain ⟨t₀, ht₀, hdelta, next, hspaced, hwaits, hran⟩ := h.live p t (hheap p t ht)
    rw [hcreated, hreadings]
    refine ⟨t₀, ht₀, hdelta, next, hspaced, ?_, ?_⟩
    · rw [hhasRun p t ht]
      exact hwaits
    · intro hp iNow hiNow
      rw [hnow (List.ne_nil_of_mem (List.mem_map.mp hp).choose_spec.1)] at hiNow
      exact hran ((hhasRun p t ht).mp hp) iNow hiNow
  · rw [hcreated, hreadings]
    exact h.fresh

/-- A new timer has not run. -/
theorem PeriodInv.newTimer {s : TimerRecord} (h : s.PeriodInv) (hown : s.queue.OwnInv) {p : ℕ}
    (hfree : s.queue.heap p = none) (iWhen delta : ℤ) (repeats : Bool) :
    PeriodInv ⟨s.queue.newTimer iWhen delta repeats p, s.runs⟩ := by
  have hnone : s.readings s.queue.created.length = [] := h.fresh _ le_rfl
  have hnot : p ∉ (s.queue.pass.hasRun ++ s.queue.pass.toRun).map Entry.second := by
    intro hp
    apply hown.owns.not_mem_of_eq_none hfree
    refine List.mem_append_right _ ?_
    rw [List.map_append]
    exact List.mem_append_right _ hp
  refine ⟨fun i t₀ hi => ?_, fun q t ht => ?_, fun e he iNow hiNow t ht => ?_, fun i hi => ?_⟩
  · rcases CTimerQueue.getElem?_append_singleton.mp hi with hi | ⟨rfl, rfl⟩
    · exact h.spaced i t₀ hi
    · refine ⟨iWhen, ?_⟩
      change Spaced iWhen delta (s.readings _) iWhen
      rw [hnone]
      exact .nil
  · rcases update_eq_some.mp ht with ⟨rfl, hnew⟩ | ⟨-, ht⟩
    · cases hnew
      refine ⟨_, CTimerQueue.getElem?_append_singleton.mpr (Or.inr ⟨rfl, rfl⟩), rfl, iWhen, ?_,
        fun _ => le_rfl, fun hran => ?_⟩
      · change Spaced iWhen delta (s.readings _) iWhen
        rw [hnone]
        exact .nil
      · rw [List.map_append] at hnot
        exact absurd (List.mem_append_left _ hran) hnot
    · obtain ⟨t₀, ht₀, hrest⟩ := h.live q t ht
      exact ⟨t₀, CTimerQueue.getElem?_append_singleton.mpr (Or.inl ht₀), hrest⟩
  · rcases update_eq_some.mp ht with ⟨rfl, -⟩ | ⟨-, ht⟩
    · rw [List.map_append] at hnot
      exact absurd (List.mem_append_right _ (List.mem_map_of_mem he)) hnot
    · exact h.toRun e he iNow hiNow t ht
  · apply h.fresh i
    simp only [CTimerQueue.newTimer, List.length_append, List.length_singleton] at hi
    omega

/-- The next timer of the pass runs: it is due, and its expiration allows it. -/
theorem PeriodInv.run {s : TimerRecord} (h : s.PeriodInv) (hown : s.queue.OwnInv)
    (hlog : s.queue.LogInv) {iNow : ℤ} {ran rest : List Entry} {e : Entry} {t : CTimer}
    (hpass : s.queue.pass = .running iNow ran (e :: rest)) (ht : s.queue.heap e.second = some t)
    (log : List TimerEvent) :
    PeriodInv ⟨{ s.queue with log := log, pass := .inCallback iNow (ran ++ [e]) rest },
      s.runs ++ [(t.num, iNow)]⟩ := by
  have hnot : e.second ∉ ran.map Entry.second := by
    have hnodup := hown.owns.nodup
    simp only [CTimerQueue.owners, hpass, Pass.hasRun, Pass.toRun, List.map_append, List.map_cons,
      List.nodup_append] at hnodup
    intro hran
    exact hnodup.2.1.2.1.2.2 _ hran _ (by simp) rfl
  have hdue : t.expiration ≤ iNow :=
    h.toRun e (by simp [hpass, Pass.toRun]) iNow (by simp [hpass, Pass.iNow?]) t ht
  obtain ⟨t₀, ht₀, hdelta, next, hspaced, hwaits, -⟩ := h.live e.second t ht
  have hnext : next ≤ iNow := (hwaits (by rw [hpass]; exact hnot)).trans hdue
  have hreadings := readings_append s
    { s.queue with log := log, pass := .inCallback iNow (ran ++ [e]) rest } t.num iNow
  refine ⟨fun i u₀ hi => ?_, fun q u hu => ?_, fun e' he' iNow' hiNow' u hu => ?_, fun i hi => ?_⟩
  · rw [hreadings]
    by_cases hnum : t.num = i
    · subst hnum
      obtain rfl := Option.some.inj (ht₀.symm.trans hi)
      rw [if_pos rfl]
      exact ⟨_, hspaced.snoc hnext⟩
    · rw [if_neg hnum, List.append_nil]
      exact h.spaced i u₀ hi
  · by_cases hq : q = e.second
    · subst hq
      obtain rfl := Option.some.inj (ht.symm.trans hu)
      refine ⟨t₀, ht₀, hdelta, iNow + t₀.delta, ?_, fun hran => ?_, fun _ iNow' hiNow' => ?_⟩
      · rw [hreadings, if_pos rfl]
        exact hspaced.snoc hnext
      · exact absurd (by simp [Pass.hasRun]) hran
      · cases hiNow'
        rw [hdelta]
    · obtain ⟨u₀, hu₀, hdelta', next', hspaced', hwaits', hran'⟩ := h.live q u hu
      have hnum : t.num ≠ u.num := fun hnum => hq (hlog.num_inj _ _ _ _ hu ht hnum.symm)
      have hsame : q ∈ (ran ++ [e]).map Entry.second ↔ q ∈ ran.map Entry.second := by simp [hq]
      rw [hpass] at hwaits' hran'
      refine ⟨u₀, hu₀, hdelta', next', ?_, fun hnot' => hwaits' (mt hsame.mpr hnot'),
        fun hmem => hran' (hsame.mp hmem)⟩
      rw [hreadings, if_neg hnum, List.append_nil]
      exact hspaced'
  · apply h.toRun e' _ iNow' _ u hu
    · rw [hpass]
      exact List.mem_cons_of_mem e he'
    · rw [hpass]
      exact hiNow'
  · rw [hreadings, if_neg, List.append_nil]
    · exact h.fresh i hi
    · exact ((hlog.num_lt ht).trans_le hi).ne

/-- A repeating timer that has run gets the time of the pass plus its interval for its
expiration. -/
theorem PeriodInv.restart {s : TimerRecord} (h : s.PeriodInv) (hown : s.queue.OwnInv) {iNow : ℤ}
    {rest : List Entry} {e : Entry} {t : CTimer}
    (hpass : s.queue.pass = .resetting iNow (e :: rest)) (ht : s.queue.heap e.second = some t)
    (timers : OrderedSet Entry) :
    PeriodInv ⟨{ s.queue with
      heap := Function.update s.queue.heap e.second
        (some { t with expiration := iNow + t.delta })
      timers := timers
      pass := .resetting iNow rest }, s.runs⟩ := by
  have hnot : e.second ∉ rest.map Entry.second := by
    have hnodup := hown.owns.nodup
    simp only [CTimerQueue.owners, hpass, Pass.hasRun, Pass.toRun, List.map_append, List.map_cons,
      List.nodup_append, List.append_nil, List.nodup_cons] at hnodup
    exact hnodup.2.1.2.1.1
  refine ⟨h.spaced, fun q u hu => ?_, fun e' he' => (by cases he'), h.fresh⟩
  rcases update_eq_some.mp hu with ⟨rfl, hnew⟩ | ⟨hq, hu⟩
  · cases hnew
    obtain ⟨t₀, ht₀, hdelta, next, hspaced, -, hran⟩ := h.live e.second t ht
    refine ⟨t₀, ht₀, hdelta, next, hspaced, fun _ => ?_, fun hran' => absurd hran' hnot⟩
    exact hran (by simp [hpass, Pass.hasRun]) iNow (by simp [hpass, Pass.iNow?])
  · obtain ⟨u₀, hu₀, hdelta, next, hspaced, hwaits, hran⟩ := h.live q u hu
    have hsame : q ∈ (e :: rest).map Entry.second ↔ q ∈ rest.map Entry.second := by simp [hq]
    rw [hpass] at hwaits hran
    exact ⟨u₀, hu₀, hdelta, next, hspaced, fun hnot' => hwaits (mt hsame.mp hnot'),
      fun hmem => hran (hsame.mpr hmem)⟩

/-- A timer that has run and does not repeat is deleted. -/
theorem PeriodInv.free {s : TimerRecord} (h : s.PeriodInv) {iNow : ℤ} {rest : List Entry}
    {e : Entry} (hpass : s.queue.pass = .resetting iNow (e :: rest)) (log : List TimerEvent) :
    PeriodInv ⟨{ s.queue with
      heap := Function.update s.queue.heap e.second none
      log := log
      pass := .resetting iNow rest }, s.runs⟩ := by
  have hback : ∀ q u, Function.update s.queue.heap e.second none q = some u →
      q ≠ e.second ∧ s.queue.heap q = some u := by
    intro q u hu
    rcases update_eq_some.mp hu with ⟨-, hnone⟩ | hkept
    · cases hnone
    · exact hkept
  refine h.of_same (fun q u hu => (hback q u hu).2) rfl rfl ?_ ?_ ?_
  · intro q u hu
    simp [hpass, Pass.hasRun, (hback q u hu).1]
  · simp [hpass, Pass.iNow?]
  · intro e' he'
    cases he'

/-- Every step of the queue keeps it so. -/
theorem PeriodInv.step {s s' : TimerRecord} {a : CTimerQueue.Action} (h : s.PeriodInv)
    (hown : s.queue.OwnInv) (hlog : s.queue.LogInv) (hst : Step s a s') : s'.PeriodInv := by
  obtain ⟨hqueue⟩ := hst
  cases hown.effect hqueue with
  | addTimer iWhen delta repeats p now hpass hfree hp hnew =>
      rw [recorded_of_ne (by simp), List.append_nil]
      exact (h.newTimer hown hfree iWhen delta repeats).of_same (fun _ _ => id) rfl rfl
        (fun _ _ _ => Iff.rfl) (fun _ => rfl) (h.newTimer hown hfree iWhen delta repeats).toRun
  | queueTimer iWhen delta repeats p hpass hfree hp =>
      rw [recorded_of_ne (by simp), List.append_nil]
      exact (h.newTimer hown hfree iWhen delta repeats).of_same (fun _ _ => id) rfl rfl
        (fun _ _ _ => Iff.rfl) (fun _ => rfl) (h.newTimer hown hfree iWhen delta repeats).toRun
  | callFunctor now hpass hqueued ht hnew =>
      rw [recorded_of_ne (by simp), List.append_nil]
      exact h.of_same (fun _ _ => id) rfl rfl (fun _ _ _ => Iff.rfl) (fun _ => rfl) h.toRun
  | handleRead iNow hpass =>
      rw [recorded_of_ne (by simp), List.append_nil]
      refine h.of_same (fun _ _ => id) rfl rfl ?_ (fun hne => absurd rfl hne) ?_
      · simp [hpass, Pass.hasRun]
      · intro e he iNow' hiNow' t ht
        cases hiNow'
        have hbelow : e ∈ s.queue.due iNow := by
          rw [← hown.keyed.below_eq]
          exact he
        obtain ⟨hmem, hle⟩ := CTimerQueue.mem_due.mp hbelow
        obtain ⟨u, hu, hfirst⟩ := hown.key e hmem
        obtain rfl := Option.some.inj (hu.symm.trans ht)
        exact hfirst.trans_le hle
  | @run iNow ran rest e t hpass ht =>
      have hrecord : recorded s.queue .run = [(t.num, iNow)] := by
        simp [recorded, hpass, CTimerQueue.timerOf, ht]
      rw [hrecord]
      exact h.run hown hlog hpass ht _
  | @returnCallback iNow ran rest hpass =>
      rw [recorded_of_ne (by simp), List.append_nil]
      refine h.of_same (fun _ _ => id) rfl rfl (by simp [hpass, Pass.hasRun])
        (by simp [hpass, Pass.iNow?]) fun e he iNow' hiNow' => ?_
      exact h.toRun e (by rw [hpass]; exact he) iNow' (by rw [hpass]; exact hiNow')
  | beginReset hpass =>
      rw [recorded_of_ne (by simp), List.append_nil]
      exact h.of_same (fun _ _ => id) rfl rfl (by simp [hpass, Pass.hasRun])
        (by simp [hpass, Pass.iNow?]) fun e he => (by cases he)
  | restart hpass ht hrepeats hnew =>
      rw [recorded_of_ne (by simp), List.append_nil]
      exact h.restart hown hpass ht _
  | free hpass ht hrepeats =>
      rw [recorded_of_ne (by simp), List.append_nil]
      exact h.free hpass _
  | endReset now hpass =>
      rw [recorded_of_ne (by simp), List.append_nil]
      exact h.of_same (fun _ _ => id) rfl rfl (by simp [hpass, Pass.hasRun])
        (fun hne => absurd rfl hne) fun e he => (by cases he)
  | destroy hpass hnums =>
      rw [recorded_of_ne (by simp), List.append_nil]
      exact h.of_same (fun _ _ => CTimerQueue.eq_some_of_clear) rfl rfl
        (by simp [hpass, Pass.hasRun]) (fun hne => absurd rfl hne) fun e he => (by cases he)

/-! ## Runs -/

/-- The number of the timer, if the event is a run. -/
def ran? : TimerEvent → Option ℕ
  | .run num => some num
  | .free _ => none

/-- The record has the runs of the log. -/
def Exact (s : TimerRecord) : Prop := s.runs.map Prod.fst = s.queue.log.filterMap ran?

/-- Every step of the queue keeps it so. -/
theorem Exact.step {s s' : TimerRecord} {a : CTimerQueue.Action} (h : s.Exact)
    (hown : s.queue.OwnInv) (hst : Step s a s') : s'.Exact := by
  obtain ⟨hqueue⟩ := hst
  unfold Exact at h ⊢
  rw [List.map_append, h]
  cases hown.effect hqueue with
  | @run iNow ran rest e t hpass ht =>
      have hrecord : recorded s.queue .run = [(t.num, iNow)] := by
        simp [recorded, hpass, CTimerQueue.timerOf, ht]
      rw [hrecord, List.filterMap_append]
      rfl
  | free hpass ht hrepeats =>
      rw [List.filterMap_append]
      rfl
  | @destroy nums hpass hnums =>
      have hnone : (nums.map TimerEvent.free).filterMap ran? = [] := by simp [ran?]
      rw [List.filterMap_append, hnone]
      rfl
  | addTimer | queueTimer | callFunctor | handleRead | returnCallback | beginReset | restart
  | endReset => exact List.append_nil _

/-- A step is taken before the destructor is over. -/
theorem pass_ne_of_effect {q q' : CTimerQueue} {a : CTimerQueue.Action}
    (h : CTimerQueue.Effect q a q') : q.pass ≠ .destroyed := by
  intro hpass
  cases h <;> simp_all [Pass.AllowsAdd]

/-- The invariants of a run. -/
theorem inv_run {as : List CTimerQueue.Action} {s : TimerRecord} (hrun : Run Step new as s) :
    s.PeriodInv ∧ s.Exact := by
  have hkeep : ∀ (s : TimerRecord) a s',
      ((∃ bs, Run CTimerQueue.Step .new bs s.queue) ∧ s.PeriodInv ∧ s.Exact) → Step s a s' →
      (∃ bs, Run CTimerQueue.Step .new bs s'.queue) ∧ s'.PeriodInv ∧ s'.Exact := by
    rintro s a s' ⟨⟨bs, hbs⟩, hperiod, hexact⟩ hst
    obtain ⟨hown, hlog⟩ := CTimerQueue.inv_run hbs
    have hqueue : CTimerQueue.Step s.queue a s'.queue := by
      obtain ⟨hqueue⟩ := hst
      exact hqueue
    have hlive := hlog (pass_ne_of_effect (hown.effect hqueue))
    exact ⟨⟨bs ++ [a], hbs.append (Run.single hqueue)⟩, hperiod.step hown hlive hst,
      hexact.step hown hst⟩
  exact (hrun.invariant hkeep ⟨⟨[], Run.nil _⟩, periodInv_new, rfl⟩).2

/-- Every run of the queue has a record. -/
theorem exists_record {as : List CTimerQueue.Action} {q : CTimerQueue}
    (hrun : Run CTimerQueue.Step .new as q) : ∃ s : TimerRecord, Run Step new as s ∧ s.queue = q := by
  have hsim : ∀ (q : CTimerQueue) a q' (s : TimerRecord), s.queue = q → CTimerQueue.Step q a q' →
      ∃ s' : TimerRecord, Run Step s [a] s' ∧ s'.queue = q' := by
    rintro q a q' s rfl hst
    exact ⟨_, Run.single (.step hst), rfl⟩
  have hsame : as.flatMap (fun a => [a]) = as := List.flatMap_singleton' as
  rw [← hsame]
  exact hrun.simulate hsim rfl

/-- **A timer runs in no pass that is too early, and in no two that are too close.** For every run
of the queue there is the record of the runs of the timers, which has all the runs of the log in
their order, each with the time that `__HandleRead` has read at the beginning of the pass. In it,
for a timer that was made with the expiration `iWhen` and the interval `delta`, whatever becomes of
its address and of the clock: the pass of the run with the index `k` has read a time not before
`iWhen + k * delta`, and the readings of the passes of the runs with the indices `j` and `k` are at
least `k - j` intervals apart. -/
theorem periods_run {as : List CTimerQueue.Action} {q : CTimerQueue}
    (hrun : Run CTimerQueue.Step .new as q) : ∃ s : TimerRecord, Run Step new as s ∧ s.queue = q ∧
    s.runs.map Prod.fst = q.log.filterMap ran? ∧
    ∀ i t₀, q.created[i]? = some t₀ →
      (∀ k (hk : k < (s.readings i).length), t₀.expiration + k • t₀.delta ≤ (s.readings i)[k]) ∧
      ∀ j k (hjk : j < k) (hk : k < (s.readings i).length),
        (s.readings i)[j] + (k - j) • t₀.delta ≤ (s.readings i)[k] := by
  obtain ⟨s, hs, rfl⟩ := exists_record hrun
  obtain ⟨hperiod, hexact⟩ := inv_run hs
  refine ⟨s, hs, rfl, hexact, fun i t₀ hi => ?_⟩
  obtain ⟨next, hspaced⟩ := hperiod.spaced i t₀ hi
  exact ⟨fun k hk => hspaced.start_add_le hk, fun j k hjk hk => hspaced.getElem_add_le hjk hk⟩

/-- A timer for 10 with the interval 5, a late pass at 18, and a pass at 23. -/
def runsTwice : List CTimerQueue.Action :=
  [.addTimer 10 5 true 1 2, .handleRead 18, .run, .returnCallback, .beginReset, .reset, .endReset 18,
    .handleRead 23, .run]

/-- The run, step by step. -/
theorem run_runsTwice : ∃ q, Run CTimerQueue.Step .new runsTwice q ∧
    q.created = [⟨10, 5, true, 0⟩] ∧ q.log = [.run 0, .run 0] :=
  ⟨_, Run.cons (.addTimer 10 5 true 1 2 rfl trivial rfl (by decide)) <|
    Run.cons (.handleRead 18 rfl rfl) <|
    Run.cons (.run rfl rfl) <|
    Run.cons (.returnCallback rfl rfl) <|
    Run.cons (.beginReset rfl rfl) <|
    Run.cons (.reset rfl rfl) <|
    Run.cons (.endReset 18 rfl rfl) <|
    Run.cons (.handleRead 23 rfl rfl) <|
    Run.cons (.run rfl rfl) <| Run.nil _, rfl, rfl⟩

/-- The theorem on this run: the pass of the second run has not read a time before 15. -/
theorem periods_run_runsTwice : ∃ s : TimerRecord, Run Step new runsTwice s ∧
    ∃ hk : 1 < (s.readings 0).length, 15 ≤ (s.readings 0)[1] := by
  obtain ⟨q, hrun, hcreated, hlog⟩ := run_runsTwice
  obtain ⟨s, hs, -, hexact, hspaced⟩ := periods_run hrun
  have hlength : 1 < (s.readings 0).length := by
    have htwo : s.runs.map Prod.fst = [0, 0] := by
      rw [hexact, hlog]
      rfl
    have hall : s.runs.filter (fun r => r.1 = 0) = s.runs := by
      rw [List.filter_eq_self]
      intro r hr
      have hmem : r.1 ∈ s.runs.map Prod.fst := List.mem_map_of_mem hr
      rw [htwo] at hmem
      simpa using hmem
    have hlen := congrArg List.length htwo
    rw [List.length_map] at hlen
    rw [readings, hall, List.length_map, hlen]
    decide
  have hperiod := (hspaced 0 ⟨10, 5, true, 0⟩ (by rw [hcreated]; rfl)).1 1 hlength
  exact ⟨s, hs, hlength, hperiod⟩

end TimerRecord

end Neconet
