import Neconet.Net.TimerOwnership

/-!
# The life of a timer

What happens to every single timer, followed by its number through all the addresses that are handed
out again: a one-shot timer runs at most once and is then deleted, once; a repeating timer is
deleted by the destructor only.

* `LogInv`: what the log says of the live and of the deleted timers.
* `timerOwnership_run`: owners, keys and lives, in every reachable state.
-/

namespace Neconet

set_option linter.unusedSectionVars false

open Transition

namespace CTimerQueue

/-! ## What happens to a timer -/

/-- What has happened to the timer with the number `i`. -/
def history (s : CTimerQueue) (i : ℕ) : List TimerEvent := s.log.filter fun ev => ev.num = i

/-- An event of the timer is added to what has happened to it. -/
theorem history_append_self (s : CTimerQueue) (ev : TimerEvent) :
    (s.log ++ [ev]).filter (fun ev' => ev'.num = ev.num) = s.history ev.num ++ [ev] := by
  simp [history, List.filter_append]

/-- An event of another timer changes nothing. -/
theorem history_append_of_ne (s : CTimerQueue) (ev : TimerEvent) {i : ℕ} (hi : ev.num ≠ i) :
    (s.log ++ [ev]).filter (fun ev' => ev'.num = i) = s.history i := by
  simp [history, List.filter_append, hi]

/-- What the log says of a timer is in its history. -/
theorem mem_history {s : CTimerQueue} {ev : TimerEvent} (hmem : ev ∈ s.log) : ev ∈ s.history ev.num :=
  List.mem_filter.mpr ⟨hmem, decide_eq_true rfl⟩

/-- What does not change of a timer. -/
def label (t : CTimer) : ℕ × Bool := (t.num, t.repeats)

/-- The timers are followed by their numbers: what the log says of them, until the destructor. -/
structure LogInv (s : CTimerQueue) : Prop where
  /-- A live timer was constructed as what it is. -/
  created : ∀ p t, s.heap p = some t → ∃ t₀, s.created[t.num]? = some t₀ ∧ t₀.repeats = t.repeats
  /-- No two live timers have one number. -/
  num_inj : ∀ p q t u, s.heap p = some t → s.heap q = some u → t.num = u.num → p = q
  /-- Numbers not given out yet are not in the log. -/
  fresh : ∀ i, s.created.length ≤ i → s.history i = []
  /-- A live one-shot timer has run if it is past its turn in the pass, and else has not. -/
  live : ∀ p t, s.heap p = some t → t.repeats = false →
    s.history t.num = if p ∈ s.pass.hasRun.map Entry.second then [.run t.num] else []
  /-- A deleted one-shot timer has run once and has been deleted once. -/
  dead : ∀ i t₀, s.created[i]? = some t₀ → t₀.repeats = false →
    (∀ p t, s.heap p = some t → t.num ≠ i) → s.history i = [.run i, .free i]
  /-- A repeating timer has not been deleted. -/
  repeating : ∀ i t₀, s.created[i]? = some t₀ → t₀.repeats = true →
    .free i ∉ s.log ∧ ∃ p t, s.heap p = some t ∧ t.num = i

/-- There is no timer at first. -/
theorem logInv_new : LogInv new where
  created p t ht := by cases ht
  num_inj p q t u ht := by cases ht
  fresh i hi := rfl
  live p t ht := by cases ht
  dead i t₀ hi := by cases hi
  repeating i t₀ hi := by cases hi

/-- A live timer has a number that was given out. -/
theorem LogInv.num_lt {s : CTimerQueue} (h : s.LogInv) {p : ℕ} {t : CTimer} (ht : s.heap p = some t) :
    t.num < s.created.length := by
  obtain ⟨t₀, hcreated, -⟩ := h.created p t ht
  exact (List.getElem?_eq_some_iff.mp hcreated).1

/-- Whether a live timer repeats was fixed when it was constructed. -/
theorem LogInv.repeats_eq {s : CTimerQueue} (h : s.LogInv) {p : ℕ} {t t₀ : CTimer}
    (ht : s.heap p = some t) (hcreated : s.created[t.num]? = some t₀) : t₀.repeats = t.repeats := by
  obtain ⟨t₁, ht₁, hsame⟩ := h.created p t ht
  rw [hcreated, Option.some.injEq] at ht₁
  rw [ht₁]
  exact hsame

/-- A step that says nothing and changes of the timers at most when they expire. -/
theorem LogInv.of_same {s s' : CTimerQueue} (h : s.LogInv)
    (hheap : ∀ p, (s'.heap p).map label = (s.heap p).map label)
    (hcreated : s'.created = s.created) (hlog : s'.log = s.log)
    (hrun : ∀ p t, s.heap p = some t → t.repeats = false →
      (p ∈ s'.pass.hasRun.map Entry.second ↔ p ∈ s.pass.hasRun.map Entry.second)) : s'.LogInv := by
  have hhistory : s'.history = s.history := by
    funext i
    rw [history, hlog, history]
  have hback : ∀ p t, s'.heap p = some t →
      ∃ u, s.heap p = some u ∧ u.num = t.num ∧ u.repeats = t.repeats := by
    intro p t ht
    have hp := hheap p
    rw [ht, Option.map_some, eq_comm, Option.map_eq_some_iff] at hp
    simpa [label] using hp
  have hforth : ∀ p t, s.heap p = some t →
      ∃ u, s'.heap p = some u ∧ u.num = t.num ∧ u.repeats = t.repeats := by
    intro p t ht
    have hp := hheap p
    rw [ht, Option.map_some, Option.map_eq_some_iff] at hp
    simpa [label] using hp
  refine ⟨fun p t ht => ?_, fun p q t u ht hu hnum => ?_, ?_, fun p t ht hone => ?_,
    fun i t₀ hi hone hdead => ?_, fun i t₀ hi hrepeats => ?_⟩
  · obtain ⟨u, hu, hnum, hrepeats⟩ := hback p t ht
    obtain ⟨t₀, ht₀, hsame⟩ := h.created p u hu
    exact ⟨t₀, by rw [hcreated, ← hnum, ht₀], hsame.trans hrepeats⟩
  · obtain ⟨t', ht', htnum, -⟩ := hback p t ht
    obtain ⟨u', hu', hunum, -⟩ := hback q u hu
    exact h.num_inj p q t' u' ht' hu' (htnum.trans (hnum.trans hunum.symm))
  · rw [hcreated, hhistory]
    exact h.fresh
  · obtain ⟨u, hu, hnum, hrepeats⟩ := hback p t ht
    rw [hone] at hrepeats
    rw [hhistory, ← hnum, h.live p u hu hrepeats]
    simp only [hrun p u hu hrepeats]
  · rw [hhistory]
    rw [hcreated] at hi
    refine h.dead i t₀ hi hone fun p t ht => ?_
    obtain ⟨u, hu, hnum, -⟩ := hforth p t ht
    exact hnum ▸ hdead p u hu
  · rw [hcreated] at hi
    obtain ⟨hkept, p, t, ht, hnum⟩ := h.repeating i t₀ hi hrepeats
    obtain ⟨u, hu, hunum, -⟩ := hforth p t ht
    exact ⟨hlog ▸ hkept, p, u, hu, hunum.trans hnum⟩

/-- A timer in the list of all timers, behind which one is added. -/
theorem getElem?_append_singleton {l : List CTimer} {t t₀ : CTimer} {i : ℕ} :
    (l ++ [t])[i]? = some t₀ ↔ l[i]? = some t₀ ∨ i = l.length ∧ t = t₀ := by
  rcases lt_trichotomy i l.length with hi | rfl | hi
  · rw [List.getElem?_append_left hi]
    simp [hi.ne]
  · simp
  · have hlen : (l ++ [t]).length ≤ i := by
      simp only [List.length_append, List.length_singleton]
      omega
    simp [List.getElem?_eq_none hlen, List.getElem?_eq_none hi.le, hi.ne']

/-- A new timer. -/
theorem LogInv.newTimer {s : CTimerQueue} (h : s.LogInv) (hown : s.OwnInv) {p : ℕ}
    (hfree : s.heap p = none) (iWhen delta : ℤ) (repeats : Bool) :
    (s.newTimer iWhen delta repeats p).LogInv := by
  have hkeep : ∀ q t, s.heap q = some t → (s.newTimer iWhen delta repeats p).heap q = some t :=
    fun q t ht => update_of_free hfree ht _
  refine ⟨fun q t ht => ?_, fun q r t u ht hu hnum => ?_, fun i hi => ?_, fun q t ht hone => ?_,
    fun i t₀ hi hone hdead => ?_, fun i t₀ hi hrepeats => ?_⟩
  · rcases update_eq_some.mp ht with ⟨-, hnew⟩ | ⟨-, ht⟩
    · cases hnew
      exact ⟨_, getElem?_append_singleton.mpr (Or.inr ⟨rfl, rfl⟩), rfl⟩
    · obtain ⟨t₀, hcreated, hrepeats⟩ := h.created q t ht
      exact ⟨t₀, getElem?_append_singleton.mpr (Or.inl hcreated), hrepeats⟩
  · rcases update_eq_some.mp ht with ⟨hq, hnew⟩ | ⟨-, ht'⟩ <;>
      rcases update_eq_some.mp hu with ⟨hr, hnew'⟩ | ⟨-, hu'⟩
    · exact hq.trans hr.symm
    · cases hnew
      exact absurd hnum.symm (h.num_lt hu').ne
    · cases hnew'
      exact absurd hnum (h.num_lt ht').ne
    · exact h.num_inj q r t u ht' hu' hnum
  · apply h.fresh i
    simp only [CTimerQueue.newTimer, List.length_append, List.length_singleton] at hi
    omega
  · rcases update_eq_some.mp ht with ⟨rfl, hnew⟩ | ⟨-, ht⟩
    · cases hnew
      have hnot : q ∉ s.pass.hasRun.map Entry.second := by
        intro hq
        apply hown.owns.not_mem_of_eq_none hfree
        refine List.mem_append_right _ ?_
        rw [List.map_append, List.map_append]
        exact List.mem_append_right _ (List.mem_append_left _ hq)
      exact (h.fresh s.created.length le_rfl).trans (if_neg hnot).symm
    · exact h.live q t ht hone
  · rcases getElem?_append_singleton.mp hi with hi | ⟨rfl, -⟩
    · exact h.dead i t₀ hi hone fun q t ht => hdead q t (hkeep q t ht)
    · exact absurd rfl (hdead p _ (Function.update_self _ _ _))
  · rcases getElem?_append_singleton.mp hi with hi | ⟨rfl, -⟩
    · obtain ⟨hfree', q, t, ht, hnum⟩ := h.repeating i t₀ hi hrepeats
      exact ⟨hfree', q, t, hkeep q t ht, hnum⟩
    · refine ⟨fun hmem => ?_, p, _, Function.update_self _ _ _, rfl⟩
      have hhistory : TimerEvent.free s.created.length ∈ s.history s.created.length :=
        mem_history hmem
      rw [h.fresh _ le_rfl] at hhistory
      cases hhistory

/-- The timer at the head of the pass runs. -/
theorem LogInv.run {s : CTimerQueue} (h : s.LogInv) (hown : s.OwnInv) {iNow : ℤ}
    {ran rest : List Entry} {e : Entry} {t : CTimer}
    (hpass : s.pass = .running iNow ran (e :: rest)) (ht : s.heap e.second = some t) :
    LogInv { s with log := s.log ++ [.run t.num], pass := .inCallback iNow (ran ++ [e]) rest } := by
  have hother : ∀ i, t.num ≠ i →
      (s.log ++ [TimerEvent.run t.num]).filter (fun ev => ev.num = i) = s.history i :=
    fun i hi => history_append_of_ne s (.run t.num) hi
  refine ⟨h.created, h.num_inj, fun i hi => ?_, fun q u hu hone => ?_, fun i t₀ hi hone hdead => ?_,
    fun i t₀ hi hrepeats => ?_⟩
  · exact (hother i ((h.num_lt ht).trans_le hi).ne).trans (h.fresh i hi)
  · have hlive := h.live q u hu hone
    rw [hpass] at hlive
    by_cases hq : q = e.second
    · subst hq
      rw [ht, Option.some.injEq] at hu
      subst hu
      have hnot : e.second ∉ ran.map Entry.second := by
        have hnodup := hown.owns.nodup
        simp only [owners, hpass, Pass.hasRun, Pass.toRun, List.map_append, List.map_cons,
          List.nodup_append] at hnodup
        intro hran
        exact hnodup.2.1.2.1.2.2 _ hran _ (by simp) rfl
      rw [Pass.hasRun, if_neg hnot] at hlive
      have hself := history_append_self s (.run t.num)
      rw [TimerEvent.num, hlive] at hself
      exact hself.trans (if_pos (by simp [Pass.hasRun])).symm
    · refine (hother _ fun heq => hq (h.num_inj _ _ _ _ hu ht heq.symm)).trans (hlive.trans ?_)
      simp [Pass.hasRun, hq]
  · exact (hother i (hdead _ _ ht)).trans (h.dead i t₀ hi hone hdead)
  · obtain ⟨hkept, hthere⟩ := h.repeating i t₀ hi hrepeats
    exact ⟨by simpa using hkept, hthere⟩

/-- A one-shot timer that has run is deleted. -/
theorem LogInv.free {s : CTimerQueue} (h : s.LogInv) {iNow : ℤ} {rest : List Entry} {e : Entry}
    {t : CTimer} (hpass : s.pass = .resetting iNow (e :: rest)) (ht : s.heap e.second = some t)
    (hrepeats : t.repeats = false) :
    LogInv { s with
      heap := Function.update s.heap e.second none
      log := s.log ++ [.free t.num]
      pass := .resetting iNow rest } := by
  have hother : ∀ i, t.num ≠ i →
      (s.log ++ [TimerEvent.free t.num]).filter (fun ev => ev.num = i) = s.history i :=
    fun i hi => history_append_of_ne s (.free t.num) hi
  have hback : ∀ q u, Function.update s.heap e.second none q = some u →
      q ≠ e.second ∧ s.heap q = some u := by
    intro q u hu
    rcases update_eq_some.mp hu with ⟨-, hnone⟩ | hkept
    · cases hnone
    · exact hkept
  refine ⟨fun q u hu => h.created q u (hback q u hu).2, fun q r u v hu hv =>
    h.num_inj q r u v (hback q u hu).2 (hback r v hv).2, fun i hi => ?_, fun q u hu hone => ?_,
    fun i t₀ hi hone hdead => ?_, fun i t₀ hi hrep => ?_⟩
  · exact (hother i ((h.num_lt ht).trans_le hi).ne).trans (h.fresh i hi)
  · obtain ⟨hq, hu'⟩ := hback q u hu
    have hlive := h.live q u hu' hone
    rw [hpass] at hlive
    refine (hother _ fun heq => hq (h.num_inj _ _ _ _ hu' ht heq.symm)).trans (hlive.trans ?_)
    simp [Pass.hasRun, hq]
  · by_cases hnum : t.num = i
    · subst hnum
      have hlive := h.live e.second t ht hrepeats
      rw [hpass, if_pos (by simp [Pass.hasRun])] at hlive
      have hself := history_append_self s (.free t.num)
      rw [TimerEvent.num, hlive] at hself
      exact hself
    · refine (hother i hnum).trans (h.dead i t₀ hi hone fun q u hu heq => ?_)
      by_cases hq : q = e.second
      · subst hq
        rw [ht, Option.some.injEq] at hu
        exact hnum (hu ▸ heq)
      · exact hdead q u (update_eq_some.mpr (Or.inr ⟨hq, hu⟩)) heq
  · obtain ⟨hkept, q, u, hu, hnum⟩ := h.repeating i t₀ hi hrep
    have hne : t.num ≠ i := by
      rintro rfl
      have hsame := h.repeats_eq ht hi
      rw [hrep, hrepeats] at hsame
      cases hsame
    refine ⟨by simpa [Ne.symm hne] using hkept, q, u, update_eq_some.mpr (Or.inr ⟨?_, hu⟩), hnum⟩
    rintro rfl
    rw [ht, Option.some.injEq] at hu
    exact hne (hu ▸ hnum)

/-- Every step but the destructor keeps it so. -/
theorem LogInv.step {s s' : CTimerQueue} {a : Action} (h : s.LogInv) (hown : s.OwnInv)
    (heffect : Effect s a s') (ha : a ≠ .destroy) : s'.LogInv := by
  cases heffect with
  | addTimer iWhen delta repeats p now hpass hfree hp hnew =>
      have hinv := h.newTimer hown hfree iWhen delta repeats
      exact hinv.of_same (fun q => rfl) rfl rfl fun q t _ _ => Iff.rfl
  | queueTimer iWhen delta repeats p hpass hfree hp =>
      have hinv := h.newTimer hown hfree iWhen delta repeats
      exact hinv.of_same (fun q => rfl) rfl rfl fun q t _ _ => Iff.rfl
  | callFunctor now hpass hqueued ht hnew =>
      exact h.of_same (fun q => rfl) rfl rfl fun q t _ _ => Iff.rfl
  | handleRead iNow hpass =>
      refine h.of_same (fun q => rfl) rfl rfl fun q t _ _ => ?_
      simp [hpass, Pass.hasRun]
  | run hpass ht => exact h.run hown hpass ht
  | returnCallback hpass =>
      refine h.of_same (fun q => rfl) rfl rfl fun q t _ _ => ?_
      simp [hpass, Pass.hasRun]
  | beginReset hpass =>
      refine h.of_same (fun q => rfl) rfl rfl fun q t _ _ => ?_
      simp [hpass, Pass.hasRun]
  | @restart iNow rest e t hpass ht hrepeats hnew =>
      refine h.of_same (fun q => ?_) rfl rfl fun q u hu hone => ?_
      · by_cases hq : q = e.second
        · simp [hq, ht, label]
        · simp [hq]
      · have hq : q ≠ e.second := by
          rintro rfl
          rw [ht, Option.some.injEq] at hu
          rw [← hu, hrepeats] at hone
          cases hone
        simp [hpass, Pass.hasRun, hq]
  | free hpass ht hrepeats => exact h.free hpass ht hrepeats
  | endReset now hpass =>
      refine h.of_same (fun q => rfl) rfl rfl fun q t _ _ => ?_
      simp [hpass, Pass.hasRun]
  | destroy hpass hnums => exact absurd rfl ha

/-! ## Runs -/

/-- Up to the destructor, a one-shot timer has not run, or has run once and waits in the pass for
`__ResetTimers`, or has run once and was then deleted once; a repeating timer has not been
deleted. -/
structure Lives (s : CTimerQueue) : Prop where
  /-- The one-shot timers. -/
  oneShot : ∀ i t₀, s.created[i]? = some t₀ → t₀.repeats = false →
    s.history i = [] ∨
    s.history i = [.run i] ∧ (∃ e ∈ s.pass.hasRun, ∃ t, s.heap e.second = some t ∧ t.num = i) ∨
    s.history i = [.run i, .free i]
  /-- The repeating timers. -/
  repeating : ∀ i t₀, s.created[i]? = some t₀ → t₀.repeats = true → .free i ∉ s.log

/-- What the log says is that. -/
theorem LogInv.lives {s : CTimerQueue} (h : s.LogInv) : s.Lives where
  oneShot i t₀ hi hone := by
    by_cases hlive : ∃ p t, s.heap p = some t ∧ t.num = i
    · obtain ⟨p, t, ht, rfl⟩ := hlive
      have hhistory := h.live p t ht ((h.repeats_eq ht hi).symm.trans hone)
      by_cases hp : p ∈ s.pass.hasRun.map Entry.second
      · rw [if_pos hp] at hhistory
        obtain ⟨e, he, rfl⟩ := List.mem_map.mp hp
        exact Or.inr (Or.inl ⟨hhistory, e, he, t, ht, rfl⟩)
      · rw [if_neg hp] at hhistory
        exact Or.inl hhistory
    · refine Or.inr (Or.inr (h.dead i t₀ hi hone fun p t ht hnum => ?_))
      exact hlive ⟨p, t, ht, hnum⟩
  repeating i t₀ hi hrepeats := (h.repeating i t₀ hi hrepeats).1

/-- The destructor deletes the timer of each entry, once, and no timer that was deleted before. -/
structure DeletesEntries (s s' : CTimerQueue) (nums : List ℕ) : Prop where
  /-- The numbers are those of the timers in the set. -/
  nums_eq : s.timers.toList.map (fun e => (s.heap e.second).map CTimer.num) = nums.map some
  /-- No number is there twice. -/
  nodup : nums.Nodup
  /-- None of these timers was deleted before. -/
  not_freed : ∀ i ∈ nums, .free i ∉ s.log
  /-- Now they are, and nothing else happens. -/
  log_eq : s'.log = s.log ++ nums.map .free
  /-- Their addresses are free. -/
  heap_eq : ∀ e ∈ s.timers, s'.heap e.second = none

/-- What the destructor does. -/
theorem LogInv.destroy {s s' : CTimerQueue} (h : s.LogInv) (hown : s.OwnInv)
    (hst : Step s .destroy s') : ∃ nums, s.DeletesEntries s' nums := by
  have hown' := OwnInv.step s _ s' hown hst
  cases hown.effect hst with
  | @destroy nums hpass hnums =>
  refine ⟨nums, hnums, ?_, fun i hi => ?_, rfl, fun e he => ?_⟩
  · have hinj : (nums.map some).Nodup := by
      rw [← hnums]
      refine List.Nodup.map_on (fun e he e' he' heq => ?_) s.timers.nodup
      obtain ⟨t, ht, hkey⟩ := hown.key e he
      obtain ⟨t', ht', hkey'⟩ := hown.key e' he'
      rw [ht, ht', Option.map_some, Option.map_some, Option.some.injEq] at heq
      have hsecond := h.num_inj _ _ t t' ht ht' heq
      rw [hsecond, ht', Option.some.injEq] at ht
      have hfirst : e.first = e'.first := by rw [← hkey, ← hkey', ht]
      cases e
      cases e'
      exact congrArg₂ Entry.mk hfirst hsecond
    exact hinj.of_map some
  · have hmem : some i ∈ nums.map some := List.mem_map_of_mem hi
    rw [← hnums] at hmem
    obtain ⟨e, he, hnum⟩ := List.mem_map.mp hmem
    obtain ⟨t, ht, rfl⟩ := Option.map_eq_some_iff.mp hnum
    obtain ⟨t₀, ht₀, hsame⟩ := h.created _ t ht
    cases hrepeats : t.repeats with
    | true => exact (h.repeating _ t₀ ht₀ (hsame.trans hrepeats)).1
    | false =>
        have hhistory := h.live _ t ht hrepeats
        rw [hpass, if_neg (by simp [Pass.hasRun])] at hhistory
        intro hfree
        have hmem' := mem_history hfree
        rw [TimerEvent.num, hhistory] at hmem'
        cases hmem'
  · by_contra hlive
    have hqueued : e.second ∈ s.queued := by
      have hmem := (hown'.owns.mem_iff e.second).mpr hlive
      simpa [owners, OrderedSet.empty, Pass.hasRun, Pass.toRun] using hmem
    exact hown.not_mem_of_queued hqueued e.first he

/-- The invariants of the run up to the destructor. -/
theorem inv_run {as : List Action} {s : CTimerQueue} (hrun : Run Step new as s) :
    s.OwnInv ∧ (s.pass ≠ .destroyed → s.LogInv) := by
  refine hrun.invariant (I := fun s => s.OwnInv ∧ (s.pass ≠ .destroyed → s.LogInv)) ?_
    ⟨ownInv_new, fun _ => logInv_new⟩
  rintro s a s' ⟨hown, hlog⟩ hst
  refine ⟨hown.step s a s' hst, fun hpass' => ?_⟩
  have heffect := hown.effect hst
  have hpass : s.pass ≠ .destroyed := by
    intro hpass
    cases heffect <;> simp_all [Pass.AllowsAdd]
  apply (hlog hpass).step hown heffect
  rintro rfl
  cases heffect
  exact hpass' rfl

/-- **Timer ownership**, in every reachable state, whatever the allocator hands out:
* no member function of a deleted timer was called, and every entry was new when it was inserted;
* every live timer is in one place: a queued functor, the set, or the part of the pass that
  `__ResetTimers` has not processed;
* the key of an entry is the expiration of its timer;
* up to the destructor, a one-shot timer runs at most once and is deleted once after it ran, and a
  repeating timer is not deleted;
* the destructor deletes the timer of each entry once. -/
theorem timerOwnership_run {as : List Action} {s : CTimerQueue} (hrun : Run Step new as s) :
    s.fault = none ∧
    Owns s.heap
      (s.queued ++ (s.timers.toList ++ (s.pass.hasRun ++ s.pass.toRun)).map Entry.second) ∧
    (∀ e ∈ s.timers, ∃ t, s.heap e.second = some t ∧ t.expiration = e.first) ∧
    (s.pass ≠ .destroyed → s.Lives) ∧
    (∀ s', Step s .destroy s' → ∃ nums, s.DeletesEntries s' nums) := by
  obtain ⟨hown, hlog⟩ := inv_run hrun
  refine ⟨hown.fault_eq, hown.owns, hown.key, fun hpass => (hlog hpass).lives, fun s' hst => ?_⟩
  have hpass : s.pass ≠ .destroyed := by
    intro hpass
    cases hown.effect hst
    simp_all
  exact (hlog hpass).destroy hown hst

/-- Another thread queues a one-shot timer, the loop thread adds a repeating one. The first expires
and is deleted, its address is handed out again, and the destructor deletes the other two. -/
def reusedAddress : List Action :=
  [.queueTimer 10 0 false 5, .addTimer 20 30 true 7 1, .callFunctor 2, .handleRead 15, .run,
    .returnCallback, .beginReset, .reset, .endReset 16, .addTimer 40 0 false 5 17, .destroy]

/-- The run, step by step. -/
theorem run_reusedAddress : ∃ s, Run Step new reusedAddress s ∧
    s.log = [.run 0, .free 0, .free 1, .free 2] :=
  ⟨_, Run.cons (.queueTimer 10 0 false 5 rfl (by decide) rfl (by decide)) <|
    Run.cons (.addTimer 20 30 true 7 1 rfl trivial rfl (by decide)) <|
    Run.cons (.callFunctor 2 rfl rfl rfl) <|
    Run.cons (.handleRead 15 rfl rfl) <|
    Run.cons (.run rfl rfl) <|
    Run.cons (.returnCallback rfl rfl) <|
    Run.cons (.beginReset rfl rfl) <|
    Run.cons (.reset rfl rfl) <|
    Run.cons (.endReset 16 rfl rfl) <|
    Run.cons (.addTimer 40 0 false 5 17 rfl trivial rfl (by decide)) <|
    Run.cons (.destroy rfl rfl) <| Run.nil _, rfl⟩

/-- The theorem on this run. -/
theorem timerOwnership_run_reusedAddress : ∃ s, Run Step new reusedAddress s ∧
    s.log = [.run 0, .free 0, .free 1, .free 2] ∧ s.fault = none := by
  obtain ⟨s, hrun, hlog⟩ := run_reusedAddress
  exact ⟨s, hrun, hlog, (timerOwnership_run hrun).1⟩

end CTimerQueue

end Neconet
