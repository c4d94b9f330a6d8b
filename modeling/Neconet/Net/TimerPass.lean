import Neconet.Net.TimerOwnership

/-!
# One pass of `__HandleRead`

What a pass does to the timers, from any set whose keys are the expirations of its timers: it runs
those that are due when it begins, once each and in the order of their expirations, while callbacks
and other threads make new timers; then it restarts those that repeat and deletes the others.

* `Keyed`: the keys of a set are the expirations of its timers.
* `due`, `runs`, `frees`, `rekeyed`: the timers that are due, and what is to become of them.
* `Stage`: how far the pass is.
* `HeapInv`, `PassInv`: what holds in the middle of a pass, with `PassInv.step` for one step and
  `PassInv.run` for the whole pass.
* `pass_run`: a pass runs exactly the timers that are due.
-/

namespace Neconet

set_option linter.unusedSectionVars false

open Transition

namespace CTimerQueue

/-! ## Keys -/

/-- The keys are the expirations of the timers, none of which is at the largest address. -/
structure Keyed (heap : ℕ → Option CTimer) (timers : OrderedSet Entry) : Prop where
  /-- The timer of an entry is there, and has the expiration. -/
  key : ∀ e ∈ timers, ∃ t, heap e.second = some t ∧ t.expiration = e.first
  /-- `UINTPTR_MAX` is no timer. -/
  address : ∀ e ∈ timers, e.second < uintptrMax

section keyed

variable {heap : ℕ → Option CTimer} {timers : OrderedSet Entry} {p : ℕ}

/-- The entry of a timer that is there. -/
theorem Keyed.eq_of_heap (h : Keyed heap timers) {e e' : Entry} {t : CTimer} (he : e ∈ timers)
    (hsecond : e.second = e'.second) (ht : heap e'.second = some t)
    (hfirst : t.expiration = e'.first) : e = e' := by
  obtain ⟨t', ht', hfirst'⟩ := h.key e he
  obtain ⟨first, second⟩ := e
  obtain rfl : second = e'.second := hsecond
  obtain rfl := Option.some.inj (ht'.symm.trans ht)
  obtain rfl : t'.expiration = first := hfirst'
  rw [hfirst]

/-- A timer has one entry. -/
theorem Keyed.eq_of_second (h : Keyed heap timers) {e e' : Entry} (he : e ∈ timers)
    (he' : e' ∈ timers) (hsecond : e.second = e'.second) : e = e' := by
  obtain ⟨t, ht, hfirst⟩ := h.key e' he'
  exact h.eq_of_heap he hsecond ht hfirst

/-- No entry has a free address. -/
theorem Keyed.second_ne (h : Keyed heap timers) (hfree : heap p = none) :
    ∀ e ∈ timers, e.second ≠ p := by
  rintro e he rfl
  obtain ⟨t, ht, -⟩ := h.key e he
  rw [hfree] at ht
  cases ht

/-- What is at an address without an entry may change. -/
theorem Keyed.update (h : Keyed heap timers) (hp : ∀ e ∈ timers, e.second ≠ p)
    (t? : Option CTimer) : Keyed (Function.update heap p t?) timers where
  key := by
    intro e he
    rw [Function.update_of_ne (hp e he)]
    exact h.key e he
  address := h.address

/-- A timer at an address without an entry gets its entry. -/
theorem Keyed.insert (h : Keyed heap timers) (hp : ∀ e ∈ timers, e.second ≠ p)
    (hmax : p < uintptrMax) (t : CTimer) :
    Keyed (Function.update heap p (some t)) (timers.insert ⟨t.expiration, p⟩).1 where
  key := by
    intro e he
    rcases OrderedSet.mem_insert.mp he with rfl | he
    · exact ⟨t, Function.update_self _ _ _, rfl⟩
    · exact (h.update hp (some t)).key e he
  address := by
    intro e he
    rcases OrderedSet.mem_insert.mp he with rfl | he
    · exact hmax
    · exact h.address e he

/-- Some of the entries. -/
theorem Keyed.subset (h : Keyed heap timers) {timers' : OrderedSet Entry}
    (hsub : ∀ e ∈ timers', e ∈ timers) : Keyed heap timers' where
  key e he := h.key e (hsub e he)
  address e he := h.address e (hsub e he)

end keyed

/-! ## What is to become of the timers -/

/-- The timer of an entry (and any timer where there is none). -/
def timerOf (s : CTimerQueue) (e : Entry) : CTimer :=
  (s.heap e.second).getD ⟨e.first, 0, false, 0⟩

/-- The entries of the timers that are due, in ascending order. -/
def due (s : CTimerQueue) (iNow : ℤ) : List Entry :=
  s.timers.toList.filter fun e => decide (e.first ≤ iNow)

/-- The timers of the entries run. -/
def runs (s : CTimerQueue) (es : List Entry) : List TimerEvent :=
  es.map fun e => .run (s.timerOf e).num

/-- Those that do not repeat are deleted. -/
def frees (s : CTimerQueue) (es : List Entry) : List TimerEvent :=
  (es.filter fun e => !(s.timerOf e).repeats).map fun e => .free (s.timerOf e).num

/-- Those that repeat get a new key. -/
def rekeyed (s : CTimerQueue) (iNow : ℤ) (es : List Entry) : List Entry :=
  (es.filter fun e => (s.timerOf e).repeats).map fun e =>
    ⟨iNow + (s.timerOf e).delta, e.second⟩

/-- The entries of the timers that an action adds to the set during a pass. -/
def Action.added : Action → List Entry
  | addTimer iWhen _ _ p _ => [⟨iWhen, p⟩]
  | _ => []

section due

variable {s : CTimerQueue} {iNow : ℤ} {e : Entry}

/-- The entries that are due. -/
theorem mem_due : e ∈ s.due iNow ↔ e ∈ s.timers ∧ e.first ≤ iNow := by
  simp [due, OrderedSet.mem_iff]

/-- No entry is due twice. -/
theorem nodup_due (s : CTimerQueue) (iNow : ℤ) : (s.due iNow).Nodup := s.timers.nodup.filter _

/-- The due entries are in the order of their expirations. -/
theorem ordered_due (s : CTimerQueue) (iNow : ℤ) :
    (s.due iNow).Pairwise fun e e' => e.first ≤ e'.first := by
  refine List.Pairwise.filter _ (s.timers.sorted.imp ?_)
  intro e e' hlt
  exact Entry.first_le_of_le hlt.le

/-- An entry is in front of the one that `__GetExpired` looks for exactly if it is due. -/
theorem Keyed.lt_iff {heap : ℕ → Option CTimer} (h : Keyed heap s.timers) (he : e ∈ s.timers) :
    e < ⟨iNow, uintptrMax⟩ ↔ e.first ≤ iNow := by
  have hmax := h.address e he
  rw [Entry.lt_iff]
  constructor
  · rintro (hlt | ⟨heq, -⟩)
    · exact hlt.le
    · exact heq.le
  · intro hle
    rcases hle.lt_or_eq with hlt | heq
    · exact Or.inl hlt
    · exact Or.inr ⟨heq, hmax⟩

/-- What `__GetExpired` copies is what is due. -/
theorem Keyed.below_eq {heap : ℕ → Option CTimer} (h : Keyed heap s.timers) (iNow : ℤ) :
    s.timers.below ⟨iNow, uintptrMax⟩ = s.due iNow := by
  rw [OrderedSet.below_eq_filter]
  refine List.filter_congr ?_
  intro e he
  rw [decide_eq_decide]
  exact h.lt_iff he

/-- What `__GetExpired` leaves is what is later. -/
theorem Keyed.mem_eraseBelow {heap : ℕ → Option CTimer} (h : Keyed heap s.timers) :
    e ∈ s.timers.eraseBelow ⟨iNow, uintptrMax⟩ ↔ e ∈ s.timers ∧ iNow < e.first := by
  rw [OrderedSet.mem_eraseBelow]
  refine and_congr_right fun he => ?_
  rw [← not_lt, h.lt_iff he, not_le]

end due

/-! ## In the middle of a pass -/

/-- How far the pass is with the timers that are due: `ran` have run, `done` have been restarted or
deleted, `rest` have not. -/
inductive Stage (due : List Entry) (iNow : ℤ) : Pass → List Entry → List Entry → List Entry → Prop
  | running {ran left : List Entry} (h : ran ++ left = due) :
      Stage due iNow (.running iNow ran left) ran [] due
  | inCallback {ran left : List Entry} (h : ran ++ left = due) :
      Stage due iNow (.inCallback iNow ran left) ran [] due
  | resetting {done rest : List Entry} (h : done ++ rest = due) :
      Stage due iNow (.resetting iNow rest) due done rest

/-- Some are done, the others are left. -/
theorem Stage.append_eq {due ran done rest : List Entry} {iNow : ℤ} {pass : Pass}
    (h : Stage due iNow pass ran done rest) : done ++ rest = due := by
  cases h with
  | running h => rfl
  | inCallback h => rfl
  | resetting h => exact h

/-- `__ResetTimers` begins with all of those that have run. -/
theorem Stage.all {due ran : List Entry} {iNow : ℤ} (h : ran = due) :
    Stage due iNow (.resetting iNow ran) ran [] due := by
  rw [h]
  exact .resetting rfl

/-- What has become of the timers of `s₀` when those of `done` have been restarted or deleted; `n`
timers have been made. -/
structure HeapInv (s₀ : CTimerQueue) (iNow : ℤ) (done : List Entry) (heap : ℕ → Option CTimer)
    (n : ℕ) : Prop where
  /-- The others are as they were. -/
  kept : ∀ e ∈ s₀.timers, e ∉ done → heap e.second = some (s₀.timerOf e)
  /-- Those that repeat have been restarted. -/
  restarted : ∀ e ∈ done, (s₀.timerOf e).repeats = true →
    heap e.second = some ((s₀.timerOf e).restart iNow)
  /-- Those that do not are gone: a timer at the address is a newer one. -/
  freed : ∀ e ∈ done, (s₀.timerOf e).repeats = false → ∀ t, heap e.second = some t →
    s₀.created.length ≤ t.num
  /-- Timers are only added. -/
  created_le : s₀.created.length ≤ n

/-- What holds in the middle of a pass that has begun in `s₀`, when callbacks have added the timers
of `added`. -/
structure PassInv (s₀ : CTimerQueue) (iNow : ℤ) (added ran done rest : List Entry)
    (s : CTimerQueue) : Prop where
  /-- The pass is with the timers that were due. -/
  stage : Stage (s₀.due iNow) iNow s.pass ran done rest
  /-- Nothing has gone wrong. -/
  fault_eq : s.fault = none
  /-- The keys are the expirations. -/
  keyed : Keyed s.heap s.timers
  /-- What has run, and what has been deleted. -/
  log_eq : s.log = s₀.log ++ s₀.runs ran ++ s₀.frees done
  /-- The set holds what was later, what has been added, and what has been restarted. -/
  mem_iff : ∀ e, e ∈ s.timers ↔
    (e ∈ s₀.timers ∧ iNow < e.first) ∨ e ∈ added ∨ e ∈ s₀.rekeyed iNow done
  /-- What is left is not in the set. -/
  pending : ∀ e ∈ rest, e ∉ s.timers
  /-- The timers. -/
  heap : HeapInv s₀ iNow done s.heap s.created.length

section inv

variable {s₀ s s' : CTimerQueue} {iNow : ℤ} {added ran done rest : List Entry} {d : Entry}

/-- The timer of an entry. -/
theorem Keyed.heap_eq (h₀ : Keyed s₀.heap s₀.timers) {e : Entry} (he : e ∈ s₀.timers) :
    s₀.heap e.second = some (s₀.timerOf e) ∧ (s₀.timerOf e).expiration = e.first := by
  obtain ⟨t, ht, hfirst⟩ := h₀.key e he
  have heq : s₀.timerOf e = t := by
    rw [timerOf, ht]
    rfl
  rw [heq]
  exact ⟨ht, hfirst⟩

/-- A new timer at a free address. -/
theorem HeapInv.newTimer {heap : ℕ → Option CTimer} {n p : ℕ}
    (h : HeapInv s₀ iNow done heap n) (hfree : heap p = none) {t : CTimer} (hnum : t.num = n) :
    HeapInv s₀ iNow done (Function.update heap p (some t)) (n + 1) where
  kept := by
    intro e he hdone
    exact update_of_free hfree (h.kept e he hdone) _
  restarted := by
    intro e he hrepeats
    exact update_of_free hfree (h.restarted e he hrepeats) _
  freed := by
    intro e he hrepeats t' ht'
    by_cases heq : e.second = p
    · rw [heq, Function.update_self, Option.some.injEq] at ht'
      rw [← ht', hnum]
      exact h.created_le
    · rw [Function.update_of_ne heq] at ht'
      exact h.freed e he hrepeats t' ht'
  created_le := h.created_le.trans (Nat.le_succ n)

/-- One more timer is restarted or deleted. -/
theorem HeapInv.reset {heap : ℕ → Option CTimer} {n : ℕ} (h₀ : Keyed s₀.heap s₀.timers)
    (h : HeapInv s₀ iNow done heap n) (hdone : ∀ e ∈ done, e ∈ s₀.timers) (hd : d ∈ s₀.timers)
    (hnew : d ∉ done) {t? : Option CTimer}
    (ht : t? = if (s₀.timerOf d).repeats then some ((s₀.timerOf d).restart iNow) else none) :
    HeapInv s₀ iNow (done ++ [d]) (Function.update heap d.second t?) n := by
  have hother : ∀ e ∈ done, e.second ≠ d.second := by
    intro e he heq
    exact hnew (h₀.eq_of_second (hdone e he) hd heq ▸ he)
  refine ⟨?_, ?_, ?_, h.created_le⟩
  · intro e he hnot
    rw [List.mem_append, List.mem_singleton, not_or] at hnot
    have hne : e.second ≠ d.second := fun heq => hnot.2 (h₀.eq_of_second he hd heq)
    rw [Function.update_of_ne hne]
    exact h.kept e he hnot.1
  · intro e he hrepeats
    rcases List.mem_append.mp he with he | he
    · rw [Function.update_of_ne (hother e he)]
      exact h.restarted e he hrepeats
    · obtain rfl := List.mem_singleton.mp he
      rw [Function.update_self, ht, if_pos hrepeats]
  · intro e he hrepeats t ht'
    rcases List.mem_append.mp he with he | he
    · rw [Function.update_of_ne (hother e he)] at ht'
      exact h.freed e he hrepeats t ht'
    · obtain rfl := List.mem_singleton.mp he
      rw [Function.update_self, ht, hrepeats] at ht'
      cases ht'

/-! ## The steps of a pass -/

/-- One more run. -/
theorem runs_append (s₀ : CTimerQueue) (ran : List Entry) (d : Entry) :
    s₀.runs (ran ++ [d]) = s₀.runs ran ++ [.run (s₀.timerOf d).num] := by
  rw [runs, List.map_append]
  rfl

/-- A timer that repeats is not deleted, and gets a new key. -/
theorem reset_of_repeats (done : List Entry) (hrepeats : (s₀.timerOf d).repeats = true) :
    s₀.frees (done ++ [d]) = s₀.frees done ∧
      s₀.rekeyed iNow (done ++ [d]) =
        s₀.rekeyed iNow done ++ [⟨iNow + (s₀.timerOf d).delta, d.second⟩] := by
  simp [frees, rekeyed, hrepeats]

/-- A timer that does not repeat is deleted, and gets no new key. -/
theorem reset_of_not_repeats (done : List Entry) (hrepeats : (s₀.timerOf d).repeats = false) :
    s₀.frees (done ++ [d]) = s₀.frees done ++ [.free (s₀.timerOf d).num] ∧
      s₀.rekeyed iNow (done ++ [d]) = s₀.rekeyed iNow done := by
  simp [frees, rekeyed, hrepeats]

/-- The timers of the pass were due. -/
theorem PassInv.was_due (h : PassInv s₀ iNow added ran done rest s) (hd : d ∈ done ++ rest) :
    d ∈ s₀.timers ∧ d.first ≤ iNow := by
  rw [h.stage.append_eq] at hd
  exact mem_due.mp hd

/-- No timer of the pass is there twice. -/
theorem PassInv.nodup (h : PassInv s₀ iNow added ran done rest s) : (done ++ rest).Nodup := by
  rw [h.stage.append_eq]
  exact nodup_due s₀ iNow

/-- A timer that is left is as it was. -/
theorem PassInv.heap_of_rest (h : PassInv s₀ iNow added ran done rest s) (hd : d ∈ rest) :
    s.heap d.second = some (s₀.timerOf d) := by
  have hnot : d ∉ done := fun hdone => (List.nodup_append.mp h.nodup).2.2 d hdone d hd rfl
  exact h.heap.kept d (h.was_due (List.mem_append_right done hd)).1 hnot

/-- No entry has the address of a timer that is left. -/
theorem PassInv.second_ne (h₀ : Keyed s₀.heap s₀.timers)
    (h : PassInv s₀ iNow added ran done rest s) (hd : d ∈ rest) :
    ∀ e ∈ s.timers, e.second ≠ d.second := by
  intro e he heq
  have hfirst := (h₀.heap_eq (h.was_due (List.mem_append_right done hd)).1).2
  obtain rfl := h.keyed.eq_of_heap he heq (h.heap_of_rest hd) hfirst
  exact h.pending e hd he

/-- The pass begins. -/
theorem PassInv.handleRead (h₀ : Keyed s₀.heap s₀.timers)
    (hst : Step s₀ (.handleRead iNow) s) : PassInv s₀ iNow [] [] [] (s₀.due iNow) s := by
  cases hst with
  | handleRead _ hfault hpass =>
      have hexpired := @getExpired_of { s₀ with setting := none } iNow h₀.address
      rw [CTimerQueue.handleRead, hexpired, ok_bind]
      refine ⟨?_, hfault, h₀.subset fun e he => (h₀.mem_eraseBelow.mp he).1, ?_, ?_, ?_, ?_⟩
      · change Stage _ iNow (.running iNow [] (s₀.timers.below ⟨iNow, uintptrMax⟩)) [] [] _
        rw [h₀.below_eq]
        exact .running rfl
      · simp [settle, runs, frees]
      · intro e
        have hlater : e ∈ s₀.timers.eraseBelow ⟨iNow, uintptrMax⟩ ↔ _ := h₀.mem_eraseBelow
        simpa [settle, rekeyed] using hlater
      · intro e he hmem
        have hlater := (h₀.mem_eraseBelow.mp hmem).2
        exact absurd (mem_due.mp he).2 (not_le.mpr hlater)
      · refine ⟨fun e he _ => (h₀.heap_eq he).1, ?_, ?_, le_rfl⟩
        · intro e he
          cases he
        · intro e he
          cases he

/-- `AddTimer` in a callback. -/
theorem PassInv.addTimer (h : PassInv s₀ iNow added ran done rest s) {iWhen delta now : ℤ}
    {repeats : Bool} {p : ℕ} (hfree : s.heap p = none) (hp : p < uintptrMax) :
    PassInv s₀ iNow (added ++ [⟨iWhen, p⟩]) ran done rest
      (s.settle ((s.newTimer iWhen delta repeats p).addTimerInLoop p now)) := by
  have hne := h.keyed.second_ne hfree
  have hnew : (⟨iWhen, p⟩ : Entry) ∉ s.timers := fun he => hne _ he rfl
  have ht : (s.newTimer iWhen delta repeats p).heap p =
      some ⟨iWhen, delta, repeats, s.created.length⟩ := Function.update_self _ _ _
  rw [addTimerInLoop_of ht hnew now]
  refine ⟨h.stage, h.fault_eq,
    h.keyed.insert hne hp ⟨iWhen, delta, repeats, s.created.length⟩, h.log_eq, ?_, ?_, ?_⟩
  · intro e
    change e ∈ (s.timers.insert ⟨iWhen, p⟩).1 ↔ _
    rw [OrderedSet.mem_insert, h.mem_iff, List.mem_append, List.mem_singleton]
    tauto
  · intro e he hmem
    rcases OrderedSet.mem_insert.mp hmem with heq | hmem
    · have hlive := h.heap_of_rest he
      rw [heq, hfree] at hlive
      cases hlive
    · exact h.pending e he hmem
  · change HeapInv s₀ iNow done (Function.update s.heap p _) (s.created ++ [_]).length
    rw [List.length_append]
    exact h.heap.newTimer hfree rfl

/-- `AddTimer` in another thread. -/
theorem PassInv.queueTimer (h : PassInv s₀ iNow added ran done rest s) {iWhen delta : ℤ}
    {repeats : Bool} {p : ℕ} (hfree : s.heap p = none) :
    PassInv s₀ iNow added ran done rest
      { s.newTimer iWhen delta repeats p with queued := s.queued ++ [p] } := by
  refine ⟨h.stage, h.fault_eq, h.keyed.update (h.keyed.second_ne hfree) _, h.log_eq, h.mem_iff,
    h.pending, ?_⟩
  change HeapInv s₀ iNow done (Function.update s.heap p _) (s.created ++ [_]).length
  rw [List.length_append]
  exact h.heap.newTimer hfree rfl

/-- The pass goes on, and nothing else changes. -/
theorem PassInv.move (h : PassInv s₀ iNow added ran done rest s) {pass : Pass}
    (hstage : Stage (s₀.due iNow) iNow pass ran done rest) :
    PassInv s₀ iNow added ran done rest { s with pass := pass } :=
  ⟨hstage, h.fault_eq, h.keyed, h.log_eq, h.mem_iff, h.pending, h.heap⟩

/-- The next timer runs. -/
theorem PassInv.runNext {left : List Entry}
    (h : PassInv s₀ iNow added ran done rest s) (hpass : s.pass = .running iNow ran (d :: left)) :
    PassInv s₀ iNow added (ran ++ [d]) done rest
        (s.settle (CTimerQueue.run { s with pass := .inCallback iNow (ran ++ [d]) left }
          d.second)) ∧
      (s.settle (CTimerQueue.run { s with pass := .inCallback iNow (ran ++ [d]) left }
        d.second)).pass = .inCallback iNow (ran ++ [d]) left := by
  have hstage := h.stage
  rw [hpass] at hstage
  cases hstage with
  | running hdue =>
      have hd : d ∈ s₀.due iNow := by
        rw [← hdue]
        simp
      rw [run_of (s := { s with pass := .inCallback iNow (ran ++ [d]) left }) (h.heap_of_rest hd)]
      refine ⟨⟨.inCallback ?_, h.fault_eq, h.keyed, ?_, h.mem_iff, h.pending, h.heap⟩, rfl⟩
      · rw [List.append_assoc]
        exact hdue
      · change s.log ++ _ = _
        rw [h.log_eq, runs_append]
        simp [frees]

/-- The next timer is restarted or deleted. -/
theorem PassInv.resetNext (h₀ : Keyed s₀.heap s₀.timers) {left : List Entry}
    (h : PassInv s₀ iNow added ran done rest s) (hpass : s.pass = .resetting iNow (d :: left)) :
    PassInv s₀ iNow added ran (done ++ [d]) left
        (s.settle (resetTimer { s with pass := .resetting iNow left } iNow d.second)) ∧
      (s.settle (resetTimer { s with pass := .resetting iNow left } iNow d.second)).pass =
        .resetting iNow left := by
  have hstage := h.stage
  rw [hpass] at hstage
  cases hstage with
  | resetting hdue =>
      have hd : d ∈ d :: left := List.mem_cons_self
      have ht := h.heap_of_rest hd
      have hne := h.second_ne h₀ hd
      have hmem := (h.was_due (List.mem_append_right done hd)).1
      have hnodup := List.nodup_append.mp h.nodup
      have hnew : d ∉ done := fun hdone => hnodup.2.2 d hdone d hd rfl
      have hleft : d ∉ left := (List.nodup_cons.mp hnodup.2.1).1
      have hothers : ∀ e ∈ done, e ∈ s₀.timers :=
        fun e he => (h.was_due (List.mem_append_left _ he)).1
      have hstage' : Stage (s₀.due iNow) iNow (.resetting iNow left) (s₀.due iNow) (done ++ [d])
          left := .resetting (by rw [List.append_assoc]; exact hdue)
      cases hrepeats : (s₀.timerOf d).repeats with
      | true =>
          obtain ⟨hfrees, hrekeyed⟩ := @reset_of_repeats s₀ iNow d done hrepeats
          have hentry : (⟨iNow + (s₀.timerOf d).delta, d.second⟩ : Entry) ∉ s.timers :=
            fun he => hne _ he rfl
          rw [resetTimer_restart (s := { s with pass := .resetting iNow left }) ht hrepeats hentry]
          refine ⟨⟨hstage', h.fault_eq, h.keyed.insert hne (h₀.address d hmem)
            { s₀.timerOf d with expiration := iNow + (s₀.timerOf d).delta }, ?_, ?_, ?_, ?_⟩, rfl⟩
          · rw [hfrees]
            exact h.log_eq
          · intro e
            change e ∈ (s.timers.insert ⟨iNow + (s₀.timerOf d).delta, d.second⟩).1 ↔ _
            rw [OrderedSet.mem_insert, h.mem_iff, hrekeyed, List.mem_append, List.mem_singleton]
            tauto
          · intro e he hin
            rcases OrderedSet.mem_insert.mp hin with heq | hin
            · have he' := (h.was_due (List.mem_append_right done (List.mem_cons_of_mem d he))).1
              have hsame := h₀.eq_of_second he' hmem (by rw [heq])
              exact hleft (hsame ▸ he)
            · exact h.pending e (List.mem_cons_of_mem d he) hin
          · refine h.heap.reset h₀ hothers hmem hnew ?_
            rw [if_pos hrepeats, CTimer.restart, if_pos hrepeats]
      | false =>
          obtain ⟨hfrees, hrekeyed⟩ := @reset_of_not_repeats s₀ iNow d done hrepeats
          rw [resetTimer_free (s := { s with pass := .resetting iNow left }) ht hrepeats]
          refine ⟨⟨hstage', h.fault_eq, h.keyed.update hne none, ?_, ?_, ?_, ?_⟩, rfl⟩
          · change s.log ++ _ = _
            rw [hfrees, h.log_eq]
            simp
          · intro e
            rw [hrekeyed]
            exact h.mem_iff e
          · intro e he
            exact h.pending e (List.mem_cons_of_mem d he)
          · refine h.heap.reset h₀ hothers hmem hnew ?_
            rw [hrepeats]
            rfl

/-- **One step of a pass**: nothing goes wrong, and the invariant is kept. -/
theorem PassInv.step (h₀ : Keyed s₀.heap s₀.timers)
    (h : PassInv s₀ iNow added ran done rest s) {a : Action} (hend : ∀ now, a ≠ .endReset now)
    (hst : Step s a s') :
    ∃ ran done rest, PassInv s₀ iNow (added ++ a.added) ran done rest s' := by
  have hnil := (List.append_nil added).symm
  have hstage := h.stage
  cases hst with
  | addTimer iWhen delta repeats p now hfault hpass hfree hp =>
      exact ⟨_, _, _, h.addTimer hfree hp⟩
  | queueTimer iWhen delta repeats p hfault hpass hfree hp =>
      exact ⟨_, _, _, hnil ▸ h.queueTimer hfree⟩
  | callFunctor now hfault hpass hqueued =>
      rw [hpass] at hstage
      cases hstage
  | handleRead iNow' hfault hpass =>
      rw [hpass] at hstage
      cases hstage
  | run hfault hpass =>
      rw [hpass] at hstage
      cases hstage with
      | running hdue => exact ⟨_, _, _, hnil ▸ (h.runNext hpass).1⟩
  | returnCallback hfault hpass =>
      rw [hpass] at hstage
      cases hstage with
      | inCallback hdue => exact ⟨_, _, _, hnil ▸ h.move (.running hdue)⟩
  | beginReset hfault hpass =>
      rw [hpass] at hstage
      cases hstage with
      | running hdue =>
          rw [List.append_nil] at hdue
          exact ⟨_, _, _, hnil ▸ h.move (.all hdue)⟩
  | reset hfault hpass =>
      rw [hpass] at hstage
      cases hstage with
      | resetting hdue => exact ⟨_, _, _, hnil ▸ (h.resetNext h₀ hpass).1⟩
  | endReset now hfault hpass => exact absurd rfl (hend now)
  | destroy hfault hpass =>
      rw [hpass] at hstage
      cases hstage

/-- **The steps of a pass**: nothing goes wrong up to its end. -/
theorem PassInv.run (h₀ : Keyed s₀.heap s₀.timers)
    (h : PassInv s₀ iNow added ran done rest s) {as : List Action}
    (hend : ∀ now, .endReset now ∉ as) (hrun : Run Step s as s') :
    ∃ ran done rest, PassInv s₀ iNow (added ++ as.flatMap Action.added) ran done rest s' := by
  induction hrun generalizing added ran done rest with
  | nil s =>
      rw [List.flatMap_nil, List.append_nil]
      exact ⟨_, _, _, h⟩
  | @cons s t u a as head tail ih =>
      have hne : ∀ now, a ≠ .endReset now := by
        rintro now rfl
        exact hend now List.mem_cons_self
      obtain ⟨ran', done', rest', h'⟩ := h.step h₀ hne head
      rw [List.flatMap_cons, ← List.append_assoc]
      exact ih h' fun now hmem => hend now (List.mem_cons_of_mem a hmem)

/-! ## The end of a pass -/

/-- The pass ends. -/
theorem PassInv.endReset (h : PassInv s₀ iNow added ran done rest s) {now : ℤ}
    (hst : Step s (.endReset now) s') :
    PassInv s₀ iNow added (s₀.due iNow) (s₀.due iNow) [] s ∧
      s' = { s with pass := .idle, setting := s.rearmed now } := by
  cases hst with
  | endReset now hfault hpass =>
      have hstage := h.stage
      rw [hpass] at hstage
      cases hstage with
      | resetting hdue =>
          rw [List.append_nil] at hdue
          refine ⟨hdue ▸ h, ?_⟩
          rw [rearm_of h.keyed.key]
          rfl

/-- `__ResetTimers` comes to its end. -/
theorem PassInv.finish_resetting (h₀ : Keyed s₀.heap s₀.timers)
    (h : PassInv s₀ iNow added ran done rest s) (hpass : s.pass = .resetting iNow rest) (now : ℤ) :
    ∃ as t, Run Step s (as ++ [.endReset now]) t := by
  induction rest generalizing done s with
  | nil => exact ⟨[], _, Run.single (.endReset now h.fault_eq hpass)⟩
  | cons d left ih =>
      obtain ⟨h', hpass'⟩ := h.resetNext h₀ hpass
      obtain ⟨as, t, hrun⟩ := ih h' hpass'
      exact ⟨.reset :: as, t, Run.cons (.reset h.fault_eq hpass) hrun⟩

/-- The loop of `__HandleRead` comes to its end, and the pass with it. -/
theorem PassInv.finish_running (h₀ : Keyed s₀.heap s₀.timers)
    (h : PassInv s₀ iNow added ran done rest s) {left : List Entry}
    (hpass : s.pass = .running iNow ran left) (now : ℤ) :
    ∃ as t, Run Step s (as ++ [.endReset now]) t := by
  induction left generalizing ran s with
  | nil =>
      have hstage := h.stage
      rw [hpass] at hstage
      cases hstage with
      | running hdue =>
          rw [List.append_nil] at hdue
          obtain ⟨as, t, hrun⟩ := (h.move (.all hdue)).finish_resetting h₀ (by rw [hdue]) now
          exact ⟨.beginReset :: as, t, Run.cons (.beginReset h.fault_eq hpass) hrun⟩
  | cons d left ih =>
      obtain ⟨h', hpass'⟩ := h.runNext hpass
      have hstage := h'.stage
      rw [hpass'] at hstage
      cases hstage with
      | inCallback hdue =>
          obtain ⟨as, t, hrun⟩ := ih (h'.move (.running hdue)) rfl
          exact ⟨.run :: .returnCallback :: as, t, Run.cons (.run h.fault_eq hpass)
            (Run.cons (.returnCallback h'.fault_eq hpass') hrun)⟩

/-- A pass can always be brought to its end. -/
theorem PassInv.finish (h₀ : Keyed s₀.heap s₀.timers)
    (h : PassInv s₀ iNow added ran done rest s) (now : ℤ) :
    ∃ as t, Run Step s (as ++ [.endReset now]) t := by
  have hstage := h.stage
  generalize hpass : s.pass = pass at hstage
  cases hstage with
  | running hdue => exact h.finish_running h₀ hpass now
  | inCallback hdue =>
      obtain ⟨as, t, hrun⟩ := (h.move (.running hdue)).finish_running h₀ rfl now
      exact ⟨.returnCallback :: as, t, Run.cons (.returnCallback h.fault_eq hpass) hrun⟩
  | resetting hdue => exact h.finish_resetting h₀ hpass now

/-- A timer that is held is not at the largest address. -/
theorem OwnInv.keyed (h : s.OwnInv) : Keyed s.heap s.timers where
  key := h.key
  address _ he := h.address _ ((h.owns.mem_iff _).mp (mem_owners_of_mem_timers he))

/-- In every reachable state the keys are the expirations. -/
theorem keyed_run {as : List Action} (hrun : Run Step new as s) : Keyed s.heap s.timers :=
  OwnInv.keyed (hrun.invariant OwnInv.step ownInv_new)

/-- **A pass runs exactly the timers that are due.** From any set whose keys are the expirations of
its timers, none of them at `UINTPTR_MAX`, and whatever callbacks and other threads add before the
end of the pass: nothing goes wrong (the assertions of `__GetExpired` and `__InsertTimer` hold, and
no timer is called that is gone), and the pass can be brought to its end. There the timers have run
whose expirations were not later than `iNow` when the pass began, each once, in the order of their
expirations, and no other; those of them that do not repeat have been deleted. The set holds the old
entries later than `iNow`, the entries that callbacks have added, and for every timer that repeats
one at `iNow` plus its interval; its keys are still the expirations. -/
theorem pass_run (h₀ : Keyed s₀.heap s₀.timers) {as : List Action}
    (hend : ∀ now, .endReset now ∉ as) (hrun : Run Step s₀ (.handleRead iNow :: as) s) :
    ((∀ e, e ∈ s₀.due iNow ↔ e ∈ s₀.timers ∧ e.first ≤ iNow) ∧ (s₀.due iNow).Nodup ∧
      (s₀.due iNow).Pairwise fun e e' => e.first ≤ e'.first) ∧
    s.fault = none ∧ (∀ now, ∃ bs t, Run Step s (bs ++ [.endReset now]) t) ∧
    ∀ now s', Step s (.endReset now) s' →
      s'.pass = .idle ∧ s'.fault = none ∧
      s'.log = s₀.log ++ s₀.runs (s₀.due iNow) ++ s₀.frees (s₀.due iNow) ∧
      (∀ e, e ∈ s'.timers ↔ (e ∈ s₀.timers ∧ iNow < e.first) ∨
        e ∈ as.flatMap Action.added ∨ e ∈ s₀.rekeyed iNow (s₀.due iNow)) ∧
      Keyed s'.heap s'.timers ∧
      HeapInv s₀ iNow (s₀.due iNow) s'.heap s'.created.length := by
  obtain ⟨s₁, hfirst, htail⟩ := run_cons_iff.mp hrun
  obtain ⟨ran, done, rest, h⟩ := (PassInv.handleRead h₀ hfirst).run h₀ hend htail
  rw [List.nil_append] at h
  refine ⟨⟨fun e => mem_due, nodup_due s₀ iNow, ordered_due s₀ iNow⟩, h.fault_eq,
    fun now => h.finish h₀ now, ?_⟩
  intro now s' hst
  obtain ⟨h', rfl⟩ := h.endReset hst
  exact ⟨rfl, h'.fault_eq, h'.log_eq, h'.mem_iff, h'.keyed, h'.heap⟩

end inv

/-- Three timers, two of them at the same time. -/
def twoAtTen : List Action :=
  [.addTimer 10 5 true 1 2, .addTimer 10 0 false 2 3, .addTimer 20 0 false 3 4]

/-- A pass at that time, in which the first callback adds a timer that has expired long ago. -/
def passAtTen : List Action :=
  [.run, .addTimer 1 0 false 4 10, .returnCallback, .run, .returnCallback, .beginReset, .reset,
    .reset]

/-- The run, step by step. -/
theorem run_passAtTen : ∃ s₀ s, Run Step new twoAtTen s₀ ∧
    Run Step s₀ (.handleRead 10 :: passAtTen) s ∧ s.fault = none ∧ s.pass = .resetting 10 [] ∧
    s₀.log ++ s₀.runs (s₀.due 10) ++ s₀.frees (s₀.due 10) = [.run 0, .run 1, .free 1] ∧
    s₀.rekeyed 10 (s₀.due 10) = [⟨15, 1⟩] :=
  ⟨_, _, Run.cons (.addTimer 10 5 true 1 2 rfl trivial rfl (by decide)) <|
    Run.cons (.addTimer 10 0 false 2 3 rfl trivial rfl (by decide)) <|
    Run.cons (.addTimer 20 0 false 3 4 rfl trivial rfl (by decide)) <| Run.nil _,
    Run.cons (.handleRead 10 rfl rfl) <|
    Run.cons (.run rfl rfl) <|
    Run.cons (.addTimer 1 0 false 4 10 rfl trivial rfl (by decide)) <|
    Run.cons (.returnCallback rfl rfl) <|
    Run.cons (.run rfl rfl) <|
    Run.cons (.returnCallback rfl rfl) <|
    Run.cons (.beginReset rfl rfl) <|
    Run.cons (.reset rfl rfl) <|
    Run.cons (.reset rfl rfl) <| Run.nil _, rfl, rfl, rfl, rfl⟩

/-- The theorem on this pass: the timer that a callback has added does not run, and is in the
set. -/
theorem pass_run_atTen : ∃ s₀ s s', Run Step new twoAtTen s₀ ∧
    Run Step s₀ (.handleRead 10 :: passAtTen) s ∧ Step s (.endReset 11) s' ∧ s'.pass = .idle ∧
    s'.log = [.run 0, .run 1, .free 1] ∧ ⟨1, 4⟩ ∈ s'.timers ∧ ⟨15, 1⟩ ∈ s'.timers := by
  have hend : ∀ now, .endReset now ∉ passAtTen := by
    intro now
    simp [passAtTen]
  obtain ⟨s₀, s, hset, hrun, hfault, hreset, hevents, hrekeyed⟩ := run_passAtTen
  obtain ⟨-, -, -, hpass⟩ := pass_run (keyed_run hset) hend hrun
  have hst := Step.endReset 11 hfault hreset
  obtain ⟨hidle, -, hlog, hmem, -⟩ := hpass 11 _ hst
  refine ⟨s₀, s, _, hset, hrun, hst, hidle, hlog.trans hevents, ?_, ?_⟩
  · exact (hmem _).mpr (Or.inr (Or.inl (by decide)))
  · exact (hmem _).mpr (Or.inr (Or.inr (by rw [hrekeyed]; decide)))

end CTimerQueue

end Neconet
