import Neconet.Lib.Ownership
import Neconet.Net.TimerQueue

/-!
# Who owns a timer

A timer is an address that moves between the functors that other threads queue, the set `m_ssTimers`
and the expired list of a pass. Each live timer is in exactly one of these places, and the key of an
entry is the expiration of its timer; so no member function of a deleted timer is called and no
entry is there before it is inserted, also when the allocator hands out addresses again.

* `Effect`: what the steps do when nothing goes wrong.
* `OwnInv`: owners, keys and addresses.
* `OwnInv.effect`: nothing goes wrong.
* `OwnInv.step`: every step keeps it so.
-/

namespace Neconet

set_option linter.unusedSectionVars false

open Transition

namespace CTimerQueue

/-! ## Effects -/

/-- `__AddTimerInLoop` of a timer whose entry is `e`. -/
def addEntry (s : CTimerQueue) (e : Entry) (now : ℤ) : CTimerQueue :=
  { s with
    timers := (s.timers.insert e).1
    setting := if s.earliestChanged e.first then some (resetTimerFd e.first now) else s.setting }

/-- The end of `__ResetTimers`. -/
def rearmed (s : CTimerQueue) (now : ℤ) : Option Setting :=
  match s.timers.begin? with
  | none => s.setting
  | some e => if CTimer.IsValid e.first then some (resetTimerFd e.first now) else s.setting

/-- The addresses are deleted one after the other. -/
def clear (heap : ℕ → Option CTimer) : List ℕ → ℕ → Option CTimer
  | [] => heap
  | p :: ps => clear (Function.update heap p none) ps

/-- What a step does when nothing goes wrong. -/
inductive Effect (s : CTimerQueue) : Action → CTimerQueue → Prop
  | addTimer (iWhen delta : ℤ) (repeats : Bool) (p : ℕ) (now : ℤ) (hpass : s.pass.AllowsAdd)
      (hfree : s.heap p = none) (hp : p < uintptrMax) (hnew : (⟨iWhen, p⟩ : Entry) ∉ s.timers) :
      Effect s (.addTimer iWhen delta repeats p now)
        ((s.newTimer iWhen delta repeats p).addEntry ⟨iWhen, p⟩ now)
  | queueTimer (iWhen delta : ℤ) (repeats : Bool) (p : ℕ) (hpass : s.pass ≠ .destroyed)
      (hfree : s.heap p = none) (hp : p < uintptrMax) :
      Effect s (.queueTimer iWhen delta repeats p)
        { s.newTimer iWhen delta repeats p with queued := s.queued ++ [p] }
  | callFunctor (now : ℤ) {p : ℕ} {rest : List ℕ} {t : CTimer} (hpass : s.pass = .idle)
      (hqueued : s.queued = p :: rest) (ht : s.heap p = some t)
      (hnew : (⟨t.expiration, p⟩ : Entry) ∉ s.timers) :
      Effect s (.callFunctor now) (addEntry { s with queued := rest } ⟨t.expiration, p⟩ now)
  | handleRead (iNow : ℤ) (hpass : s.pass = .idle) :
      Effect s (.handleRead iNow) { s with
        setting := none
        timers := s.timers.eraseBelow ⟨iNow, uintptrMax⟩
        pass := .running iNow [] (s.timers.below ⟨iNow, uintptrMax⟩) }
  | run {iNow : ℤ} {ran rest : List Entry} {e : Entry} {t : CTimer}
      (hpass : s.pass = .running iNow ran (e :: rest)) (ht : s.heap e.second = some t) :
      Effect s .run { s with
        log := s.log ++ [.run t.num]
        pass := .inCallback iNow (ran ++ [e]) rest }
  | returnCallback {iNow : ℤ} {ran rest : List Entry} (hpass : s.pass = .inCallback iNow ran rest) :
      Effect s .returnCallback { s with pass := .running iNow ran rest }
  | beginReset {iNow : ℤ} {ran : List Entry} (hpass : s.pass = .running iNow ran []) :
      Effect s .beginReset { s with pass := .resetting iNow ran }
  | restart {iNow : ℤ} {rest : List Entry} {e : Entry} {t : CTimer}
      (hpass : s.pass = .resetting iNow (e :: rest)) (ht : s.heap e.second = some t)
      (hrepeats : t.repeats = true) (hnew : (⟨iNow + t.delta, e.second⟩ : Entry) ∉ s.timers) :
      Effect s .reset { s with
        heap := Function.update s.heap e.second (some { t with expiration := iNow + t.delta })
        timers := (s.timers.insert ⟨iNow + t.delta, e.second⟩).1
        pass := .resetting iNow rest }
  | free {iNow : ℤ} {rest : List Entry} {e : Entry} {t : CTimer}
      (hpass : s.pass = .resetting iNow (e :: rest)) (ht : s.heap e.second = some t)
      (hrepeats : t.repeats = false) :
      Effect s .reset { s with
        heap := Function.update s.heap e.second none
        log := s.log ++ [.free t.num]
        pass := .resetting iNow rest }
  | endReset (now : ℤ) {iNow : ℤ} (hpass : s.pass = .resetting iNow []) :
      Effect s (.endReset now) { s with pass := .idle, setting := s.rearmed now }
  | destroy {nums : List ℕ} (hpass : s.pass = .idle)
      (hnums : s.timers.toList.map (fun e => (s.heap e.second).map CTimer.num) = nums.map some) :
      Effect s .destroy { s with
        heap := clear s.heap (s.timers.toList.map Entry.second)
        timers := .empty
        log := s.log ++ nums.map .free
        pass := .destroyed }

/-! ## Member functions that find their timers -/

/-- A timer that is there. -/
theorem getTimer_of {s : CTimerQueue} {p : ℕ} {t : CTimer} (ht : s.heap p = some t) :
    s.getTimer p = .ok t := by
  rw [getTimer, ht]

/-- `__InsertTimer` of a timer whose entry is not there. -/
theorem insertTimer_of {s : CTimerQueue} {p : ℕ} {t : CTimer} (ht : s.heap p = some t)
    (hnew : (⟨t.expiration, p⟩ : Entry) ∉ s.timers) :
    s.insertTimer p = .ok ({ s with timers := (s.timers.insert ⟨t.expiration, p⟩).1 },
      s.earliestChanged t.expiration) := by
  rw [insertTimer, getTimer_of ht, ok_bind]
  simp only [check_of (OrderedSet.insert_snd.mpr hnew), ok_bind]

/-- `__AddTimerInLoop` of a timer whose entry is not there. -/
theorem addTimerInLoop_of {s : CTimerQueue} {p : ℕ} {t : CTimer} (ht : s.heap p = some t)
    (hnew : (⟨t.expiration, p⟩ : Entry) ∉ s.timers) (now : ℤ) :
    s.addTimerInLoop p now = .ok (s.addEntry ⟨t.expiration, p⟩ now) := by
  rw [addTimerInLoop, insertTimer_of ht hnew, ok_bind]
  by_cases hearliest : s.earliestChanged t.expiration = true
  · simp only [hearliest, if_true, getTimer, ht, ok_bind, addEntry]
  · rw [addEntry, if_neg hearliest]
    simp only [hearliest, Bool.false_eq_true, if_false]

/-- `delete` of a timer that is there. -/
theorem delete_of {s : CTimerQueue} {p : ℕ} {t : CTimer} (ht : s.heap p = some t) :
    s.delete p =
      .ok { s with heap := Function.update s.heap p none, log := s.log ++ [.free t.num] } := by
  rw [delete, getTimer_of ht, ok_bind]

/-- `Run` of a timer that is there. -/
theorem run_of {s : CTimerQueue} {p : ℕ} {t : CTimer} (ht : s.heap p = some t) :
    s.run p = .ok { s with log := s.log ++ [.run t.num] } := by
  rw [CTimerQueue.run, getTimer_of ht, ok_bind]

/-- `__GetExpired`, if no address is the largest one. -/
theorem getExpired_of {s : CTimerQueue} {iNow : ℤ} (hp : ∀ e ∈ s.timers, e.second < uintptrMax) :
    s.getExpired iNow = .ok (s.timers.below ⟨iNow, uintptrMax⟩,
      { s with timers := s.timers.eraseBelow ⟨iNow, uintptrMax⟩ }) := by
  have hlater : ∀ e ∈ (s.timers.eraseBelow ⟨iNow, uintptrMax⟩).begin?, iNow < e.first := by
    intro e he
    obtain ⟨hmem, hle⟩ := OrderedSet.mem_eraseBelow.mp (OrderedSet.begin?_eq_some.mp he).1
    by_contra hnot
    have hlt : e < ⟨iNow, uintptrMax⟩ := by
      rw [Entry.lt_iff]
      rcases (not_lt.mp hnot).lt_or_eq with hlt | heq
      · exact Or.inl hlt
      · exact Or.inr ⟨heq, hp e hmem⟩
    exact absurd hlt (not_lt.mpr hle)
  rw [getExpired, check_of hlater, ok_bind]

/-- A repeating timer in `__ResetTimers`. -/
theorem resetTimer_restart {s : CTimerQueue} {iNow : ℤ} {p : ℕ} {t : CTimer}
    (ht : s.heap p = some t) (hrepeats : t.repeats = true)
    (hnew : (⟨iNow + t.delta, p⟩ : Entry) ∉ s.timers) :
    s.resetTimer iNow p = .ok { s with
      heap := Function.update s.heap p (some { t with expiration := iNow + t.delta })
      timers := (s.timers.insert ⟨iNow + t.delta, p⟩).1 } := by
  have hrestart : t.restart iNow = { t with expiration := iNow + t.delta } := if_pos hrepeats
  have hinsert := insertTimer_of
    (s := { s with heap := Function.update s.heap p (some { t with expiration := iNow + t.delta }) })
    (t := { t with expiration := iNow + t.delta }) (Function.update_self _ _ _) hnew
  rw [resetTimer, getTimer_of ht, ok_bind, if_pos hrepeats, hrestart, hinsert, ok_bind]

/-- A one-shot timer in `__ResetTimers`. -/
theorem resetTimer_free {s : CTimerQueue} {iNow : ℤ} {p : ℕ} {t : CTimer}
    (ht : s.heap p = some t) (hrepeats : t.repeats = false) :
    s.resetTimer iNow p =
      .ok { s with heap := Function.update s.heap p none, log := s.log ++ [.free t.num] } := by
  rw [resetTimer, getTimer_of ht, ok_bind, if_neg (by simp [hrepeats]), delete_of ht]

/-- The loop of the destructor, if all timers are there. -/
theorem deleteAll_of {s : CTimerQueue} {es : List Entry} (hnodup : (es.map Entry.second).Nodup)
    (hlive : ∀ e ∈ es, s.heap e.second ≠ none) :
    ∃ nums : List ℕ, es.map (fun e => (s.heap e.second).map CTimer.num) = nums.map some ∧
      s.deleteAll es = .ok { s with
        heap := clear s.heap (es.map Entry.second), log := s.log ++ nums.map .free } := by
  induction es generalizing s with
  | nil => exact ⟨[], rfl, by simp [deleteAll, clear]⟩
  | cons e es ih =>
      rw [List.map_cons, List.nodup_cons] at hnodup
      obtain ⟨t, ht⟩ := Option.ne_none_iff_exists'.mp (hlive e (by simp))
      have hother : ∀ e' ∈ es, Function.update s.heap e.second none e'.second = s.heap e'.second := by
        intro e' he'
        apply Function.update_of_ne
        intro heq
        exact hnodup.1 (heq ▸ List.mem_map_of_mem he')
      obtain ⟨nums, hnums, hdelete⟩ := ih (s := { s with
          heap := Function.update s.heap e.second none, log := s.log ++ [.free t.num] })
        hnodup.2 fun e' he' hnone => hlive e' (by simp [he']) ((hother e' he').symm.trans hnone)
      refine ⟨t.num :: nums, ?_, ?_⟩
      · rw [List.map_cons, List.map_cons, ht, ← hnums]
        refine congrArg₂ _ rfl (List.map_congr_left fun e' he' => ?_)
        rw [← hother e' he']
      · rw [deleteAll, delete_of ht, ok_bind, hdelete]
        simp [clear]

/-! ## Ownership -/

/-- The addresses that the functors, the set and the pass hold. -/
def owners (s : CTimerQueue) : List ℕ :=
  s.queued ++ (s.timers.toList ++ (s.pass.hasRun ++ s.pass.toRun)).map Entry.second

/-- Every timer is in one place, under its expiration if that place is the set. -/
structure OwnInv (s : CTimerQueue) : Prop where
  /-- Every live timer is in one place. -/
  owns : Owns s.heap s.owners
  /-- The keys are the expirations. -/
  key : ∀ e ∈ s.timers, ∃ t, s.heap e.second = some t ∧ t.expiration = e.first
  /-- The allocator does not hand out `UINTPTR_MAX`. -/
  address : ∀ p, s.heap p ≠ none → p < uintptrMax
  /-- Nothing has gone wrong. -/
  fault_eq : s.fault = none

/-- There is nothing at first. -/
theorem ownInv_new : OwnInv new where
  owns := Owns.empty
  key e he := by cases he
  address p hp := absurd rfl hp
  fault_eq := rfl

/-- The address of an entry is held. -/
theorem mem_owners_of_mem_timers {s : CTimerQueue} {e : Entry} (he : e ∈ s.timers) :
    e.second ∈ s.owners := by
  refine List.mem_append_right _ (List.mem_map_of_mem ?_)
  exact List.mem_append_left _ he

/-- A timer that the functors hold is in no entry. -/
theorem OwnInv.not_mem_of_queued {s : CTimerQueue} (h : s.OwnInv) {p : ℕ} (hp : p ∈ s.queued)
    (iWhen : ℤ) : (⟨iWhen, p⟩ : Entry) ∉ s.timers := by
  intro he
  have hdisjoint := (List.nodup_append.mp h.owns.nodup).2.2 p hp
  exact hdisjoint p (List.mem_map_of_mem (List.mem_append_left _ he)) rfl

/-- A timer that the pass holds is in no entry. -/
theorem OwnInv.not_mem_of_pass {s : CTimerQueue} (h : s.OwnInv) {p : ℕ}
    (hp : p ∈ (s.pass.hasRun ++ s.pass.toRun).map Entry.second) (iWhen : ℤ) :
    (⟨iWhen, p⟩ : Entry) ∉ s.timers := by
  intro he
  have hnodup := (List.nodup_append.mp h.owns.nodup).2.1
  rw [List.map_append, List.nodup_append] at hnodup
  exact hnodup.2.2 p (List.mem_map_of_mem (f := Entry.second) he) p hp rfl

/-- A timer at a free address is in no entry. -/
theorem OwnInv.not_mem_of_free {s : CTimerQueue} (h : s.OwnInv) {p : ℕ} (hfree : s.heap p = none)
    (iWhen : ℤ) : (⟨iWhen, p⟩ : Entry) ∉ s.timers := by
  intro he
  exact h.owns.not_mem_of_eq_none hfree (mem_owners_of_mem_timers he)

/-- A timer that the pass holds is there. -/
theorem OwnInv.exists_of_pass {s : CTimerQueue} (h : s.OwnInv) {e : Entry}
    (he : e ∈ s.pass.hasRun ++ s.pass.toRun) : ∃ t, s.heap e.second = some t := by
  apply h.owns.exists_of_mem
  refine List.mem_append_right _ (List.mem_map_of_mem ?_)
  exact List.mem_append_right _ he

/-- The end of `__ResetTimers` finds the first timer, if the keys are the expirations. -/
theorem rearm_of {s : CTimerQueue}
    (hkey : ∀ e ∈ s.timers, ∃ t, s.heap e.second = some t ∧ t.expiration = e.first) (pass : Pass)
    (now : ℤ) : CTimerQueue.rearm { s with pass := pass } now =
      .ok { s with pass := pass, setting := s.rearmed now } := by
  cases hbegin : s.timers.begin? with
  | none =>
      have hinvalid : ¬ CTimer.IsValid CTimer.invalid := by decide
      simp only [CTimerQueue.rearm, rearmed, hbegin, ok_bind, hinvalid, if_false]
  | some e =>
      obtain ⟨t, ht, hfirst⟩ := hkey e (OrderedSet.begin?_eq_some.mp hbegin).1
      by_cases hvalid : CTimer.IsValid e.first <;>
        simp only [CTimerQueue.rearm, rearmed, hbegin, getTimer, ht, ok_bind, hfirst, hvalid, if_true,
          if_false]

/-- **Nothing goes wrong**: every step does what it does when its timers are there and its entry is
not. -/
theorem OwnInv.effect {s s' : CTimerQueue} {a : Action} (h : s.OwnInv) (hst : Step s a s') :
    Effect s a s' := by
  cases hst with
  | addTimer iWhen delta repeats p now hfault hpass hfree hp =>
      have hnew := h.not_mem_of_free hfree iWhen
      have ht : (s.newTimer iWhen delta repeats p).heap p =
          some ⟨iWhen, delta, repeats, s.created.length⟩ := Function.update_self _ _ _
      rw [addTimerInLoop_of ht hnew now]
      exact .addTimer iWhen delta repeats p now hpass hfree hp hnew
  | queueTimer iWhen delta repeats p hfault hpass hfree hp =>
      exact .queueTimer iWhen delta repeats p hpass hfree hp
  | @callFunctor now p rest hfault hpass hqueued =>
      have hmem : p ∈ s.queued := by simp [hqueued]
      obtain ⟨t, ht⟩ := h.owns.exists_of_mem (List.mem_append_left _ hmem)
      have hnew := h.not_mem_of_queued hmem t.expiration
      rw [addTimerInLoop_of (s := { s with queued := rest }) ht hnew now]
      exact .callFunctor now hpass hqueued ht hnew
  | handleRead iNow hfault hpass =>
      have hexpired := @getExpired_of { s with setting := none } iNow fun e he =>
        h.address _ ((h.owns.mem_iff _).mp (mem_owners_of_mem_timers he))
      rw [CTimerQueue.handleRead, hexpired, ok_bind]
      exact .handleRead iNow hpass
  | @run iNow ran rest e hfault hpass =>
      obtain ⟨t, ht⟩ := h.exists_of_pass (e := e) (by simp [hpass, Pass.hasRun, Pass.toRun])
      rw [run_of (s := { s with pass := .inCallback iNow (ran ++ [e]) rest }) ht]
      exact .run hpass ht
  | returnCallback hfault hpass => exact .returnCallback hpass
  | beginReset hfault hpass => exact .beginReset hpass
  | @reset iNow rest e hfault hpass =>
      have hmem : e ∈ s.pass.hasRun ++ s.pass.toRun := by simp [hpass, Pass.hasRun, Pass.toRun]
      obtain ⟨t, ht⟩ := h.exists_of_pass hmem
      cases hrepeats : t.repeats with
      | true =>
          have hnew := h.not_mem_of_pass (List.mem_map_of_mem hmem) (iNow + t.delta)
          rw [resetTimer_restart (s := { s with pass := .resetting iNow rest }) ht hrepeats hnew]
          exact .restart hpass ht hrepeats hnew
      | false =>
          rw [resetTimer_free (s := { s with pass := .resetting iNow rest }) ht hrepeats]
          exact .free hpass ht hrepeats
  | endReset now hfault hpass =>
      rw [rearm_of h.key]
      exact .endReset now hpass
  | destroy hfault hpass =>
      have hnodup : (s.timers.toList.map Entry.second).Nodup := by
        have hnodup := (List.nodup_append.mp h.owns.nodup).2.1
        rw [List.map_append, List.nodup_append] at hnodup
        exact hnodup.1
      obtain ⟨nums, hnums, hdelete⟩ := deleteAll_of
        (s := { s with timers := .empty, pass := .destroyed }) hnodup
        fun e he => (h.owns.mem_iff _).mp (mem_owners_of_mem_timers he)
      rw [hdelete]
      exact .destroy hpass hnums

/-- The heap and the places after `__AddTimerInLoop`. -/
theorem owners_addEntry {s : CTimerQueue} {e : Entry} (now : ℤ) (hnew : e ∉ s.timers) :
    (s.addEntry e now).owners.Perm (e.second :: s.owners) := by
  have hperm := ((OrderedSet.toList_insert_perm hnew).append_right
    (s.pass.hasRun ++ s.pass.toRun)).map Entry.second
  exact (hperm.append_left s.queued).trans List.perm_middle

/-- Deleting all addresses that are held. -/
theorem owns_clear {heap : ℕ → Option CTimer} {ps l : List ℕ} (h : Owns heap (ps ++ l)) :
    Owns (clear heap ps) l := by
  induction ps generalizing heap with
  | nil => exact h
  | cons p ps ih => exact ih h.lose

/-- The entries of other timers keep their keys. -/
theorem OwnInv.key_update {s : CTimerQueue} (h : s.OwnInv) {p : ℕ}
    (hp : ∀ iWhen, (⟨iWhen, p⟩ : Entry) ∉ s.timers) (v : Option CTimer) (e : Entry)
    (he : e ∈ s.timers) :
    ∃ t, Function.update s.heap p v e.second = some t ∧ t.expiration = e.first := by
  have hne : e.second ≠ p := by
    rintro rfl
    exact hp e.first he
  rw [Function.update_of_ne hne]
  exact h.key e he

/-- The entry of the timer at `p` is inserted. -/
theorem OwnInv.key_insert {s : CTimerQueue} (h : s.OwnInv) {p : ℕ}
    (hp : ∀ iWhen, (⟨iWhen, p⟩ : Entry) ∉ s.timers) {t : CTimer} (e : Entry)
    (he : e ∈ (s.timers.insert ⟨t.expiration, p⟩).1) :
    ∃ u, Function.update s.heap p (some t) e.second = some u ∧ u.expiration = e.first := by
  rcases OrderedSet.mem_insert.mp he with rfl | he
  · exact ⟨t, Function.update_self _ _ _, rfl⟩
  · exact h.key_update hp _ e he

/-- A changed heap has no address that it did not have, but `p`. -/
theorem OwnInv.address_update {s : CTimerQueue} (h : s.OwnInv) {p : ℕ} (hp : p < uintptrMax)
    (v : Option CTimer) (q : ℕ) (hq : Function.update s.heap p v q ≠ none) : q < uintptrMax := by
  by_cases hqp : q = p
  · rw [hqp]
    exact hp
  · rw [Function.update_of_ne hqp] at hq
    exact h.address q hq

/-- A step that moves timers from place to place. -/
theorem OwnInv.of_perm {s s' : CTimerQueue} (h : s.OwnInv) (hheap : s'.heap = s.heap)
    (hperm : s.owners.Perm s'.owners) (hfault : s'.fault = s.fault)
    (hkey : ∀ e ∈ s'.timers, ∃ t, s.heap e.second = some t ∧ t.expiration = e.first) :
    s'.OwnInv where
  owns := hheap ▸ h.owns.perm hperm
  key := hheap ▸ hkey
  address := hheap ▸ h.address
  fault_eq := hfault.trans h.fault_eq

/-- Every step keeps it so. -/
theorem OwnInv.step (s : CTimerQueue) (a : Action) (s' : CTimerQueue) (h : s.OwnInv)
    (hst : Step s a s') : s'.OwnInv := by
  cases h.effect hst with
  | addTimer iWhen delta repeats p now hpass hfree hp hnew =>
      refine ⟨(h.owns.gain hfree _).perm (owners_addEntry now hnew).symm, ?_, ?_, h.fault_eq⟩
      · exact h.key_insert (t := ⟨iWhen, delta, repeats, s.created.length⟩)
          (h.not_mem_of_free hfree)
      · exact h.address_update hp _
  | queueTimer iWhen delta repeats p hpass hfree hp =>
      refine ⟨(h.owns.gain hfree _).perm ?_, ?_, h.address_update hp _, h.fault_eq⟩
      · refine List.perm_middle.symm.trans (List.Perm.of_eq ?_)
        simp [owners, newTimer]
      · exact h.key_update (h.not_mem_of_free hfree) _
  | @callFunctor now p rest t hpass hqueued ht hnew =>
      refine h.of_perm rfl ?_ rfl fun e he => ?_
      · have hperm := owners_addEntry (s := { s with queued := rest }) now hnew
        rw [owners, hqueued]
        exact hperm.symm
      · rcases OrderedSet.mem_insert.mp he with rfl | he
        · exact ⟨t, ht, rfl⟩
        · exact h.key e he
  | handleRead iNow hpass =>
      refine h.of_perm rfl ?_ rfl fun e he => h.key e (OrderedSet.mem_eraseBelow.mp he).1
      have hparts := OrderedSet.below_append_eraseBelow s.timers ⟨iNow, uintptrMax⟩
      simp only [owners, hpass, Pass.hasRun, Pass.toRun, List.append_nil, List.nil_append]
      rw [← hparts]
      exact (List.perm_append_comm.map _).append_left _
  | @run iNow ran rest e t hpass ht =>
      refine h.of_perm rfl (List.Perm.of_eq ?_) rfl h.key
      simp [owners, hpass, Pass.hasRun, Pass.toRun]
  | returnCallback hpass =>
      refine h.of_perm rfl (List.Perm.of_eq ?_) rfl h.key
      simp [owners, hpass, Pass.hasRun, Pass.toRun]
  | beginReset hpass =>
      refine h.of_perm rfl (List.Perm.of_eq ?_) rfl h.key
      simp [owners, hpass, Pass.hasRun, Pass.toRun]
  | @restart iNow rest e t hpass ht hrepeats hnew =>
      have hmem : e.second ∈ (s.pass.hasRun ++ s.pass.toRun).map Entry.second := by
        simp [hpass, Pass.hasRun, Pass.toRun]
      have hlive : s.heap e.second ≠ none := by simp [ht]
      refine ⟨(h.owns.set ((h.owns.mem_iff _).mpr hlive) _).perm ?_, ?_, ?_, h.fault_eq⟩
      · have hperm := (OrderedSet.toList_insert_perm hnew).map Entry.second
        simp only [owners, hpass, Pass.hasRun, Pass.toRun, List.append_nil, List.map_append,
          List.map_cons]
        refine List.Perm.append_left _ ?_
        exact List.perm_middle.trans (hperm.symm.append_right _)
      · exact h.key_insert (t := { t with expiration := iNow + t.delta }) (h.not_mem_of_pass hmem)
      · exact h.address_update (h.address _ hlive) _
  | @free iNow rest e t hpass ht hrepeats =>
      have hmem : e.second ∈ (s.pass.hasRun ++ s.pass.toRun).map Entry.second := by
        simp [hpass, Pass.hasRun, Pass.toRun]
      have hperm : s.owners.Perm (e.second :: owners { s with pass := .resetting iNow rest }) := by
        simp only [owners, hpass, Pass.hasRun, Pass.toRun, List.append_nil, List.map_append,
          List.map_cons]
        exact (List.perm_middle.append_left _).trans List.perm_middle
      refine ⟨(h.owns.perm hperm).lose, h.key_update (h.not_mem_of_pass hmem) _, ?_, h.fault_eq⟩
      exact h.address_update (h.address _ (by simp [ht])) _
  | endReset now hpass =>
      refine h.of_perm rfl (List.Perm.of_eq ?_) rfl h.key
      simp [owners, hpass, Pass.hasRun, Pass.toRun]
  | @destroy nums hpass hnums =>
      have hperm : s.owners.Perm (s.timers.toList.map Entry.second ++ s.queued) := by
        simp only [owners, hpass, Pass.hasRun, Pass.toRun, List.append_nil]
        exact List.perm_append_comm
      have howns := owns_clear (h.owns.perm hperm)
      refine ⟨howns.perm (List.Perm.of_eq ?_), fun e he => (by cases he), fun p hp => ?_, h.fault_eq⟩
      · simp [owners, OrderedSet.empty, Pass.hasRun, Pass.toRun]
      · apply h.address
        have hqueued : p ∈ s.queued := (howns.mem_iff p).mpr hp
        exact (h.owns.mem_iff p).mp (List.mem_append_left _ hqueued)

end CTimerQueue

end Neconet
