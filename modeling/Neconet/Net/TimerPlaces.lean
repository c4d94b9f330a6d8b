import Neconet.Net.TimerArming
import Neconet.Net.TimerLife
import Neconet.Net.TimerPass

/-!
# The places of a timer

Where a timer can be, and where a step takes it: from a queued functor to the set, from the set to
the timers of a pass, from there to those that have run, and from these, if it repeats, back to the
set. Whatever else happens leaves it where it is.

* `Queued`, `InSet`, `ToRun`, `HasRun`: the places.
* `OwnInv.place`: every timer is in one of them.
* `Queued.step`, `InSet.step`, `ToRun.step`, `HasRun.step`: the ways between them.
* `Effect.exists_begin?`: what becomes of the first expiration and of the timerfd outside a pass.
-/

namespace Neconet

namespace CTimerQueue

/-! ## Places -/

/-- The timer `t` at `p` waits in a functor. -/
def Queued (s : CTimerQueue) (p : ℕ) (t : CTimer) : Prop := s.heap p = some t ∧ p ∈ s.queued

/-- The timer `t` at `p` is in the set. -/
def InSet (s : CTimerQueue) (p : ℕ) (t : CTimer) : Prop :=
  s.heap p = some t ∧ ⟨t.expiration, p⟩ ∈ s.timers

/-- The timer `t` at `p` will run in this pass. -/
def ToRun (s : CTimerQueue) (p : ℕ) (t : CTimer) : Prop :=
  s.heap p = some t ∧ p ∈ s.pass.toRun.map Entry.second

/-- The timer `t` at `p` has run in this pass, and `__ResetTimers` has not processed it. -/
def HasRun (s : CTimerQueue) (p : ℕ) (t : CTimer) : Prop :=
  s.heap p = some t ∧ p ∈ s.pass.hasRun.map Entry.second

/-- The expiration of a timer that is made is not below the smallest number of 64 bits. -/
def Action.WhenOk : Action → Prop
  | .addTimer iWhen _ _ _ _ => -2 ^ 63 ≤ iWhen
  | .queueTimer iWhen _ _ _ => -2 ^ 63 ≤ iWhen
  | _ => True

instance : ∀ a : Action, Decidable a.WhenOk
  | .addTimer iWhen _ _ _ _ => inferInstanceAs (Decidable (-2 ^ 63 ≤ iWhen))
  | .queueTimer iWhen _ _ _ => inferInstanceAs (Decidable (-2 ^ 63 ≤ iWhen))
  | .callFunctor _ | .handleRead _ | .run | .returnCallback | .beginReset | .reset | .endReset _
  | .destroy => isTrue trivial

section places

variable {s s' : CTimerQueue} {a : Action} {p : ℕ} {t : CTimer}

/-- Every timer is in one of the places. -/
theorem OwnInv.place (h : s.OwnInv) (ht : s.heap p = some t) :
    s.Queued p t ∨ s.InSet p t ∨ s.HasRun p t ∨ s.ToRun p t := by
  have hp : p ∈ s.owners := (h.owns.mem_iff p).mpr (by simp [ht])
  rw [owners, List.mem_append, List.map_append, List.map_append, List.mem_append,
    List.mem_append] at hp
  rcases hp with hqueued | htimers | hran | hrest
  · exact Or.inl ⟨ht, hqueued⟩
  · obtain ⟨e, he, rfl⟩ := List.mem_map.mp htimers
    obtain ⟨t', ht', hfirst⟩ := h.key e he
    obtain rfl := Option.some.inj (ht'.symm.trans ht)
    refine Or.inr (Or.inl ⟨ht, ?_⟩)
    rw [hfirst]
    exact he
  · exact Or.inr (Or.inr (Or.inl ⟨ht, hran⟩))
  · exact Or.inr (Or.inr (Or.inr ⟨ht, hrest⟩))

/-- A timer in another place is not among those that have run. -/
theorem OwnInv.not_hasRun (h : s.OwnInv)
    (hp : s.Queued p t ∨ s.InSet p t ∨ s.ToRun p t) : p ∉ s.pass.hasRun.map Entry.second := by
  have hnodup := h.owns.nodup
  rw [owners, List.map_append, List.map_append, List.nodup_append, List.nodup_append,
    List.nodup_append] at hnodup
  obtain ⟨-, ⟨-, ⟨-, -, hran⟩, hset⟩, hqueued⟩ := hnodup
  intro hmem
  rcases hp with ⟨-, hp⟩ | ⟨-, hp⟩ | ⟨-, hp⟩
  · refine hqueued p hp p ?_ rfl
    exact List.mem_append_right _ (List.mem_append_left _ hmem)
  · exact hset p (List.mem_map_of_mem (f := Entry.second) hp) p (List.mem_append_left _ hmem) rfl
  · exact hran p hmem p hp rfl

/-- The run of a one-shot timer among those that have run is in the log. -/
theorem LogInv.run_mem_of_hasRun (h : s.LogInv) (hran : s.HasRun p t) (hone : t.repeats = false) :
    .run t.num ∈ s.log := by
  have hlive := h.live p t hran.1 hone
  rw [if_pos hran.2] at hlive
  have hmem : TimerEvent.run t.num ∈ s.history t.num := by simp [hlive]
  exact (List.mem_filter.mp hmem).1

/-! ## Ways -/

/-- Only `__ResetTimers` changes or deletes a timer. -/
theorem Effect.heap_eq (h : Effect s a s') (ha : a ≠ .destroy) (ht : s.heap p = some t)
    (hp : p ∉ s.pass.hasRun.map Entry.second) : s'.heap p = some t := by
  cases h with
  | addTimer iWhen delta repeats q now hpass hfree => exact update_of_free hfree ht _
  | queueTimer iWhen delta repeats q hpass hfree => exact update_of_free hfree ht _
  | callFunctor | handleRead | run | returnCallback | beginReset | endReset => exact ht
  | @restart iNow rest e t' hpass | @free iNow rest e t' hpass =>
      have hne : p ≠ e.second := by
        rintro rfl
        exact hp (by simp [hpass, Pass.hasRun])
      exact (Function.update_of_ne hne _ _).trans ht
  | destroy => exact absurd rfl ha

/-- A timer waits in its functor until that is called, which inserts it. -/
theorem Queued.step (h : s.Queued p t) (hown : s.OwnInv) (hst : Effect s a s')
    (ha : a ≠ .destroy) : s'.Queued p t ∨ s'.InSet p t := by
  have ht := hst.heap_eq ha h.1 (hown.not_hasRun (Or.inl h))
  cases hst with
  | @callFunctor now q rest u hpass hqueued hu =>
      have hmem := h.2
      rw [hqueued] at hmem
      rcases List.mem_cons.mp hmem with rfl | hrest
      · obtain rfl := Option.some.inj (hu.symm.trans h.1)
        exact Or.inr ⟨ht, OrderedSet.mem_insert.mpr (Or.inl rfl)⟩
      · exact Or.inl ⟨ht, hrest⟩
  | queueTimer => exact Or.inl ⟨ht, List.mem_append_left _ h.2⟩
  | destroy => exact absurd rfl ha
  | _ => exact Or.inl ⟨ht, h.2⟩

/-- A timer stays in the set until a pass begins at its expiration or later, which takes it out. -/
theorem InSet.step (h : s.InSet p t) (hown : s.OwnInv) (hst : Effect s a s')
    (ha : a ≠ .destroy) : s'.InSet p t ∨ s'.ToRun p t := by
  have ht := hst.heap_eq ha h.1 (hown.not_hasRun (Or.inr (Or.inl h)))
  cases hst with
  | handleRead iNow hpass =>
      have hmem := h.2
      rw [OrderedSet.mem_iff, ← OrderedSet.below_append_eraseBelow s.timers ⟨iNow, uintptrMax⟩,
        List.mem_append] at hmem
      rcases hmem with hbelow | hrest
      · exact Or.inr ⟨ht, List.mem_map_of_mem (f := Entry.second) hbelow⟩
      · exact Or.inl ⟨ht, hrest⟩
  | addTimer | callFunctor | restart =>
      exact Or.inl ⟨ht, OrderedSet.mem_insert.mpr (Or.inr h.2)⟩
  | destroy => exact absurd rfl ha
  | queueTimer | run | returnCallback | beginReset | free | endReset => exact Or.inl ⟨ht, h.2⟩

/-- What a pass leaves in the set expires later. -/
theorem lt_of_handleRead {iNow : ℤ} (hown : s.OwnInv) (hst : Effect s (.handleRead iNow) s')
    {e : Entry} (he : e ∈ s'.timers) : iNow < e.first := by
  cases hst with
  | handleRead iNow hpass =>
      obtain ⟨hmem, hle⟩ := OrderedSet.mem_eraseBelow.mp he
      by_contra! hnot
      exact absurd ((hown.keyed.lt_iff hmem).mpr hnot) (not_lt.mpr hle)

/-- A timer of a pass stays there until it runs. -/
theorem ToRun.step (h : s.ToRun p t) (hown : s.OwnInv) (hst : Effect s a s')
    (ha : a ≠ .destroy) :
    s'.ToRun p t ∨ s'.HasRun p t ∧ s'.log = s.log ++ [.run t.num] := by
  have ht := hst.heap_eq ha h.1 (hown.not_hasRun (Or.inr (Or.inr h)))
  have hmem := h.2
  cases hst with
  | @run iNow ran rest e u hpass hu =>
      rw [hpass, Pass.toRun, List.map_cons, List.mem_cons] at hmem
      rcases hmem with rfl | hrest
      · obtain rfl := Option.some.inj (hu.symm.trans h.1)
        exact Or.inr ⟨⟨ht, by simp [Pass.hasRun]⟩, rfl⟩
      · exact Or.inl ⟨ht, hrest⟩
  | returnCallback hpass =>
      rw [hpass] at hmem
      exact Or.inl ⟨ht, hmem⟩
  | addTimer | queueTimer | callFunctor => exact Or.inl ⟨ht, hmem⟩
  | handleRead iNow hpass | beginReset hpass | restart hpass | free hpass | endReset now hpass =>
      rw [hpass] at hmem
      cases hmem
  | destroy => exact absurd rfl ha

/-- A repeating timer that has run stays in the pass until `__ResetTimers` inserts it again. -/
theorem HasRun.step (h : s.HasRun p t) (hrepeats : t.repeats = true) (hst : Effect s a s')
    (ha : a ≠ .destroy) :
    s'.HasRun p t ∨ ∃ t', s'.InSet p t' ∧ t'.num = t.num ∧ t'.repeats = true := by
  obtain ⟨ht, hmem⟩ := h
  cases hst with
  | addTimer iWhen delta repeats q now hpass hfree =>
      exact Or.inl ⟨update_of_free hfree ht _, hmem⟩
  | queueTimer iWhen delta repeats q hpass hfree =>
      exact Or.inl ⟨update_of_free hfree ht _, hmem⟩
  | callFunctor => exact Or.inl ⟨ht, hmem⟩
  | run hpass =>
      rw [hpass] at hmem
      refine Or.inl ⟨ht, ?_⟩
      rw [Pass.hasRun, List.map_append]
      exact List.mem_append_left _ hmem
  | returnCallback hpass | beginReset hpass =>
      rw [hpass] at hmem
      exact Or.inl ⟨ht, hmem⟩
  | @restart iNow rest e u hpass hu =>
      rw [hpass, Pass.hasRun, List.map_cons, List.mem_cons] at hmem
      by_cases hp : p = e.second
      · subst hp
        obtain rfl := Option.some.inj (hu.symm.trans ht)
        exact Or.inr ⟨_, ⟨Function.update_self _ _ _, OrderedSet.mem_insert.mpr (Or.inl rfl)⟩, rfl,
          hrepeats⟩
      · exact Or.inl ⟨(Function.update_of_ne hp _ _).trans ht, hmem.resolve_left hp⟩
  | @free iNow rest e u hpass hu hone =>
      rw [hpass, Pass.hasRun, List.map_cons, List.mem_cons] at hmem
      have hp : p ≠ e.second := by
        rintro rfl
        obtain rfl := Option.some.inj (hu.symm.trans ht)
        simp [hone] at hrepeats
      exact Or.inl ⟨(Function.update_of_ne hp _ _).trans ht, hmem.resolve_left hp⟩
  | handleRead iNow hpass | endReset now hpass =>
      rw [hpass] at hmem
      cases hmem
  | destroy => exact absurd rfl ha

/-- What has happened stays in the log. -/
theorem Effect.log_mono (h : Effect s a s') : s.log <+: s'.log := by
  cases h with
  | run | free | destroy => exact List.prefix_append _ _
  | _ => exact List.prefix_refl _

/-- A timer that is added lowers the first expiration or leaves the timerfd alone. -/
theorem exists_begin?_addEntry {e : Entry} (he : s.timers.begin? = some e) (new : Entry) (now : ℤ) :
    ∃ e', (s.addEntry new now).timers.begin? = some e' ∧
      (e'.first < e.first ∨ e'.first = e.first ∧ (s.addEntry new now).setting = s.setting) := by
  have hold : e ∈ (s.addEntry new now).timers :=
    OrderedSet.mem_insert.mpr (Or.inr (OrderedSet.begin?_eq_some.mp he).1)
  have hne : (s.addEntry new now).timers.begin? ≠ none := by
    rw [ne_eq, OrderedSet.begin?_eq_none]
    exact List.ne_nil_of_mem hold
  obtain ⟨e', he'⟩ := Option.ne_none_iff_exists'.mp hne
  have hleast := (OrderedSet.begin?_eq_some.mp he').2
  refine ⟨e', he', ?_⟩
  by_cases hearliest : s.earliestChanged new.first = true
  · have hlt : new.first < e.first := by simpa [earliestChanged, he] using hearliest
    have hnew := hleast new (OrderedSet.mem_insert.mpr (Or.inl rfl))
    exact Or.inl ((Entry.first_le_of_le hnew).trans_lt hlt)
  · have hfirst : e'.first ≤ e.first := Entry.first_le_of_le (hleast e hold)
    exact hfirst.lt_or_eq.imp_right fun heq => ⟨heq, if_neg hearliest⟩

/-- Outside a pass, so does every step that begins none. -/
theorem Effect.exists_begin? (h : Effect s a s') (ha : a ≠ .destroy)
    (hread : ∀ iNow, a ≠ .handleRead iNow) (hpass : s.pass = .idle) {e : Entry}
    (he : s.timers.begin? = some e) : s'.pass = .idle ∧ ∃ e', s'.timers.begin? = some e' ∧
      (e'.first < e.first ∨ e'.first = e.first ∧ s'.setting = s.setting) := by
  cases h with
  | addTimer iWhen delta repeats p now =>
      exact ⟨hpass, exists_begin?_addEntry (s := s.newTimer iWhen delta repeats p) he _ now⟩
  | @callFunctor now p rest t =>
      exact ⟨hpass, exists_begin?_addEntry (s := { s with queued := rest }) he _ now⟩
  | queueTimer => exact ⟨hpass, e, he, Or.inr ⟨rfl, rfl⟩⟩
  | handleRead iNow => exact absurd rfl (hread iNow)
  | run hpass' | returnCallback hpass' | beginReset hpass' | restart hpass' | free hpass'
  | endReset now hpass' =>
      rw [hpass] at hpass'
      cases hpass'
  | destroy => exact absurd rfl ha

/-- Expirations stay so. -/
theorem Effect.le_expiration (h : Effect s a s') (harm : s.ArmInv) (ha : a.WhenOk)
    (hle : ∀ p t, s.heap p = some t → -2 ^ 63 ≤ t.expiration) :
    ∀ p t, s'.heap p = some t → -2 ^ 63 ≤ t.expiration := by
  intro p t ht
  cases h with
  | addTimer | queueTimer =>
      rcases update_eq_some.mp ht with ⟨-, hnew⟩ | ⟨-, hold⟩
      · cases hnew
        exact ha
      · exact hle p t hold
  | @restart iNow rest e u hpass hu hrepeats =>
      rcases update_eq_some.mp ht with ⟨-, hnew⟩ | ⟨-, hold⟩
      · cases hnew
        have hnow := harm.iNow_pos iNow (by simp [hpass, Pass.iNow?])
        have hdelta := harm.delta _ u hu hrepeats
        simp only
        omega
      · exact hle p t hold
  | free =>
      rcases update_eq_some.mp ht with ⟨-, hnone⟩ | ⟨-, hold⟩
      · cases hnone
      · exact hle p t hold
  | destroy => exact hle p t (eq_some_of_clear ht)
  | callFunctor | handleRead | run | returnCallback | beginReset | endReset => exact hle p t ht

end places

end CTimerQueue

end Neconet
