import Mathlib.Data.List.Basic
import Mathlib.Tactic

/-!
# Mutex and condition variable

A mutex with one condition variable, used by threads from any type `T`: who owns the mutex, and
where every thread stands. A wait releases the mutex and blocks the thread in one step; a blocked
thread can be woken at any time, since wakeups may be spurious; a woken thread needs the mutex
before its wait returns.

* `Monitor`, `Monitor.Step`: the states and the steps.
* `Monitor.Consistent`: the owner is the thread inside, and nobody else is.
* `Monitor.Step.consistent`: every step keeps it.

A program with a mutex maps its states to monitors and shows that each of its steps is one of
these; then `Consistent` holds along its runs, and with it mutual exclusion.
-/

/-- Where a thread stands. -/
inductive Monitor.Place
  /-- The thread does not own the mutex and waits for nothing but, perhaps, the mutex. -/
  | outside
  /-- The thread owns the mutex. -/
  | inside
  /-- The thread is blocked in a wait. -/
  | blocked
  /-- The thread's wait is over, but the thread does not own the mutex yet. -/
  | woken
  deriving DecidableEq, Repr

/-- A mutex with a condition variable. -/
structure Monitor (T : Type*) where
  /-- The owner of the mutex. -/
  owner : Option T
  /-- The places of the threads. -/
  place : T → Monitor.Place

namespace Monitor

variable {T : Type*}

/-- The owner of the mutex is the thread that is inside. -/
def Consistent (m : Monitor T) : Prop := ∀ t, m.place t = .inside ↔ m.owner = some t

/-- At most one thread is inside. -/
theorem Consistent.eq_of_inside {m : Monitor T} (h : m.Consistent) {t u : T}
    (ht : m.place t = .inside) (hu : m.place u = .inside) : t = u := by
  have howner := (h t).mp ht
  rw [(h u).mp hu] at howner
  exact (Option.some.inj howner).symm

/-- While the mutex is free, nobody is inside. -/
theorem Consistent.not_inside {m : Monitor T} (h : m.Consistent) (hfree : m.owner = none) (t : T) :
    m.place t ≠ .inside := by
  intro ht
  have howner := (h t).mp ht
  rw [hfree] at howner
  cases howner

/-- A free mutex and nobody inside. -/
theorem consistent_free {m : Monitor T} (hfree : m.owner = none)
    (hplace : ∀ t, m.place t ≠ .inside) : m.Consistent := by
  intro t
  simp [hfree, hplace t]

/-! ## Steps -/

/-- Every blocked thread is woken. -/
def wakeAll (m : Monitor T) : Monitor T :=
  ⟨m.owner, fun t => if m.place t = .blocked then .woken else m.place t⟩

/-- Waking all threads changes no owner. -/
theorem Consistent.wakeAll {m : Monitor T} (h : m.Consistent) : m.wakeAll.Consistent := by
  intro t
  rw [← show m.owner = m.wakeAll.owner from rfl, ← h t]
  by_cases hplace : m.place t = .blocked <;> simp [Monitor.wakeAll, hplace]

variable [DecidableEq T]

/-- The thread `t` goes to the place `p`, and the mutex to the owner `o`. -/
def move (m : Monitor T) (t : T) (o : Option T) (p : Place) : Monitor T :=
  ⟨o, Function.update m.place t p⟩

/-- The steps of the threads, and those that concern the mutex in no way. -/
inductive Step (m : Monitor T) : Monitor T → Prop
  | stay : Step m m
  | lock (t : T) (hplace : m.place t = .outside) (hfree : m.owner = none) :
      Step m (m.move t (some t) .inside)
  | unlock (t : T) (hplace : m.place t = .inside) : Step m (m.move t none .outside)
  | wait (t : T) (hplace : m.place t = .inside) : Step m (m.move t none .blocked)
  | wake (t : T) (hplace : m.place t = .blocked) : Step m (m.move t m.owner .woken)
  | wakeAll : Step m m.wakeAll
  | relock (t : T) (hplace : m.place t = .woken) (hfree : m.owner = none) :
      Step m (m.move t (some t) .inside)

/-- A thread that takes the free mutex becomes its owner. -/
theorem Consistent.take {m : Monitor T} (h : m.Consistent) (t : T) (hfree : m.owner = none) :
    (m.move t (some t) .inside).Consistent := by
  intro u
  by_cases hu : u = t
  · simp [move, hu]
  · simp [move, hu, h.not_inside hfree u, Ne.symm hu]

/-- A thread that releases the mutex leaves it without an owner. -/
theorem Consistent.release {m : Monitor T} (h : m.Consistent) {t : T} {p : Place}
    (hplace : m.place t = .inside) (hp : p ≠ .inside) : (m.move t none p).Consistent := by
  apply consistent_free rfl
  intro u
  by_cases hu : u = t
  · simpa [move, hu] using hp
  · have hne : m.place u ≠ .inside := by
      intro hinside
      exact hu (h.eq_of_inside hinside hplace)
    simpa [move, hu] using hne

/-- A thread that has the mutex neither before nor after changes no owner. -/
theorem Consistent.pass {m : Monitor T} (h : m.Consistent) {t : T} {p : Place}
    (hplace : m.place t ≠ .inside) (hp : p ≠ .inside) : (m.move t m.owner p).Consistent := by
  intro u
  by_cases hu : u = t
  · have hne : m.owner ≠ some t := fun howner => hplace ((h t).mpr howner)
    simp [move, hu, hp, hne]
  · simpa [move, hu] using h u

/-- **The owner is the one thread inside**, after every step as before it. -/
theorem Step.consistent {m m' : Monitor T} (hst : Step m m') (h : m.Consistent) :
    m'.Consistent := by
  cases hst with
  | stay => exact h
  | lock t hplace hfree => exact h.take t hfree
  | unlock t hplace => exact h.release hplace (by simp)
  | wait t hplace => exact h.release hplace (by simp)
  | wake t hplace => exact h.pass (by simp [hplace]) (by simp)
  | wakeAll => exact h.wakeAll
  | relock t hplace hfree => exact h.take t hfree

/-! ## Programs with a mutex

A program says of every thread at which of its positions `P` the thread is, and `place` says which
place that position is. -/

section positions

variable {P : Type*} {place : P → Place} {o : Option T} {pc : T → P} {t : T} {p : P}

/-- The monitor of a program whose threads are at the positions `pc`. -/
def ofPositions (place : P → Place) (o : Option T) (pc : T → P) : Monitor T :=
  ⟨o, fun t => place (pc t)⟩

/-- A thread that goes to another position moves at the monitor. -/
theorem ofPositions_update (place : P → Place) (o o' : Option T) (pc : T → P) (t : T) (p : P) :
    ofPositions place o' (Function.update pc t p) = (ofPositions place o pc).move t o' (place p) := by
  simp only [ofPositions, move, Monitor.mk.injEq, true_and]
  exact Function.comp_update place pc t p

/-- A thread that keeps its place changes nothing at the monitor. -/
theorem ofPositions_update_of_place {q : Place} (hpc : place (pc t) = q) (hp : place p = q) :
    ofPositions place o (Function.update pc t p) = ofPositions place o pc := by
  have hsame : Function.update (fun u => place (pc u)) t (place p) = fun u => place (pc u) := by
    rw [hp, ← hpc]
    exact Function.update_eq_self t fun u => place (pc u)
  rw [ofPositions_update place o, move]
  simp only [ofPositions, hsame]

/-- A thread that keeps its place takes no step at the monitor. -/
theorem Step.goto_stay {q : Place} (hpc : place (pc t) = q) (hp : place p = q) :
    Step (ofPositions place o pc) (ofPositions place o (Function.update pc t p)) := by
  rw [ofPositions_update_of_place hpc hp]
  exact .stay

/-- A thread takes the mutex. -/
theorem Step.goto_lock (hpc : place (pc t) = .outside) (hfree : o = none) (hp : place p = .inside) :
    Step (ofPositions place o pc) (ofPositions place (some t) (Function.update pc t p)) := by
  rw [ofPositions_update place o, hp]
  exact .lock t hpc hfree

/-- A thread releases the mutex. -/
theorem Step.goto_unlock (hpc : place (pc t) = .inside) (hp : place p = .outside) :
    Step (ofPositions place o pc) (ofPositions place none (Function.update pc t p)) := by
  rw [ofPositions_update place o, hp]
  exact .unlock t hpc

/-- A thread releases the mutex and is blocked. -/
theorem Step.goto_wait (hpc : place (pc t) = .inside) (hp : place p = .blocked) :
    Step (ofPositions place o pc) (ofPositions place none (Function.update pc t p)) := by
  rw [ofPositions_update place o, hp]
  exact .wait t hpc

/-- A thread is woken. -/
theorem Step.goto_wake (hpc : place (pc t) = .blocked) (hp : place p = .woken) :
    Step (ofPositions place o pc) (ofPositions place o (Function.update pc t p)) := by
  rw [ofPositions_update place o, hp]
  exact .wake t hpc

/-- A woken thread has the mutex again. -/
theorem Step.goto_relock (hpc : place (pc t) = .woken) (hfree : o = none)
    (hp : place p = .inside) :
    Step (ofPositions place o pc) (ofPositions place (some t) (Function.update pc t p)) := by
  rw [ofPositions_update place o, hp]
  exact .relock t hpc hfree

omit [DecidableEq T] in
/-- All blocked threads are woken, which takes them to the position `p`. -/
theorem ofPositions_wakeAll (hp : place p = .woken) :
    ofPositions place o (fun u => if place (pc u) = .blocked then p else pc u) =
      (ofPositions place o pc).wakeAll := by
  simp only [ofPositions, Monitor.wakeAll, Monitor.mk.injEq, true_and]
  funext u
  rw [apply_ite place, hp]
  rfl

end positions

end Monitor
