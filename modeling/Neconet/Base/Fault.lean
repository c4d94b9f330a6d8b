import Mathlib.Tactic

/-!
# Faults

A modelled member function that can go wrong returns `Except Fault`: its result, or the way in
which the program ends there. An `assert` of the source is a `check`; a bounds violation, a null
or dangling pointer and an exception nobody catches are the other faults.
-/

namespace Neconet

/-- The ways in which a modelled function ends the program. -/
inductive Fault
  /-- An `assert` failed. -/
  | assertion
  /-- A byte was read or written outside a vector. -/
  | outOfBounds
  /-- `std::vector` threw `std::length_error`. -/
  | lengthError
  /-- A null pointer was dereferenced. -/
  | nullPointer
  /-- A member function ran on a destroyed object. -/
  | useAfterFree
  deriving DecidableEq, Repr

/-- `assert(p)`.
Source: `assert.h`, in every file of `src/` -/
def check (p : Prop) [Decidable p] : Except Fault Unit :=
  if p then .ok () else .error .assertion

universe u

variable {α β : Type u}

/-- An assertion that holds does nothing. -/
@[simp] theorem check_of {p : Prop} [Decidable p] (h : p) : check p = .ok () := if_pos h

/-- An assertion that fails ends the program. -/
@[simp] theorem check_of_not {p : Prop} [Decidable p] (h : ¬ p) : check p = .error .assertion :=
  if_neg h

/-- An assertion passes exactly if it holds. -/
theorem check_eq_ok_iff {p : Prop} [Decidable p] {u : Unit} : check p = .ok u ↔ p := by
  by_cases h : p <;> simp [h]

/-- A sequence of two computations succeeds exactly if both do. -/
theorem bind_eq_ok_iff {x : Except Fault α} {f : α → Except Fault β} {b : β} :
    (x >>= f) = .ok b ↔ ∃ a, x = .ok a ∧ f a = .ok b := by
  cases x with
  | error e => simp [bind, Except.bind]
  | ok a => simp [bind, Except.bind]

/-- A successful first computation hands its result on. -/
@[simp] theorem ok_bind (a : α) (f : α → Except Fault β) : ((.ok a : Except Fault α) >>= f) = f a :=
  rfl

/-- A fault ends a sequence of computations. -/
@[simp] theorem error_bind (e : Fault) (f : α → Except Fault β) :
    ((.error e : Except Fault α) >>= f) = .error e := rfl

/-- A function of a result is the result of a computation that has one. -/
theorem map_eq_ok_iff {f : α → β} {x : Except Fault α} {b : β} :
    x.map f = .ok b ↔ ∃ a, x = .ok a ∧ f a = b := by
  cases x with
  | error e => simp [Except.map]
  | ok a => simp [Except.map]

/-! ## Two computations with the same outcome -/

/-- Two computations end with the same fault, or with related results. -/
inductive SameOutcome {α β : Type u} (R : α → β → Prop) : Except Fault α → Except Fault β → Prop
  | fault (e : Fault) : SameOutcome R (.error e) (.error e)
  | ok {a : α} {b : β} (h : R a b) : SameOutcome R (.ok a) (.ok b)

namespace SameOutcome

variable {α' β' : Type u} {R : α → β → Prop} {S : α' → β' → Prop} {x : Except Fault α}
  {y : Except Fault β}

/-- Two computations in a row. -/
theorem bind {f : α → Except Fault α'} {g : β → Except Fault β'} (h : SameOutcome R x y)
    (hfg : ∀ a b, R a b → SameOutcome S (f a) (g b)) : SameOutcome S (x >>= f) (y >>= g) := by
  cases h with
  | fault e => exact .fault e
  | ok hab => exact hfg _ _ hab

/-- The same computation in front of both. -/
theorem bind_left {γ : Type u} (z : Except Fault γ) {f : γ → Except Fault α'}
    {g : γ → Except Fault β'} (hfg : ∀ c, z = .ok c → SameOutcome S (f c) (g c)) :
    SameOutcome S (z >>= f) (z >>= g) := by
  cases z with
  | error e => exact .fault e
  | ok c => exact hfg c rfl

/-- Two computations with a case distinction. -/
theorem ite {p q : Prop} [Decidable p] [Decidable q] {x' : Except Fault α} {y' : Except Fault β}
    (hpq : p ↔ q) (hpos : p → SameOutcome R x y) (hneg : ¬ p → SameOutcome R x' y') :
    SameOutcome R (if p then x else x') (if q then y else y') := by
  by_cases hp : p
  · rw [if_pos hp, if_pos (hpq.mp hp)]
    exact hpos hp
  · rw [if_neg hp, if_neg (mt hpq.mpr hp)]
    exact hneg hp

/-- Two computations with a function of their results. -/
theorem map {f : α → α'} {g : β → β'} (h : SameOutcome R x y)
    (hfg : ∀ a b, R a b → S (f a) (g b)) : SameOutcome S (x.map f) (y.map g) := by
  cases h with
  | fault e => exact .fault e
  | ok hab => exact .ok (hfg _ _ hab)

/-- If one of them succeeds, so does the other. -/
theorem exists_of_ok (h : SameOutcome R x y) {a : α} (hx : x = .ok a) : ∃ b, y = .ok b ∧ R a b := by
  subst hx
  cases h with
  | ok hab => exact ⟨_, rfl, hab⟩

/-- And if the other does, so does the one. -/
theorem exists_of_ok_right (h : SameOutcome R x y) {b : β} (hy : y = .ok b) :
    ∃ a, x = .ok a ∧ R a b := by
  subst hy
  cases h with
  | ok hab => exact ⟨_, rfl, hab⟩

/-- What is seen of related results is the same. -/
theorem map_eq {γ : Type u} {f : α → γ} {g : β → γ} (h : SameOutcome R x y)
    (hfg : ∀ a b, R a b → f a = g b) : x.map f = y.map g := by
  cases h with
  | fault e => rfl
  | ok hab => exact congrArg Except.ok (hfg _ _ hab)

end SameOutcome

end Neconet
