import Mathlib.Data.List.Perm.Basic
import Mathlib.Data.List.Nodup
import Mathlib.Logic.Function.Basic
import Mathlib.Tactic

/-!
# Owners of a heap

A heap of objects at addresses, and a list of the addresses that the parts of a program hold: every
object is held in exactly one place, and nothing else is held. An allocator may hand out an address
again after the object there has been deleted; since a place that still held the address then would
be a second one, `Owns` rules out stale addresses too.

* `Owns`: the list holds every live address once.
* `Owns.gain`, `Owns.lose`, `Owns.set`, `Owns.perm`: allocation, deletion, assignment, and a move
  from one place to another.
-/

/-- Every live address of the heap is in the list once, and no other address is in it. -/
structure Owns {A V : Type*} (heap : A → Option V) (owners : List A) : Prop where
  /-- No address is held twice. -/
  nodup : owners.Nodup
  /-- What is held is live, and what is live is held. -/
  mem_iff : ∀ p, p ∈ owners ↔ heap p ≠ none

/-- An object of a heap in which one has been assigned. -/
theorem update_eq_some {A V : Type*} [DecidableEq A] {heap : A → Option V} {p q : A}
    {v : Option V} {w : V} :
    Function.update heap p v q = some w ↔ q = p ∧ v = some w ∨ q ≠ p ∧ heap q = some w := by
  by_cases hq : q = p <;> simp [hq]

/-- An assignment at a free address leaves the objects of a heap. -/
theorem update_of_free {A V : Type*} [DecidableEq A] {heap : A → Option V} {p q : A} {w : V}
    (hfree : heap p = none) (hq : heap q = some w) (v : Option V) :
    Function.update heap p v q = some w := by
  refine update_eq_some.mpr (Or.inr ⟨?_, hq⟩)
  rintro rfl
  rw [hfree] at hq
  cases hq

namespace Owns

variable {A V : Type*} {heap : A → Option V} {l l' : List A} {p : A}

/-- There is nothing to own in an empty heap. -/
theorem empty : Owns (fun _ : A => (none : Option V)) [] where
  nodup := List.nodup_nil
  mem_iff p := by simp

/-- The object at an address that is held. -/
theorem exists_of_mem (h : Owns heap l) (hp : p ∈ l) : ∃ v, heap p = some v :=
  Option.ne_none_iff_exists'.mp ((h.mem_iff p).mp hp)

/-- A free address is not held. -/
theorem not_mem_of_eq_none (h : Owns heap l) (hp : heap p = none) : p ∉ l := by
  rw [h.mem_iff p]
  simp [hp]

/-- Addresses move from one place to another. -/
theorem perm (h : Owns heap l) (hperm : l.Perm l') : Owns heap l' where
  nodup := hperm.nodup_iff.mp h.nodup
  mem_iff p := by rw [← hperm.mem_iff, h.mem_iff p]

variable [DecidableEq A]

/-- A new object at a free address. -/
theorem gain (h : Owns heap l) (hp : heap p = none) (v : V) :
    Owns (Function.update heap p (some v)) (p :: l) where
  nodup := List.nodup_cons.mpr ⟨h.not_mem_of_eq_none hp, h.nodup⟩
  mem_iff q := by
    by_cases hq : q = p
    · simp [hq]
    · simp [hq, h.mem_iff q]

/-- An object is deleted, and its address is no longer held. -/
theorem lose (h : Owns heap (p :: l)) : Owns (Function.update heap p none) l where
  nodup := (List.nodup_cons.mp h.nodup).2
  mem_iff q := by
    by_cases hq : q = p
    · simp [hq, (List.nodup_cons.mp h.nodup).1]
    · have hmem := h.mem_iff q
      rw [List.mem_cons] at hmem
      simpa [hq] using hmem

/-- An object is changed. -/
theorem set (h : Owns heap l) (hp : p ∈ l) (v : V) : Owns (Function.update heap p (some v)) l where
  nodup := h.nodup
  mem_iff q := by
    by_cases hq : q = p
    · simp [hq, hp]
    · simp [hq, h.mem_iff q]

end Owns
