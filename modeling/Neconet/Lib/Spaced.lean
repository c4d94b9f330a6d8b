import Mathlib.Algebra.Order.Group.Defs
import Mathlib.Tactic

/-!
# Spaced times

Lists of times that begin not before `start` and follow each other at a distance of at least `d`,
built up from the front, together with the time before which no further one may come.

* `Spaced start d l next`: the times `l` are such, and the next one is not before `next`.
* `Spaced.start_add_le`: the time at the index `k` is not before `start + k • d`.
* `Spaced.getElem_add_le`: two of them are as many distances apart as there are indices between
  them.
-/

/-- The times of `l` begin not before `start` and are at least `d` apart; the next one is not before
`next`. -/
inductive Spaced {α : Type*} [Add α] [LE α] (start d : α) : List α → α → Prop
  | nil : Spaced start d [] start
  | snoc {l : List α} {next a : α} (h : Spaced start d l next) (ha : next ≤ a) :
      Spaced start d (l ++ [a]) (a + d)

namespace Spaced

variable {α : Type*} [AddCommGroup α] [LinearOrder α] [IsOrderedAddMonoid α]
  {start d next : α} {l : List α}

/-- As many distances lie in front of the next time as there are times. -/
theorem start_add_le_next (h : Spaced start d l next) : start + l.length • d ≤ next := by
  induction h with
  | nil => simp
  | @snoc l next a h ha ih =>
      rw [List.length_append, List.length_singleton, succ_nsmul, ← add_assoc]
      gcongr
      exact ih.trans ha

/-- The time at the index `k` is at least `k` distances after `start`. -/
theorem start_add_le (h : Spaced start d l next) {k : ℕ} (hk : k < l.length) :
    start + k • d ≤ l[k] := by
  induction h with
  | nil => simp at hk
  | @snoc l next a h ha ih =>
      rcases (Nat.le_of_lt_succ (by simpa using hk)).lt_or_eq with hlt | rfl
      · rw [List.getElem_append_left hlt]
        exact ih hlt
      · rw [List.getElem_concat_length rfl]
        exact h.start_add_le_next.trans ha

/-- The next time is as many distances after the one at the index `j` as there are times from there
on. -/
theorem getElem_add_le_next (h : Spaced start d l next) {j : ℕ} (hj : j < l.length) :
    l[j] + (l.length - j) • d ≤ next := by
  induction h with
  | nil => simp at hj
  | @snoc l next a h ha ih =>
      rw [List.length_append, List.length_singleton] at hj ⊢
      rcases (Nat.le_of_lt_succ hj).lt_or_eq with hlt | rfl
      · rw [List.getElem_append_left hlt, Nat.sub_add_comm hlt.le, succ_nsmul, ← add_assoc]
        gcongr
        exact (ih hlt).trans ha
      · rw [List.getElem_concat_length rfl, Nat.add_sub_cancel_left, one_nsmul]

/-- Two times are as many distances apart as there are indices between them. -/
theorem getElem_add_le (h : Spaced start d l next) {j k : ℕ} (hjk : j < k) (hk : k < l.length) :
    l[j] + (k - j) • d ≤ l[k] := by
  induction h with
  | nil => simp at hk
  | @snoc l next a h ha ih =>
      rcases (Nat.le_of_lt_succ (by simpa using hk)).lt_or_eq with hlt | rfl
      · rw [List.getElem_append_left hlt, List.getElem_append_left (hjk.trans hlt)]
        exact ih hlt
      · rw [List.getElem_append_left hjk, List.getElem_concat_length rfl]
        exact (h.getElem_add_le_next hjk).trans ha

end Spaced
