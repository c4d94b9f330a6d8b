import Neconet.Lib.Transition

/-!
# What comes within a number of steps

Progress of a transition relation. Some steps are the work of those who are waited for; others may
be taken at any time between them, by whoever else is there. `LeadsWithin` says that the goal comes
by the work alone: until then there is always work that can be done, and it is bounded.

* `LeadsWithin step ok work goal n s`: from `s`, the goal comes within `n` steps of work, as long as
  all steps meet `ok`.
* `leadsWithin_of_rank`: a rank that work lowers, and nothing raises.
* `LeadsWithin.tail`, `not_leadsWithin_of_idle`: the goal does not come if on the way to it, there
  is no work left.
-/

namespace Transition

variable {σ α : Type*} {step : σ → α → σ → Prop} {ok : α → Prop} {work : α → Bool}
  {goal : σ → Prop} {n m : ℕ} {s t : σ} {as : List α}

/-- On every way from `s` whose steps meet `ok`, up to the goal: at most `n` steps are work, and
short of the goal, a step of work can be taken. -/
def LeadsWithin (step : σ → α → σ → Prop) (ok : α → Prop) (work : α → Bool) (goal : σ → Prop)
    (n : ℕ) (s : σ) : Prop :=
  ∀ as t, Run step s as t → Along step (fun u a => ¬ goal u ∧ ok a) s as →
    as.countP work ≤ n ∧ (goal t ∨ ∃ a u, work a = true ∧ ok a ∧ step t a u)

/-- A larger bound is a bound. -/
theorem LeadsWithin.mono (h : LeadsWithin step ok work goal n s) (hnm : n ≤ m) :
    LeadsWithin step ok work goal m s := by
  intro as t hrun hok
  obtain ⟨hcount, hlive⟩ := h as t hrun hok
  exact ⟨hcount.trans hnm, hlive⟩

section rank

variable {I : σ → Prop} {rank : σ → ℕ}

/-- The work done and the rank that is left are at most the rank at the start. -/
theorem Run.countP_add_rank_le
    (hstep : ∀ s a t, I s → ¬ goal s ∧ ok a → step s a t →
      I t ∧ rank t + (if work a = true then 1 else 0) ≤ rank s)
    (hrun : Run step s as t) (hok : Along step (fun u a => ¬ goal u ∧ ok a) s as) (hs : I s) :
    I t ∧ as.countP work + rank t ≤ rank s := by
  induction hrun with
  | nil s => exact ⟨hs, by simp⟩
  | cons head tail ih =>
      obtain ⟨ha, htail⟩ := along_cons_iff.mp hok
      obtain ⟨ht, hle⟩ := hstep _ _ _ hs ha head
      obtain ⟨hu, hrest⟩ := ih (htail _ head) ht
      refine ⟨hu, ?_⟩
      rw [List.countP_cons]
      omega

/-- **The rank rule**: if short of the goal, every step of work lowers the rank, no step raises it,
and there is always work that can be done, the goal comes within the rank. -/
theorem leadsWithin_of_rank
    (hstep : ∀ s a t, I s → ¬ goal s ∧ ok a → step s a t →
      I t ∧ rank t + (if work a = true then 1 else 0) ≤ rank s)
    (hlive : ∀ s, I s → ¬ goal s → ∃ a t, work a = true ∧ ok a ∧ step s a t) (hs : I s) :
    LeadsWithin step ok work goal (rank s) s := by
  intro as t hrun hok
  obtain ⟨ht, hle⟩ := hrun.countP_add_rank_le hstep hok hs
  refine ⟨by omega, ?_⟩
  by_cases hgoal : goal t
  · exact Or.inl hgoal
  · exact Or.inr (hlive t ht hgoal)

end rank

/-- On the way to the goal, the bound stays one. -/
theorem LeadsWithin.tail (h : LeadsWithin step ok work goal n s) {a : α} (hgoal : ¬ goal s)
    (ha : ok a) (hst : step s a t) (hdet : ∀ u, step s a u → u = t) :
    LeadsWithin step ok work goal n t := by
  intro as u hrun hok
  have hcons : Along step (fun u a => ¬ goal u ∧ ok a) s (a :: as) := by
    refine along_cons_iff.mpr ⟨⟨hgoal, ha⟩, fun v hv => ?_⟩
    rw [hdet v hv]
    exact hok
  obtain ⟨hcount, hlive⟩ := h (a :: as) u (Run.cons hst hrun) hcons
  refine ⟨le_trans ?_ hcount, hlive⟩
  rw [List.countP_cons]
  exact Nat.le_add_right _ _

/-- Where there is no work left short of the goal, the goal does not come. -/
theorem not_leadsWithin_of_idle (hgoal : ¬ goal s)
    (hidle : ∀ a t, work a = true → ok a → ¬ step s a t) : ¬ LeadsWithin step ok work goal n s := by
  intro h
  rcases (h [] s (Run.nil s) along_nil).2 with hreached | ⟨a, t, hwork, ha, hst⟩
  · exact hgoal hreached
  · exact hidle a t hwork ha hst

end Transition
