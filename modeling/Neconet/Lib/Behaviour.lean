import Mathlib.Data.Prod.Lex
import Neconet.Lib.Transition

/-!
# Infinite behaviours

A behaviour of a transition relation is a sequence of states, each of which comes from the one
before by a step or is the same. A behaviour may stay where it is from some point on; that somebody
goes on is an assumption about the behaviour, which says of a condition that it does not hold for
ever.

* `Behaviour step`: the behaviours of `step`.
* `Behaviour.map`: the behaviour of a part.
* `Behaviour.invariant`: what every step keeps.
* `Behaviour.exists_last`: a condition that does not last ends with a step.
* `Behaviour.eventually`: a goal comes if, short of it, no step raises a rank, and there is always a
  condition that does not hold for ever and lasts as long as the rank stays.
* `Behaviour.ofLabels`: the behaviour that takes some steps and stays where they lead.
* `Behaviour.exists_after`: a run in front of a behaviour.
-/

namespace Transition

variable {σ α : Type*} {step : σ → α → σ → Prop}

/-- A sequence of states, by steps and pauses. -/
structure Behaviour (step : σ → α → σ → Prop) where
  /-- The states. -/
  state : ℕ → σ
  /-- Each comes from the one before. -/
  move : ∀ n, state (n + 1) = state n ∨ ∃ a, step (state n) a (state (n + 1))

namespace Behaviour

variable (x : Behaviour step) {I goal : σ → Prop} {n m : ℕ}

/-- What every step keeps holds from then on. -/
theorem invariant (hstep : ∀ s a t, I s → step s a t → I t) (hnm : n ≤ m) (h : I (x.state n)) :
    I (x.state m) := by
  induction hnm with
  | refl => exact h
  | step _ ih =>
      rcases x.move _ with hsame | ⟨a, hst⟩
      · rw [hsame]
        exact ih
      · exact hstep _ a _ ih hst

/-- The behaviour of a part, which every step leaves alone or takes a step of its own in. -/
def map {τ β : Type*} {step' : τ → β → τ → Prop} (f : σ → τ)
    (h : ∀ n, f (x.state (n + 1)) = f (x.state n) ∨
      ∃ b, step' (f (x.state n)) b (f (x.state (n + 1)))) : Behaviour step' :=
  ⟨fun n => f (x.state n), h⟩

/-- A condition that does not last ends with a step. -/
theorem exists_last {P : σ → Prop} (hP : P (x.state n)) (hnot : ∃ m, n ≤ m ∧ ¬ P (x.state m)) :
    ∃ m a, n ≤ m ∧ P (x.state m) ∧ step (x.state m) a (x.state (m + 1)) ∧
      ¬ P (x.state (m + 1)) := by
  by_contra! hkeep
  obtain ⟨m, hnm, hm⟩ := hnot
  refine hm ?_
  clear hm
  induction hnm with
  | refl => exact hP
  | @step k hnk ih =>
      rcases x.move k with hsame | ⟨a, hst⟩
      · rw [hsame]
        exact ih
      · exact hkeep k a hnk ih hst

section rank

variable {ι W : Type*} [Preorder W] {rank : σ → W} {helpful : ι → σ → Prop}

/-- From a state short of the goal, the goal comes, or the rank is lowered, or the condition
lasts. -/
theorem lasts {i : ι}
    (hstep : ∀ s a t, I s → ¬ goal s → helpful i s → step s a t →
      I t ∧ (goal t ∨ rank t < rank s ∨ rank t = rank s ∧ helpful i t))
    (hI : I (x.state n)) (hgoal : ¬ goal (x.state n)) (hi : helpful i (x.state n)) (d : ℕ) :
    (∃ m, n ≤ m ∧ goal (x.state m)) ∨
      (∃ m, n ≤ m ∧ I (x.state m) ∧ rank (x.state m) < rank (x.state n)) ∨
      I (x.state (n + d)) ∧ ¬ goal (x.state (n + d)) ∧ helpful i (x.state (n + d)) ∧
        rank (x.state (n + d)) = rank (x.state n) := by
  induction d with
  | zero => exact Or.inr (Or.inr ⟨hI, hgoal, hi, rfl⟩)
  | succ d ih =>
      rcases ih with hreached | hlower | ⟨hId, hgoald, hid, hrank⟩
      · exact Or.inl hreached
      · exact Or.inr (Or.inl hlower)
      · rcases x.move (n + d) with hsame | ⟨a, hst⟩
        · refine Or.inr (Or.inr ?_)
          rw [← Nat.add_assoc, hsame]
          exact ⟨hId, hgoald, hid, hrank⟩
        · obtain ⟨hI', hnext⟩ := hstep _ a _ hId hgoald hid hst
          by_cases hgoal' : goal (x.state (n + d + 1))
          · exact Or.inl ⟨n + d + 1, by omega, hgoal'⟩
          · rcases hnext.resolve_left hgoal' with hlt | ⟨heq, hi'⟩
            · exact Or.inr (Or.inl ⟨n + d + 1, by omega, hI', hrank ▸ hlt⟩)
            · exact Or.inr (Or.inr ⟨hI', hgoal', hi', heq.trans hrank⟩)

/-- **The response rule**: let no step short of the goal raise the rank; let there always be a
condition that is there until the rank is lowered; and let no such condition hold for ever. Then the
goal comes. -/
theorem eventually [WellFoundedLT W] (I goal : σ → Prop) (rank : σ → W) (helpful : ι → σ → Prop)
    (hstep : ∀ i s a t, I s → ¬ goal s → helpful i s → step s a t →
      I t ∧ (goal t ∨ rank t < rank s ∨ rank t = rank s ∧ helpful i t))
    (hlive : ∀ s, I s → ¬ goal s → ∃ i, helpful i s)
    (hjust : ∀ i n, helpful i (x.state n) → ∃ m, n ≤ m ∧ ¬ helpful i (x.state m))
    (hI : I (x.state n)) : ∃ m, n ≤ m ∧ goal (x.state m) := by
  induction hrank : rank (x.state n) using WellFoundedLT.induction generalizing n with
  | ind w ih =>
      by_cases hgoal : goal (x.state n)
      · exact ⟨n, le_rfl, hgoal⟩
      · obtain ⟨i, hi⟩ := hlive _ hI hgoal
        obtain ⟨m, hnm, hnot⟩ := hjust i n hi
        rcases x.lasts (hstep i) hI hgoal hi (m - n) with hreached | ⟨k, hnk, hIk, hlt⟩ | ⟨-, -, hm, -⟩
        · exact hreached
        · obtain ⟨l, hkl, hl⟩ := ih _ (hrank ▸ hlt) hIk rfl
          exact ⟨l, hnk.trans hkl, hl⟩
        · rw [Nat.add_sub_cancel' hnm] at hm
          exact absurd hm hnot

end rank

/-- A step in front of a behaviour. -/
def cons {s : σ} {a : α} (h : step s a (x.state 0)) : Behaviour step where
  state
    | 0 => s
    | n + 1 => x.state n
  move
    | 0 => Or.inr ⟨a, h⟩
    | n + 1 => x.move n

/-- A run in front of a behaviour, from each state of which the rest of the run leads on. -/
theorem exists_after {s t : σ} {as : List α} (hrun : Run step s as t) (ht : t = x.state 0) :
    ∃ y : Behaviour step, y.state 0 = s ∧ (∀ n, y.state (as.length + n) = x.state n) ∧
      ∀ n, n < as.length → Run step (y.state n) (as.drop n) t := by
  induction hrun with
  | nil s => exact ⟨x, ht.symm, fun n => by simp, fun n hn => absurd hn (Nat.not_lt_zero n)⟩
  | @cons s t u a as head tail ih =>
      obtain ⟨y, hzero, hstate, hrest⟩ := ih ht
      refine ⟨y.cons (s := s) (a := a) (by rw [hzero]; exact head), rfl, fun n => ?_, fun n hn => ?_⟩
      · rw [List.length_cons, Nat.add_right_comm]
        exact hstate n
      · cases n with
        | zero => exact Run.cons head tail
        | succ n => exact hrest n (Nat.lt_of_succ_lt_succ hn)

/-- The steps one after the other, and then none. -/
def ofLabels {enabled : σ → α → Prop} {next : σ → α → σ} (s : σ) (as : List α)
    (h : AllNext next enabled s as) : Behaviour (fun s a s' => enabled s a ∧ s' = next s a) where
  state n := (as.take n).foldl next s
  move n := by
    induction as generalizing s n with
    | nil => exact Or.inl (by simp)
    | cons a as ih =>
        cases n with
        | zero => exact Or.inr ⟨a, h.1, by simp⟩
        | succ n => simpa using ih (next s a) h.2 n

/-- Behind the last step, nothing changes. -/
theorem ofLabels_state_of_le {enabled : σ → α → Prop} {next : σ → α → σ} {s : σ} {as : List α}
    (h : AllNext next enabled s as) (hn : as.length ≤ n) :
    (ofLabels s as h).state n = (ofLabels s as h).state as.length := by
  simp [ofLabels, List.take_of_length_le hn]

end Behaviour

end Transition
