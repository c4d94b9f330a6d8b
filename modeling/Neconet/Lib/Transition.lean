import Mathlib.Data.List.Basic
import Mathlib.Tactic

/-!
# Runs of labelled transition relations

A transition relation is a function `step : σ → α → σ → Prop`: `step s a t` says that the label
`a` may lead from `s` to `t`. This file has the runs of such a relation and the rules by which
properties of single steps become properties of runs.

* `Run step s as t`: the labels `as` lead from `s` to `t`.
* `Along step ok s as`: every step of a run from `s` along `as` meets `ok` in the state in which
  it is taken. Preconditions of calls and conditions on the environment are stated with it.
* `along_label_iff`: where every step can be taken, conditions on the labels alone.
* `Run.invariant`, `Run.invariant_along`, `Run.invariant_avoiding`: a property kept by every step
  (that meets `ok`, that is not labelled `b`) holds at the end of every run (whose steps all meet
  `ok`, that takes no step labelled `b`).
* `good_of_along`: when the steps that meet `ok` are possible and good, so are all the steps of a
  run that meets `ok` all along.
* `along_iff_good`: when a step that does not meet `ok` is not good, every step of a run is good
  exactly if all its steps meet `ok`.
* `execute`, `AllNext`: runs of a relation that is given by a decidable condition and a function,
  and conditions along them, can be computed.
* `Run.simulate`, `Run.project`: when a relation does what another one does, a step of the first
  being any number of steps of the second, its runs are runs of the second; the states of the two
  are related, or those of the second are a function of those of the first, which keep an invariant.
-/

namespace Transition

variable {σ α : Type*}

/-! ## Runs -/

/-- `Run step s as t`: the labels `as`, in this order, lead from `s` to `t`. -/
inductive Run (step : σ → α → σ → Prop) : σ → List α → σ → Prop
  | nil (s : σ) : Run step s [] s
  | cons {s t u : σ} {a : α} {as : List α} (head : step s a t) (tail : Run step t as u) :
      Run step s (a :: as) u

variable {step : σ → α → σ → Prop} {s t u : σ} {a : α} {as bs : List α}

/-- The empty run stays where it is. -/
@[simp] theorem run_nil_iff : Run step s [] t ↔ s = t := by
  constructor
  · rintro ⟨⟩
    rfl
  · rintro rfl
    exact Run.nil s

/-- A nonempty run is a step and a run. -/
theorem run_cons_iff : Run step s (a :: as) u ↔ ∃ t, step s a t ∧ Run step t as u := by
  constructor
  · rintro (_ | ⟨head, tail⟩)
    exact ⟨_, head, tail⟩
  · rintro ⟨t, head, tail⟩
    exact Run.cons head tail

/-- A single step is a run. -/
theorem Run.single (h : step s a t) : Run step s [a] t := Run.cons h (Run.nil t)

/-- Two runs, one behind the other, are a run. -/
theorem Run.append (h : Run step s as t) (h' : Run step t bs u) : Run step s (as ++ bs) u := by
  induction h with
  | nil s => exact h'
  | cons head tail ih => exact Run.cons head (ih h')

/-- Where a step leads to one state at most, so does a run. -/
theorem Run.unique {t' : σ} (hdet : ∀ s a t t', step s a t → step s a t' → t = t')
    (h : Run step s as t) (h' : Run step s as t') : t = t' := by
  induction h with
  | nil s => exact run_nil_iff.mp h'
  | cons head tail ih =>
      obtain ⟨v, hv, hrun⟩ := run_cons_iff.mp h'
      rw [hdet _ _ _ _ hv head] at hrun
      exact ih hrun

/-! ## Conditions along a run -/

/-- Every step taken along `as` from `s` meets `ok` in the state it is taken from. -/
def Along (step : σ → α → σ → Prop) (ok : σ → α → Prop) (s : σ) (as : List α) : Prop :=
  ∀ done a rest t, as = done ++ a :: rest → Run step s done t → ok t a

variable {ok : σ → α → Prop}

/-- No step, no condition. -/
@[simp] theorem along_nil : Along step ok s [] := by
  intro done a rest t h
  simp at h

/-- Conditions along a run that starts with `a`. -/
theorem along_cons_iff :
    Along step ok s (a :: as) ↔ ok s a ∧ ∀ t, step s a t → Along step ok t as := by
  constructor
  · intro h
    refine ⟨h [] a as s rfl (Run.nil s), fun t ha done b rest u hb hrun => ?_⟩
    exact h (a :: done) b rest u (by rw [hb, List.cons_append]) (Run.cons ha hrun)
  · rintro ⟨ha, htail⟩ done b rest u hb hrun
    rcases done with _ | ⟨c, done⟩
    · rw [List.nil_append, List.cons.injEq] at hb
      rw [run_nil_iff] at hrun
      rw [← hb.1, ← hrun]
      exact ha
    · rw [List.cons_append, List.cons.injEq] at hb
      obtain ⟨t, hc, hdone⟩ := run_cons_iff.mp hrun
      rw [← hb.1] at hc
      exact htail t hc done b rest u hb.2 hdone

/-- A condition along `as` and behind it along `bs` is one along `as ++ bs`. -/
theorem Along.append (h : Along step ok s as) (h' : ∀ t, Run step s as t → Along step ok t bs) :
    Along step ok s (as ++ bs) := by
  induction as generalizing s with
  | nil => exact h' s (Run.nil s)
  | cons a as ih =>
      obtain ⟨ha, htail⟩ := along_cons_iff.mp h
      refine along_cons_iff.mpr ⟨ha, fun t ht => ?_⟩
      exact ih (htail t ht) fun u hu => h' u (Run.cons ht hu)

/-- A condition along `as ++ bs` is one along `as`. -/
theorem Along.left (h : Along step ok s (as ++ bs)) : Along step ok s as := by
  intro done a rest t has hrun
  exact h done a (rest ++ bs) t (by simp [has]) hrun

/-- A condition along a run holds of its last step. -/
theorem Along.last (h : Along step ok s (as ++ [a])) (hrun : Run step s as t) : ok t a :=
  h as a [] t rfl hrun

/-- A condition along a run that implies another. -/
theorem Along.mono {ok' : σ → α → Prop} (h : Along step ok s as) (himp : ∀ t a, ok t a → ok' t a) :
    Along step ok' s as :=
  fun done a rest t has hrun => himp t a (h done a rest t has hrun)

/-- Two conditions along a run are one. -/
theorem Along.and {ok' : σ → α → Prop} (h : Along step ok s as) (h' : Along step ok' s as) :
    Along step (fun t a => ok t a ∧ ok' t a) s as :=
  fun done a rest t has hrun => ⟨h done a rest t has hrun, h' done a rest t has hrun⟩

/-- Where every step can be taken, a condition on the labels alone holds along a run exactly if it
holds of each label. -/
theorem along_label_iff {ok : α → Prop} (htotal : ∀ s a, ∃ t, step s a t) :
    Along step (fun _ a => ok a) s as ↔ ∀ a ∈ as, ok a := by
  induction as generalizing s with
  | nil => simp
  | cons a as ih =>
      rw [along_cons_iff, List.forall_mem_cons]
      refine and_congr_right fun _ => ⟨?_, ?_⟩
      · intro h
        obtain ⟨t, ht⟩ := htotal s a
        exact ih.mp (h t ht)
      · intro h t _
        exact ih.mpr h

/-! ## Invariants -/

section invariants

variable {I : σ → Prop}

/-- **The invariant rule under a condition**: what every step that meets `ok` keeps holds at the
end of every run whose steps all meet `ok`. -/
theorem Run.invariant_along (hstep : ∀ s a t, I s → ok s a → step s a t → I t)
    (hrun : Run step s as t) (hok : Along step ok s as) (hs : I s) : I t := by
  induction hrun with
  | nil s => exact hs
  | cons head tail ih =>
      obtain ⟨ha, htail⟩ := along_cons_iff.mp hok
      exact ih (htail _ head) (hstep _ _ _ hs ha head)

/-- **The invariant rule**: what every step keeps holds at the end of every run. -/
theorem Run.invariant (hstep : ∀ s a t, I s → step s a t → I t) (hrun : Run step s as t)
    (hs : I s) : I t := by
  have htrue : Along step (fun _ _ => True) s as := fun _ _ _ _ _ _ => trivial
  exact hrun.invariant_along (fun s a t h _ ha => hstep s a t h ha) htrue hs

/-- **The invariant rule away from a label**: what every step but `b` keeps holds at the end of
every run without `b`. -/
theorem Run.invariant_avoiding {b : α} (hstep : ∀ s a t, I s → a ≠ b → step s a t → I t)
    (hrun : Run step s as t) (hb : b ∉ as) (hs : I s) : I t := by
  have havoid : Along step (fun _ a => a ≠ b) s as := by
    intro done a rest t has _ hab
    apply hb
    rw [has, hab]
    exact List.mem_append_right done List.mem_cons_self
  exact hrun.invariant_along hstep havoid hs

section good

variable {pre : σ → α → Prop} {good : σ → α → σ → Prop}

/-- **The progress rule**: when steps called as `pre` demands are possible, keep `I` and do what
`good` asks, every step of a list of labels that meets `pre` all along can be taken and is good. -/
theorem good_of_along (hkeep : ∀ s a, I s → pre s a → ∃ t, step s a t ∧ I t ∧ good s a t)
    (hpre : Along step pre s as) (hs : I s) :
    ∀ done a rest, as = done ++ a :: rest →
      ∃ t u, Run step s done t ∧ step t a u ∧ I u ∧ good t a u := by
  induction as generalizing s with
  | nil => simp
  | cons a as ih =>
      intro done b rest has
      obtain ⟨hpa, hptail⟩ := along_cons_iff.mp hpre
      obtain ⟨t, hst, ht, hgood⟩ := hkeep s a hs hpa
      rcases done with _ | ⟨c, done⟩
      · rw [List.nil_append, List.cons.injEq] at has
        rw [← has.1]
        exact ⟨s, t, Run.nil s, hst, ht, hgood⟩
      · rw [List.cons_append, List.cons.injEq] at has
        obtain ⟨v, u, hrun, hu⟩ := ih (hptail t hst) ht done b rest has.2
        rw [← has.1]
        exact ⟨v, u, Run.cons hst hrun, hu⟩

/-- **The exactness rule**: let steps that are called as `pre` demands keep `I` and do what `good`
asks if they meet `ok`, and fail or not do it if they do not. Then every step of a list of labels
can be taken and is good exactly if all its steps meet `ok`. -/
theorem along_iff_good (hdet : ∀ s a t t', step s a t → step s a t' → t = t')
    (hkeep : ∀ s a, I s → pre s a → ok s a → ∃ t, step s a t ∧ I t ∧ good s a t)
    (hbreak : ∀ s a t, I s → pre s a → ¬ ok s a → step s a t → ¬ good s a t)
    (hpre : Along step pre s as) (hs : I s) :
    Along step ok s as ↔ ∀ done a rest, as = done ++ a :: rest →
      ∃ t u, Run step s done t ∧ step t a u ∧ good t a u := by
  constructor
  · intro hok done a rest has
    obtain ⟨t, u, hrun, hst, -, hgood⟩ :=
      good_of_along (fun s a hs h => hkeep s a hs h.1 h.2) (hpre.and hok) hs done a rest has
    exact ⟨t, u, hrun, hst, hgood⟩
  · induction as generalizing s with
    | nil => simp
    | cons a as ih =>
        intro h
        obtain ⟨hpa, hptail⟩ := along_cons_iff.mp hpre
        obtain ⟨v, t, hv, hst, hgood⟩ := h [] a as rfl
        rw [run_nil_iff] at hv
        subst hv
        have hoa : ok s a := by
          by_contra hna
          exact hbreak s a t hs hpa hna hst hgood
        obtain ⟨t', hst', ht', -⟩ := hkeep s a hs hpa hoa
        refine along_cons_iff.mpr ⟨hoa, fun u hu => ?_⟩
        rw [hdet s a u t' hu hst']
        refine ih (hptail t' hst') ht' fun done b rest has => ?_
        obtain ⟨v, w, hrun, hw⟩ := h (a :: done) b rest (by rw [has, List.cons_append])
        obtain ⟨t'', hst'', hrun⟩ := run_cons_iff.mp hrun
        rw [hdet s a t'' t' hst'' hst'] at hrun
        exact ⟨v, w, hrun, hw⟩

end good

end invariants

/-! ## Execution -/

section execution

variable {enabled : σ → α → Prop} [∀ s a, Decidable (enabled s a)] {next : σ → α → σ}

/-- Take the steps one after the other, if each is enabled when its turn comes. -/
def execute (enabled : σ → α → Prop) [∀ s a, Decidable (enabled s a)] (next : σ → α → σ) (s : σ) :
    List α → Option σ
  | [] => some s
  | a :: as => if enabled s a then execute enabled next (next s a) as else none

/-- What can be executed is a run. -/
theorem run_of_execute (h : execute enabled next s as = some t) :
    Run (fun s a s' => enabled s a ∧ s' = next s a) s as t := by
  induction as generalizing s with
  | nil =>
      rw [execute, Option.some.injEq] at h
      exact run_nil_iff.mpr h
  | cons a as ih =>
      rw [execute] at h
      split_ifs at h with ha
      exact Run.cons ⟨ha, rfl⟩ (ih h)

/-- The condition holds along the steps, taken one after the other. -/
def AllNext (next : σ → α → σ) (ok : σ → α → Prop) (s : σ) : List α → Prop
  | [] => True
  | a :: as => ok s a ∧ AllNext next ok (next s a) as

instance decidableAllNext (next : σ → α → σ) (ok : σ → α → Prop) [∀ s a, Decidable (ok s a)] :
    ∀ (s : σ) (as : List α), Decidable (AllNext next ok s as)
  | _, [] => isTrue trivial
  | s, a :: as =>
      have := decidableAllNext next ok (next s a) as
      inferInstanceAs (Decidable (ok s a ∧ AllNext next ok (next s a) as))

/-- What holds along the steps, taken one after the other, holds along the run. -/
theorem along_of_allNext {enabled : σ → α → Prop} (h : AllNext next ok s as) :
    Along (fun s a s' => enabled s a ∧ s' = next s a) ok s as := by
  induction as generalizing s with
  | nil => exact along_nil
  | cons a as ih =>
      refine along_cons_iff.mpr ⟨h.1, fun t ht => ?_⟩
      rw [ht.2]
      exact ih h.2

end execution

/-! ## Simulations -/

section simulation

variable {τ β : Type*} {step' : τ → β → τ → Prop} {labels : α → List β} {s' : σ} {r : τ}

/-- **The simulation rule**: if related states stay related when a step of the one is taken as the
steps `labels` of the other, a run of the one is a run of the other. -/
theorem Run.simulate {R : σ → τ → Prop}
    (hsim : ∀ s a s' r, R s r → step s a s' → ∃ r', Run step' r (labels a) r' ∧ R s' r')
    (hrun : Run step s as s') (h : R s r) : ∃ r', Run step' r (as.flatMap labels) r' ∧ R s' r' := by
  induction hrun generalizing r with
  | nil s => exact ⟨r, Run.nil r, h⟩
  | cons head tail ih =>
      obtain ⟨u, hu, hR⟩ := hsim _ _ _ _ h head
      obtain ⟨v, hv, hR'⟩ := ih hR
      rw [List.flatMap_cons]
      exact ⟨v, hu.append hv, hR'⟩

/-- **The projection rule**: if every step keeps `I` and is, on the images under `f`, the steps
`labels`, the image of a run is a run. -/
theorem Run.project {f : σ → τ} {I : σ → Prop}
    (hstep : ∀ s a s', I s → step s a s' → I s' ∧ Run step' (f s) (labels a) (f s'))
    (hrun : Run step s as s') (hs : I s) : I s' ∧ Run step' (f s) (as.flatMap labels) (f s') := by
  have hsim : ∀ s a s' r, (I s ∧ f s = r) → step s a s' →
      ∃ r', Run step' r (labels a) r' ∧ I s' ∧ f s' = r' := by
    rintro s a s' r ⟨hI, rfl⟩ hst
    obtain ⟨hI', hrun'⟩ := hstep s a s' hI hst
    exact ⟨f s', hrun', hI', rfl⟩
  obtain ⟨r', hrun', hI', rfl⟩ := hrun.simulate hsim ⟨hs, rfl⟩
  exact ⟨hI', hrun'⟩

end simulation

end Transition
