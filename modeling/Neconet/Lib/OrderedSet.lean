import Mathlib.Data.List.Sort
import Mathlib.Data.List.TakeWhile
import Mathlib.Tactic

/-!
# Ordered sets

Finite sets over a linear order that are walked through in ascending order, as the list of their
elements: a `std::set`. The structure carries the order of the list.

* `OrderedSet.insert`: the set with the element, and whether it is new.
* `OrderedSet.begin?`: the smallest element.
* `OrderedSet.below`, `OrderedSet.eraseBelow`: the elements in front of the lower bound of `a`, and
  the set without them; `OrderedSet.below_eq_filter` says which these are.
-/

/-- A finite set, as the ascending list of its elements. -/
structure OrderedSet (α : Type*) [LinearOrder α] where
  /-- The elements in ascending order. -/
  toList : List α
  /-- The list ascends. -/
  sorted : toList.Pairwise (· < ·)

namespace OrderedSet

variable {α : Type*} [LinearOrder α]

instance : Membership α (OrderedSet α) := ⟨fun s a => a ∈ s.toList⟩

/-- Membership is membership in the list. -/
theorem mem_iff {s : OrderedSet α} {a : α} : a ∈ s ↔ a ∈ s.toList := Iff.rfl

instance (s : OrderedSet α) (a : α) : Decidable (a ∈ s) := decidable_of_iff _ mem_iff.symm

/-- The empty set. -/
def empty : OrderedSet α := ⟨[], List.Pairwise.nil⟩

/-- No element is there twice. -/
theorem nodup (s : OrderedSet α) : s.toList.Nodup := s.sorted.imp fun h => h.ne

/-! ## The smallest element -/

/-- The smallest element, if there is one. -/
def begin? (s : OrderedSet α) : Option α := s.toList.head?

/-- No smallest element, no element. -/
theorem begin?_eq_none {s : OrderedSet α} : s.begin? = none ↔ s.toList = [] :=
  List.head?_eq_none_iff

/-- The smallest element is one, and no other is smaller. -/
theorem begin?_eq_some {s : OrderedSet α} {a : α} :
    s.begin? = some a ↔ a ∈ s ∧ ∀ b ∈ s, a ≤ b := by
  obtain ⟨l, hsorted⟩ := s
  cases l with
  | nil => simp [begin?, mem_iff]
  | cons c l =>
      have hlt : ∀ b ∈ l, c < b := fun b hb => List.rel_of_pairwise_cons hsorted hb
      simp only [begin?, mem_iff, List.head?_cons, Option.some.injEq, List.mem_cons]
      constructor
      · rintro rfl
        refine ⟨Or.inl rfl, fun b hb => ?_⟩
        rcases hb with rfl | hb
        · exact le_rfl
        · exact (hlt b hb).le
      · rintro ⟨rfl | ha, hle⟩
        · rfl
        · exact absurd (hlt a ha) (not_lt.mpr (hle c (Or.inl rfl)))

/-! ## Insertion -/

/-- An element that is not there, in its place in the list. -/
theorem sorted_orderedInsert {l : List α} (hl : l.Pairwise (· < ·)) {a : α} (ha : a ∉ l) :
    (l.orderedInsert (· ≤ ·) a).Pairwise (· < ·) := by
  have hle : (l.orderedInsert (· ≤ ·) a).Pairwise (· ≤ ·) :=
    (hl.imp fun h => h.le).orderedInsert a l
  have hnodup : (l.orderedInsert (· ≤ ·) a).Nodup := by
    rw [(List.perm_orderedInsert (· ≤ ·) a l).nodup_iff]
    exact List.nodup_cons.mpr ⟨ha, hl.imp fun h => h.ne⟩
  exact (hle.and hnodup).imp fun h => lt_of_le_of_ne h.1 h.2

/-- The set with the element `a`, and whether `a` was not there before. -/
def insert (s : OrderedSet α) (a : α) : OrderedSet α × Bool :=
  if ha : a ∈ s.toList then (s, false)
  else (⟨s.toList.orderedInsert (· ≤ ·) a, sorted_orderedInsert s.sorted ha⟩, true)

/-- A new element is inserted. -/
theorem insert_snd {s : OrderedSet α} {a : α} : (s.insert a).2 = true ↔ a ∉ s := by
  by_cases ha : a ∈ s.toList <;> simp [insert, mem_iff, ha]

/-- The elements after the insertion. -/
theorem mem_insert {s : OrderedSet α} {a b : α} : b ∈ (s.insert a).1 ↔ b = a ∨ b ∈ s := by
  by_cases ha : a ∈ s.toList
  · have hb : b = a → b ∈ s.toList := by
      rintro rfl
      exact ha
    simpa [insert, mem_iff, ha] using hb
  · simp [insert, mem_iff, ha]

/-- The list after the insertion of a new element. -/
theorem toList_insert_perm {s : OrderedSet α} {a : α} (ha : a ∉ s) :
    (s.insert a).1.toList.Perm (a :: s.toList) := by
  rw [insert, dif_neg (show a ∉ s.toList from ha)]
  exact List.perm_orderedInsert (· ≤ ·) a s.toList

/-- A new element that is smaller than all others is the smallest. -/
theorem begin?_insert_of_lt {s : OrderedSet α} {a : α} (ha : ∀ b ∈ s, a < b) :
    (s.insert a).1.begin? = some a := by
  refine begin?_eq_some.mpr ⟨mem_insert.mpr (Or.inl rfl), fun b hb => ?_⟩
  rcases mem_insert.mp hb with rfl | hb
  · exact le_rfl
  · exact (ha b hb).le

/-! ## The lower bound -/

/-- The elements in front of the lower bound of `a`, in ascending order. -/
def below (s : OrderedSet α) (a : α) : List α := s.toList.takeWhile (· < a)

/-- The set without the elements in front of the lower bound of `a`. -/
def eraseBelow (s : OrderedSet α) (a : α) : OrderedSet α :=
  ⟨s.toList.dropWhile (· < a), s.sorted.sublist (List.dropWhile_sublist _)⟩

/-- The two parts are the whole. -/
theorem below_append_eraseBelow (s : OrderedSet α) (a : α) :
    s.below a ++ (s.eraseBelow a).toList = s.toList :=
  List.takeWhile_append_dropWhile

/-- The elements in front of the lower bound of `a` are smaller than `a`. -/
theorem lt_of_mem_below {s : OrderedSet α} {a b : α} (hb : b ∈ s.below a) : b < a := by
  simpa using List.mem_takeWhile_imp hb

/-- The elements from the lower bound of `a` on are not smaller than `a`. -/
theorem le_of_mem_eraseBelow {s : OrderedSet α} {a b : α} (hb : b ∈ s.eraseBelow a) : a ≤ b := by
  obtain ⟨l, hsorted⟩ := s
  rw [mem_iff, eraseBelow] at hb
  induction l with
  | nil => cases hb
  | cons c l ih =>
      by_cases hc : c < a
      · simp only [List.dropWhile_cons, hc, decide_true, if_true] at hb
        exact ih (List.Pairwise.of_cons hsorted) hb
      · simp only [List.dropWhile_cons, hc, decide_false, Bool.false_eq_true, if_false,
          List.mem_cons] at hb
        rcases hb with rfl | hb
        · exact not_lt.mp hc
        · exact (not_lt.mp hc).trans (List.rel_of_pairwise_cons hsorted hb).le

/-- The elements from the lower bound of `a` on are those not smaller than `a`. -/
theorem mem_eraseBelow {s : OrderedSet α} {a b : α} : b ∈ s.eraseBelow a ↔ b ∈ s ∧ a ≤ b := by
  have hwhole : b ∈ s ↔ b ∈ s.below a ∨ b ∈ s.eraseBelow a := by
    rw [mem_iff, ← below_append_eraseBelow s a, List.mem_append, mem_iff]
  constructor
  · intro hb
    exact ⟨hwhole.mpr (Or.inr hb), le_of_mem_eraseBelow hb⟩
  · rintro ⟨hb, hle⟩
    rcases hwhole.mp hb with hbelow | hrest
    · exact absurd hle (not_le.mpr (lt_of_mem_below hbelow))
    · exact hrest

/-- The elements in front of the lower bound of `a` are those smaller than `a`. -/
theorem below_eq_filter (s : OrderedSet α) (a : α) :
    s.below a = s.toList.filter fun b => decide (b < a) := by
  have hbelow : (s.below a).filter (fun b => decide (b < a)) = s.below a := by
    rw [List.filter_eq_self]
    intro b hb
    simpa using lt_of_mem_below hb
  have hrest : (s.eraseBelow a).toList.filter (fun b => decide (b < a)) = [] := by
    rw [List.filter_eq_nil_iff]
    intro b hb
    simpa using le_of_mem_eraseBelow hb
  rw [← below_append_eraseBelow s a, List.filter_append, hbelow, hrest, List.append_nil]

end OrderedSet
