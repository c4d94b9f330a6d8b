import Mathlib.Data.List.Basic
import Mathlib.Tactic

/-!
# Removal by swapping with the last entry

An entry of an array is removed in constant time by exchanging it with the last one and dropping
the last position. This file says which entry is found where afterwards.

* `iterSwap l i j`: the array with the entries at `i` and `j` exchanged.
* `swapRemove l i`: the entry at `i` exchanged with the last one, which is dropped.
* `getElem?_swapRemove_self`, `getElem?_swapRemove_of_ne`: the last entry has moved to `i`, every
  other entry is where it was.
-/

namespace SwapRemove

variable {α : Type*}

/-- The array with the entries at `i` and `j` exchanged; unchanged if one of them is no position. -/
def iterSwap (l : List α) (i j : ℕ) : List α :=
  match l[i]?, l[j]? with
  | some x, some y => (l.set i y).set j x
  | _, _ => l

/-- The array without its entry at `i`, whose place the last entry takes. -/
def swapRemove (l : List α) (i : ℕ) : List α := (iterSwap l i (l.length - 1)).dropLast

/-- Exchanging entries keeps the length. -/
@[simp] theorem length_iterSwap (l : List α) (i j : ℕ) : (iterSwap l i j).length = l.length := by
  unfold iterSwap
  split <;> simp

/-- Removal makes the array one shorter. -/
@[simp] theorem length_swapRemove (l : List α) (i : ℕ) :
    (swapRemove l i).length = l.length - 1 := by
  simp [swapRemove]

section

variable {l : List α} {i j : ℕ}

/-- The entries of an array with two entries exchanged. -/
theorem getElem?_iterSwap (hi : i < l.length) (hj : j < l.length) (k : ℕ) :
    (iterSwap l i j)[k]? = if k = j then l[i]? else if k = i then l[j]? else l[k]? := by
  unfold iterSwap
  rw [List.getElem?_eq_getElem hi, List.getElem?_eq_getElem hj]
  simp only [List.getElem?_set, List.length_set]
  by_cases hkj : j = k
  · subst hkj
    simp [hj]
  · by_cases hki : i = k
    · subst hki
      simp [hkj, Ne.symm hkj, hi]
    · simp [hkj, hki, Ne.symm hkj, Ne.symm hki]

/-- The place of the removed entry is taken by the last one. -/
theorem getElem?_swapRemove_self (hi : i < l.length - 1) :
    (swapRemove l i)[i]? = l[l.length - 1]? := by
  have hne : i ≠ l.length - 1 := by omega
  unfold swapRemove
  rw [List.getElem?_dropLast, length_iterSwap, if_pos hi,
    getElem?_iterSwap (by omega) (by omega), if_neg hne, if_pos rfl]

/-- An entry that is neither the removed one nor the last one stays where it is. -/
theorem getElem?_swapRemove_of_ne (hi : i < l.length) {k : ℕ} (hki : k ≠ i)
    (hk : k < l.length - 1) : (swapRemove l i)[k]? = l[k]? := by
  have hne : k ≠ l.length - 1 := by omega
  unfold swapRemove
  rw [List.getElem?_dropLast, length_iterSwap, if_pos hk,
    getElem?_iterSwap hi (by omega), if_neg hne, if_neg hki]

/-- Removing the last entry is dropping it. -/
theorem swapRemove_last : swapRemove l (l.length - 1) = l.dropLast := by
  apply List.ext_getElem?
  intro k
  unfold swapRemove
  rw [List.getElem?_dropLast, List.getElem?_dropLast, length_iterSwap]
  by_cases hk : k < l.length - 1
  · have hlast : l.length - 1 < l.length := by omega
    rw [if_pos hk, if_pos hk, getElem?_iterSwap hlast hlast, if_neg hk.ne, if_neg hk.ne]
  · rw [if_neg hk, if_neg hk]

end

end SwapRemove
