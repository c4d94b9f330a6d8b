import Mathlib.Data.List.Basic
import Mathlib.Tactic

/-!
# Windows of an array and writes into it

An array is a list of cells, a window of it the cells between two positions, and a block copy
into it an `overwrite` of the cells from a position on. This file says how windows, overwrites
and resizing go together, under the bounds a caller has to check.

* `window l a b`: the cells of `l` at the positions `a ≤ i < b`.
* `overwrite l pos d`: the array `l` with the cells from `pos` on replaced by `d`.
* `resize l n fill`: the first `n` cells of `l`, filled up with `fill`.
-/

namespace Slice

variable {α : Type*}

/-- The cells of `l` at the positions `a ≤ i < b`. -/
def window (l : List α) (a b : ℕ) : List α := (l.take b).drop a

/-- The array `l` with the cells from `pos` on replaced by those of `d`. -/
def overwrite (l : List α) (pos : ℕ) (d : List α) : List α :=
  l.take pos ++ d ++ l.drop (pos + d.length)

/-- The first `n` cells of `l`, filled up to length `n` with `fill`. -/
def resize (l : List α) (n : ℕ) (fill : α) : List α :=
  l.take n ++ List.replicate (n - l.length) fill

/-! ## Lengths -/

/-- The length of a window inside the array. -/
theorem length_window {l : List α} {a b : ℕ} (hb : b ≤ l.length) :
    (window l a b).length = b - a := by
  simp [window, Nat.min_eq_left hb]

/-- An overwrite inside the array keeps its length. -/
theorem length_overwrite {l d : List α} {pos : ℕ} (h : pos + d.length ≤ l.length) :
    (overwrite l pos d).length = l.length := by
  simp [overwrite]
  omega

/-- A resized array has the requested length. -/
@[simp] theorem length_resize (l : List α) (n : ℕ) (fill : α) :
    (resize l n fill).length = n := by
  simp [resize]
  omega

/-! ## Windows -/

/-- An empty window. -/
@[simp] theorem window_self (l : List α) (a : ℕ) : window l a a = [] := by
  simp [window]

/-- Dropping from a window moves its left end. -/
theorem drop_window (l : List α) (a b n : ℕ) : (window l a b).drop n = window l (a + n) b := by
  simp [window]

/-! ## Windows of an overwritten or resized array -/

/-- A block written where a window ends is appended to the window. -/
theorem window_overwrite_append {l d : List α} {a pos : ℕ} (ha : a ≤ pos)
    (hpos : pos ≤ l.length) :
    window (overwrite l pos d) a (pos + d.length) = window l a pos ++ d := by
  have hpre : (l.take pos ++ d).length = pos + d.length := by
    simp [Nat.min_eq_left hpos]
  have htake : (overwrite l pos d).take (pos + d.length) = l.take pos ++ d := by
    unfold overwrite
    rw [← hpre, List.take_left]
  have hdrop : a - (l.take pos).length = 0 := by
    rw [List.length_take, Nat.min_eq_left hpos]
    omega
  unfold window
  rw [htake, List.drop_append, hdrop, List.drop_zero]

/-- A block written alone is read back. -/
theorem window_overwrite_self {l d : List α} {pos : ℕ} (hpos : pos ≤ l.length) :
    window (overwrite l pos d) pos (pos + d.length) = d := by
  rw [window_overwrite_append le_rfl hpos, window_self, List.nil_append]

/-- A block written up to where a window begins is put in front of the window. -/
theorem window_overwrite_prepend {l d : List α} {pos b : ℕ} (hb : pos + d.length ≤ b)
    (hpos : pos ≤ l.length) :
    window (overwrite l pos d) pos b = d ++ window l (pos + d.length) b := by
  have hlen : (l.take pos).length = pos := by
    simp [Nat.min_eq_left hpos]
  have htake : (overwrite l pos d).take b =
      l.take pos ++ (d ++ (l.take b).drop (pos + d.length)) := by
    unfold overwrite
    rw [List.append_assoc, List.take_append, List.take_append, hlen, List.take_take,
      List.take_of_length_le (show d.length ≤ b - pos by omega), List.take_drop,
      Nat.min_eq_right (show pos ≤ b by omega),
      show pos + d.length + (b - pos - d.length) = b by omega]
  unfold window
  rw [htake, List.drop_append, hlen, Nat.sub_self, List.drop_zero,
    List.drop_eq_nil_of_le hlen.le, List.nil_append]

/-- The cells of a window. -/
theorem getElem?_window (l : List α) (a b i : ℕ) :
    (window l a b)[i]? = if a + i < b then l[a + i]? else none := by
  rw [window, List.getElem?_drop, List.getElem?_take]

/-- The cells of a resized array. -/
theorem getElem?_resize (l : List α) (n : ℕ) (fill : α) (i : ℕ) :
    (resize l n fill)[i]? = if i < n then some (l[i]?.getD fill) else none := by
  rw [resize, List.getElem?_append, List.getElem?_take, List.getElem?_replicate, List.length_take]
  by_cases hn : i < n
  · by_cases hl : i < l.length
    · rw [if_pos (lt_min hn hl), if_pos hn, if_pos hn, List.getElem?_eq_getElem hl, Option.getD_some]
    · have hnone : l[i]? = none := List.getElem?_eq_none (not_lt.mp hl)
      rw [if_neg (by omega), if_pos (by omega), if_pos hn, hnone, Option.getD_none]
  · rw [if_neg (by omega), if_neg (by omega), if_neg hn]

/-- What a window of a resized array holds depends on that window of the array alone. -/
theorem window_resize_congr {l l' : List α} {a b : ℕ} (h : window l a b = window l' a b) (n : ℕ)
    (fill : α) : window (resize l n fill) a b = window (resize l' n fill) a b := by
  refine List.ext_getElem? fun i => ?_
  rw [getElem?_window, getElem?_window, getElem?_resize, getElem?_resize]
  by_cases hi : a + i < b
  · have hcell := congrArg (fun w => w[i]?) h
    simp only [getElem?_window, if_pos hi] at hcell
    rw [hcell]
  · rw [if_neg hi, if_neg hi]

/-- Resizing keeps the windows that lie inside both the old and the new array. -/
theorem window_resize {l : List α} {a b n : ℕ} {fill : α} (hn : b ≤ n) (hb : b ≤ l.length) :
    window (resize l n fill) a b = window l a b := by
  have hlen : b ≤ (l.take n).length := by
    rw [List.length_take]
    exact le_min hn hb
  unfold window resize
  rw [List.take_append_of_le_length hlen, List.take_take, Nat.min_eq_left hn]

end Slice
