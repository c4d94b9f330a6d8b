import Neconet.Lib.SortedText

/-!
# Conversions of `printf`

The conversions `%d`, `%wd` and `%0wd` of an integer, and the cut that `snprintf` makes.

* `zeroPadded`, `blankPadded`, `snprintf`: the conversions.
* `zeroPadded_injective`, `blankPadded_injective`: the text determines the number.
* `sorts_zeroPadded`, `sorts_blankPadded`: numbers sort as their texts, where the width is neither
  exceeded nor, without zeros, missed.
-/

namespace Printf

open SortedText

/-- `%0wd`, and `%d` for `w = 0`: the sign counts for the width. -/
def zeroPadded (w : ℕ) (n : ℤ) : List Char :=
  if n < 0 then '-' :: List.leftpad (w - 1) '0' (Nat.toDigits 10 n.natAbs)
  else List.leftpad w '0' (Nat.toDigits 10 n.natAbs)

/-- `%wd`. -/
def blankPadded (w : ℕ) (n : ℤ) : List Char := List.leftpad w ' ' (zeroPadded 0 n)

/-- `snprintf` into `nSize` bytes, a zero byte included. -/
def snprintf (nSize : ℕ) (text : List Char) : List Char := text.take (nSize - 1)

/-- A text that fits. -/
theorem snprintf_of_lt {nSize : ℕ} {text : List Char} (h : text.length < nSize) :
    snprintf nSize text = text := by
  apply List.take_of_length_le
  omega

/-! ## The digits -/

/-- Leading zeros do not change the value. -/
theorem ofDigitChars_leftpad (w n : ℕ) :
    Nat.ofDigitChars 10 (List.leftpad w '0' (Nat.toDigits 10 n)) 0 = n := by
  rw [List.leftpad, Nat.ofDigitChars_append, Nat.ofDigitChars_replicate_zero, Nat.mul_zero,
    Nat.ofDigitChars_ten_toDigits]

/-- The characters of a padded number. -/
theorem isDigit_of_mem_leftpad {w n : ℕ} {ch : Char}
    (h : ch ∈ List.leftpad w '0' (Nat.toDigits 10 n)) : ch.isDigit = true := by
  rcases List.mem_append.mp h with h | h
  · rw [List.eq_of_mem_replicate h]
    rfl
  · exact Nat.isDigit_of_mem_toDigits (by decide) le_rfl h

/-- The characters of an integer. -/
theorem of_mem_zeroPadded {w : ℕ} {n : ℤ} {ch : Char} (h : ch ∈ zeroPadded w n) :
    ch = '-' ∨ ch.isDigit = true := by
  unfold zeroPadded at h
  split_ifs at h with hneg
  · rcases List.mem_cons.mp h with h | h
    · exact Or.inl h
    · exact Or.inr (isDigit_of_mem_leftpad h)
  · exact Or.inr (isDigit_of_mem_leftpad h)

/-- A minus sign stands in front of negative numbers only. -/
theorem minus_mem_zeroPadded {w : ℕ} {n : ℤ} : '-' ∈ zeroPadded w n ↔ n < 0 := by
  unfold zeroPadded
  split_ifs with hneg
  · exact ⟨fun _ => hneg, fun _ => List.mem_cons_self⟩
  · refine ⟨fun h => ?_, fun h => absurd h hneg⟩
    have hdigit := isDigit_of_mem_leftpad h
    exact absurd hdigit (by decide)

/-- **The text determines the number.** -/
theorem zeroPadded_injective (w : ℕ) : Function.Injective (zeroPadded w) := by
  intro m n h
  have hsign : m < 0 ↔ n < 0 := by
    rw [← minus_mem_zeroPadded (w := w), h, minus_mem_zeroPadded]
  have hvalue : ∀ v, List.leftpad v '0' (Nat.toDigits 10 m.natAbs) =
      List.leftpad v '0' (Nat.toDigits 10 n.natAbs) → m.natAbs = n.natAbs := by
    intro v heq
    have hm := ofDigitChars_leftpad v m.natAbs
    rwa [heq, ofDigitChars_leftpad, eq_comm] at hm
  unfold zeroPadded at h
  by_cases hm : m < 0
  · rw [if_pos hm, if_pos (hsign.mp hm)] at h
    have habs := hvalue _ (List.cons.inj h).2
    have hn := hsign.mp hm
    omega
  · rw [if_neg hm, if_neg (mt hsign.mpr hm)] at h
    have habs := hvalue _ h
    have hn := mt hsign.mpr hm
    omega

/-- The text behind the blanks. -/
theorem dropWhile_blankPadded (w : ℕ) (n : ℤ) :
    (blankPadded w n).dropWhile (· = ' ') = zeroPadded 0 n := by
  have hblanks : ∀ ch ∈ List.replicate (w - (zeroPadded 0 n).length) ' ', decide (ch = ' ') = true := by
    intro ch hch
    rw [List.eq_of_mem_replicate hch]
    rfl
  have hrest : ∀ ch ∈ zeroPadded 0 n, ¬ decide (ch = ' ') = true := by
    intro ch hch heq
    rw [of_decide_eq_true heq] at hch
    rcases of_mem_zeroPadded hch with h | h <;> revert h <;> decide
  rw [blankPadded, List.leftpad, List.dropWhile_append_of_pos hblanks]
  rcases hnum : zeroPadded 0 n with _ | ⟨ch, rest⟩
  · rfl
  · rw [hnum] at hrest
    exact List.dropWhile_cons_of_neg (hrest ch List.mem_cons_self)

/-- **The text determines the number**, with blanks too. -/
theorem blankPadded_injective (w : ℕ) : Function.Injective (blankPadded w) := by
  intro m n h
  apply zeroPadded_injective 0
  rw [← dropWhile_blankPadded w m, h, dropWhile_blankPadded]

/-! ## Lengths -/

/-- The digits of a number below `10 ^ w`. -/
theorem length_leftpad_toDigits_le {w n : ℕ} (hw : 0 < w) (hn : n < 10 ^ w) (v : ℕ) :
    (List.leftpad v '0' (Nat.toDigits 10 n)).length ≤ max v w := by
  rw [List.length_leftpad]
  exact max_le_max le_rfl ((Nat.length_toDigits_le_iff (by decide) hw).mpr hn)

/-- A number of up to `w` digits takes up to `w` places, and one for the sign. -/
theorem length_zeroPadded_le {w : ℕ} {n : ℤ} (hw : 0 < w) (hn : n.natAbs < 10 ^ w) {v : ℕ}
    (hv : v ≤ w) : (zeroPadded v n).length ≤ w + 1 := by
  have hdigits : ∀ u, u ≤ w → (List.leftpad u '0' (Nat.toDigits 10 n.natAbs)).length ≤ w := by
    intro u hu
    have hlen := length_leftpad_toDigits_le hw hn u
    rwa [max_eq_right hu] at hlen
  unfold zeroPadded
  split_ifs with hneg
  · rw [List.length_cons]
    exact Nat.succ_le_succ (hdigits _ (by omega))
  · exact (hdigits v hv).trans (Nat.le_succ w)

/-- With blanks in front. -/
theorem length_blankPadded_le {v w : ℕ} {n : ℤ} (hw : 0 < w) (hn : n.natAbs < 10 ^ w) (hv : v ≤ w) :
    (blankPadded v n).length ≤ w + 1 := by
  rw [blankPadded, List.length_leftpad]
  exact max_le (hv.trans (Nat.le_succ w)) (length_zeroPadded_le hw hn (Nat.zero_le w))

/-- Without a sign, and within the width. -/
theorem zeroPadded_eq_fixed {w : ℕ} {n : ℤ} (hw : 0 < w) (h0 : 0 ≤ n) (hn : n < 10 ^ w) :
    zeroPadded w n = fixed w n.toNat := by
  have habs : n.natAbs = n.toNat := by omega
  have hlt : n.toNat < 10 ^ w := by
    apply (Int.toNat_lt h0).mpr
    rwa [Nat.cast_pow]
  rw [zeroPadded, if_neg (not_lt.mpr h0), habs, leftpad_toDigits hw hlt]

/-- Nothing is added to a text that fills the width. -/
theorem leftpad_of_length_le {w : ℕ} {text : List Char} (h : w ≤ text.length) (pad : Char) :
    List.leftpad w pad text = text := by
  rw [List.leftpad, Nat.sub_eq_zero_of_le h, List.replicate_zero, List.nil_append]

/-- A number that fills the width. -/
theorem zeroPadded_zero_eq_fixed {w : ℕ} {n : ℤ} (hlow : 10 ^ w ≤ n) (hn : n < 10 ^ (w + 1)) :
    zeroPadded 0 n = fixed (w + 1) n.toNat := by
  have h0 : 0 ≤ n := (pow_nonneg (by norm_num) w).trans hlow
  have hlen : w + 1 ≤ (Nat.toDigits 10 n.natAbs).length := by
    by_contra hshort
    have hle : (Nat.toDigits 10 n.natAbs).length ≤ w := by omega
    have hpos := Nat.length_toDigits_pos (b := 10) (n := n.natAbs)
    have hlt := (Nat.length_toDigits_le_iff (by decide) (hpos.trans_le hle)).mp hle
    have hcast : ((n.natAbs : ℕ) : ℤ) < 10 ^ w := by exact_mod_cast hlt
    rw [Int.natAbs_of_nonneg h0] at hcast
    exact absurd hlow (not_le.mpr hcast)
  rw [← zeroPadded_eq_fixed (Nat.succ_pos w) h0 hn, zeroPadded, zeroPadded, if_neg (not_lt.mpr h0),
    leftpad_of_length_le (Nat.zero_le _), if_neg (not_lt.mpr h0), leftpad_of_length_le hlen]

/-! ## Order -/

/-- Numbers that are not negative sort as integers. -/
theorem strictMonoOn_toNat : StrictMonoOn Int.toNat {n | 0 ≤ n} := by
  intro a ha b hb hlt
  exact (Int.toNat_lt_toNat (lt_of_le_of_lt ha hlt)).mpr hlt

/-- **Numbers with leading zeros sort**, up to the width. -/
theorem sorts_zeroPadded {w : ℕ} (hw : 0 < w) : Sorts (zeroPadded w) {n | 0 ≤ n ∧ n < 10 ^ w} w := by
  have hsorts := (sorts_fixed w).comp (S := {n : ℤ | 0 ≤ n ∧ n < 10 ^ w})
    (strictMonoOn_toNat.mono fun _ hn => hn.1) fun n hn => by
      apply (Int.toNat_lt hn.1).mpr
      simpa using hn.2
  exact hsorts.congr fun n hn => zeroPadded_eq_fixed hw hn.1 hn.2

/-- **Numbers of `w + 1` digits sort.** -/
theorem sorts_zeroPadded_zero (w : ℕ) :
    Sorts (zeroPadded 0) {n | 10 ^ w ≤ n ∧ n < 10 ^ (w + 1)} (w + 1) := by
  have hnonneg : ∀ n ∈ {n : ℤ | 10 ^ w ≤ n ∧ n < 10 ^ (w + 1)}, 0 ≤ n :=
    fun n hn => (pow_nonneg (by norm_num) w).trans hn.1
  have hsorts := (sorts_fixed (w + 1)).comp (strictMonoOn_toNat.mono hnonneg) fun n hn => by
    apply (Int.toNat_lt (hnonneg n hn)).mpr
    simpa using hn.2
  exact hsorts.congr fun n hn => zeroPadded_zero_eq_fixed hn.1 hn.2

/-- The same, where blanks are asked for. -/
theorem sorts_blankPadded (w : ℕ) :
    Sorts (blankPadded (w + 1)) {n | 10 ^ w ≤ n ∧ n < 10 ^ (w + 1)} (w + 1) := by
  apply (sorts_zeroPadded_zero w).congr
  intro n hn
  have hlen := (sorts_zeroPadded_zero w).length_eq n hn
  rw [blankPadded, leftpad_of_length_le hlen.ge]

end Printf
