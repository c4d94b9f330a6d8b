import Mathlib.Data.Char
import Mathlib.Data.List.Lex
import Mathlib.Data.Prod.Lex
import Mathlib.Order.Monotone.Basic
import Mathlib.Tactic

/-!
# Texts that sort

When the lexicographic order of texts is the order of what they stand for. A number is split into a
leading and a trailing part; a text of fixed length for the first, followed by a text for the
second, sorts if both do.

* `strictMonoOn_staircase`: a value sorts as the step it is on and then the rest above that step.
* `Sorts`, `Sorts.append`, `Sorts.comp`: texts of one length that sort, and how they are put
  together.
* `fixed`, `sorts_fixed`: decimal numbers with leading zeros.
-/

namespace SortedText

/-! ## Staircases -/

/-- **A staircase.** Every value is on a step, `index`, between the `start` of that step and its
`finish`, and no step begins before the ones below it have ended. Then a value sorts as its step
and, on one step, as `rest` does. -/
theorem strictMonoOn_staircase {α ι β : Type*} [LinearOrder α] [LinearOrder ι] [Preorder β]
    (index : α → ι) (start finish : ι → α) {rest : α → β} {S : Set α}
    (hon : ∀ x ∈ S, start (index x) ≤ x ∧ x < finish (index x))
    (hsteps : ∀ i j, i < j → finish i ≤ start j)
    (hrest : ∀ x ∈ S, ∀ y ∈ S, index x = index y → x < y → rest x < rest y) :
    StrictMonoOn (fun x => toLex (index x, rest x)) S := by
  intro x hx y hy hlt
  apply Prod.Lex.toLex_lt_toLex.mpr
  rcases lt_trichotomy (index x) (index y) with h | h | h
  · exact Or.inl h
  · exact Or.inr ⟨h, hrest x hx y hy h hlt⟩
  · have hbelow := (hon y hy).2.trans_le ((hsteps _ _ h).trans (hon x hx).1)
    exact absurd hbelow hlt.not_gt

/-- A number sorts as its quotient and its remainder. -/
theorem strictMono_divMod {b : ℤ} (hb : 0 < b) : StrictMono (fun n : ℤ => toLex (n / b, n % b)) := by
  have hsplit : ∀ n : ℤ, b * (n / b) + n % b = n := fun n => Int.mul_ediv_add_emod n b
  apply strictMonoOn_univ.mp
  apply strictMonoOn_staircase (· / b) (b * ·) (b * · + b)
  · intro n _
    have hn := hsplit n
    have hnonneg := Int.emod_nonneg n hb.ne'
    have hlt := Int.emod_lt_of_pos n hb
    omega
  · intro i j hij
    have hmul := Int.mul_le_mul_of_nonneg_left (Int.add_one_le_of_lt hij) hb.le
    rwa [Int.mul_add, Int.mul_one] at hmul
  · intro x _ y _ hquot hlt
    have hx := hsplit x
    have hy := hsplit y
    rw [hquot] at hx
    omega

/-! ## The order of texts -/

/-- Texts that differ in front, in parts of one length. -/
theorem append_lt_append {f f' : List Char} (hlen : f.length = f'.length) (h : f < f')
    (g g' : List Char) : f ++ g < f' ++ g' := by
  induction f generalizing f' with
  | nil =>
      rw [List.length_nil, eq_comm, List.length_eq_zero_iff] at hlen
      rw [hlen] at h
      exact absurd h (List.not_lt_nil _)
  | cons a rest ih =>
      obtain ⟨b, rest', rfl⟩ := List.exists_cons_of_length_eq_add_one hlen.symm
      have hlen' : rest.length = rest'.length := by simpa using hlen
      rw [List.cons_append, List.cons_append]
      apply List.cons_lt_cons_iff.mpr
      rcases List.cons_lt_cons_iff.mp h with hhead | ⟨hhead, htail⟩
      · exact Or.inl hhead
      · exact Or.inr ⟨hhead, ih hlen' htail⟩

/-- On `S` the texts have the length `w`, and sort as the values do. -/
structure Sorts {α : Type*} [Preorder α] (text : α → List Char) (S : Set α) (w : ℕ) : Prop where
  /-- The length. -/
  length_eq : ∀ a ∈ S, (text a).length = w
  /-- The order. -/
  strictMonoOn : StrictMonoOn text S

section Sorts

variable {α β : Type*} [LinearOrder α] [LinearOrder β] {f : α → List Char} {g : β → List Char}
  {S : Set α} {T : Set β} {v w : ℕ}

/-- **One text behind the other**: the values sort by the first part, then by the second. -/
theorem Sorts.append (hf : Sorts f S v) (hg : Sorts g T w) :
    Sorts (fun p : α ×ₗ β => f (ofLex p).1 ++ g (ofLex p).2)
      {p | (ofLex p).1 ∈ S ∧ (ofLex p).2 ∈ T} (v + w) where
  length_eq p hp := by rw [List.length_append, hf.length_eq _ hp.1, hg.length_eq _ hp.2]
  strictMonoOn := by
    intro p hp q hq hlt
    have hlen := (hf.length_eq _ hp.1).trans (hf.length_eq _ hq.1).symm
    rcases Prod.Lex.lt_iff.mp hlt with h | ⟨h, hrest⟩
    · exact append_lt_append hlen (hf.strictMonoOn hp.1 hq.1 h) _ _
    · change f (ofLex p).1 ++ _ < f (ofLex q).1 ++ _
      rw [h]
      exact List.append_left_lt (hg.strictMonoOn hp.2 hq.2 hrest)

/-- Values that are sorted by what the text is made of. -/
theorem Sorts.comp {k : α → β} (hg : Sorts g T w) (hk : StrictMonoOn k S) (hmaps : Set.MapsTo k S T) :
    Sorts (fun a => g (k a)) S w where
  length_eq _ ha := hg.length_eq _ (hmaps ha)
  strictMonoOn := hg.strictMonoOn.comp hk hmaps

/-- Fewer values. -/
theorem Sorts.mono {S' : Set α} (hf : Sorts f S w) (h : S' ⊆ S) : Sorts f S' w where
  length_eq a ha := hf.length_eq a (h ha)
  strictMonoOn := hf.strictMonoOn.mono h

/-- The same text, written in another way. -/
theorem Sorts.congr {f' : α → List Char} (hf : Sorts f S w) (h : ∀ a ∈ S, f' a = f a) :
    Sorts f' S w where
  length_eq a ha := by rw [h a ha, hf.length_eq a ha]
  strictMonoOn := by
    intro a ha b hb hlt
    rw [h a ha, h b hb]
    exact hf.strictMonoOn ha hb hlt

/-- **A text for the quotient, then one for the remainder.** -/
theorem Sorts.divMod {f g : ℤ → List Char} {S : Set ℤ} {b : ℤ} (hb : 0 < b) (hf : Sorts f S v)
    (hg : Sorts g {r | 0 ≤ r ∧ r < b} w) :
    Sorts (fun n => f (n / b) ++ g (n % b)) {n | n / b ∈ S} (v + w) := by
  apply (hf.append hg).comp ((strictMono_divMod hb).strictMonoOn _)
  intro n hn
  exact ⟨hn, Int.emod_nonneg n hb.ne', Int.emod_lt_of_pos n hb⟩

/-- A separator in front. -/
theorem Sorts.cons (ch : Char) (hf : Sorts f S w) : Sorts (fun a => ch :: f a) S (w + 1) where
  length_eq a ha := by rw [List.length_cons, hf.length_eq a ha]
  strictMonoOn := by
    intro a ha b hb hlt
    exact List.cons_lt_cons_iff.mpr (Or.inr ⟨rfl, hf.strictMonoOn ha hb hlt⟩)

end Sorts

/-! ## Decimal numbers -/

/-- The last `w` decimal digits of a number. -/
def fixed : ℕ → ℕ → List Char
  | 0, _ => []
  | w + 1, n => fixed w (n / 10) ++ [Nat.digitChar (n % 10)]

/-- There are `w` of them. -/
theorem length_fixed (w n : ℕ) : (fixed w n).length = w := by
  induction w generalizing n with
  | zero => rfl
  | succ w ih => rw [fixed, List.length_append, ih, List.length_singleton]

/-- **Digits sort.** -/
theorem fixed_lt_fixed {w a b : ℕ} (hb : b < 10 ^ w) (h : a < b) : fixed w a < fixed w b := by
  induction w generalizing a b with
  | zero => omega
  | succ w ih =>
      have hquot : b / 10 < 10 ^ w := Nat.div_lt_of_lt_mul (by rwa [← Nat.pow_succ'])
      rw [fixed, fixed]
      rcases lt_or_eq_of_le (Nat.div_le_div_right (c := 10) h.le) with hlt | heq
      · have hlen : (fixed w (a / 10)).length = (fixed w (b / 10)).length := by
          rw [length_fixed, length_fixed]
        exact append_lt_append hlen (ih hquot hlt) _ _
      · rw [heq]
        apply List.append_left_lt
        apply List.cons_lt_cons_iff.mpr
        have ha := Nat.toNat_digitChar_of_lt_ten (Nat.mod_lt a (by decide : 10 > 0))
        have hb := Nat.toNat_digitChar_of_lt_ten (Nat.mod_lt b (by decide : 10 > 0))
        refine Or.inl (UInt32.lt_iff_toNat_lt.mpr ?_)
        rw [← Char.toNat_val] at ha hb
        rw [ha, hb]
        omega

/-- Numbers of up to `w` digits sort. -/
theorem sorts_fixed (w : ℕ) : Sorts (fixed w) {n | n < 10 ^ w} w where
  length_eq n _ := length_fixed w n
  strictMonoOn _ _ _ hb h := fixed_lt_fixed hb h

/-- Padding leaves the end alone. -/
theorem leftpad_append_singleton (w : ℕ) (pad last : Char) (l : List Char) :
    List.leftpad (w + 1) pad (l ++ [last]) = List.leftpad w pad l ++ [last] := by
  rw [List.leftpad, List.leftpad, List.length_append, List.length_singleton, Nat.add_sub_add_right,
    List.append_assoc]

/-- Zeros are the digits of zero. -/
theorem fixed_zero (w : ℕ) : fixed w 0 = List.replicate w '0' := by
  induction w with
  | zero => rfl
  | succ w ih =>
      rw [fixed, Nat.zero_div, ih, List.replicate_succ']
      rfl

/-- **Digits with leading zeros.** -/
theorem leftpad_toDigits {w n : ℕ} (hw : 0 < w) (hn : n < 10 ^ w) :
    List.leftpad w '0' (Nat.toDigits 10 n) = fixed w n := by
  induction w generalizing n with
  | zero => omega
  | succ w ih =>
      rw [fixed]
      by_cases hsmall : n < 10
      · have hend := leftpad_append_singleton w '0' (Nat.digitChar n) []
        rw [List.nil_append] at hend
        rw [Nat.toDigits_of_lt_base hsmall, hend, Nat.div_eq_of_lt hsmall, Nat.mod_eq_of_lt hsmall,
          fixed_zero, List.leftpad, List.length_nil, Nat.sub_zero, List.append_nil]
      · have hquot : n / 10 < 10 ^ w := Nat.div_lt_of_lt_mul (by rwa [← Nat.pow_succ'])
        have hpos : 0 < w := by
          rcases Nat.eq_zero_or_pos w with h | h
          · rw [h, Nat.pow_zero] at hquot
            omega
          · exact h
        rw [Nat.toDigits_of_base_le (by decide) (by omega), leftpad_append_singleton, ih hpos hquot]

end SortedText
