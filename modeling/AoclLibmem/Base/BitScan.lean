import Mathlib.Data.Nat.Find
import Mathlib.Data.BitVec

/-! Trailing-zero counts, the carry chain of `x + 1` and the borrow chain of
`x - 1`, for words of any width, and bit fields of a number. -/

namespace AoclLibmem.Base

variable {w : Nat} {x : BitVec w} {k i : Nat}

theorem ctz_eq_of_lowest (set : x.getLsbD k = true) (below : ∀ j < k, x.getLsbD j = false) :
    x.ctz.toNat = k := by
  have nonzero : x ≠ 0#w := by
    intro zero
    simp [zero] at set
  have hit := BitVec.getLsbD_true_ctz_of_ne_zero nonzero
  rcases Nat.lt_trichotomy x.ctz.toNat k with less | same | more
  · simp [below _ less] at hit
  · exact same
  · simp [BitVec.getLsbD_false_of_lt_ctz more] at set

theorem ctz_lt_width (nonzero : x ≠ 0#w) : x.ctz.toNat < w :=
  BitVec.lt_of_getLsbD (BitVec.getLsbD_true_ctz_of_ne_zero nonzero)

theorem eq_zero_iff_getLsbD : x = 0#w ↔ ∀ i < w, x.getLsbD i = false := by
  constructor
  · intro zero i _
    simp [zero]
  · intro none
    apply BitVec.eq_of_getLsbD_eq
    intro i below
    simp [none i below]

theorem getLsbD_add_one (inside : i < w) :
    (x + 1#w).getLsbD i = (x.getLsbD i ^^ decide (∀ j < i, x.getLsbD j = true)) := by
  rw [BitVec.getLsbD_add inside]
  cases i with
  | zero => simp [BitVec.carry_zero, inside]
  | succ i =>
    rw [BitVec.carry_succ_one i x (by omega)]
    simp only [BitVec.getLsbD_one, Nat.add_eq_zero_iff, one_ne_zero, and_false, decide_false,
      Bool.and_false, Bool.false_bne, Nat.lt_succ_iff]

theorem getLsbD_sub_one (inside : i < w) :
    (x - 1#w).getLsbD i = (x.getLsbD i ^^ !decide (∃ j < i, x.getLsbD j = true)) := by
  have flip : x - 1#w = ~~~(-x) := by
    rw [BitVec.not_neg, BitVec.sub_eq_add_neg]
  rw [flip, BitVec.getLsbD_not, BitVec.getLsbD_neg]
  simp [inside]

/-- `x & (x - 1)` removes the lowest set bit and no other. -/
theorem getLsbD_and_sub_one (inside : i < w) :
    (x &&& (x - 1#w)).getLsbD i = (x.getLsbD i && decide (i ≠ x.ctz.toNat)) := by
  rw [BitVec.getLsbD_and, getLsbD_sub_one inside]
  by_cases set : x.getLsbD i = true
  · have nonzero : x ≠ 0#w := by
      intro zero
      simp [zero] at set
    by_cases lowest : i = x.ctz.toNat
    · have none : ¬ ∃ j < i, x.getLsbD j = true := by
        rintro ⟨j, less, found⟩
        rw [lowest] at less
        simp [BitVec.getLsbD_false_of_lt_ctz less] at found
      simp [set, none, ← lowest]
    · have lower : ∃ j < i, x.getLsbD j = true := by
        refine ⟨x.ctz.toNat, ?_, BitVec.getLsbD_true_ctz_of_ne_zero nonzero⟩
        by_contra above
        have less : i < x.ctz.toNat := by omega
        simp [BitVec.getLsbD_false_of_lt_ctz less] at set
      simp [set, lower, lowest]
  · simp [set]

/-- `x ^ (x - 1)` selects the lowest set bit and everything below it. -/
theorem getLsbD_xor_sub_one (nonzero : x ≠ 0#w) (inside : i < w) :
    (x ^^^ (x - 1#w)).getLsbD i = decide (i ≤ x.ctz.toNat) := by
  rw [BitVec.getLsbD_xor, getLsbD_sub_one inside]
  by_cases lower : ∃ j < i, x.getLsbD j = true
  · have above : ¬ i ≤ x.ctz.toNat := by
      obtain ⟨j, less, set⟩ := lower
      intro le
      have below : j < x.ctz.toNat := by omega
      simp [BitVec.getLsbD_false_of_lt_ctz below] at set
    simp [lower, above]
  · have le : i ≤ x.ctz.toNat := by
      by_contra above
      exact lower ⟨x.ctz.toNat, by omega, BitVec.getLsbD_true_ctz_of_ne_zero nonzero⟩
    simp [lower, le]

/-- The `k` bits of a count from bit `s` on. -/
theorem shiftRight_field {mask : Nat} (x s k : Nat) (field : mask >>> s = 2 ^ k - 1) :
    (x &&& mask) >>> s = x / 2 ^ s % 2 ^ k := by
  rw [Nat.shiftRight_and_distrib, Nat.shiftRight_eq_div_pow, field, Nat.and_two_pow_sub_one_eq_mod]

end AoclLibmem.Base
