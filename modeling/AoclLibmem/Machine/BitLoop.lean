import AoclLibmem.Machine.Lanes
import AoclLibmem.Base.Occurrence

/-! The loop over the set bits of a mask, lowest first:
`while (mask) { idx = tzcnt(mask); ...; mask = blsr(mask); }`. -/

namespace AoclLibmem.Machine

open Base

/-- One pass: the body leaves the loop with a result, or the bit is cleared. -/
def bitStep {w : Nat} (body : Nat → Exec (Step Unit (Option Nat))) (mask : BitVec w) :
    Exec (Step (BitVec w) (Option Nat)) :=
  if mask = 0#w then return .done none
  else do
    match ← body (tzcnt mask) with
    | .done result => return .done result
    | .next _ => return .next (blsr mask)

def whileBits {w : Nat} (body : Nat → Exec (Step Unit (Option Nat))) (mask : BitVec w) :
    Exec (Option Nat) :=
  iterate .diverged (bitStep body) budget mask

private theorem blsr_toNat_lt {w : Nat} {mask : BitVec w} (nonzero : mask ≠ 0#w) :
    (blsr mask).toNat < mask.toNat := by
  have positive : 0 < mask.toNat := Nat.pos_of_ne_zero fun zero => nonzero (BitVec.eq_of_toNat_eq zero)
  have one : (1#w).toNat = 1 := BitVec.toNat_one (Nat.zero_lt_of_lt (tzcnt_lt nonzero))
  have lower : (mask - 1#w).toNat < mask.toNat := by
    rw [BitVec.toNat_sub_of_le (by rw [BitVec.le_def, one]; exact positive), one]
    omega
  calc (blsr mask).toNat ≤ (mask - 1#w).toNat := by
        rw [blsr, BitVec.toNat_and]
        exact Nat.and_le_right
    _ < mask.toNat := lower

/-- The loop picks the first hit, when every hit has its bit set and the body, at a set
bit with no hit before it, either passes a bit that is no hit or answers. -/
theorem whileBits_ends {w : Nat} {body : Nat → Exec (Step Unit (Option Nat))} {mask : BitVec w}
    {hit : Nat → Prop} {base : Nat} {exit : Trap → Prop} (width : w ≤ 64)
    (marked : ∀ i, hit i → i < w ∧ mask.getLsbD i = true)
    (step : ∀ i < w, mask.getLsbD i = true → ClearBelow hit i →
      Ends (body i) (Step.Holds (fun _ => ¬ hit i) (Picks hit base)) exit) :
    Ends (whileBits body mask) (Picks hit base) exit := by
  -- the bits from `k` on are left, and no bit below `k` was a hit
  refine iterate_ends (fun left => ∃ k, ClearBelow hit k ∧
    Marks left fun i => mask.getLsbD i = true ∧ k ≤ i) BitVec.toNat ?_
    ⟨0, clearBelow_zero, fun i _ => by simp⟩ ?_
  · rintro left ⟨k, clear, marks⟩
    have clearTo (bound : Nat) (below : ∀ i < bound, i < w → ¬ (mask.getLsbD i = true ∧ k ≤ i)) :
        ClearBelow hit bound := by
      intro i less found
      obtain ⟨inside, set⟩ := marked i found
      exact below i less inside ⟨set, clear.le_hit found⟩
    refine ends_ite.mpr ⟨fun zero => .absent fun i found => ?_, fun nonzero => ?_⟩
    · have none := clearTo w fun i _ inside => marks.none_iff.mp zero i inside
      exact none i (marked i found).1 found
    · obtain ⟨⟨set, above⟩, below⟩ := marks.first nonzero
      have before : ClearBelow hit (tzcnt left) := clearTo _ fun i less _ => below i less
      refine (step _ (tzcnt_lt nonzero) set before).bind ?_
      intro decision holds
      cases decision with
      | done result => exact holds
      | next _ =>
        refine ⟨⟨tzcnt left + 1, before.extend fun j less => ?_, ?_⟩, blsr_toNat_lt nonzero⟩
        · have zero : j = 0 := by omega
          simpa [zero] using holds
        · refine marks.blsr.congr fun i _ => ⟨?_, ?_⟩
          · rintro ⟨⟨set, late⟩, other⟩
            refine ⟨set, ?_⟩
            by_contra less
            exact below i (by omega) ⟨set, late⟩
          · rintro ⟨set, late⟩
            exact ⟨⟨set, by omega⟩, by omega⟩
  · have small : mask.toNat < 2 ^ w := mask.isLt
    have power : 2 ^ w ≤ 2 ^ 64 := Nat.pow_le_pow_right (by decide) width
    unfold budget
    omega

/-- The loop runs its body at the set bits of the mask only. -/
theorem whileBits_congr {w : Nat} {body other : Nat → Exec (Step Unit (Option Nat))} {mask : BitVec w}
    (same : ∀ i < w, mask.getLsbD i = true → body i = other i) :
    whileBits body mask = whileBits other mask := by
  refine iterate_congr (fun left => ∀ i, left.getLsbD i = true → mask.getLsbD i = true) ?_ ?_
    fun _ set => set
  · intro left within
    unfold bitStep
    refine ite_congr rfl (fun _ => rfl) fun nonzero => ?_
    rw [same _ (tzcnt_lt nonzero) (within _ (BitVec.getLsbD_true_ctz_of_ne_zero nonzero))]
  · intro left next within moved i set
    have lower : next = blsr left := by
      unfold bitStep at moved
      split at moved
      · cases moved
      · cases ran : body (tzcnt left) with
        | error reason =>
          rw [ran] at moved
          cases moved
        | ok decision =>
          rw [ran] at moved
          cases decision with
          | done result => cases moved
          | next _ =>
            cases moved
            rfl
    rw [lower, blsr, BitVec.getLsbD_and, Bool.and_eq_true] at set
    exact within i set.1

end AoclLibmem.Machine
