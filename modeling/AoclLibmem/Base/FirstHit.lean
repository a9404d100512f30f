import Mathlib.Order.Basic
import Mathlib.Data.Nat.Find

/-! The first index at which a predicate on the naturals holds, found block by
block: how far a scan is clear, and where it stops. -/

namespace AoclLibmem.Base

/-- No index below `bound` is a hit. -/
def ClearBelow (hit : Nat → Prop) (bound : Nat) : Prop := ∀ i < bound, ¬ hit i

/-- `index` is a hit and no smaller index is one. -/
def FirstHit (hit : Nat → Prop) (index : Nat) : Prop := hit index ∧ ClearBelow hit index

section Scan
variable {hit : Nat → Prop} {bound width index : Nat}

@[simp] theorem clearBelow_zero : ClearBelow hit 0 := by
  intro i below
  omega

theorem ClearBelow.mono (clear : ClearBelow hit bound) (le : index ≤ bound) :
    ClearBelow hit index :=
  fun i below => clear i (by omega)

theorem ClearBelow.extend (clear : ClearBelow hit bound)
    (block : ∀ j < width, ¬ hit (bound + j)) : ClearBelow hit (bound + width) := by
  intro i below
  by_cases old : i < bound
  · exact clear i old
  · have here := block (i - bound) (by omega)
    rwa [Nat.add_sub_of_le (by omega)] at here

theorem ClearBelow.le_hit (clear : ClearBelow hit bound) (found : hit index) : bound ≤ index := by
  by_contra beyond
  exact clear index (by omega) found

/-- A block clear before its own first hit puts that hit first overall. -/
theorem ClearBelow.first (clear : ClearBelow hit bound) (found : hit (bound + index))
    (block : ∀ j < index, ¬ hit (bound + j)) : FirstHit hit (bound + index) :=
  ⟨found, clear.extend block⟩

theorem FirstHit.le_of_hit (first : FirstHit hit index) {other : Nat} (found : hit other) :
    index ≤ other := first.2.le_hit found

theorem FirstHit.unique (first : FirstHit hit index) {other : Nat} (second : FirstHit hit other) :
    index = other :=
  Nat.le_antisymm (first.le_of_hit second.1) (second.le_of_hit first.1)

theorem FirstHit.clear_le (first : FirstHit hit index) (clear : ClearBelow hit bound) :
    bound ≤ index := clear.le_hit first.1

theorem exists_firstHit (found : hit index) : ∃ first ≤ index, FirstHit hit first := by
  classical
  have some : ∃ i, hit i := ⟨index, found⟩
  exact ⟨Nat.find some, Nat.find_min' some found, Nat.find_spec some,
    fun i below => Nat.find_min some below⟩

theorem clear_or_firstHit (hit : Nat → Prop) (bound : Nat) :
    ClearBelow hit bound ∨ ∃ first < bound, FirstHit hit first := by
  by_cases clear : ClearBelow hit bound
  · exact .inl clear
  · right
    simp only [ClearBelow, not_forall, not_not] at clear
    obtain ⟨i, below, found⟩ := clear
    obtain ⟨first, le, is⟩ := exists_firstHit found
    exact ⟨first, by omega, is⟩

end Scan

end AoclLibmem.Base
