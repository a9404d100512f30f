import AoclLibmem.Base.Painted

/-! Moving the elements of one range to another, index by index: what has been moved so
far, relative to the contents before, and which of the elements to be moved are intact. -/

namespace AoclLibmem.Base

universe u
variable {α : Type u} {before after : Nat → α} {dst src : Nat} {done region : Set Nat}

/-- `after` is `before` with the elements at `src + i` moved to `dst + i`, `i` in `done`. -/
structure Moved (before after : Nat → α) (dst src : Nat) (done : Set Nat) : Prop where
  moved : ∀ i ∈ done, after (dst + i) = before (src + i)
  frame : ∀ a, (∀ i ∈ done, a ≠ dst + i) → after a = before a

/-- The moves in `done` spared the source elements in `region`. -/
def Intact (dst src : Nat) (done region : Set Nat) : Prop :=
  ∀ i ∈ region, ∀ j ∈ done, src + i ≠ dst + j

section Moves

theorem Moved.refl (before : Nat → α) (dst src : Nat) : Moved before before dst src ∅ :=
  ⟨fun _ member => absurd member (Set.notMem_empty _), fun _ _ => rfl⟩

theorem Moved.source (moved : Moved before after dst src done) (intact : Intact dst src done region)
    {i : Nat} (member : i ∈ region) : after (src + i) = before (src + i) :=
  moved.frame _ (intact i member)

/-- A move paints the destination with the first values of the source. -/
theorem moved_iff_painted : Moved before after dst src done ↔
    Painted before after dst (fun i => before (src + i)) done :=
  ⟨fun moved => ⟨moved.moved, moved.frame⟩, fun painted => ⟨painted.painted, painted.frame⟩⟩

theorem intact_empty : Intact dst src ∅ region :=
  fun _ _ _ none => absurd none (Set.notMem_empty _)

/-- Buffers apart from each other: nothing is ever overwritten. -/
theorem intact_of_apart {size : Nat} (apart : dst + size ≤ src ∨ src + size ≤ dst)
    (moves : ∀ j ∈ done, j < size) (reads : ∀ i ∈ region, i < size) : Intact dst src done region := by
  intro i read j move
  have below := reads i read
  have limit := moves j move
  omega

/-- Upwards to a lower address: the elements not yet passed are intact. -/
theorem intact_forward {k : Nat} (down : dst ≤ src) (moves : ∀ j ∈ done, j < k)
    (reads : ∀ i ∈ region, k ≤ i) : Intact dst src done region := by
  intro i read j move
  have above := reads i read
  have limit := moves j move
  omega

/-- Downwards to a higher address: the elements not yet passed are intact. -/
theorem intact_backward {k : Nat} (up : src ≤ dst) (moves : ∀ j ∈ done, k ≤ j)
    (reads : ∀ i ∈ region, i < k) : Intact dst src done region := by
  intro i read j move
  have below := reads i read
  have limit := moves j move
  omega

end Moves

end AoclLibmem.Base
