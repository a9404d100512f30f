import Mathlib.Order.Interval.Set.Basic

/-! Setting the elements of a range, index by index, to the values of a pattern. -/

namespace AoclLibmem.Base

universe u
variable {α : Type u} {before after later : Nat → α} {dst : Nat} {pattern : Nat → α}
variable {done more : Set Nat}

/-- `after` is `before` with the elements at `dst + i` set to `pattern i`, `i` in `done`. -/
structure Painted (before after : Nat → α) (dst : Nat) (pattern : Nat → α) (done : Set Nat) :
    Prop where
  painted : ∀ i ∈ done, after (dst + i) = pattern i
  frame : ∀ a, (∀ i ∈ done, a ≠ dst + i) → after a = before a

theorem Painted.refl (before : Nat → α) (dst : Nat) (pattern : Nat → α) :
    Painted before before dst pattern ∅ :=
  ⟨fun _ member => absurd member (Set.notMem_empty _), fun _ _ => rfl⟩

theorem Painted.extend (painted : Painted before after dst pattern done)
    (written : ∀ i ∈ more, later (dst + i) = pattern i)
    (kept : ∀ a, (∀ i ∈ more, a ≠ dst + i) → later a = after a) :
    Painted before later dst pattern (done ∪ more) := by
  classical
  refine ⟨fun i member => ?_, fun a outside => ?_⟩
  · by_cases new : i ∈ more
    · exact written i new
    · have old : i ∈ done := member.resolve_right new
      rw [kept (dst + i) fun j other same => new (Nat.add_left_cancel same ▸ other)]
      exact painted.painted i old
  · rw [kept a fun i member => outside i (.inr member)]
    exact painted.frame a fun i member => outside i (.inl member)

end AoclLibmem.Base
