import AoclLibmem.Base.FirstHit

/-! Occurrences of a pattern in a text whose end is marked by a stop symbol, and the
answer of a search for the first of them. -/

namespace AoclLibmem.Base

universe u

section Answer
variable {hit other : Nat → Prop} {base : Nat} {answer answer' : Option Nat}

/-- The answer of a search counted from `base`: the first hit, or none when there is no hit. -/
inductive Picks (hit : Nat → Prop) (base : Nat) : Option Nat → Prop where
  | found {i : Nat} (first : FirstHit hit i) : Picks hit base (some (base + i))
  | absent (clear : ∀ i, ¬ hit i) : Picks hit base none

theorem Picks.unique (first : Picks hit base answer) (second : Picks hit base answer') :
    answer = answer' := by
  cases first with
  | found first =>
    cases second with
    | found first' => rw [first.unique first']
    | absent clear => exact absurd first.1 (clear _)
  | absent clear =>
    cases second with
    | found first => exact absurd first.1 (clear _)
    | absent _ => rfl

theorem Picks.congr (picks : Picks hit base answer) (same : ∀ i, hit i ↔ other i) :
    Picks other base answer := by
  rwa [← show hit = other from funext fun i => propext (same i)]

theorem Picks.shift {start : Nat} (picks : Picks (fun i => hit (start + i)) (base + start) answer)
    (clear : ClearBelow hit start) : Picks hit base answer := by
  cases picks with
  | found first =>
    rw [Nat.add_assoc]
    exact .found (clear.first first.1 first.2)
  | absent none =>
    refine .absent fun i found => ?_
    have after := clear.le_hit found
    obtain ⟨j, rfl⟩ := Nat.exists_eq_add_of_le after
    exact none j found

theorem Picks.answered {found : Nat} (picks : Picks hit base (some found)) :
    ∃ i, FirstHit hit i ∧ found = base + i := by
  generalize shape : some found = answer at picks
  cases picks with
  | found first => exact ⟨_, first, Option.some.inj shape⟩
  | absent _ => exact absurd shape (Option.some_ne_none _)

end Answer

section Occurrences
variable {α : Type u} {text pattern : Nat → α} {length bound index : Nat}

/-- The `length` symbols of the pattern stand in the text from `index` on. -/
def OccursAt (text pattern : Nat → α) (length index : Nat) : Prop :=
  ∀ j < length, text (index + j) = pattern j

def OccursWithin (text pattern : Nat → α) (length bound index : Nat) : Prop :=
  index + length ≤ bound ∧ OccursAt text pattern length index

theorem OccursAt.first (occurs : OccursAt text pattern length index) (nonempty : 0 < length) :
    text index = pattern 0 := occurs 0 nonempty

/-- A pattern without the stop symbol cannot run over the end of the text. -/
theorem OccursAt.fits {stop : α} (occurs : OccursAt text pattern length index)
    (free : ∀ j < length, pattern j ≠ stop) (ends : text bound = stop) (before : index ≤ bound) :
    index + length ≤ bound := by
  by_contra beyond
  obtain ⟨j, rfl⟩ := Nat.exists_eq_add_of_le before
  have inside : j < length := by omega
  exact free j inside ((occurs j inside).symm.trans ends)

theorem occursWithin_iff {stop : α} (free : ∀ j < length, pattern j ≠ stop)
    (ends : text bound = stop) :
    OccursWithin text pattern length bound index ↔
      index ≤ bound ∧ OccursAt text pattern length index :=
  ⟨fun within => ⟨by have := within.1; omega, within.2⟩,
    fun ⟨before, occurs⟩ => ⟨occurs.fits free ends before, occurs⟩⟩

end Occurrences

end AoclLibmem.Base
