import AoclLibmem.Base.Outcome

/-! Runs of which one returns whatever the other does: the order in which a run that is stopped
lies below every other. -/

namespace AoclLibmem.Base

universe u v

/-- What `run` returns, `wider` returns too. -/
def Widened {ε : Type u} {α : Type v} (run wider : Except ε α) : Prop :=
  ∀ value, run = .ok value → wider = .ok value

section Rules
variable {ε : Type u} {α β σ : Type v} {run wider : Except ε α}

theorem Widened.refl (run : Except ε α) : Widened run run := fun _ returned => returned

theorem widened_error {reason : ε} : Widened (.error reason) wider :=
  fun _ returned => nomatch returned

theorem Widened.bind {next next' : α → Except ε β} (first : Widened run wider)
    (rest : ∀ value, Widened (next value) (next' value)) :
    Widened (run >>= next) (wider >>= next') := by
  intro result returned
  cases ran : run with
  | error reason =>
    rw [ran] at returned
    cases returned
  | ok value =>
    rw [ran, ok_bind] at returned
    rw [first value ran, ok_bind]
    exact rest value result returned

theorem widened_ite {condition : Prop} [Decidable condition] {other other' : Except ε α}
    (yes : Widened run wider) (no : Widened other other') :
    Widened (if condition then run else other) (if condition then wider else other') := by
  split
  · exact yes
  · exact no

/-- A run that is only allowed under a condition. -/
theorem widened_guard {allowed allowed' : Prop} [Decidable allowed] [Decidable allowed'] {reason : ε}
    (allows : allowed → allowed') (same : Widened run wider) :
    Widened (if allowed then run else .error reason) (if allowed' then wider else .error reason) := by
  split
  · rename_i holds
    rw [if_pos (allows holds)]
    exact same
  · exact widened_error

theorem widened_iterate {stuck : ε} {step wide : σ → Except ε (Step σ α)}
    (each : ∀ state, Widened (step state) (wide state)) (fuel : Nat) (start : σ) :
    Widened (iterate stuck step fuel start) (iterate stuck wide fuel start) := by
  induction fuel generalizing start with
  | zero => exact Widened.refl _
  | succ fuel ih =>
    rw [iterate_succ, iterate_succ]
    refine (each start).bind fun decision => ?_
    cases decision with
    | next state => exact ih state
    | done result => exact Widened.refl _

end Rules

end AoclLibmem.Base
