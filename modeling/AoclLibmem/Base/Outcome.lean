import Mathlib.Order.Basic

/-! Rules for fallible straight-line code and fuelled loops over `Except`. A
run is judged by two predicates at once: one on its result, one on its error. -/

namespace AoclLibmem.Base

universe u v w

/-- The run returns a value satisfying `post` or stops with an error satisfying `exit`. -/
def Ends {ε : Type u} {α : Type v} (run : Except ε α) (post : α → Prop) (exit : ε → Prop) : Prop :=
  match run with
  | .ok value => post value
  | .error error => exit error

section Rules
variable {ε : Type u} {α β : Type v} {post : α → Prop} {exit : ε → Prop}

@[simp] theorem ends_ok {value : α} : Ends (.ok value) post exit ↔ post value := Iff.rfl

@[simp] theorem ends_pure {value : α} :
    Ends (pure value : Except ε α) post exit ↔ post value := Iff.rfl

@[simp] theorem ends_error {error : ε} :
    Ends (.error error : Except ε α) post exit ↔ exit error := Iff.rfl

@[simp] theorem ends_throw {error : ε} :
    Ends (throw error : Except ε α) post exit ↔ exit error := Iff.rfl

@[simp] theorem ok_bind {value : α} {next : α → Except ε β} :
    (Except.ok value >>= next) = next value := rfl

theorem ends_bind {run : Except ε α} {next : α → Except ε β} {goal : β → Prop} :
    Ends (run >>= next) goal exit ↔ Ends run (fun value => Ends (next value) goal exit) exit := by
  cases run <;> rfl

theorem ends_ite {condition : Prop} [Decidable condition] {run other : Except ε α} :
    Ends (if condition then run else other) post exit ↔
      (condition → Ends run post exit) ∧ (¬ condition → Ends other post exit) := by
  split <;> rename_i decided <;> simp [decided]

theorem Ends.ite {condition : Prop} [Decidable condition] {run other : Except ε α}
    (yes : condition → Ends run post exit) (no : ¬ condition → Ends other post exit) :
    Ends (if condition then run else other) post exit :=
  ends_ite.mpr ⟨yes, no⟩

/-- The tests of the kernels ask whether a word differs from zero. -/
theorem Ends.iteNe {γ : Type w} {a b : γ} [Decidable (a ≠ b)] {run other : Except ε α}
    (differ : a ≠ b → Ends run post exit) (same : a = b → Ends other post exit) :
    Ends (if a ≠ b then run else other) post exit :=
  Ends.ite differ fun equal => same (not_not.mp equal)

theorem Ends.bind {run : Except ε α} {next : α → Except ε β} {goal : β → Prop}
    (first : Ends run post exit) (rest : ∀ value, post value → Ends (next value) goal exit) :
    Ends (run >>= next) goal exit := by
  cases run with
  | ok value => exact rest value first
  | error error => exact first

theorem Ends.mono {run : Except ε α} {goal : α → Prop} {stop : ε → Prop}
    (ends : Ends run post exit) (value : ∀ value, post value → goal value)
    (error : ∀ error, exit error → stop error) : Ends run goal stop := by
  cases run with
  | ok result => exact value result ends
  | error reason => exact error reason ends

theorem Ends.imp {run : Except ε α} {goal : α → Prop} (ends : Ends run post exit)
    (value : ∀ value, post value → goal value) : Ends run goal exit :=
  ends.mono value (fun _ reason => reason)

/-- A run that cannot stop with an error returns. -/
theorem Ends.returns {run : Except ε α} (ends : Ends run post (fun _ => False)) :
    ∃ value, run = .ok value ∧ post value := by
  cases run with
  | ok value => exact ⟨value, rfl, ends⟩
  | error error => exact ends.elim

theorem Ends.of_ok {run : Except ε α} {value : α} (ends : Ends run post exit)
    (returned : run = .ok value) : post value := by
  rw [returned] at ends
  exact ends

end Rules

/-- What one pass of a loop body decides: go round again, or leave with a result. -/
inductive Step (σ : Type u) (α : Type v) where
  | next (state : σ)
  | done (result : α)

def Step.Holds {σ : Type u} {α : Type v} (next : σ → Prop) (done : α → Prop) :
    Step σ α → Prop
  | .next state => next state
  | .done result => done result

section Loops
variable {ε : Type u} {σ α : Type v}

@[simp] theorem Step.holds_next {next : σ → Prop} {done : α → Prop} {state : σ} :
    Step.Holds next done (.next state) ↔ next state := Iff.rfl

@[simp] theorem Step.holds_done {next : σ → Prop} {done : α → Prop} {result : α} :
    Step.Holds next done (.done result : Step σ α) ↔ done result := Iff.rfl

/-- Run `step` until it is done; `stuck` is raised when the fuel is used up. -/
def iterate (stuck : ε) (step : σ → Except ε (Step σ α)) : Nat → σ → Except ε α
  | 0, _ => .error stuck
  | fuel + 1, state => do
    match ← step state with
    | .next state => iterate stuck step fuel state
    | .done result => pure result

theorem iterate_succ {stuck : ε} {step : σ → Except ε (Step σ α)} {fuel : Nat} {state : σ} :
    iterate stuck step (fuel + 1) state = (do
      match ← step state with
      | .next state => iterate stuck step fuel state
      | .done result => pure result) := rfl

/-- The loop rule: a preserved invariant whose rank falls at every pass, with more
fuel than the initial rank, carries over to the result. -/
theorem iterate_ends {stuck : ε} {step : σ → Except ε (Step σ α)} {post : α → Prop}
    {exit : ε → Prop} (invariant : σ → Prop) (rank : σ → Nat)
    (preserve : ∀ state, invariant state →
      Ends (step state) (Step.Holds (fun next => invariant next ∧ rank next < rank state) post) exit)
    {fuel : Nat} {start : σ} (initially : invariant start) (enough : rank start < fuel) :
    Ends (iterate stuck step fuel start) post exit := by
  induction fuel generalizing start with
  | zero => omega
  | succ fuel ih =>
    rw [iterate_succ]
    refine (preserve start initially).bind ?_
    intro decision holds
    cases decision with
    | next state => exact ih holds.1 (by have falls := holds.2; omega)
    | done result => exact holds

/-- Two loops agree when their bodies do wherever an invariant of the one holds. -/
theorem iterate_congr {stuck : ε} {step other : σ → Except ε (Step σ α)} (invariant : σ → Prop)
    (same : ∀ state, invariant state → step state = other state)
    (keeps : ∀ state next, invariant state → step state = .ok (.next next) → invariant next)
    {fuel : Nat} {start : σ} (initially : invariant start) :
    iterate stuck step fuel start = iterate stuck other fuel start := by
  induction fuel generalizing start with
  | zero => rfl
  | succ fuel ih =>
    rw [iterate_succ, iterate_succ, ← same start initially]
    cases decided : step start with
    | error reason => rfl
    | ok decision =>
      cases decision with
      | next state => exact ih (keeps start state initially decided)
      | done result => rfl

/-- A loop over an index that it counts up, and the index at which it is done. -/
theorem iterate_counts {α : Type} {stuck : ε} {step : Nat → Except ε (Step Nat α)} {start stop fuel : Nat}
    {result : α} (passes : ∀ i, start ≤ i → i < stop → step i = .ok (.next (i + 1)))
    (last : step stop = .ok (.done result)) (le : start ≤ stop) (enough : stop - start < fuel) :
    iterate stuck step fuel start = .ok result := by
  induction fuel generalizing start with
  | zero => exact absurd enough (Nat.not_lt_zero _)
  | succ fuel ih =>
    rw [iterate_succ]
    rcases Nat.lt_or_eq_of_le le with less | rfl
    · rw [passes start (Nat.le_refl start) less]
      exact ih (fun i from_ below => passes i (Nat.le_of_succ_le from_) below) less (by omega)
    · rw [last]
      rfl

end Loops

end AoclLibmem.Base
