import AoclLibmem.Base.Outcome
import Mathlib.Logic.Function.Iterate

/-! Total-correctness triples for stateful code that can fail: from every state of the
precondition the run returns, with its value and final state in the postcondition. -/

namespace AoclLibmem.Base

universe u v w

variable {σ : Type u} {ε : Type v} {α β τ : Type u}

def Triple (pre : σ → Prop) (run : StateT σ (Except ε) α) (post : α → σ → Prop) : Prop :=
  ∀ state, pre state → ∃ value final, run state = .ok (value, final) ∧ post value final

section Rules
variable {pre mid : σ → Prop} {run : StateT σ (Except ε) α} {post : α → σ → Prop}

theorem triple_pure {value : α} (holds : ∀ state, pre state → post value state) :
    Triple pre (pure value : StateT σ (Except ε) α) post :=
  fun state start => ⟨value, state, rfl, holds state start⟩

theorem bind_returned {state middle : σ} {value : α} {next : α → StateT σ (Except ε) β}
    (returns : run state = .ok (value, middle)) : (run >>= next) state = next value middle := by
  calc (run >>= next) state = (run state >>= fun out => next out.1 out.2) := rfl
    _ = next value middle := by rw [returns, ok_bind]

theorem Triple.bind {next : α → StateT σ (Except ε) β} {goal : β → σ → Prop}
    (first : Triple pre run post) (rest : ∀ value, Triple (post value) (next value) goal) :
    Triple pre (run >>= next) goal := by
  intro state start
  obtain ⟨value, final, returned, holds⟩ := first state start
  obtain ⟨result, last, returned', goal⟩ := rest value final holds
  refine ⟨result, last, ?_, goal⟩
  rw [bind_returned returned, returned']

theorem triple_ite {condition : Prop} [Decidable condition] {other : StateT σ (Except ε) α}
    (yes : condition → Triple pre run post) (no : ¬ condition → Triple pre other post) :
    Triple pre (if condition then run else other) post := by
  split
  · exact yes ‹_›
  · exact no ‹_›

theorem Triple.imp (triple : Triple pre run post) {goal : α → σ → Prop}
    (weaken : ∀ value state, post value state → goal value state) : Triple pre run goal := by
  intro state start
  obtain ⟨value, final, returned, holds⟩ := triple state start
  exact ⟨value, final, returned, weaken value final holds⟩

theorem Triple.from {start : σ → Prop} (triple : Triple mid run post)
    (strengthen : ∀ state, start state → mid state) : Triple start run post :=
  fun state holds => triple state (strengthen state holds)

/-- A fact in the precondition that does not depend on the state. -/
theorem triple_fact {fact : Prop} (triple : fact → Triple pre run post) :
    Triple (fun state => fact ∧ pre state) run post :=
  fun state holds => triple holds.1 state holds.2

theorem triple_exists {ι : Sort*} {each : ι → σ → Prop} (triple : ∀ i, Triple (each i) run post) :
    Triple (fun state => ∃ i, each i state) run post := by
  rintro state ⟨i, holds⟩
  exact triple i state holds

section Errors
variable {stop : ε} {state : σ} {next : α → StateT σ (Except ε) β}

theorem bind_error (stops : run state = .error stop) : (run >>= next) state = .error stop := by
  calc (run >>= next) state = (run state >>= fun out => next out.1 out.2) := rfl
    _ = .error stop := by rw [stops]; rfl

theorem Triple.bind_error (first : Triple pre run post) (start : pre state)
    (stops : ∀ value final, post value final → next value final = .error stop) :
    (run >>= next) state = .error stop := by
  obtain ⟨value, final, returned, holds⟩ := first state start
  rw [bind_returned returned]
  exact stops value final holds

end Errors

end Rules

/-- Run `step` until it is done; `stuck` is raised when the fuel is used up. -/
def loopM (stuck : ε) (step : τ → StateT σ (Except ε) (Step τ α)) :
    Nat → τ → StateT σ (Except ε) α
  | 0, _ => fun _ => .error stuck
  | fuel + 1, at_ => do
    match ← step at_ with
    | .next further => loopM stuck step fuel further
    | .done result => pure result

/-- The loop rule: an invariant of loop variable and state, and a rank of the variable
that falls at every pass. -/
theorem loopM_triple {stuck : ε} {step : τ → StateT σ (Except ε) (Step τ α)}
    {post : α → σ → Prop} (invariant : τ → σ → Prop) (rank : τ → Nat)
    (preserve : ∀ here, Triple (invariant here) (step here) fun decision state =>
      decision.Holds (fun next => invariant next state ∧ rank next < rank here)
        fun result => post result state)
    {fuel : Nat} {start : τ} (enough : rank start < fuel) :
    Triple (invariant start) (loopM stuck step fuel start) post := by
  induction fuel generalizing start with
  | zero => omega
  | succ fuel ih =>
    refine (preserve start).bind fun decision => ?_
    cases decision with
    | next further =>
      intro state holds
      exact ih (by have falls := holds.2; omega) state holds.1
    | done result => exact triple_pure fun state holds => holds

/-- A `while` loop whose variable is the same function of itself at every pass: where it
returns, the variable has been iterated up to the first value that ends the loop. -/
theorem loopM_iterates {stuck : ε} {going : τ → Prop} [DecidablePred going]
    {body : τ → StateT σ (Except ε) PUnit} {next : τ → τ} {fuel : Nat} {start last : τ}
    {state final : σ}
    (returned : loopM stuck (fun here =>
        if going here then do
          body here
          return .next (next here)
        else return .done here) fuel start state = .ok (last, final)) :
    ∃ k, last = next^[k] start ∧ ∀ j < k, going (next^[j] start) := by
  induction fuel generalizing start state with
  | zero => cases returned
  | succ fuel ih =>
    rw [loopM] at returned
    by_cases more : going start
    · rw [if_pos more] at returned
      cases ran : body start state with
      | error reason =>
        rw [bind_error (bind_error ran)] at returned
        cases returned
      | ok out =>
        -- the rest of the run is the loop from the next value on
        have pass : (body start >>= fun _ => pure (.next (next start))) state =
            .ok ((.next (next start) : Step τ τ), out.2) := by
          rw [bind_returned ran]
          rfl
        rw [bind_returned pass] at returned
        obtain ⟨k, rfl, earlier⟩ := ih returned
        refine ⟨k + 1, rfl, fun j less => ?_⟩
        cases j with
        | zero => exact more
        | succ j => exact earlier j (by omega)
    · rw [if_neg more] at returned
      cases returned
      exact ⟨0, rfl, fun j less => absurd less (Nat.not_lt_zero j)⟩

/-- Where the run returns, `view` shows the same of the state as before. -/
def Keeps {γ : Type w} (view : σ → γ) (run : StateT σ (Except ε) α) : Prop :=
  ∀ state value final, run state = .ok (value, final) → view final = view state

section Keeps
variable {γ : Type w} {view : σ → γ} {run : StateT σ (Except ε) α}

theorem keeps_pure (value : α) : Keeps view (pure value : StateT σ (Except ε) α) := by
  intro state _ _ returned
  cases returned
  rfl

theorem Keeps.bind {next : α → StateT σ (Except ε) β} (first : Keeps view run)
    (rest : ∀ value, Keeps view (next value)) : Keeps view (run >>= next) := by
  intro state result last returned
  cases ran : run state with
  | error reason =>
    rw [bind_error ran] at returned
    cases returned
  | ok out =>
    rw [bind_returned ran] at returned
    exact (rest out.1 out.2 result last returned).trans (first state out.1 out.2 ran)

theorem keeps_ite {condition : Prop} [Decidable condition] {other : StateT σ (Except ε) α}
    (yes : Keeps view run) (no : Keeps view other) : Keeps view (if condition then run else other) := by
  split
  · exact yes
  · exact no

theorem keeps_loopM {stuck : ε} {step : τ → StateT σ (Except ε) (Step τ α)}
    (each : ∀ here, Keeps view (step here)) (fuel : Nat) (start : τ) :
    Keeps view (loopM stuck step fuel start) := by
  induction fuel generalizing start with
  | zero => exact fun _ _ _ returned => nomatch returned
  | succ fuel ih =>
    refine (each start).bind fun decision => ?_
    cases decision with
    | next further => exact ih further
    | done result => exact keeps_pure result

/-- What is kept, beside what is achieved. -/
theorem Triple.keeping {pre : σ → Prop} {post : α → σ → Prop} (triple : Triple pre run post)
    (keeps : Keeps view run) (state : σ) (start : pre state) :
    ∃ value final, run state = .ok (value, final) ∧ post value final ∧ view final = view state := by
  obtain ⟨value, final, returned, holds⟩ := triple state start
  exact ⟨value, final, returned, holds, keeps state value final returned⟩

end Keeps

end AoclLibmem.Base
