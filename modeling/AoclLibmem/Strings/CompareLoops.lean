import AoclLibmem.Strings.CompareSpec

/-! The loops that the comparison kernels share, over the probe of one vector
pair: four vectors a pass while a guard holds, then one vector a pass. Each
loop either lets the function return or hands an offset on. -/

namespace AoclLibmem.Strings

open Base Machine

def leave {σ : Type} (run : Exec Int) : Exec (Step σ Int) := do
  return .done (← run)

@[simp] theorem leave_ends {σ : Type} {run : Exec Int} {next : σ → Prop} {post : Int → Prop}
    {exit : Trap → Prop} :
    Ends (leave run) (Step.Holds next post) exit ↔ Ends run post exit := by
  cases run <;> rfl

section Loops
variable {w : Nat} (probe : Nat → Exec (BitVec w)) (size : Option Nat) (found : Nat → Exec Int)

/-- Strings of one alignment, four vectors a pass: `break` at a nonzero word. -/
def equalLoop4Step (offset : Nat) : Exec (Step Nat (Step Nat Int)) :=
  if sizeGuard size offset (4 * w) then do
    let scan ← scanVecs probe 4 offset
    if scan.1 ≠ 0#w then return .done (.next scan.2)
    else if sizeLe size scan.2 then return .done (.done 0)
    else return .next scan.2
  else return .done (.next offset)

def equalLoop4 (offset : Nat) : Exec (Step Nat Int) :=
  iterate .diverged (equalLoop4Step probe size) budget offset

def equalLoop1Step (offset : Nat) : Exec (Step Nat Int) := do
  let ret ← probe offset
  if ret ≠ 0#w then leave (found (tzcnt ret + offset))
  else if sizeLe size (offset + w) then return .done 0
  else return .next (offset + w)

def equalLoop1 (offset : Nat) : Exec Int :=
  iterate .diverged (equalLoop1Step probe size found) budget offset

/-- The case of equal alignment: `break` and the end of the first loop both lead to
the second. -/
def equalLoops (offset : Nat) : Exec Int := do
  match ← equalLoop4 probe size offset with
  | .done value => return value
  | .next offset => equalLoop1 probe size found offset

/-- Strings of different alignments, four vectors a pass while the unaligned one
has as many left in its page. -/
def pageLoop4Step (guard : Nat → Bool) (state : Nat × Nat) :
    Exec (Step (Nat × Nat) (Step (Nat × Nat) Int)) :=
  if 4 ≤ state.1 ∧ guard state.2 = true then do
    let scan ← scanVecs probe 4 state.2
    if scan.1 ≠ 0#w then
      let value ← found (tzcnt scan.1 + scan.2)
      return .done (.done value)
    else return .next (state.1 - 4, scan.2)
  else return .done (.next state)

def pageLoop4 (guard : Nat → Bool) (vecsInPage offset : Nat) : Exec (Step (Nat × Nat) Int) :=
  iterate .diverged (pageLoop4Step probe found guard) budget (vecsInPage, offset)

def pageLoop1 : Nat → Nat → Exec (Step Nat Int)
  | 0, offset => return .next offset
  | vecsInPage + 1, offset => do
    let ret ← probe offset
    if ret ≠ 0#w then leave (found (tzcnt ret + offset))
    else if sizeLe size (offset + w) then return .done 0
    else pageLoop1 vecsInPage (offset + w)

/-- One mis-aligned pass: both page loops, then `edge` for the bytes before the end of
the page. -/
def pageLoops (guard : Nat → Bool) (edge : Nat → Exec (Step Nat Int)) (vecsInPage offset : Nat) :
    Exec (Step Nat Int) := do
  match ← pageLoop4 probe found guard vecsInPage offset with
  | .done value => return .done value
  | .next (vecsInPage, offset) =>
    if sizeLe size offset then return .done 0
    else
      match ← pageLoop1 probe size found vecsInPage offset with
      | .done value => return .done value
      | .next offset => edge offset

end Loops

section Rules
variable {w : Nat} {probe : Nat → Exec (BitVec w)} {size : Option Nat} {found : Nat → Exec Int}
variable {hit ready : Nat → Prop} {exit : Trap → Prop}

theorem testBound_ends (probes : Probes probe hit ready) {rest : Exec (Step Nat Int)}
    {next : Nat → Prop} {post : Int → Prop} {offset bound : Nat} (here : ready offset)
    (clear : ClearBelow hit offset) (covered : bound ≤ offset + w)
    (onFound : ∀ idx < offset + w, FirstHit hit idx → Ends (found idx) post exit)
    (onReached : sizeLe size bound = true → ClearBelow hit bound → post 0)
    (onMore : sizeLe size bound = false → ClearBelow hit (offset + w) →
      Ends rest (Step.Holds next post) exit) :
    Ends (do
      let ret ← probe offset
      if ret ≠ 0#w then leave (found (tzcnt ret + offset))
      else if sizeLe size bound then return .done 0
      else rest) (Step.Holds next post) exit := by
  refine probes.test_ends (fun idx => leave (found idx)) clear ?_ ?_ ?_
  · intro idx _ _ below first
    exact leave_ends.mpr (onFound idx below first)
  · intro _ further
    apply Ends.ite
    · intro reached
      exact onReached reached (further.mono covered)
    · intro more
      exact onMore (by simpa using more) further
  · intro missing
    exact absurd here missing

theorem shift_block (start j i : Nat) : start + j * w + i * w = start + (j + i) * w := by
  rw [Nat.add_mul, Nat.add_assoc]

/-- The blocks read in earlier passes and the first of this one. -/
theorem ready_upTo {start j k : Nat} (before : ∀ i < j, ready (start + i * w))
    (here : ∀ i ≤ k, ready (start + j * w + i * w)) : ∀ i ≤ j + k, ready (start + i * w) := by
  intro i le
  by_cases old : i < j
  · exact before i old
  · have block := here (i - j) (by omega)
    rwa [shift_block, Nat.add_sub_of_le (by omega)] at block

/-- The four-vector loop, entered at `start`. It reads a block only while the
guard holds and, after the first pass, only below the bound. -/
private theorem equalLoop4_ends (probes : Probes probe hit ready) (width : 0 < w) {horizon : Nat}
    (range : horizon < budget)
    (bounded : EndsBelow hit size horizon)
    {start : Nat} (clear : ClearBelow hit start) {post : Step Nat Int → Prop}
    (broke : ∀ j idx, FirstHit hit idx → start + j * w ≤ idx → idx < start + j * w + w →
      (∀ i ≤ j, ready (start + i * w)) → post (.next (start + j * w)))
    (passed : ∀ j, ClearBelow hit (start + 4 * j * w) →
      sizeGuard size (start + 4 * j * w) (4 * w) = false →
      (0 < j → sizeLe size (start + 4 * j * w) = false) → post (.next (start + 4 * j * w)))
    (ended : ∀ j, 0 < j → ClearBelow hit (start + 4 * j * w) →
      sizeLe size (start + 4 * j * w) = true →
      (∀ i < 4 * j, ready (start + i * w)) → post (.done 0))
    (stopped : ∀ j, ∀ i < 4, sizeGuard size (start + 4 * j * w) (4 * w) = true →
      (0 < j → sizeLe size (start + 4 * j * w) = false) →
      ClearBelow hit (start + (4 * j + i) * w) → ¬ ready (start + (4 * j + i) * w) →
      exit .fault) :
    Ends (equalLoop4 probe size start) post exit := by
  refine iterate_ends (fun offset => ∃ j, offset = start + 4 * j * w ∧ ClearBelow hit offset ∧
    (0 < j → sizeLe size offset = false) ∧ ∀ i < 4 * j, ready (start + i * w))
    (fun offset => horizon - offset) ?_ ⟨0, by simp, clear, by simp, by simp⟩ (by omega)
  rintro offset ⟨j, rfl, clearHere, live, readyBefore⟩
  unfold equalLoop4Step
  split
  · rename_i guard
    refine ends_bind.mpr (probes.scanVecs_ends clearHere ?_ ?_ ?_)
    · intro k less word nonzero below first readyHere
      simp only [ne_eq, nonzero, not_false_eq_true, ↓reduceIte, ends_pure, Step.holds_done]
      rw [shift_block] at first ⊢
      exact broke (4 * j + k) _ first (by omega) (by omega) (ready_upTo readyBefore readyHere)
    · intro all readyHere
      have readyAll : ∀ i < 4 * (j + 1), ready (start + i * w) :=
        fun i less => ready_upTo (k := 3) readyBefore (fun i le => readyHere i (by omega)) i (by omega)
      have four : 4 * j + 4 = 4 * (j + 1) := by omega
      simp only [ne_eq, not_true_eq_false, ↓reduceIte]
      rw [shift_block, four] at all ⊢
      split
      · rename_i reached
        exact ended (j + 1) (by omega) all reached readyAll
      · rename_i inside
        have live' : sizeLe size (start + 4 * (j + 1) * w) = false := by simpa using inside
        refine ⟨⟨j + 1, rfl, all, fun _ => live', readyAll⟩, ?_⟩
        have advance : start + 4 * j * w < start + 4 * (j + 1) * w := by
          rw [← four, ← shift_block]; omega
        have limit := bounded _ all live'
        omega
    · intro k less before missing
      rw [shift_block] at before missing
      exact stopped j k less guard live before missing
  · rename_i closed
    exact passed j clearHere (by simpa using closed) live

private theorem equalLoop1_ends (probes : Probes probe hit ready) (width : 0 < w) {horizon : Nat}
    (range : horizon < budget)
    (bounded : EndsBelow hit size horizon)
    {start : Nat} (clear : ClearBelow hit start) {post : Int → Prop}
    (onFound : ∀ block idx, ready block → block ≤ idx → idx < block + w → FirstHit hit idx →
      Ends (found idx) post exit)
    (ended : ∀ offset, ClearBelow hit offset → sizeLe size offset = true → post 0)
    (stopped : ∀ j, ClearBelow hit (start + j * w) →
      (0 < j → sizeLe size (start + j * w) = false) → ¬ ready (start + j * w) → exit .fault) :
    Ends (equalLoop1 probe size found start) post exit := by
  refine iterate_ends (fun offset => ∃ j, offset = start + j * w ∧ ClearBelow hit offset ∧
    (0 < j → sizeLe size offset = false))
    (fun offset => horizon - offset) ?_ ⟨0, by simp, clear, by simp⟩ (by omega)
  rintro offset ⟨j, rfl, clearHere, live⟩
  have shift : start + j * w + w = start + (j + 1) * w := by
    rw [Nat.add_mul]; omega
  refine probes.test_ends (fun idx => leave (found idx)) clearHere ?_ ?_ ?_
  · intro idx here above below first
    rw [leave_ends]
    exact onFound _ _ here above below first
  · intro here further
    apply Ends.ite
    · intro reached
      exact ended _ further reached
    · intro inside
      have live' : sizeLe size (start + j * w + w) = false := by simpa using inside
      have limit := bounded _ further live'
      exact ⟨⟨j + 1, shift, further, fun _ => live'⟩, by omega⟩
  · exact stopped j clearHere live

private theorem pageLoop4_ends (probes : Probes probe hit ready) {guard : Nat → Bool}
    {vecs start : Nat}
    (range : vecs < budget) (clear : ClearBelow hit start) {post : Step (Nat × Nat) Int → Prop}
    (onFound : ∀ j < vecs, ∀ idx, start + j * w ≤ idx → idx < start + j * w + w →
      FirstHit hit idx → (∀ i ≤ j, ready (start + i * w)) →
      Ends (found idx) (fun value => post (.done value)) exit)
    (passed : ∀ j, 4 * j ≤ vecs → (vecs - 4 * j < 4 ∨ guard (start + 4 * j * w) = false) →
      ClearBelow hit (start + 4 * j * w) → (0 < j → guard (start + (4 * j - 4) * w) = true) →
      (∀ i < 4 * j, ready (start + i * w)) → post (.next (vecs - 4 * j, start + 4 * j * w)))
    (stopped : ∀ j, ∀ i < 4, 4 * j + 4 ≤ vecs → guard (start + 4 * j * w) = true →
      ClearBelow hit (start + (4 * j + i) * w) → ¬ ready (start + (4 * j + i) * w) →
      exit .fault) :
    Ends (pageLoop4 probe found guard vecs start) post exit := by
  refine iterate_ends (fun state => ∃ j, 4 * j ≤ vecs ∧ state = (vecs - 4 * j, start + 4 * j * w) ∧
    ClearBelow hit (start + 4 * j * w) ∧ (0 < j → guard (start + (4 * j - 4) * w) = true) ∧
    ∀ i < 4 * j, ready (start + i * w))
    (fun state => state.1) ?_ ⟨0, by simp, by simp, by simpa using clear, by simp, by simp⟩ range
  rintro state ⟨j, le, rfl, clearHere, opened, readyBefore⟩
  unfold pageLoop4Step
  split
  · rename_i enter
    refine ends_bind.mpr (probes.scanVecs_ends clearHere ?_ ?_ ?_)
    · intro k less word nonzero below first readyHere
      simp only [ne_eq, nonzero, not_false_eq_true, ↓reduceIte, ends_bind, ends_pure,
        Step.holds_done]
      rw [shift_block] at first ⊢
      have readyUpTo := ready_upTo readyBefore readyHere
      exact onFound (4 * j + k) (by omega) _ (by omega) (by omega) first readyUpTo
    · intro all readyHere
      have readyAll : ∀ i < 4 * (j + 1), ready (start + i * w) :=
        fun i less => ready_upTo (k := 3) readyBefore (fun i le => readyHere i (by omega)) i (by omega)
      simp only [ne_eq, not_true_eq_false, ↓reduceIte, ends_pure, Step.holds_next]
      rw [shift_block] at all ⊢
      have four : 4 * j + 4 = 4 * (j + 1) := by omega
      refine ⟨⟨j + 1, by omega, by rw [four]; congr 1, by rwa [← four], ?_, readyAll⟩,
        by omega⟩
      intro _
      have back : 4 * (j + 1) - 4 = 4 * j := by omega
      rw [back]
      exact enter.2
    · intro k less before missing
      rw [shift_block] at before missing
      exact stopped j k less (by omega) enter.2 before missing
  · rename_i closed
    refine passed j le ?_ clearHere opened readyBefore
    by_cases few : vecs - 4 * j < 4
    · exact .inl few
    · right
      simpa [Nat.not_lt.mp few] using closed

private theorem pageLoop1_ends (probes : Probes probe hit ready) {vecs start : Nat}
    (clear : ClearBelow hit start) (live : sizeLe size start = false)
    {post : Step Nat Int → Prop}
    (onFound : ∀ idx < start + vecs * w, FirstHit hit idx →
      Ends (found idx) (fun value => post (.done value)) exit)
    (ended : ∀ offset ≤ start + vecs * w, ClearBelow hit offset → sizeLe size offset = true →
      post (.done 0))
    (passed : ClearBelow hit (start + vecs * w) → sizeLe size (start + vecs * w) = false →
      post (.next (start + vecs * w)))
    (stopped : ∀ j < vecs, ClearBelow hit (start + j * w) → sizeLe size (start + j * w) = false →
      ¬ ready (start + j * w) → exit .fault) :
    Ends (pageLoop1 probe size found vecs start) post exit := by
  induction vecs generalizing start with
  | zero =>
    simp only [pageLoop1, ends_pure]
    simpa using passed (by simpa using clear) (by simpa using live)
  | succ vecs ih =>
    have shift (i : Nat) : start + w + i * w = start + (i + 1) * w := by
      rw [Nat.add_mul]; omega
    have covered : start + w ≤ start + (vecs + 1) * w := by rw [← shift]; omega
    refine probes.test_ends (fun idx => leave (found idx)) clear ?_ ?_ ?_
    · intro idx here above below first
      simp only [leave, ends_bind, ends_pure]
      exact onFound idx (by omega) first
    · intro here further
      apply Ends.ite
      · intro reached
        exact ended _ covered further reached
      · intro inside
        refine ih further (by simpa using inside) (by rwa [shift]) (by rwa [shift])
          (by rwa [shift]) ?_
        intro j less
        rw [shift]
        exact stopped (j + 1) (by omega)
    · intro missing
      exact stopped 0 (by omega) (by simpa using clear) (by simpa using live) (by simpa using missing)

/-- The four-vector loop of a pass has stopped after `j` rounds, all blocks read. -/
structure FourDone (guard : Nat → Bool) (ready : Nat → Prop) (w vecs start j : Nat) : Prop where
  within : 4 * j ≤ vecs
  rest : vecs - 4 * j < 4 ∨ guard (start + 4 * j * w) = false
  reads : ∀ i < 4 * j, ready (start + i * w)

/-- With a bound below four vectors the guard has wrapped and stays open, so the loop
stops for want of vectors only. -/
theorem FourDone.few {vecs start j n : Nat}
    (four : FourDone (fun offset => sizeGuard size offset (4 * w)) ready w vecs start j)
    (bound : n ∈ size) (small : n < 4 * w) (near : start + vecs * w + 4 * w < sizeRange) :
    vecs - 4 * j < 4 := by
  rcases four.rest with few | shut
  · exact few
  · have covered : 4 * j * w ≤ vecs * w := Nat.mul_le_mul_right w four.within
    rw [Option.mem_def] at bound
    rw [bound, sizeGuard_of_lt small (by omega) (by omega)] at shut
    exact Bool.noConfusion shut

/-- A whole pass, from the two loops and its edge. -/
theorem pageLoops_ends (probes : Probes probe hit ready) {guard : Nat → Bool} {vecs start : Nat}
    {edge : Nat → Exec (Step Nat Int)} (range : vecs < budget) (clear : ClearBelow hit start)
    (needed : ∀ j < vecs, ClearBelow hit (start + j * w) → sizeLe size (start + j * w) = false →
      ready (start + j * w)) {post : Step Nat Int → Prop}
    (onFound4 : ∀ j < vecs, ∀ idx, start + j * w ≤ idx → idx < start + j * w + w →
      FirstHit hit idx → (∀ i ≤ j, ready (start + i * w)) →
      Ends (found idx) (fun value => post (.done value)) exit)
    (onFound1 : ∀ j, FourDone guard ready w vecs start j → ∀ idx < start + vecs * w,
      FirstHit hit idx → Ends (found idx) (fun value => post (.done value)) exit)
    (ended : ∀ j, FourDone guard ready w vecs start j → ∀ offset ≤ start + vecs * w,
      ClearBelow hit offset → sizeLe size offset = true → post (.done 0))
    (onEdge : ∀ j, FourDone guard ready w vecs start j → sizeLe size (start + 4 * j * w) = false →
      ClearBelow hit (start + vecs * w) → sizeLe size (start + vecs * w) = false →
      Ends (edge (start + vecs * w)) post exit)
    (stopped : ∀ j, ∀ i < 4, 4 * j + 4 ≤ vecs → guard (start + 4 * j * w) = true →
      ClearBelow hit (start + (4 * j + i) * w) → ¬ ready (start + (4 * j + i) * w) →
      exit .fault) :
    Ends (pageLoops probe size found guard edge vecs start) post exit := by
  refine ends_bind.mpr (pageLoop4_ends probes range clear onFound4 ?_ stopped)
  intro j within rest before _ reads
  have four : FourDone guard ready w vecs start j := ⟨within, rest, reads⟩
  have whole : start + 4 * j * w + (vecs - 4 * j) * w = start + vecs * w := by
    rw [shift_block, Nat.add_sub_of_le within]
  apply Ends.ite
  · intro reached
    exact ended j four _ (by omega) before reached
  · intro more
    have inside : sizeLe size (start + 4 * j * w) = false := by simpa using more
    refine ends_bind.mpr (pageLoop1_ends probes before inside ?_ ?_ ?_ ?_)
    · intro idx below first
      exact onFound1 j four idx (by omega) first
    · intro offset le further reached
      exact ended j four offset (by omega) further reached
    · intro further live
      rw [whole] at further live ⊢
      exact onEdge j four inside further live
    · intro i less further live missing
      rw [shift_block] at further live missing
      exact absurd (needed (4 * j + i) (by omega) further live) missing

/-- One of the first four vectors is past the bound, reached with every byte before
it equal, and unreadable. -/
def EqualOverread (hit ready : Nat → Prop) (w n start : Nat) : Prop :=
  ∃ i < 4, n ≤ start + i * w ∧ ClearBelow hit (start + i * w) ∧ ¬ ready (start + i * w)

theorem EqualOverread.congr {other : Nat → Prop} {n start : Nat}
    (same : ∀ i < 4, ready (start + i * w) ↔ other (start + i * w)) :
    EqualOverread hit ready w n start ↔ EqualOverread hit other w n start := by
  refine exists_congr fun i => and_congr_right fun less => ?_
  rw [same i less]

/-- The equal-alignment loops read past the bound: it is below four vectors, where the
guard of the first loop wraps. -/
def EqualLoopsOverread (hit ready : Nat → Prop) (w : Nat) (size : Option Nat) (start : Nat) : Prop :=
  ∃ n ∈ size, n < 4 * w ∧ EqualOverread hit ready w n start

/-- The two equal-alignment loops compare the strings, unless they read past the bound. -/
theorem equalLoops_ends (probes : Probes probe hit ready) (width : 0 < w) (narrow : w ≤ 64)
    {horizon : Nat} (range : horizon < budget)
    (bounded : EndsBelow hit size horizon)
    (sizes : ∀ n ∈ size, n < sizeRange) {start : Nat} (near : start < 4 * w)
    (clear : ClearBelow hit start)
    (needed : ∀ j, ClearBelow hit (start + j * w) → sizeLe size (start + j * w) = false →
      ready (start + j * w)) {result : Int → Prop}
    (leaves : ∀ idx, FirstHit hit idx → Ends (found idx) result (fun _ => False))
    (ended : ∀ offset, ClearBelow hit offset → sizeLe size offset = true → result 0) :
    Ends (equalLoops probe size found start)
      (fun value => result value ∧ ¬ EqualLoopsOverread hit ready w size start)
      (fun trap => trap = .fault ∧ EqualLoopsOverread hit ready w size start) := by
  -- once no overread is possible any more, the one-vector loop runs to the end
  have tail (k : Nat) (fine : ¬ EqualLoopsOverread hit ready w size start)
      (before : ClearBelow hit (start + k * w)) (first : ready (start + k * w)) :
      Ends (equalLoop1 probe size found (start + k * w))
        (fun value => result value ∧ ¬ EqualLoopsOverread hit ready w size start)
        (fun trap => trap = .fault ∧ EqualLoopsOverread hit ready w size start) := by
    refine equalLoop1_ends probes width range bounded before ?_ ?_ ?_
    · intro block idx here above below hitFirst
      exact (leaves idx hitFirst).mono (fun _ good => ⟨good, fine⟩) fun _ none => none.elim
    · intro offset further reached
      exact ⟨ended offset further reached, fine⟩
    · intro j further live missing
      refine absurd ?_ missing
      by_cases zero : j = 0
      · simpa [zero] using first
      · rw [Nat.add_assoc, ← Nat.add_mul] at further live ⊢
        exact needed _ further (live (by omega))
  refine ends_bind.mpr (equalLoop4_ends probes width range bounded clear ?_ ?_ ?_ ?_)
  · intro j idx first above below readyUpTo
    refine tail j ?_ (first.2.mono above) (readyUpTo j (by omega))
    rintro ⟨n, _, _, i, _, _, reached, missing⟩
    have le := first.clear_le reached
    have within : i * w < (j + 1) * w := by rw [Nat.add_mul]; omega
    exact missing (readyUpTo i (by have less := Nat.lt_of_mul_lt_mul_right within; omega))
  · intro j before closed live
    have inside : sizeLe size (start + 4 * j * w) = false := by
      by_contra reached
      obtain ⟨n, bound, le⟩ := sizeLe_iff.mp (by simpa using reached)
      have first : j = 0 := by
        by_contra later
        exact reached (live (by omega))
      subst first bound
      rw [sizeGuard_of_lt (by omega) (by rw [sizeRange_eq]; omega)
        (by rw [sizeRange_eq]; omega)] at closed
      exact Bool.noConfusion closed
    refine tail (4 * j) ?_ before (needed _ before inside)
    rintro ⟨n, bound, small, _⟩
    subst bound
    have below := sizeLe_false.mp inside n rfl
    rw [sizeGuard_of_lt small (by rw [sizeRange_eq]; omega) (by rw [sizeRange_eq]; omega)] at closed
    exact Bool.noConfusion closed
  · intro j positive before reached readyBefore
    refine ⟨ended _ before reached, ?_⟩
    rintro ⟨n, _, _, i, less, _, _, missing⟩
    exact missing (readyBefore i (by omega))
  · intro j i less opened live before missing
    have past : sizeLe size (start + (4 * j + i) * w) = true := by
      by_contra inside
      exact missing (needed _ before (by simpa using inside))
    obtain ⟨n, bound, le⟩ := sizeLe_iff.mp past
    subst bound
    have within : (4 * j + i) * w + w ≤ 4 * j * w + 4 * w := by
      rw [← Nat.succ_mul, ← Nat.add_mul]
      exact Nat.mul_le_mul_right w (by omega)
    have small : n < 4 * w := lt_span_of_sizeGuard (sizes n rfl) opened le (by omega)
    have first : j = 0 := by
      by_contra later
      have inside := sizeLe_false.mp (live (by omega)) n rfl
      have passed : 4 * w ≤ 4 * j * w := Nat.mul_le_mul_right w (by omega)
      omega
    rw [first, Nat.mul_zero, Nat.zero_add] at le before missing
    exact ⟨rfl, n, rfl, small, i, less, le, before, missing⟩

end Rules

section Strings
variable {m : PagedMemory} {w str1 str2 : Nat} {size : Option Nat} {probe : Nat → Exec (BitVec w)}

/-- The equal-alignment loops over two strings: an aligned pair of vectors can be loaded just where
the pair of bytes at its start can. -/
theorem alignedLoops_ends (divides : w ∣ 4096) (width : 0 < w) (narrow : w ≤ 64)
    (probes : Probes probe (Decides m.byte str1 str2) fun offset =>
      m.AlignedRead w (str1 + offset) ∧ m.AlignedRead w (str2 + offset))
    (needs : Needs m.toMemory str1 str2 size) {horizon start : Nat} (range : horizon < budget)
    (bounded : EndsBelow (Decides m.byte str1 str2) size horizon)
    (sizes : ∀ n ∈ size, n < sizeRange) (near : start < 4 * w) (boundary1 : (str1 + start) % w = 0)
    (boundary2 : (str2 + start) % w = 0) (clear : ClearBelow (Decides m.byte str1 str2) start) :
    let overread := EqualLoopsOverread (Decides m.byte str1 str2)
      (BothReadable m.toMemory str1 str2) w size start
    Ends (equalLoops probe size (returnVal m.toMemory size str1 str2) start)
      (fun value => Compares m.byte str1 str2 size value ∧ ¬ overread)
      (fun trap => trap = .fault ∧ overread) := by
  intro overread
  let ready (offset : Nat) := m.AlignedRead w (str1 + offset) ∧ m.AlignedRead w (str2 + offset)
  have block {str : Nat} (boundary : (str + start) % w = 0) (j : Nat) :
      (str + (start + j * w)) % w = 0 := by
    rw [← Nat.add_assoc, Nat.add_mul_mod_self_right, boundary]
  have ready_iff (j : Nat) :
      ready (start + j * w) ↔ BothReadable m.toMemory str1 str2 (start + j * w) :=
    and_congr (PagedMemory.alignedRead_iff (block boundary1 j) divides)
      (PagedMemory.alignedRead_iff (block boundary2 j) divides)
  have same : EqualLoopsOverread (Decides m.byte str1 str2) ready w size start ↔ overread :=
    exists_congr fun n => and_congr_right fun _ => and_congr_right fun _ =>
      EqualOverread.congr fun i _ => ready_iff i
  simp only [← same]
  exact equalLoops_ends probes width narrow range bounded sizes near clear
    (fun j further inside => (ready_iff j).mpr (needs _ further inside))
    (fun idx hit => returnVal_ends needs hit)
    (fun offset further reached => compares_of_sizeLe reached further)

end Strings

/-- A run that stops just where it reads past its bound. -/
theorem returns_iff_of_overreads {run : Exec Int} {right : Int → Prop} {overreads : Nat → Prop}
    {n : Nat} (ends : Ends run (fun value => right value ∧ ¬ ∃ k ∈ some n, overreads k)
      fun trap => trap = .fault ∧ ∃ k ∈ some n, overreads k) :
    (∃ value, run = .ok value) ↔ ¬ overreads n := by
  simp only [Option.mem_def, Option.some_inj, exists_eq_left'] at ends
  constructor
  · rintro ⟨value, returned⟩
    exact (ends.of_ok returned).2
  · intro fine
    obtain ⟨value, returned, _⟩ :=
      (ends.mono (fun _ good => good.1) fun _ stop => fine stop.2 : Ends _ _ fun _ => False).returns
    exact ⟨value, returned⟩

end AoclLibmem.Strings
