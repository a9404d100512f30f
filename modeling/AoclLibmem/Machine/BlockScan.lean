import AoclLibmem.Machine.Lanes
import AoclLibmem.Base.FirstHit

/-! Scanning memory one vector at a time. A probe of the block at an offset
yields a word marking its hits, or faults when the block cannot be read. -/

namespace AoclLibmem.Machine

open Base

/-- `probe` reads the `w`-byte block at each ready offset and finds the first hit of
the block; at every other offset it faults. -/
structure Probes {w : Nat} (probe : Nat → Exec (BitVec w)) (hit ready : Nat → Prop) : Prop where
  reads : ∀ offset, ready offset →
    ∃ word, probe offset = .ok word ∧ Finds word (fun i => hit (offset + i))
  faults : ∀ offset, ¬ ready offset → probe offset = .error .fault

/-- `count` unrolled probes: stop at the first nonzero word, with its offset. -/
def scanVecs {w : Nat} (probe : Nat → Exec (BitVec w)) : Nat → Nat → Exec (BitVec w × Nat)
  | 0, offset => pure (0#w, offset)
  | count + 1, offset => do
    let ret ← probe offset
    if ret ≠ 0#w then pure (ret, offset) else scanVecs probe count (offset + w)

section Scan
variable {w : Nat} {probe : Nat → Exec (BitVec w)} {hit ready : Nat → Prop} {exit : Trap → Prop}

theorem Finds.firstHit {word : BitVec w} {offset : Nat}
    (finds : Finds word (fun i => hit (offset + i))) (clear : ClearBelow hit offset)
    (nonzero : word ≠ 0#w) : FirstHit hit (tzcnt word + offset) := by
  obtain ⟨found, below⟩ := finds.first nonzero
  rw [Nat.add_comm]
  exact clear.first found below

theorem Finds.clear {word : BitVec w} {offset : Nat}
    (finds : Finds word (fun i => hit (offset + i))) (clear : ClearBelow hit offset)
    (zero : word = 0#w) : ClearBelow hit (offset + w) :=
  clear.extend (finds.none zero)

/-- A word that speaks for the first `width` lanes of a block only. -/
theorem Finds.firstHit_within {word : BitVec w} {offset width : Nat}
    (finds : Finds word (fun i => i < width ∧ hit (offset + i))) (clear : ClearBelow hit offset)
    (nonzero : word ≠ 0#w) : tzcnt word < width ∧ FirstHit hit (tzcnt word + offset) := by
  obtain ⟨⟨inside, found⟩, below⟩ := finds.first nonzero
  refine ⟨inside, ?_⟩
  rw [Nat.add_comm]
  exact clear.first found fun i less here => below i less ⟨by omega, here⟩

theorem Finds.clear_within {word : BitVec w} {offset width : Nat}
    (finds : Finds word (fun i => i < width ∧ hit (offset + i))) (clear : ClearBelow hit offset)
    (narrow : width ≤ w) (zero : word = 0#w) : ClearBelow hit (offset + width) :=
  clear.extend fun i below here => finds.none zero i (by omega) ⟨below, here⟩

theorem Finds.within {word : BitVec w} (finds : Finds word hit) :
    Finds word (fun i => i < w ∧ hit i) where
  none zero i below found := finds.none zero i below found.2
  first nonzero := by
    obtain ⟨found, below⟩ := finds.first nonzero
    exact ⟨⟨tzcnt_lt nonzero, found⟩, fun i less here => below i less here.2⟩

theorem Marks.first_within {word : BitVec w} {width : Nat}
    (marks : Marks word fun i => i < width ∧ hit i) (nonzero : word ≠ 0#w) :
    tzcnt word < width ∧ FirstHit hit (tzcnt word) := by
  obtain ⟨⟨below, found⟩, before⟩ := marks.first nonzero
  exact ⟨below, found, fun i less here => before i less ⟨by omega, here⟩⟩

theorem Marks.clear_within {word : BitVec w} {width : Nat}
    (marks : Marks word fun i => i < width ∧ hit i) (narrow : width ≤ w) (zero : word = 0#w) :
    ClearBelow hit width :=
  fun i less here => marks.none_iff.mp zero i (by omega) ⟨less, here⟩

theorem Probes.ends (probes : Probes probe hit ready) {offset : Nat} {post : BitVec w → Prop}
    (clear : ClearBelow hit offset)
    (found : ∀ word, ready offset → word ≠ 0#w → tzcnt word < w →
      FirstHit hit (tzcnt word + offset) → post word)
    (through : ready offset → ClearBelow hit (offset + w) → post 0#w)
    (stopped : ¬ ready offset → exit .fault) : Ends (probe offset) post exit := by
  by_cases here : ready offset
  · obtain ⟨word, read, finds⟩ := probes.reads offset here
    rw [read]
    by_cases zero : word = 0#w
    · subst zero
      exact through here (finds.clear clear rfl)
    · exact found word here zero (tzcnt_lt zero) (finds.firstHit clear zero)
  · rw [probes.faults offset here]
    exact stopped here

/-- The test every kernel makes of a block: leave with the first hit, or go on. -/
theorem Probes.test_ends (probes : Probes probe hit ready) {α : Type} (found : Nat → Exec α)
    {offset : Nat} {rest : Exec α} {post : α → Prop} (clear : ClearBelow hit offset)
    (onFound : ∀ idx, ready offset → offset ≤ idx → idx < offset + w → FirstHit hit idx →
      Ends (found idx) post exit)
    (through : ready offset → ClearBelow hit (offset + w) → Ends rest post exit)
    (stopped : ¬ ready offset → exit .fault) :
    Ends (do let ret ← probe offset; if ret ≠ 0#w then found (tzcnt ret + offset) else rest)
      post exit := by
  refine ends_bind.mpr (probes.ends clear ?_ ?_ stopped)
  · intro word here nonzero below first
    rw [if_pos nonzero]
    exact onFound _ here (by omega) (by omega) first
  · intro here further
    simpa using through here further

theorem Probes.scanVecs_ends (probes : Probes probe hit ready) {post : BitVec w × Nat → Prop}
    {count offset : Nat} (clear : ClearBelow hit offset)
    (found : ∀ j < count, ∀ word, word ≠ 0#w → tzcnt word < w →
      FirstHit hit (tzcnt word + (offset + j * w)) →
      (∀ i ≤ j, ready (offset + i * w)) → post (word, offset + j * w))
    (through : ClearBelow hit (offset + count * w) →
      (∀ i < count, ready (offset + i * w)) → post (0#w, offset + count * w))
    (stopped : ∀ j < count, ClearBelow hit (offset + j * w) → ¬ ready (offset + j * w) →
      exit .fault) : Ends (scanVecs probe count offset) post exit := by
  induction count generalizing offset with
  | zero =>
    simp only [scanVecs, ends_pure]
    simpa using through (by simpa using clear) (by simp)
  | succ count ih =>
    have shift (i : Nat) : offset + w + i * w = offset + (i + 1) * w := by
      rw [Nat.add_mul]; omega
    refine ends_bind.mpr (probes.ends clear ?_ ?_ ?_)
    · intro word here nonzero below first
      simp only [ne_eq, nonzero, not_false_eq_true, ↓reduceIte, ends_pure]
      have block := found 0 (by omega) word nonzero below (by simpa using first)
        (fun i le => by
          have zero : i = 0 := by omega
          simpa [zero] using here)
      simpa using block
    · intro here further
      simp only [ne_eq, not_true_eq_false, ↓reduceIte]
      refine ih further ?_ ?_ ?_
      · intro j less word nonzero below first readyUpTo
        rw [shift] at first ⊢
        refine found (j + 1) (by omega) word nonzero below first ?_
        intro i le
        cases i with
        | zero => simpa using here
        | succ i => simpa only [shift] using readyUpTo i (by omega)
      · intro all readyAll
        rw [shift] at all ⊢
        refine through all ?_
        intro i less
        cases i with
        | zero => simpa using here
        | succ i => simpa only [shift] using readyAll i (by omega)
      · intro j less before missing
        rw [shift] at before missing
        exact stopped (j + 1) (by omega) before missing
    · intro missing
      exact stopped 0 (by omega) (by simpa using clear) (by simpa using missing)

/-- How a scan up to `limit` comes out: it gets there and finds nothing, or its word and
its offset point to the first hit. -/
structure ScanOutcome (hit : Nat → Prop) (limit : Nat) (scan : BitVec w × Nat) : Prop where
  clear : scan.1 = 0#w → scan.2 = limit ∧ ClearBelow hit limit
  found : scan.1 ≠ 0#w → FirstHit hit (tzcnt scan.1 + scan.2)

theorem scanOutcome_clear {limit : Nat} (clear : ClearBelow hit limit) :
    ScanOutcome hit limit (0#w, limit) :=
  ⟨fun _ => ⟨rfl, clear⟩, fun nonzero => absurd rfl nonzero⟩

theorem scanOutcome_found {word : BitVec w} {offset limit : Nat} (nonzero : word ≠ 0#w)
    (first : FirstHit hit (tzcnt word + offset)) : ScanOutcome hit limit (word, offset) :=
  ⟨fun zero => absurd zero nonzero, fun _ => first⟩

/-- Unrolled probes of blocks that can all be read. -/
theorem Probes.scanVecs_outcome (probes : Probes probe hit ready) {count offset : Nat}
    (clear : ClearBelow hit offset) (here : ∀ j < count, ready (offset + j * w)) :
    Ends (scanVecs probe count offset) (ScanOutcome hit (offset + count * w)) exit := by
  apply probes.scanVecs_ends clear
  · intro j _ word nonzero _ first _
    exact scanOutcome_found nonzero first
  · intro further _
    exact scanOutcome_clear further
  · intro j less _ missing
    exact absurd (here j less) missing

end Scan

end AoclLibmem.Machine
