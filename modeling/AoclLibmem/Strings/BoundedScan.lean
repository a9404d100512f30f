import AoclLibmem.Strings.SearchSpec

/-! What `strnlen` has to return, and the loops of its kernels: each of them goes on while a
whole block fits below `maxlen`, and keeps the variables `ret` and `offset`. -/

namespace AoclLibmem.Strings

open Base Machine

/-- The lesser of `maxlen` and the index of the first NUL. -/
structure IsBoundedLength (byte : Nat → UInt8) (str maxlen len : Nat) : Prop where
  within : len ≤ maxlen
  clear : ClearBelow (fun i => byte (str + i) = 0) len
  ends : len < maxlen → byte (str + len) = 0

section Spec
variable {byte : Nat → UInt8} {str maxlen len pos : Nat}

theorem boundedLength_of_isLength (first : IsLength byte str pos) (inside : pos ≤ maxlen) :
    IsBoundedLength byte str maxlen pos :=
  ⟨inside, first.2, fun _ => first.1⟩

theorem boundedLength_of_clear (clear : ClearBelow (fun i => byte (str + i) = 0) maxlen) :
    IsBoundedLength byte str maxlen maxlen :=
  ⟨Nat.le_refl _, clear, fun less => absurd less (Nat.lt_irrefl _)⟩

theorem IsBoundedLength.clear_le (bounded : IsBoundedLength byte str maxlen len) {k : Nat}
    (clear : ClearBelow (fun i => byte (str + i) = 0) k) (inside : k ≤ maxlen) : k ≤ len := by
  rcases Nat.lt_or_ge len maxlen with less | full
  · exact clear.le_hit (bounded.ends less)
  · omega

theorem IsBoundedLength.unique (first : IsBoundedLength byte str maxlen len)
    (second : IsBoundedLength byte str maxlen pos) : len = pos :=
  Nat.le_antisymm (second.clear_le first.clear first.within) (first.clear_le second.clear second.within)

end Spec

/-- The bytes a scan bounded by `maxlen` has to look at are readable. -/
def BoundedNeeds (m : Memory) (str maxlen : Nat) : Prop :=
  ∀ k < maxlen, ClearBelow (fun i => m.byte (str + i) = 0) k → m.readable (str + k) = true

/-- The scan never comes within a page of the end of the `size_t` range, so that none of its
sums wraps. -/
def Room (byte : Nat → UInt8) (str maxlen : Nat) : Prop :=
  ∀ k ≤ maxlen, ClearBelow (fun i => byte (str + i) = 0) k → k + pageSz ≤ sizeRange

theorem IsBoundedLength.needs {m : Memory} {str maxlen len : Nat}
    (bounded : IsBoundedLength m.byte str maxlen len)
    (mapped : ∀ i < maxlen, i ≤ len → m.readable (str + i) = true) : BoundedNeeds m str maxlen :=
  fun k below clear => mapped k below (bounded.clear_le clear (Nat.le_of_lt below))

theorem IsBoundedLength.room {byte : Nat → UInt8} {str maxlen len : Nat}
    (bounded : IsBoundedLength byte str maxlen len) (room : len + pageSz ≤ sizeRange) :
    Room byte str maxlen := by
  intro k inside clear
  have before := bounded.clear_le clear inside
  omega

theorem Room.add_lt {byte : Nat → UInt8} {str maxlen k span : Nat} (room : Room byte str maxlen)
    (within : k ≤ maxlen) (clear : ClearBelow (fun i => byte (str + i) = 0) k)
    (span_lt : span < pageSz) : k + span < sizeRange :=
  Nat.lt_of_lt_of_le (Nat.add_lt_add_left span_lt k) (room k within clear)

theorem returns_length {run : Exec Nat} {byte : Nat → UInt8} {str len : Nat}
    (ends : Ends run (IsLength byte str) fun _ => False) (first : IsLength byte str len) :
    run = .ok len := by
  obtain ⟨result, returned, found⟩ := ends.returns
  rw [returned, FirstHit.unique found first]

theorem returns_boundedLength {run : Exec Nat} {byte : Nat → UInt8} {str maxlen len : Nat}
    (ends : Ends run (IsBoundedLength byte str maxlen) fun _ => False)
    (bounded : IsBoundedLength byte str maxlen len) : run = .ok len := by
  obtain ⟨result, returned, found⟩ := ends.returns
  rw [returned, found.unique bounded]

/-- `(pos < maxlen) ? pos : maxlen`. -/
def clip (maxlen pos : Nat) : Nat := if pos < maxlen then pos else maxlen

theorem clip_bounded {byte : Nat → UInt8} {str maxlen pos : Nat} (first : IsLength byte str pos) :
    IsBoundedLength byte str maxlen (clip maxlen pos) := by
  unfold clip
  split
  · rename_i less
    exact boundedLength_of_isLength first (Nat.le_of_lt less)
  · rename_i beyond
    exact boundedLength_of_clear (first.2.mono (by omega))

/-- The same for a position that a kernel computes from an address. -/
theorem clip_found {byte : Nat → UInt8} {str maxlen pos idx : Nat} (first : IsLength byte str idx)
    (same : pos = idx) : IsBoundedLength byte str maxlen (clip maxlen pos) := by
  rw [same]
  exact clip_bounded first

section LastBlock
variable {byte : Nat → UInt8} {str maxlen offset rem w : Nat} {word : BitVec w} {exit : Trap → Prop}

/-- The last block without a NUL among its `rem` bytes below `maxlen`. -/
theorem lastBlock_clear (finds : Finds word fun i => i < rem ∧ byte (str + (offset + i)) = 0)
    (clear : ClearBelow (fun i => byte (str + i) = 0) offset) (narrow : rem ≤ w)
    (whole : offset + rem = maxlen) (zero : word = 0#w) : IsBoundedLength byte str maxlen maxlen := by
  have further := finds.clear_within clear narrow zero
  rw [whole] at further
  exact boundedLength_of_clear further

theorem lastBlock_ends (finds : Finds word fun i => i < rem ∧ byte (str + (offset + i)) = 0)
    (clear : ClearBelow (fun i => byte (str + i) = 0) offset) (narrow : rem ≤ w)
    (whole : offset + rem = maxlen) :
    Ends (if word ≠ 0#w then pure (tzcnt word + offset) else pure maxlen)
      (IsBoundedLength byte str maxlen) exit := by
  apply Ends.iteNe
  · intro nonzero
    obtain ⟨inside, first⟩ := finds.firstHit_within clear nonzero
    exact boundedLength_of_isLength first (by omega)
  · intro zero
    exact lastBlock_clear finds clear narrow whole zero

end LastBlock

section Loops
variable {w : Nat} (maxlen : Nat) (pass : Nat → Exec (Step (BitVec w) Nat))

/-- One round of `while (offset + span <= maxlen)`: the pass over the block at `offset`
returns a position, or leaves a new `ret`. -/
def fitStep (span : Nat) (state : BitVec w × Nat) :
    Exec (Step (BitVec w × Nat) (Step (BitVec w × Nat) Nat)) :=
  if addSize state.2 span ≤ maxlen then do
    match ← pass state.2 with
    | .done pos => return .done (.done pos)
    | .next ret => return .next (ret, state.2 + span)
  else return .done (.next state)

def fitLoop (span : Nat) (state : BitVec w × Nat) : Exec (Step (BitVec w × Nat) Nat) :=
  iterate .diverged (fitStep maxlen pass span) budget state

/-- From `main_loop_with_offset` on: four vectors a pass, one vector a pass, and what is left. -/
def fitMain (four one : Nat → Exec (Step (BitVec w) Nat)) (last : Nat → Exec Nat) (vec4Sz vecSz : Nat)
    (state : BitVec w × Nat) : Exec Nat := do
  match ← fitLoop maxlen four vec4Sz state with
  | .done pos => return pos
  | .next (ret, offset) =>
    -- `ret` is from before the loop, and no vectors are there to look at
    if ret ≠ 0#w then throw .fault
    else
      match ← fitLoop maxlen one vecSz (ret, offset) with
      | .done pos => return pos
      | .next (_, offset) => last offset

/-- `while (cnt_vec-- && offset + span <= maxlen)`. -/
def fitVecs (span : Nat) : Nat → BitVec w × Nat → Exec (Step (BitVec w × Nat) Nat)
  | 0, state => return .next state
  | cntVec + 1, state =>
    if addSize state.2 span ≤ maxlen then do
      match ← pass state.2 with
      | .done pos => return .done pos
      | .next ret => fitVecs span cntVec (ret, state.2 + span)
    else return .next state

end Loops

section Rules
variable {w maxlen span : Nat} {pass : Nat → Exec (Step (BitVec w) Nat)} {byte : Nat → UInt8}
variable {str : Nat} {place : Nat → Prop} {exit : Trap → Prop}

/-- Where the loops stand: nothing has been found, and `offset` has not passed `maxlen`. -/
structure Scanned (byte : Nat → UInt8) (str maxlen : Nat) (place : Nat → Prop)
    (state : BitVec w × Nat) : Prop where
  quiet : state.1 = 0#w
  within : state.2 ≤ maxlen
  clear : ClearBelow (fun i => byte (str + i) = 0) state.2
  place : place state.2

/-- What the pass over a block has to do wherever a loop can call it. -/
def Passes (byte : Nat → UInt8) (str maxlen span : Nat) (place : Nat → Prop)
    (pass : Nat → Exec (Step (BitVec w) Nat)) (exit : Trap → Prop) : Prop :=
  ∀ offset, offset + span ≤ maxlen → place offset →
    ClearBelow (fun i => byte (str + i) = 0) offset →
    Ends (pass offset)
      (Step.Holds (fun ret => ret = 0#w ∧ place (offset + span) ∧
        ClearBelow (fun i => byte (str + i) = 0) (offset + span))
        (IsBoundedLength byte str maxlen)) exit

/-- One round goes on behind a clear block, returns, or stops where no block fits. -/
private theorem fitStep_ends (passes : Passes byte str maxlen span place pass exit)
    {state : BitVec w × Nat} (here : Scanned byte str maxlen place state)
    (room : Room byte str maxlen) (span_lt : span < pageSz) :
    Ends (fitStep maxlen pass span state)
      (Step.Holds (fun next => Scanned byte str maxlen place next ∧ next.2 = state.2 + span)
        (Step.Holds (fun last => last = state ∧ maxlen < state.2 + span)
          (IsBoundedLength byte str maxlen))) exit := by
  obtain ⟨quiet, within, clear, placed⟩ := here
  rw [fitStep, addSize_of_lt (room.add_lt within clear span_lt)]
  refine ends_ite.mpr ⟨fun fits => ?_, fun narrow => ⟨rfl, by omega⟩⟩
  refine (passes _ fits placed clear).bind fun decision holds => ?_
  cases decision with
  | done pos => exact holds
  | next ret => exact ⟨⟨holds.1, fits, holds.2.2, holds.2.1⟩, rfl⟩

/-- The whole loop ends with less than a block below `maxlen`. -/
theorem fitLoop_ends (passes : Passes byte str maxlen span place pass exit) (positive : 0 < span)
    (range : maxlen < sizeRange) (room : Room byte str maxlen) (span_lt : span < pageSz)
    {state : BitVec w × Nat} (start : Scanned byte str maxlen place state) :
    Ends (fitLoop maxlen pass span state)
      (Step.Holds (fun last => Scanned byte str maxlen place last ∧ maxlen < last.2 + span)
        (IsBoundedLength byte str maxlen)) exit := by
  refine iterate_ends (Scanned byte str maxlen place) (fun state => maxlen - state.2) ?_ start ?_
  · intro state here
    refine (fitStep_ends passes here room span_lt).imp fun decision holds => ?_
    cases decision with
    | next next =>
      obtain ⟨there, advance⟩ := holds
      have within := there.within
      exact ⟨there, by omega⟩
    | done result =>
      cases result with
      | next last =>
        obtain ⟨rfl, narrow⟩ := holds
        exact ⟨here, narrow⟩
      | done pos => exact holds
  · rw [sizeRange_eq] at range
    unfold budget
    omega

/-- A counted loop ends after its count, or with less than a block below `maxlen`. -/
theorem fitVecs_ends (passes : Passes byte str maxlen span place pass exit)
    (room : Room byte str maxlen) (span_lt : span < pageSz)
    {cntVec : Nat} {state : BitVec w × Nat} (start : Scanned byte str maxlen place state) :
    Ends (fitVecs maxlen pass span cntVec state)
      (Step.Holds (fun last => Scanned byte str maxlen place last ∧
          (last.2 = state.2 + cntVec * span ∨ maxlen < last.2 + span))
        (IsBoundedLength byte str maxlen)) exit := by
  induction cntVec generalizing state with
  | zero => exact ⟨start, .inl (by omega)⟩
  | succ cntVec ih =>
    rw [fitVecs, addSize_of_lt (room.add_lt start.within start.clear span_lt)]
    refine ends_ite.mpr ⟨fun fits => ?_, fun narrow => ⟨start, .inr (by omega)⟩⟩
    refine (passes _ fits start.place start.clear).bind fun decision holds => ?_
    cases decision with
    | done pos => exact holds
    | next ret =>
      obtain ⟨quiet, placed, clear⟩ := holds
      refine (ih ⟨quiet, fits, clear, placed⟩).imp fun result reached => ?_
      cases result with
      | done pos => exact reached
      | next last =>
        obtain ⟨there, stop⟩ := reached
        refine ⟨there, stop.imp_left fun count => ?_⟩
        rw [count, Nat.succ_mul, Nat.add_assoc, Nat.add_comm span]

/-- Where the main loop stands: at a multiple of the vector, and of four vectors whenever it
makes a pass over four. -/
def MainPlace (vec str maxlen k : Nat) : Prop :=
  (str + k) % vec = 0 ∧ (k + 4 * vec ≤ maxlen → (str + k) % (4 * vec) = 0)

/-- Behind both loops less than a vector is left below `maxlen`. -/
theorem fitMain_ends {four one : Nat → Exec (Step (BitVec w) Nat)} {last : Nat → Exec Nat}
    (vector : w = 32 ∨ w = 64)
    (passes4 : Passes byte str maxlen (4 * w) (MainPlace w str maxlen) four exit)
    (passes1 : Passes byte str maxlen w (fun k => (str + k) % w = 0) one exit)
    (range : maxlen < sizeRange) (room : Room byte str maxlen) {state : BitVec w × Nat}
    (start : Scanned byte str maxlen (MainPlace w str maxlen) state)
    (ends : ∀ offset, Scanned byte str maxlen (fun k => (str + k) % w = 0) (0#w, offset) →
      maxlen < offset + w → Ends (last offset) (IsBoundedLength byte str maxlen) exit) :
    Ends (fitMain maxlen four one last (4 * w) w state) (IsBoundedLength byte str maxlen) exit := by
  have positive : 0 < w := by omega
  have inPage : 4 * w < pageSz := by
    unfold pageSz
    omega
  apply (fitLoop_ends passes4 (by omega) range room inPage start).bind
  intro result reached
  cases result with
  | done pos => exact reached
  | next state =>
    obtain ⟨⟨quiet, within, clear, placed⟩, _⟩ := reached
    apply Ends.ite
    · intro stale
      exact absurd quiet stale
    · intro _
      apply (fitLoop_ends passes1 positive range room (by omega) ⟨quiet, within, clear, placed.1⟩).bind
      intro result reached
      cases result with
      | done pos => exact reached
      | next state =>
        obtain ⟨⟨_, within, clear, aligned⟩, narrow⟩ := reached
        exact ends state.2 ⟨rfl, within, clear, aligned⟩ narrow

end Rules

end AoclLibmem.Strings
