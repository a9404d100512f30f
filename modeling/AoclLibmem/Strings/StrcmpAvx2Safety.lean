import AoclLibmem.Strings.StrcmpAvx2

/-! What the AVX2 comparison reads and returns, for every page map. Both builds
return what the specification requires; the build with a bound reads past it in
one situation, stated exactly by `OverreadsAvx2`. -/

namespace AoclLibmem.Strings

open Base Machine

section Words
variable {n k : Nat} {y1 y2 : Lanes n} {hit : Nat → Prop}

private theorem getLsbD_cmpNull_mask (i : Fin n) :
    (movemaskEpi8 (andSi (cmpeqEpi8 y1 y2) (andnotSi (cmpeqEpi8 y1 setzero) (set1 0xFF)))).getLsbD i
      = (y1 i == y2 i && y1 i != 0) := by
  apply getLsbD_movemask_full
  have ones : (0xFF : UInt8) = full true := rfl
  simp only [andSi, andnotSi, cmpeqEpi8, set1, setzero]
  rw [ones, full_not_and, full_and, Bool.and_true]
  rfl

/-- The incremented mask, cut to its first `k` bits, finds the first deciding lane. -/
private theorem cmpNull_finds (inside : k ≤ n) {keep : BitVec n}
    (keeps : ∀ i < n, keep.getLsbD i = decide (i < k))
    (lane : ∀ i : Fin n, i.val < k → ((y1 i ≠ y2 i ∨ y1 i = 0) ↔ hit i)) :
    Finds (cmpNull y1 y2 &&& keep) (fun i => i < k ∧ hit i) := by
  rw [cmpNull]
  generalize same : movemaskEpi8
    (andSi (cmpeqEpi8 y1 y2) (andnotSi (cmpeqEpi8 y1 setzero) (set1 0xFF))) = mask
  have bit : ∀ i < k, mask.getLsbD i = true ↔ ¬ hit i := by
    intro i below
    rw [← lane ⟨i, by omega⟩ below, ← same, getLsbD_cmpNull_mask ⟨i, by omega⟩]
    simp
  have kept (i : Nat) : (mask + 1#n &&& keep).getLsbD i
      = ((mask + 1#n).getLsbD i && decide (i < k ∧ i < n)) := by
    rw [BitVec.getLsbD_and]
    by_cases lanes : i < n
    · rw [keeps i lanes]
      simp [lanes]
    · simp [BitVec.getLsbD_of_ge _ _ (Nat.not_lt.mp lanes)]
  rcases clear_or_firstHit hit k with clear | ⟨index, below, first⟩
  · have zero : mask + 1#n &&& keep = 0#n := by
      apply eq_zero_iff_getLsbD.mpr
      intro i lanes
      rw [kept i, getLsbD_add_one lanes]
      by_cases low : i < k
      · rw [(bit i low).mpr (clear i low)]
        simpa [low, lanes] using fun j less => (bit j (by omega)).mpr (clear j (by omega))
      · simp [low]
    exact ⟨fun _ i _ found => clear i found.1 found.2, fun nonzero => absurd zero nonzero⟩
  · have unset : mask.getLsbD index = false := by
      rw [← Bool.not_eq_true, bit index below]
      exact not_not.mpr first.1
    have lower : ∀ j < index, mask.getLsbD j = true :=
      fun j less => (bit j (by omega)).mpr (first.2 j less)
    have set : (mask + 1#n &&& keep).getLsbD index = true := by
      rw [kept index, getLsbD_add_one (by omega), unset]
      simpa [below, Nat.lt_of_lt_of_le below inside] using lower
    have count : tzcnt (mask + 1#n &&& keep) = index := by
      refine ctz_eq_of_lowest set ?_
      intro j less
      have filled : ∀ i < j, mask.getLsbD i = true := fun i before => lower i (by omega)
      rw [kept j, getLsbD_add_one (by omega), lower j less, decide_eq_true filled]
      rfl
    refine ⟨fun zero => by simp [zero] at set, fun _ => ?_⟩
    rw [count]
    exact ⟨⟨below, first.1⟩, fun i less found => first.2 i less found.2⟩

end Words

section Kernel
variable {m : Memory} {str1 str2 : Nat}

private theorem loadLow_eq {k : Nat} {addr : Nat} (rights : m.canRead addr k = true) :
    ∃ low, loadLow m k addr = .ok low ∧ ∀ i : Fin 16, i.val < k → low i = m.byte (addr + i) := by
  rw [loadLow, Memory.loadu_eq rights]
  refine ⟨_, rfl, ?_⟩
  intro i inside
  simp only [inside, ↓reduceDIte, Memory.lanes_apply]

private theorem cmpXmm_eq {k : Nat} {keep : BitVec 16} (narrow : k ≤ 16)
    (keeps : ∀ i < 16, keep.getLsbD i = decide (i < k)) (rights1 : m.canRead str1 k = true)
    (rights2 : m.canRead str2 k = true) :
    ∃ word, cmpXmm m k keep str1 str2 = .ok word ∧
      Finds word (fun i => i < k ∧ Decides m.byte str1 str2 i) := by
  obtain ⟨low1, read1, lanes1⟩ := loadLow_eq rights1
  obtain ⟨low2, read2, lanes2⟩ := loadLow_eq rights2
  rw [cmpXmm, read1, read2]
  refine ⟨_, rfl, cmpNull_finds narrow keeps ?_⟩
  intro i inside
  rw [lanes1 i inside, lanes2 i inside, Decides]

/-- The outcome of a short comparison of `size` bytes. -/
def ShortOutcome (byte : Nat → UInt8) (str1 str2 : Nat) (size idx : Nat) : Prop :=
  (idx = 32 ∧ ClearBelow (Decides byte str1 str2) size) ∨
    (idx < size ∧ FirstHit (Decides byte str1 str2) idx)

/-- A short comparison that starts where the strings are known to be equal. -/
theorem ShortOutcome.shift {byte : Nat → UInt8} {offset size idx : Nat}
    (outcome : ShortOutcome byte (str1 + offset) (str2 + offset) size idx)
    (clear : ClearBelow (Decides byte str1 str2) offset) :
    (idx = 32 ∧ ClearBelow (Decides byte str1 str2) (offset + size)) ∨
      (idx < size ∧ FirstHit (Decides byte str1 str2) (offset + idx)) := by
  rcases outcome with ⟨equal, rest⟩ | ⟨inside, found, before⟩
  · exact .inl ⟨equal, clear.extend fun j less hit =>
      rest j less ((decides_add _ _ _ _ _).mpr hit)⟩
  · exact .inr ⟨inside, clear.first ((decides_add _ _ _ _ _).mp found) fun j less hit =>
      before j less ((decides_add _ _ _ _ _).mpr hit)⟩

theorem cmpHeadTail_ends {k size : Nat} {keep : BitVec 16} {exit : Trap → Prop} (narrow : k ≤ 16)
    (keeps : ∀ i < 16, keep.getLsbD i = decide (i < k)) (covers : k ≤ size ∧ size ≤ 2 * k)
    (rights1 : m.canRead str1 size = true) (rights2 : m.canRead str2 size = true) :
    Ends (cmpHeadTail m k keep str1 str2 size) (ShortOutcome m.byte str1 str2 size) exit := by
  rw [Memory.canRead_iff] at rights1 rights2
  have head1 : m.canRead str1 k = true :=
    Memory.canRead_iff.mpr fun i below => rights1 i (by omega)
  have head2 : m.canRead str2 k = true :=
    Memory.canRead_iff.mpr fun i below => rights2 i (by omega)
  have tail1 : m.canRead (str1 + (size - k)) k = true := by
    refine Memory.canRead_iff.mpr fun i below => ?_
    rw [Nat.add_assoc]
    exact rights1 _ (by omega)
  have tail2 : m.canRead (str2 + (size - k)) k = true := by
    refine Memory.canRead_iff.mpr fun i below => ?_
    rw [Nat.add_assoc]
    exact rights2 _ (by omega)
  obtain ⟨head, readHead, findsHead⟩ := cmpXmm_eq narrow keeps head1 head2
  obtain ⟨tail, readTail, findsTail⟩ := cmpXmm_eq narrow keeps tail1 tail2
  simp only [cmpHeadTail, readHead, readTail]
  simp only [bind, Except.bind]
  split
  · rename_i nonzero
    obtain ⟨found, before⟩ := findsHead.first nonzero
    have inside := found.1
    exact .inr ⟨by omega, found.2, fun i less hit => before i less ⟨by omega, hit⟩⟩
  · rename_i zero
    have clearHead : ClearBelow (Decides m.byte str1 str2) k :=
      fun i below hit => findsHead.none (not_not.mp zero) i (by omega) ⟨below, hit⟩
    split
    · rename_i nonzero
      obtain ⟨found, before⟩ := findsTail.first nonzero
      have inside := found.1
      refine .inr ⟨by omega, (decides_add _ _ _ _ _).mp found.2, ?_⟩
      intro i less hit
      by_cases old : i < k
      · exact clearHead i old hit
      · refine before (i - (size - k)) (by omega) ⟨by omega, (decides_add _ _ _ _ _).mpr ?_⟩
        rwa [Nat.add_sub_of_le (by omega)]
    · rename_i zeroTail
      refine .inl ⟨rfl, ?_⟩
      intro i below hit
      by_cases old : i < k
      · exact clearHead i old hit
      · refine findsTail.none (not_not.mp zeroTail) (i - (size - k)) (by omega)
          ⟨by omega, (decides_add _ _ _ _ _).mpr ?_⟩
        rwa [Nat.add_sub_of_le (by omega)]

theorem strcmpBleYmm_ends {size : Nat} {exit : Trap → Prop} (covers : 1 ≤ size ∧ size ≤ 32)
    (rights1 : m.canRead str1 size = true) (rights2 : m.canRead str2 size = true) :
    Ends (strcmpBleYmm m str1 str2 size) (ShortOutcome m.byte str1 str2 size) exit := by
  unfold strcmpBleYmm
  simp only [ends_ite]
  simp only [wordSz, dwordSz, qwordSz, xmmSz]
  refine ⟨?_, fun many => ⟨?_, fun _ => ⟨?_, fun _ => ⟨?_, fun _ => ⟨?_, fun _ => ?_⟩⟩⟩⟩⟩
  · rintro rfl
    have first1 : m.readable str1 = true := Memory.canRead_iff.mp rights1 0 (by omega)
    have first2 : m.readable str2 = true := Memory.canRead_iff.mp rights2 0 (by omega)
    rw [Memory.byteAt_eq first1, Memory.byteAt_eq first2]
    simp only [bind, Except.bind, ends_ite]
    refine ⟨fun same => .inl ⟨rfl, ?_⟩, fun decided => .inr ⟨by omega, ?_, clearBelow_zero⟩⟩
    · intro i below
      have zero : i = 0 := by omega
      simpa [zero, Decides] using same
    · have hit := not_and_or.mp decided
      simpa [Decides] using hit
  · intro class2
    exact cmpHeadTail_ends (by omega) (by decide) (by omega) rights1 rights2
  · intro class4
    exact cmpHeadTail_ends (by omega) (by decide) (by omega) rights1 rights2
  · intro class8
    exact cmpHeadTail_ends (by omega) (by decide) (by omega) rights1 rights2
  · intro class16
    exact cmpHeadTail_ends (by omega) (by decide) (by omega) rights1 rights2
  · omega

/-- In every memory where the two prefixes can be read, also when nothing else can: the least
deciding index below `size`, or `YMM_SZ` when there is none. -/
theorem strcmpBleYmm_decides (m : Memory) (str1 str2 size : Nat) (some : 1 ≤ size)
    (short : size ≤ 32) (rights1 : m.canRead str1 size = true) (rights2 : m.canRead str2 size = true) :
    ∃ idx, strcmpBleYmm m str1 str2 size = .ok idx ∧
      ((idx < size ∧ FirstHit (Decides m.byte str1 str2) idx) ∨
        (idx = ymmSz ∧ ClearBelow (Decides m.byte str1 str2) size)) := by
  have ends : Ends (strcmpBleYmm m str1 str2 size) _ fun _ => False :=
    strcmpBleYmm_ends ⟨some, short⟩ rights1 rights2
  obtain ⟨idx, returned, outcome⟩ := ends.returns
  exact ⟨idx, returned, outcome.symm⟩

/-- A memory in which only the first bytes of two strings can be read. -/
def headsOnly (byte : Nat → UInt8) (str1 str2 size : Nat) : Memory where
  byte := byte
  readable a := decide ((str1 ≤ a ∧ a < str1 + size) ∨ (str2 ≤ a ∧ a < str2 + size))
  writable _ := false

private theorem headsOnly_canRead {byte : Nat → UInt8} {str1 str2 size : Nat} :
    (headsOnly byte str1 str2 size).canRead str1 size = true ∧
      (headsOnly byte str1 str2 size).canRead str2 size = true := by
  constructor
  · exact Memory.canRead_iff.mpr fun i below => decide_eq_true (.inl ⟨by omega, by omega⟩)
  · exact Memory.canRead_iff.mpr fun i below => decide_eq_true (.inr ⟨by omega, by omega⟩)

theorem strcmpBleYmm_decides_heads :
    ∃ idx, strcmpBleYmm (headsOnly UInt8.ofNat 100 300 13) 100 300 13 = .ok idx ∧
      ((idx < 13 ∧ FirstHit (Decides UInt8.ofNat 100 300) idx) ∨
        (idx = ymmSz ∧ ClearBelow (Decides UInt8.ofNat 100 300) 13)) :=
  strcmpBleYmm_decides _ 100 300 13 (by decide) (by decide) headsOnly_canRead.1 headsOnly_canRead.2

theorem cmpYmm_probes (str1 str2 : Nat) {load1 load2 : Nat → Exec (Lanes 32)}
    {ready1 ready2 : Nat → Prop} (reads1 : m.Reads 32 load1 ready1) (reads2 : m.Reads 32 load2 ready2) :
    Probes (cmpYmm load1 load2 str1 str2) (Decides m.byte str1 str2)
      (fun offset => ready1 (str1 + offset) ∧ ready2 (str2 + offset)) where
  reads offset ready := by
    rw [cmpYmm, reads1.reads _ ready.1, reads2.reads _ ready.2]
    refine ⟨_, rfl, ?_⟩
    have finds : Finds (cmpNull (m.lanes 32 (str1 + offset)) (m.lanes 32 (str2 + offset))
        &&& BitVec.allOnes 32) (fun i => i < 32 ∧ Decides m.byte str1 str2 (offset + i)) :=
      cmpNull_finds (by omega) (by decide) fun i _ => by rw [← decides_add]; rfl
    rw [BitVec.and_allOnes] at finds
    exact ⟨fun zero i below hit => finds.none zero i below ⟨below, hit⟩,
      fun nonzero => ⟨(finds.first nonzero).1.2,
        fun i less hit => (finds.first nonzero).2 i less
          ⟨by have found := (finds.first nonzero).1.1; omega, hit⟩⟩⟩
  faults offset missing := by
    rw [cmpYmm]
    by_cases ready : ready1 (str1 + offset)
    · rw [reads1.reads _ ready, reads2.faults _ fun ready' => missing ⟨ready, ready'⟩]
      rfl
    · rw [reads1.faults _ ready]
      rfl

end Kernel

/-- The bound up to which the start of the kernel returns by itself. Before the end of
a page it is the rest of the 64-byte line, less a vector when two fit. -/
def headBoundAvx2 (str1 str2 : Nat) : Nat :=
  if pageSz - 2 * ymmSz < (str1 ||| str2) % pageSz then
    if lineOffset str1 str2 < ymmSz then ymmSz - lineOffset str1 str2
    else 2 * ymmSz - lineOffset str1 str2
  else 2 * ymmSz

section Head
variable {m : PagedMemory} {str1 str2 : Nat} {size : Option Nat} {exit : Trap → Prop}

/-- What the start of the kernel hands on: the offset of the first line boundary,
with everything before it equal. -/
theorem strcmpAvx2Head_ends (needs : Needs m.toMemory str1 str2 size)
    (live : sizeLe size 0 = false) :
    Ends (strcmpAvx2Head m.toMemory size str1 str2)
      (Step.Holds
        (fun offset => offset = 2 * ymmSz - lineOffset str1 str2 ∧
          ClearBelow (Decides m.byte str1 str2) offset ∧
          sizeLe size (headBoundAvx2 str1 str2) = false)
        (fun value => Compares m.byte str1 str2 size value ∧
          Settled (Decides m.byte str1 str2) size (headBoundAvx2 str1 str2)
            (2 * ymmSz - lineOffset str1 str2)))
      exit := by
  obtain ⟨line1, line2, line⟩ := lineOffset_bounds str1 str2
  have probes := cmpYmm_probes str1 str2 (m.reads_loadu 32) (m.reads_loadu 32)
  have rights {n : Nat} := needs.rights (n := n) clearBelow_zero live
  simp only [Nat.add_zero] at rights
  simp only [strcmpAvx2Head, ymmSz, pageSz] at *
  apply Ends.ite
  · intro edge
    apply Ends.ite
    · intro low
      have bound : headBoundAvx2 str1 str2 = 32 - lineOffset str1 str2 := by
        rw [headBoundAvx2, if_pos edge, if_pos low]
      rw [bound]
      obtain ⟨whole1, whole2⟩ := rights (n := 64 - lineOffset str1 str2)
        (inside_of_line (by omega)) (inside_of_line (by omega))
      refine testBound_ends probes
        ⟨Memory.canRead_sub whole1 (by omega), Memory.canRead_sub whole2 (by omega)⟩
        clearBelow_zero (by omega) ?_ ?_ ?_
      · intro idx below first
        exact returnVal_settles needs first (by omega)
      · intro reached clear
        exact compares_settles reached (by omega) clear
      · intro more clear
        refine (strcmpBleYmm_ends (by omega) (Memory.canRead_sub whole1 (by omega))
          (Memory.canRead_sub whole2 (by omega))).bind ?_
        intro cmpIdx outcome
        rcases outcome.shift clear with ⟨rfl, rest⟩ | ⟨inside, first⟩
        · exact ⟨rfl, rest.mono (by omega), more⟩
        · rw [if_pos (by omega), leave_ends, Nat.add_comm]
          exact returnVal_settles needs first (by omega)
    · intro high
      have bound : headBoundAvx2 str1 str2 = 64 - lineOffset str1 str2 := by
        rw [headBoundAvx2, if_pos edge, if_neg high, ymmSz]
      rw [bound]
      obtain ⟨whole1, whole2⟩ := rights (n := 64 - lineOffset str1 str2)
        (inside_of_line (by omega)) (inside_of_line (by omega))
      refine (strcmpBleYmm_ends (by omega) whole1 whole2).bind ?_
      rintro cmpIdx (⟨rfl, clear⟩ | ⟨inside, first⟩)
      · rw [if_neg (by omega)]
        apply Ends.ite
        · intro reached
          exact compares_settles reached (by omega) clear
        · intro more
          exact ⟨rfl, clear, by simpa using more⟩
      · rw [if_pos (by omega), leave_ends]
        exact returnVal_settles needs first (by omega)
  · intro inner
    have bound : headBoundAvx2 str1 str2 = 64 := by
      rw [headBoundAvx2, if_neg inner, ymmSz]
    rw [bound]
    obtain ⟨low1, low2⟩ := or_mod_page_le (Nat.not_lt.mp inner)
    obtain ⟨whole1, whole2⟩ := rights (n := 64) (by omega) (by omega)
    refine testBound_ends probes
      ⟨Memory.canRead_sub whole1 (by omega), Memory.canRead_sub whole2 (by omega)⟩
      clearBelow_zero (by omega) ?_ ?_ ?_
    · intro idx below first
      exact returnVal_settles needs first (by omega)
    · intro reached clear
      exact compares_settles reached (by omega) clear
    · intro _ clear
      refine testBound_ends probes
        ⟨Memory.canRead_sub whole1 (by omega), Memory.canRead_sub whole2 (by omega)⟩
        clear (by omega) ?_ ?_ ?_
      · intro idx below first
        exact returnVal_settles needs first (by omega)
      · intro reached clear
        exact compares_settles reached (by omega) clear
      · intro more clear
        exact ⟨rfl, clear.mono (by omega), more⟩

end Head

/-- The string that a mis-aligned pass at `offset` reads with unaligned loads. -/
def unalignedAt (str1 str2 offset : Nat) : Nat := if (str1 + offset) % ymmSz = 0 then str2 else str1

/-- Whole vectors a mis-aligned pass at `offset` finds in that string's page. -/
def passVecs (str1 str2 offset : Nat) : Nat :=
  vecsInPageAvx2 (unalignedAt str1 str2 offset) offset

/-- Where a mis-aligned pass at `offset` leads: past the page of the unaligned string. -/
def nextPass (str1 str2 offset : Nat) : Nat :=
  let paged := offset + passVecs str1 str2 offset * ymmSz
  paged + (ymmSz - (unalignedAt str1 str2 offset + paged) % ymmSz)

/-- From the pass at `start` the mis-aligned loop comes to the one at `entry`, which
has room for four vectors; no pass before it has, and all end below the bound. -/
inductive FourVecPass (str1 str2 n : Nat) : Nat → Nat → Prop where
  | here {start : Nat} (room : 4 ≤ passVecs str1 str2 start) : FourVecPass str1 str2 n start start
  | later {start entry : Nat} (few : passVecs str1 str2 start < 4)
      (inside : nextPass str1 str2 start < n)
      (rest : FourVecPass str1 str2 n (nextPass str1 str2 start) entry) :
      FourVecPass str1 str2 n start entry

/-- The blocks a pass reads four at a time with a guard that has wrapped: one is past
the bound, reached with every byte before it equal, and unreadable. -/
def PassOverread (m : Memory) (str1 str2 n entry : Nat) : Prop :=
  ∃ j < 4 * (passVecs str1 str2 entry / 4), n ≤ entry + j * ymmSz ∧
    ClearBelow (Decides m.byte str1 str2) (entry + j * ymmSz) ∧
    ¬ BothReadable m str1 str2 (entry + j * ymmSz)

/-- The mis-aligned loop entered at `start` reads past the bound. -/
def MisOverread (m : Memory) (str1 str2 n start : Nat) : Prop :=
  ∃ entry, FourVecPass str1 str2 n start entry ∧ PassOverread m str1 str2 n entry

/-- The kernel reads an unreadable block past the bound `n`. The bound is beyond the
start of the kernel and below four vectors, where `size - 4 * YMM_SZ` wraps. -/
def OverreadsAvx2 (m : Memory) (str1 str2 n : Nat) : Prop :=
  headBoundAvx2 str1 str2 < n ∧ n < 4 * ymmSz ∧
    if str1 % cachelineSz = str2 % cachelineSz then
      EqualOverread (Decides m.byte str1 str2) (BothReadable m str1 str2) ymmSz n
        (2 * ymmSz - lineOffset str1 str2)
    else MisOverread m str1 str2 n (2 * ymmSz - lineOffset str1 str2)

section Runs
variable {m : PagedMemory} {str1 str2 : Nat} {size : Option Nat} {horizon : Nat}

private theorem le_nextPass (str1 str2 offset : Nat) :
    offset + passVecs str1 str2 offset * 32 ≤ nextPass str1 str2 offset :=
  Nat.le_add_right _ _

theorem FourVecPass.le {n start entry : Nat} (path : FourVecPass str1 str2 n start entry) :
    start ≤ entry := by
  induction path with
  | here room => exact Nat.le_refl _
  | @later start entry few inside rest ih =>
    have step := le_nextPass str1 str2 start
    omega

theorem Settled.fine (settled : Settled (Decides m.byte str1 str2) size (headBoundAvx2 str1 str2)
          (2 * ymmSz - lineOffset str1 str2)) :
    ¬ ∃ n ∈ size, OverreadsAvx2 m.toMemory str1 str2 n := by
  rintro ⟨n, bound, above, small, overread⟩
  split at overread
  · obtain ⟨i, _, past, clear, _⟩ := overread
    exact settled n bound above _ past (Nat.le_add_right _ _) clear
  · obtain ⟨entry, path, j, _, past, clear, _⟩ := overread
    have le := path.le
    exact settled n bound above _ past (by omega) clear

private theorem strcmpAvx2Equal_ends (needs : Needs m.toMemory str1 str2 size)
    (range : horizon < budget) (bounded : EndsBelow (Decides m.byte str1 str2) size horizon)
    (sizes : ∀ n ∈ size, n < sizeRange) (same : str1 % cachelineSz = str2 % cachelineSz)
    {start : Nat}
    (first : start = 2 * ymmSz - lineOffset str1 str2)
    (clear : ClearBelow (Decides m.byte str1 str2) start)
    (live : sizeLe size (headBoundAvx2 str1 str2) = false) :
    Ends (strcmpAvx2Equal m.toMemory size str1 str2 start)
      (fun value => Compares m.byte str1 str2 size value ∧
        ¬ ∃ n ∈ size, OverreadsAvx2 m.toMemory str1 str2 n)
      (fun trap => trap = .fault ∧ ∃ n ∈ size, OverreadsAvx2 m.toMemory str1 str2 n) := by
  have line : lineOffset str1 str2 = str1 % 64 := lineOffset_of_same same
  simp only [ymmSz, cachelineSz] at first same
  have overread : EqualLoopsOverread (Decides m.byte str1 str2) (BothReadable m.toMemory str1 str2) 32
      size start ↔ ∃ n ∈ size, OverreadsAvx2 m.toMemory str1 str2 n := by
    refine exists_congr fun n => and_congr_right fun bound => ?_
    rw [OverreadsAvx2, if_pos same, ymmSz, ← first]
    exact (and_iff_right (sizeLe_false.mp live n bound)).symm
  simp only [← overread]
  exact alignedLoops_ends (by decide) (by decide) (by decide)
    (cmpYmm_probes _ _ (m.reads_load 32) (m.reads_load 32)) needs range bounded sizes (by omega)
    (by omega) (by omega) clear

private theorem strcmpAvx2Edge_ends {alignedStr unalignedStr offset next : Nat} {exit : Trap → Prop}
    (needs : Needs m.toMemory alignedStr unalignedStr size)
    (leaves : ∀ idx, FirstHit (Decides m.byte alignedStr unalignedStr) idx →
      Ends (returnVal m.toMemory size str1 str2 idx) (Compares m.byte str1 str2 size) exit)
    (ended : ∀ k, ClearBelow (Decides m.byte alignedStr unalignedStr) k → sizeLe size k = true →
      Compares m.byte str1 str2 size 0)
    (aligned : (alignedStr + offset) % 32 = 0)
    (clear : ClearBelow (Decides m.byte alignedStr unalignedStr) offset)
    (live : sizeLe size offset = false)
    (behind : next = offset + (32 - (unalignedStr + offset) % 32)) :
    Ends (strcmpAvx2Edge m.toMemory size str1 str2 alignedStr unalignedStr offset)
      (Step.Holds
        (fun reached => reached = next ∧ sizeLe size next = false ∧
          ClearBelow (Decides m.byte alignedStr unalignedStr) next)
        (fun value => Compares m.byte str1 str2 size value ∧
          (ClearBelow (Decides m.byte alignedStr unalignedStr) next → sizeLe size next = true)))
      exit := by
  obtain ⟨rights1, rights2⟩ := needs.rights (n := 32 - (unalignedStr + offset) % 32) clear live
    (by omega) (by omega)
  simp only [strcmpAvx2Edge, ymmSz]
  rw [behind]
  refine (strcmpBleYmm_ends (by omega) rights1 rights2).bind ?_
  intro cmpIdx outcome
  rcases outcome.shift clear with ⟨rfl, all⟩ | ⟨below, first⟩
  · refine ends_ite.mpr ⟨fun other => absurd rfl other, fun _ => ?_⟩
    apply Ends.ite
    · intro reached
      exact ⟨ended _ all reached, fun _ => reached⟩
    · intro more
      exact ⟨rfl, by simpa using more, all⟩
  · rw [if_pos (by omega), leave_ends, Nat.add_comm]
    refine (leaves _ first).imp fun value good => ⟨good, fun reached => ?_⟩
    have le := first.clear_le reached
    omega

private theorem strcmpAvx2Pass_ends {alignedStr unalignedStr offset vecs next : Nat}
    (needs : Needs m.toMemory alignedStr unalignedStr size)
    (leaves : ∀ idx, FirstHit (Decides m.byte alignedStr unalignedStr) idx →
      Ends (returnVal m.toMemory size str1 str2 idx) (Compares m.byte str1 str2 size)
        (fun _ => False))
    (ended : ∀ k, ClearBelow (Decides m.byte alignedStr unalignedStr) k → sizeLe size k = true →
      Compares m.byte str1 str2 size 0)
    (sizes : ∀ n ∈ size, n < sizeRange)
    (near : ∀ n ∈ size, n < 4 * ymmSz → offset < 4 * ymmSz)
    (aligned : (alignedStr + offset) % 32 = 0)
    (clear : ClearBelow (Decides m.byte alignedStr unalignedStr) offset)
    (room : vecs = vecsInPageAvx2 unalignedStr offset)
    (behind : next = offset + vecs * 32 + (32 - (unalignedStr + (offset + vecs * 32)) % 32)) :
    let overread := ∃ n ∈ size, n < 4 * ymmSz ∧ ∃ j < 4 * (vecs / 4), n ≤ offset + j * 32 ∧
      ClearBelow (Decides m.byte alignedStr unalignedStr) (offset + j * 32) ∧
      ¬ BothReadable m.toMemory alignedStr unalignedStr (offset + j * 32)
    Ends (strcmpAvx2Pass m.toMemory size str1 str2 alignedStr unalignedStr offset)
      (Step.Holds
        (fun reached => reached = next ∧ sizeLe size next = false ∧
          ClearBelow (Decides m.byte alignedStr unalignedStr) next ∧
          ∀ n ∈ size, n < 4 * ymmSz → vecs < 4)
        (fun value => Compares m.byte str1 str2 size value ∧ ¬ overread ∧
          (vecs < 4 → ClearBelow (Decides m.byte alignedStr unalignedStr) next →
            sizeLe size next = true)))
      (fun trap => trap = .fault ∧ overread) := by
  intro overread
  simp only [ymmSz] at near
  have pages : vecs = (4096 - (unalignedStr + offset) % 4096) / 32 := room
  let ready (k : Nat) := m.AlignedRead 32 (alignedStr + k) ∧ m.canRead (unalignedStr + k) 32 = true
  have probes : Probes (cmpYmm (m.load 32) (m.loadu 32) alignedStr unalignedStr)
      (Decides m.byte alignedStr unalignedStr) ready :=
    cmpYmm_probes _ _ (m.reads_load 32) (m.reads_loadu 32)
  have ready_iff (j : Nat) (less : j < vecs) :
      ready (offset + j * 32) ↔ BothReadable m.toMemory alignedStr unalignedStr (offset + j * 32) := by
    refine and_congr (PagedMemory.alignedRead_iff (by omega) (by decide))
      ⟨fun rights => ?_, fun first => ?_⟩
    · exact Memory.canRead_iff.mp rights 0 (by omega)
    · exact PagedMemory.canRead_of_page first rfl (by omega)
  have live (j : Nat) (less : j < vecs)
      (before : ClearBelow (Decides m.byte alignedStr unalignedStr) (offset + j * 32))
      (inside : sizeLe size (offset + j * 32) = false) : ready (offset + j * 32) :=
    (ready_iff j less).mpr (needs _ before inside)
  have few {j : Nat} (four : FourDone (fun k => sizeGuard size k (4 * 32)) ready 32 vecs offset j) :
      ∀ n ∈ size, n < 128 → vecs - 4 * j < 4 := by
    intro n bound small
    have low := near n bound small
    exact four.few bound small (by rw [sizeRange_eq]; omega)
  have fine {j : Nat} (four : FourDone (fun k => sizeGuard size k (4 * 32)) ready 32 vecs offset j) :
      ¬ overread := by
    rintro ⟨n, bound, small, i, less, _, _, missing⟩
    have rest := few four n bound small
    have within := four.within
    exact missing ((ready_iff i (by omega)).mp (four.reads i (by omega)))
  simp only [strcmpAvx2Pass, ← room, ymmSz]
  refine pageLoops_ends probes (by unfold budget; omega) clear live ?_ ?_ ?_ ?_ ?_
  · intro j less idx above below first readyUpTo
    refine (leaves idx first).mono (fun value good => ⟨good, ?_, ?_⟩) fun _ none => none.elim
    · rintro ⟨n, _, _, i, _, _, reached, missing⟩
      have le := first.clear_le reached
      exact missing ((ready_iff i (by omega)).mp (readyUpTo i (by omega)))
    · intro _ reached
      have le := first.clear_le reached
      omega
  · intro j four idx below first
    refine (leaves idx first).mono (fun value good => ⟨good, fine four, ?_⟩) fun _ none => none.elim
    intro _ reached
    have le := first.clear_le reached
    omega
  · intro j four k below further reached
    exact ⟨ended _ further reached, fine four, fun _ _ => sizeLe_mono reached (by omega)⟩
  · intro j four inside further live'
    have edge := strcmpAvx2Edge_ends needs leaves ended (by omega) further live' behind
    refine edge.mono (fun decision holds => ?_) fun _ none => none.elim
    cases decision with
    | next reached =>
      refine ⟨holds.1, holds.2.1, holds.2.2, fun n bound small => ?_⟩
      have low := sizeLe_false.mp inside n bound
      have rest := few four n bound small
      omega
    | done value => exact ⟨holds.1, fine four, fun _ => holds.2⟩
  · intro j i less fits opened before missing
    have past : sizeLe size (offset + (4 * j + i) * 32) = true := by
      by_contra inside
      exact missing (live _ (by omega) before (by simpa using inside))
    obtain ⟨n, bound, le⟩ := sizeLe_iff.mp past
    subst bound
    have small : n < 128 := lt_span_of_sizeGuard (sizes n rfl) opened le (by omega)
    exact ⟨rfl, n, rfl, small, 4 * j + i, by omega, le, before,
      fun both => missing ((ready_iff _ (by omega)).mpr both)⟩

/-- One step of the mis-aligned loop is a pass: one of the strings is always at a
vector boundary, so the branch with two unaligned loads is never taken. -/
theorem strcmpAvx2MisStep_ends {offset : Nat} (needs : Needs m.toMemory str1 str2 size)
    (sizes : ∀ n ∈ size, n < sizeRange)
    (near : ∀ n ∈ size, n < 4 * ymmSz → offset < 4 * ymmSz)
    (aligned : (str1 + offset) % 32 = 0 ∨ (str2 + offset) % 32 = 0)
    (clear : ClearBelow (Decides m.byte str1 str2) offset) :
    Ends (strcmpAvx2MisStep m.toMemory size str1 str2 offset)
      (Step.Holds
        (fun reached => reached = nextPass str1 str2 offset ∧
          sizeLe size (nextPass str1 str2 offset) = false ∧
          ClearBelow (Decides m.byte str1 str2) (nextPass str1 str2 offset) ∧
          ∀ n ∈ size, n < 4 * ymmSz → passVecs str1 str2 offset < 4)
        (fun value => Compares m.byte str1 str2 size value ∧
          (¬ ∃ n ∈ size, n < 4 * ymmSz ∧ PassOverread m.toMemory str1 str2 n offset) ∧
          (passVecs str1 str2 offset < 4 →
            ClearBelow (Decides m.byte str1 str2) (nextPass str1 str2 offset) →
            sizeLe size (nextPass str1 str2 offset) = true)))
      (fun trap => trap = .fault ∧
        ∃ n ∈ size, n < 4 * ymmSz ∧ PassOverread m.toMemory str1 str2 n offset) := by
  by_cases first : (str1 + offset) % ymmSz = 0
  · have role : unalignedAt str1 str2 offset = str2 := if_pos first
    rw [strcmpAvx2MisStep, if_pos first]
    exact strcmpAvx2Pass_ends needs (fun idx hit => returnVal_ends needs hit)
      (fun k further reached => compares_of_sizeLe reached further) sizes near first clear
      (by rw [passVecs, role]) (by rw [nextPass, role])
  · have second : (str2 + offset) % ymmSz = 0 := aligned.resolve_left first
    have role : unalignedAt str1 str2 offset = str1 := if_neg first
    rw [strcmpAvx2MisStep, if_neg first, if_pos second]
    have room : passVecs str1 str2 offset = vecsInPageAvx2 str1 offset := by rw [passVecs, role]
    have behind : nextPass str1 str2 offset = offset + passVecs str1 str2 offset * 32 +
        (32 - (str1 + (offset + passVecs str1 str2 offset * 32)) % 32) := by
      rw [nextPass, role]
    have pass := strcmpAvx2Pass_ends needs.swap
      (fun idx hit => returnVal_ends needs (decides_swap m.byte str1 str2 ▸ hit))
      (fun k further reached => compares_of_sizeLe reached (decides_swap m.byte str1 str2 ▸ further))
      sizes near second (by rwa [decides_swap]) room behind
    rw [decides_swap, bothReadable_swap] at pass
    exact pass

theorem PassOverread.room {n offset : Nat} (overread : PassOverread m.toMemory str1 str2 n offset) :
    4 ≤ passVecs str1 str2 offset := by
  obtain ⟨j, less, _⟩ := overread
  omega

private theorem misOverread_of_room {n offset : Nat} (room : 4 ≤ passVecs str1 str2 offset) :
    MisOverread m.toMemory str1 str2 n offset ↔ PassOverread m.toMemory str1 str2 n offset := by
  constructor
  · rintro ⟨entry, path, overread⟩
    cases path with
    | here => exact overread
    | later few => omega
  · exact fun overread => ⟨offset, .here room, overread⟩

private theorem misOverread_of_few {n offset : Nat} (few : passVecs str1 str2 offset < 4) :
    MisOverread m.toMemory str1 str2 n offset ↔
      nextPass str1 str2 offset < n ∧
        MisOverread m.toMemory str1 str2 n (nextPass str1 str2 offset) := by
  constructor
  · rintro ⟨entry, path, overread⟩
    cases path with
    | here room => omega
    | later few inside rest => exact ⟨inside, entry, rest, overread⟩
  · rintro ⟨inside, entry, rest, overread⟩
    exact ⟨entry, .later few inside rest, overread⟩

theorem MisOverread.clear {n offset : Nat} (overread : MisOverread m.toMemory str1 str2 n offset) :
    ClearBelow (Decides m.byte str1 str2) offset := by
  obtain ⟨entry, path, j, _, _, clear, _⟩ := overread
  have le := path.le
  exact clear.mono (by omega)

private theorem strcmpAvx2Mis_ends {start : Nat} (needs : Needs m.toMemory str1 str2 size)
    (range : horizon < budget) (bounded : EndsBelow (Decides m.byte str1 str2) size horizon)
    (sizes : ∀ n ∈ size, n < sizeRange) (near : start < 4 * ymmSz)
    (aligned : (str1 + start) % 32 = 0 ∨ (str2 + start) % 32 = 0)
    (clear : ClearBelow (Decides m.byte str1 str2) start) :
    let overread := ∃ n ∈ size, n < 4 * ymmSz ∧ MisOverread m.toMemory str1 str2 n start
    Ends (iterate .diverged (strcmpAvx2MisStep m.toMemory size str1 str2) budget start)
      (fun value => Compares m.byte str1 str2 size value ∧ ¬ overread)
      (fun trap => trap = .fault ∧ overread) := by
  intro overread
  refine iterate_ends (fun offset => ClearBelow (Decides m.byte str1 str2) offset ∧
    (∀ n ∈ size, n < 4 * ymmSz → offset < 4 * ymmSz) ∧
    ((str1 + offset) % 32 = 0 ∨ (str2 + offset) % 32 = 0) ∧
    ∀ n ∈ size, n < 4 * ymmSz → (MisOverread m.toMemory str1 str2 n start ↔
      MisOverread m.toMemory str1 str2 n offset))
    (fun offset => horizon - offset) ?_
    ⟨clear, fun _ _ _ => near, aligned, fun _ _ _ => Iff.rfl⟩ (by omega)
  rintro offset ⟨clearHere, nearHere, alignedHere, same⟩
  have step := strcmpAvx2MisStep_ends needs sizes nearHere alignedHere clearHere
  refine step.mono (fun decision holds => ?_) fun trap stop => ?_
  · cases decision with
    | next reached =>
      obtain ⟨rfl, live, further, few⟩ := holds
      have limit := bounded _ further live
      have advance := le_nextPass str1 str2 offset
      refine ⟨⟨further, fun n bound small => ?_, ?_, fun n bound small => ?_⟩, ?_⟩
      · have below := sizeLe_false.mp live n bound
        omega
      · simp only [nextPass, unalignedAt, ymmSz]
        split <;> omega
      · have below := sizeLe_false.mp live n bound
        rw [same n bound small, misOverread_of_few (few n bound small), and_iff_right below]
      · simp only [nextPass, ymmSz] at limit advance ⊢
        omega
    | done value =>
      obtain ⟨good, fine, short⟩ := holds
      refine ⟨good, ?_⟩
      rintro ⟨n, bound, small, misread⟩
      rw [same n bound small] at misread
      rcases Nat.lt_or_ge (passVecs str1 str2 offset) 4 with few | room
      · obtain ⟨inside, later⟩ := (misOverread_of_few few).mp misread
        have reached := short few later.clear
        have below := sizeLe_iff.mp reached
        obtain ⟨n', bound', le⟩ := below
        rw [Option.mem_def] at bound
        rw [bound, Option.some_inj] at bound'
        omega
      · exact fine ⟨n, bound, small, (misOverread_of_room room).mp misread⟩
  · obtain ⟨fault, n, bound, small, pass⟩ := stop
    refine ⟨fault, n, bound, small, (same n bound small).mpr ?_⟩
    exact (misOverread_of_room pass.room).mpr pass

end Runs

/-- What the kernel does on every input whose needed bytes are mapped: it returns the
comparison, unless it reads past the bound. -/
theorem strcmpAvx2Text_ends {m : PagedMemory} {str1 str2 : Nat} {size : Option Nat} {horizon : Nat}
    (needs : Needs m.toMemory str1 str2 size) (range : horizon < budget)
    (bounded : EndsBelow (Decides m.byte str1 str2) size horizon)
    (sizes : ∀ n ∈ size, 0 < n ∧ n < sizeRange) :
    Ends (strcmpAvx2Text m.toMemory size str1 str2)
      (fun value => Compares m.byte str1 str2 size value ∧
        ¬ ∃ n ∈ size, OverreadsAvx2 m.toMemory str1 str2 n)
      (fun trap => trap = .fault ∧ ∃ n ∈ size, OverreadsAvx2 m.toMemory str1 str2 n) := by
  have live : sizeLe size 0 = false := sizeLe_false.mpr fun n bound => (sizes n bound).1
  obtain ⟨line1, line2, line⟩ := lineOffset_bounds str1 str2
  refine (strcmpAvx2Head_ends needs live).bind ?_
  intro decision holds
  cases decision with
  | done value => exact ⟨holds.1, holds.2.fine⟩
  | next offset =>
    obtain ⟨first, clear, beyond⟩ := holds
    apply Ends.ite
    · intro same
      exact strcmpAvx2Equal_ends needs range bounded (fun n bound => (sizes n bound).2) same first
        clear beyond
    · intro differ
      have overread : (∃ n ∈ size, n < 4 * ymmSz ∧ MisOverread m.toMemory str1 str2 n offset) ↔
          ∃ n ∈ size, OverreadsAvx2 m.toMemory str1 str2 n := by
        refine exists_congr fun n => and_congr_right fun bound => ?_
        rw [OverreadsAvx2, if_neg differ, ← first]
        exact (and_iff_right (sizeLe_false.mp beyond n bound)).symm
      simp only [← overread]
      refine strcmpAvx2Mis_ends needs range bounded (fun n bound => (sizes n bound).2) ?_ ?_ clear
      · simp only [ymmSz] at first ⊢
        omega
      · simp only [ymmSz] at first
        rcases lineOffset_eq str1 str2 with left | right
        · omega
        · omega

/-- Every load of `_strncmp_avx2` succeeds exactly when the kernel does not read past
the bound, given only that the bytes the comparison is about are mapped. -/
theorem strncmpAvx2_loads_iff (m : PagedMemory) (str1 str2 n : Nat) (positive : 1 ≤ n)
    (range : n < sizeRange) (mapped1 : PrefixMapped m.toMemory str1 n)
    (mapped2 : PrefixMapped m.toMemory str2 n) :
    (∃ value, strncmpAvx2 m.toMemory str1 str2 n = .ok value) ↔
      ¬ OverreadsAvx2 m.toMemory str1 str2 n := by
  have run := strcmpAvx2Text_ends (needs_of_prefixMapped mapped1 mapped2)
    (by rw [sizeRange_eq] at range; unfold budget; omega : n < budget) endsBelow_bound
    (fun n' bound => by rw [Option.mem_some_iff] at bound; omega)
  have bounded : strncmpAvx2 m.toMemory str1 str2 n = strcmpAvx2Text m.toMemory (some n) str1 str2 :=
    if_neg (by omega)
  rw [bounded]
  exact returns_iff_of_overreads run

theorem strncmpAvx2_loads_iff_onePage :
    (∃ value, strncmpAvx2 onePage.toMemory 4096 4096 100 = .ok value) ↔
      ¬ OverreadsAvx2 onePage.toMemory 4096 4096 100 :=
  strncmpAvx2_loads_iff onePage 4096 4096 100 (by decide) (by rw [sizeRange_eq]; decide)
    (onePage_mapped (by decide) (by decide)) (onePage_mapped (by decide) (by decide))

/-- Sixty-five equal bytes in the last 128 of a page: the guard wraps and the third
vector is loaded from the page behind. -/
theorem strncmpAvx2_reads_next_page :
    PrefixMapped onePage.toMemory 8064 65 ∧
      strncmpAvx2 onePage.toMemory 8064 8064 65 = .error .fault :=
  ⟨onePage_mapped (by decide) (by decide), by decide +kernel⟩

end AoclLibmem.Strings
