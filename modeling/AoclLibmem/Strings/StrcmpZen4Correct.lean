import AoclLibmem.Strings.StrcmpZen4
import AoclLibmem.Strings.SearchSpec

/-! What the zen4 comparison returns, for every page map that holds the strings as far as
they agree: with a bound and without one, no load leaves those pages. -/

namespace AoclLibmem.Strings

open Base Machine

section Words
variable {m : Memory} {load : Nat → Exec (Lanes 64)} {ready : Nat → Prop} {str1 str2 : Nat}

private theorem marks_testn {n : Nat} {r : Lanes n} {hit : Nat → Prop}
    (lane : ∀ i : Fin n, r i = 0 ↔ hit i) : Marks (testnEpi8Mask r r) hit :=
  marks_of_lanes fun i => by rw [getLsbD_testnEpi8Mask, UInt8.and_self, beq_iff_eq, lane i]

private theorem marksZeros_testn {n : Nat} : MarksZeros fun r : Lanes n => testnEpi8Mask r r :=
  fun _ _ lane => marks_testn lane

private theorem marks_testnOrNeq {z1 z2 : Lanes 64} {hit : Nat → Prop}
    (lane : ∀ i : Fin 64, (z1 i ≠ z2 i ∨ z1 i = 0) ↔ hit i) : Marks (testnOrNeq z1 z2) hit := by
  apply marks_of_lanes
  intro i
  rw [testnOrNeq, BitVec.getLsbD_or, getLsbD_testnEpi8Mask, getLsbD_cmpneqEpu8Mask, UInt8.and_self,
    ← lane i, or_comm]
  simp

theorem cmpTestn_probes (reads : m.Reads 64 load ready) (str1 str2 : Nat) :
    Probes (cmpTestn load str1 str2) (Decides m.byte str1 str2)
      (fun offset => ready (str1 + offset) ∧ ready (str2 + offset)) where
  reads offset here := by
    rw [cmpTestn, reads.reads _ here.1, reads.reads _ here.2]
    refine ⟨_, rfl, (marks_testnOrNeq fun i => ?_).finds⟩
    rw [← decides_add]
    rfl
  faults offset missing := by
    rw [cmpTestn]
    by_cases first : ready (str1 + offset)
    · rw [reads.reads _ first, reads.faults _ fun second => missing ⟨first, second⟩]
      rfl
    · rw [reads.faults _ first]
      rfl

/-- The pair cut to its first `k` bytes reads and decides those only. -/
private theorem cmpTestnCut_eq {k offset : Nat} (narrow : k ≤ 64)
    (rights1 : m.canRead (str1 + offset) k = true) (rights2 : m.canRead (str2 + offset) k = true) :
    ∃ word, cmpTestnCut m str1 str2 k offset = .ok word ∧
      Finds word (fun i => i < k ∧ Decides m.byte str1 str2 (offset + i)) := by
  have lane (i : Fin 64) : (bzhiOnes k : BitVec 64).getLsbD i = true ↔ i.val < k := by
    rw [getLsbD_bzhiOnes i.isLt, decide_eq_true_eq, Nat.mod_eq_of_lt (by omega)]
  have active {addr : Nat} (rights : m.canRead addr k = true) :
      ∀ i < 64, (bzhiOnes k : BitVec 64).getLsbD i = true → m.readable (addr + i) = true :=
    fun i below set => Memory.canRead_iff.mp rights i ((lane ⟨i, below⟩).mp set)
  rw [cmpTestnCut, cmpTestn, Memory.maskLoadu_eq (active rights1), Memory.maskLoadu_eq (active rights2)]
  refine ⟨_, rfl, (marks_testnOrNeq fun i => ?_).finds⟩
  rw [← decides_add]
  by_cases inside : i.val < k
  · simp only [(lane i).mpr inside, ↓reduceIte, Decides, inside, true_and]
  · have outside : (bzhiOnes k : BitVec 64).getLsbD i = false := by
      simpa using mt (lane i).mp inside
    simp only [outside, Bool.false_eq_true, ↓reduceIte, set1, inside, false_and, iff_false]
    simp

/-- The register that `loadCompare` computes. -/
def reducedPair (m : Memory) (str1 str2 k : Nat) : Lanes 64 :=
  maskzMovEpi8 (cmpeqEpu8Mask (m.lanes 64 (str1 + k)) (m.lanes 64 (str2 + k))) (m.lanes 64 (str1 + k))

private theorem reducedPair_eq_zero (k : Nat) (i : Fin 64) :
    reducedPair m str1 str2 k i = 0 ↔ Decides m.byte str1 str2 (k + i) := by
  rw [reducedPair, maskzMovEpi8_cmpeq_eq_zero, ← decides_add]
  rfl

theorem loadCompare_eq (reads : m.Reads 64 load ready) {k : Nat}
    (here : ready (str1 + k) ∧ ready (str2 + k)) :
    loadCompare load str1 str2 k = .ok (reducedPair m str1 str2 k) := by
  rw [loadCompare, reads.reads _ here.1, reads.reads _ here.2]
  rfl

/-- What is to be left of a block of four vectors: with a hit among them, a break with the place
of the first one in `ret` and `offset`; without, `ret` zero and `offset` behind the block. -/
inductive BlockReport (hit : Nat → Prop) (offset : Nat) :
    Step (BitVec 64 × Nat) (BitVec 64 × Nat) → Prop where
  | first {ret : BitVec 64} {last k : Nat} (nonzero : ret ≠ 0#64) (inside : k < 4 * zmmSz)
      (first : FirstHit (fun i => hit (offset + i)) k) (place : last + tzcnt ret = offset + k) :
      BlockReport hit offset (.done (ret, last))
  | clear (clear : ClearBelow (fun i => hit (offset + i)) (4 * zmmSz)) :
      BlockReport hit offset (.next (0#64, offset + 4 * zmmSz))

/-- The vector at `b` in the block, when those before it are clear. -/
theorem blockReport_first {hit : Nat → Prop} {ret : BitVec 64} {offset b : Nat} (near : b ≤ 3 * 64)
    (finds : Finds ret fun i => hit (offset + (b + i)))
    (before : ClearBelow (fun i => hit (offset + i)) b) (some : ret ≠ 0#64) :
    BlockReport hit offset (.done (ret, offset + b)) := by
  have inVec := tzcnt_lt some
  exact .first some (by simp only [zmmSz]; omega) (finds.firstHit before some) (by omega)

/-- The macro takes the least of four registers and then asks them one by one. -/
theorem vec4xLoadCompareReduce_ends {exit : Trap → Prop} (reads : m.Reads 64 load ready)
    {offset : Nat}
    (here : ∀ j < 4, ready (str1 + (offset + j * 64)) ∧ ready (str2 + (offset + j * 64))) :
    Ends (vec4xLoadCompareReduce load str1 str2 offset)
      (BlockReport (Decides m.byte str1 str2) offset) exit := by
  have read0 := loadCompare_eq reads (here 0 (by omega))
  have read1 := loadCompare_eq reads (here 1 (by omega))
  have read2 := loadCompare_eq reads (here 2 (by omega))
  have read3 := loadCompare_eq reads (here 3 (by omega))
  rw [Nat.zero_mul, Nat.add_zero] at read0
  rw [Nat.one_mul] at read1
  simp only [vec4xLoadCompareReduce, zmmSz, read0, read1, read2, read3, ok_bind]
  have lane (b : Nat) (i : Fin 64) : reducedPair m str1 str2 (offset + b) i = 0 ↔
      Decides m.byte str1 str2 (offset + (b + i)) := by
    rw [← Nat.add_assoc]
    exact reducedPair_eq_zero _ i
  have four : FourLanes (fun i => Decides m.byte str1 str2 (offset + i)) 0
      (reducedPair m str1 str2 offset) (reducedPair m str1 str2 (offset + 64))
      (reducedPair m str1 str2 (offset + 2 * 64)) (reducedPair m str1 str2 (offset + 3 * 64)) := by
    refine ⟨fun i => ?_, fun i => ?_, fun i => ?_, fun i => ?_⟩
    · exact lane 0 i
    · rw [Nat.zero_add]
      exact lane 64 i
    · rw [Nat.zero_add]
      exact lane (2 * 64) i
    · rw [Nat.zero_add]
      exact lane (3 * 64) i
  generalize reducedPair m str1 str2 offset = r0 at four ⊢
  generalize reducedPair m str1 str2 (offset + 64) = r1 at four ⊢
  generalize reducedPair m str1 str2 (offset + 2 * 64) = r2 at four ⊢
  generalize reducedPair m str1 str2 (offset + 3 * 64) = r3 at four ⊢
  have finds {r : Lanes 64} {b : Nat}
      (lane : ∀ i : Fin 64, r i = 0 ↔ Decides m.byte str1 str2 (offset + (b + i))) :
      Finds (testnEpi8Mask r r) fun i => Decides m.byte str1 str2 (offset + (b + i)) :=
    (marks_testn lane).finds
  have finds0 := finds four.lane1
  have finds1 := finds four.lane2
  have finds2 := finds four.lane3
  have finds3 := finds four.lane4
  apply Ends.iteNe
  · intro some
    apply Ends.iteNe
    · exact blockReport_first (b := 0) (by decide) finds0 clearBelow_zero
    intro not0
    have clear1 : ClearBelow (fun i => Decides m.byte str1 str2 (offset + i)) (0 + 64) :=
      finds0.clear clearBelow_zero not0
    apply Ends.iteNe
    · exact blockReport_first (by decide) finds1 clear1
    intro not1
    have clear2 := finds1.clear clear1 not1
    apply Ends.iteNe
    · exact blockReport_first (by decide) finds2 clear2
    intro not2
    have clear3 := finds2.clear clear2 not2
    refine blockReport_first (by decide) finds3 clear3 fun not3 => ?_
    -- the least register has a hit, and it is in one of the four
    have clear4 := finds3.clear clear3 not3
    obtain ⟨found, _⟩ := (four.marks_all marksZeros_testn).first some
    have inVec := tzcnt_lt some
    rcases found with (hit | hit) | hit | hit
    · exact clear4 _ (by omega) hit
    · exact clear4 _ (by omega) hit
    · exact clear4 _ (by omega) hit
    · exact clear4 _ (by omega) hit
  · intro none
    rw [none]
    exact .clear (four.clear marksZeros_testn clearBelow_zero none)

/-- With either kind of load, and whatever the block holds, the macro breaks at the first byte at
which the strings differ or end, or goes on behind a block without one. -/
theorem vec4xLoadCompareReduce_locates (m : Memory) (str1 str2 offset : Nat)
    (rights1 : m.canRead (str1 + offset) (4 * zmmSz) = true)
    (rights2 : m.canRead (str2 + offset) (4 * zmmSz) = true) :
    (∃ decision, vec4xLoadCompareReduce (m.loadu zmmSz) str1 str2 offset = .ok decision ∧
        BlockReport (Decides m.byte str1 str2) offset decision) ∧
      ((str1 + offset) % zmmSz = 0 → (str2 + offset) % zmmSz = 0 →
        ∃ decision, vec4xLoadCompareReduce (m.load zmmSz) str1 str2 offset = .ok decision ∧
          BlockReport (Decides m.byte str1 str2) offset decision) := by
  have vector {str : Nat} (rights : m.canRead (str + offset) (4 * zmmSz) = true) (j : Nat)
      (less : j < 4) : m.canRead (str + (offset + j * 64)) 64 = true := by
    rw [← Nat.add_assoc]
    exact Memory.canRead_sub rights (by simp only [zmmSz]; omega)
  constructor
  · have ends : Ends (vec4xLoadCompareReduce (m.loadu zmmSz) str1 str2 offset)
        (BlockReport (Decides m.byte str1 str2) offset) fun _ => False :=
      vec4xLoadCompareReduce_ends (m.reads_loadu 64) fun j less =>
        ⟨vector rights1 j less, vector rights2 j less⟩
    exact ends.returns
  · intro aligned1 aligned2
    have boundary {str : Nat} (aligned : (str + offset) % 64 = 0) (j : Nat) :
        (str + (offset + j * 64)) % 64 = 0 := by
      rw [← Nat.add_assoc, Nat.add_mul_mod_self_right, aligned]
    have ends : Ends (vec4xLoadCompareReduce (m.load zmmSz) str1 str2 offset)
        (BlockReport (Decides m.byte str1 str2) offset) fun _ => False :=
      vec4xLoadCompareReduce_ends (m.reads_load 64) fun j less =>
        ⟨⟨boundary aligned1 j, vector rights1 j less⟩, boundary aligned2 j, vector rights2 j less⟩
    exact ends.returns

theorem vec4xLoadCompareReduce_locates_aligned :
    ∃ decision,
      vec4xLoadCompareReduce ((PagedMemory.full UInt8.ofNat).toMemory.load zmmSz) 4096 8192 64 =
          .ok decision ∧
        BlockReport (Decides (PagedMemory.full UInt8.ofNat).byte 4096 8192) 64 decision :=
  (vec4xLoadCompareReduce_locates (PagedMemory.full UInt8.ofNat).toMemory 4096 8192 64
    (Memory.canRead_iff.mpr fun _ _ => rfl) (Memory.canRead_iff.mpr fun _ _ => rfl)).2 rfl rfl

private theorem fourVecsLoop_outcome {exit : Trap → Prop} (reads : m.Reads 64 load ready)
    {n4 offset : Nat} (clear : ClearBelow (Decides m.byte str1 str2) offset)
    (here : ∀ j < 4 * n4, ready (str1 + (offset + j * 64)) ∧ ready (str2 + (offset + j * 64))) :
    Ends (fourVecsLoop load str1 str2 n4 offset)
      (ScanOutcome (Decides m.byte str1 str2) (offset + n4 * 256)) exit := by
  induction n4 generalizing offset with
  | zero =>
    rw [Nat.zero_mul, Nat.add_zero]
    exact scanOutcome_clear clear
  | succ n4 ih =>
    refine (vec4xLoadCompareReduce_ends reads fun j less => here j (by omega)).bind ?_
    intro decision report
    cases report with
    | first nonzero inside first place =>
      have found := clear.first first.1 first.2
      rw [← place, Nat.add_comm] at found
      exact scanOutcome_found nonzero found
    | clear block =>
      have further := clear.extend block
      have later := ih further fun j less => by
        have block := here (4 + j) (by omega)
        rwa [Nat.add_mul, ← Nat.add_assoc offset] at block
      have limit : offset + 4 * 64 + n4 * 256 = offset + (n4 + 1) * 256 := by omega
      rwa [limit] at later

/-- The two loops of a pass take in all its vectors. -/
private theorem safeVecsPass_ends {exit : Trap → Prop} (reads : m.Reads 64 load ready)
    {found : Nat → Exec Int} {vecs offset : Nat} {result : Int → Prop}
    (clear : ClearBelow (Decides m.byte str1 str2) offset)
    (here : ∀ j < vecs, ready (str1 + (offset + j * 64)) ∧ ready (str2 + (offset + j * 64)))
    (leaves : ∀ idx, FirstHit (Decides m.byte str1 str2) idx → Ends (found idx) result exit) :
    Ends (safeVecsPass load str1 str2 found vecs offset)
      (Step.Holds (fun next => next = offset + vecs * 64 ∧ ClearBelow (Decides m.byte str1 str2) next)
        result) exit := by
  have exits {idx : Nat} (first : FirstHit (Decides m.byte str1 str2) idx) :
      Ends (leave (found idx)) (Step.Holds (fun next => next = offset + vecs * 64 ∧
        ClearBelow (Decides m.byte str1 str2) next) result) exit :=
    leave_ends.mpr (leaves idx first)
  refine (fourVecsLoop_outcome reads clear fun j less => here j (by omega)).bind ?_
  intro four outcome
  apply Ends.ite
  · intro some
    exact exits (outcome.found some)
  · intro none
    obtain ⟨place, further⟩ := outcome.clear (not_not.mp none)
    rw [place]
    refine ((cmpTestn_probes reads str1 str2).scanVecs_outcome further fun j less => ?_).bind ?_
    · have block := here (4 * (vecs / 4) + j) (by omega)
      have same : offset + (4 * (vecs / 4) + j) * 64 = offset + vecs / 4 * 256 + j * 64 := by omega
      rwa [same] at block
    · intro one outcome
      apply Ends.iteNe
      · intro some
        exact exits (outcome.found some)
      · intro none
        obtain ⟨place, whole⟩ := outcome.clear none
        have limit : offset + vecs / 4 * 256 + vecs % 4 * 64 = offset + vecs * 64 := by omega
        rw [limit] at place whole
        rw [place]
        exact ⟨rfl, whole⟩

end Words

theorem lesser_spec (a b : Nat) : ∃ k, lesser a b = k ∧ (k ≤ a ∧ k ≤ b) ∧ (k = a ∨ k = b) := by
  refine ⟨_, rfl, ?_⟩
  unfold lesser
  split <;> omega

section Runs
variable {m : PagedMemory} {str1 str2 : Nat} {size : Option Nat} {horizon : Nat} {exit : Trap → Prop}

/-- What the start of the kernel hands on: the first line boundary of one of the strings,
with everything before it equal. -/
private theorem strcmpZen4Head_ends (needs : Needs m.toMemory str1 str2 size)
    (live : sizeLe size 0 = false) :
    Ends (strcmpZen4Head m.toMemory size str1 str2)
      (Step.Holds
        (fun offset => offset = 64 - lineOffset str1 str2 ∧
          ClearBelow (Decides m.byte str1 str2) offset)
        (Compares m.byte str1 str2 size)) exit := by
  obtain ⟨line1, line2, line⟩ := lineOffset_bounds str1 str2
  obtain ⟨safe, same, room, either⟩ := lesser_spec (pageSafeVecsBytes str1) (pageSafeVecsBytes str2)
  have rights {n : Nat} := needs.rights (n := n) clearBelow_zero live
  simp only [strcmpZen4Head, same, zmmSz]
  simp only [pageSafeVecsBytes, pageSz] at room either
  apply Ends.ite
  · intro whole
    refine testBound_ends (cmpTestn_probes (m.reads_loadu 64) str1 str2)
      (rights (by omega) (by omega)) clearBelow_zero (by omega) ?_ ?_ ?_
    · intro idx _ first
      exact returnVal_ends needs first
    · intro reached clear
      exact compares_of_sizeLe reached clear
    · intro _ clear
      exact ⟨rfl, clear.mono (by omega)⟩
  · intro cut
    obtain ⟨whole1, whole2⟩ := rights (n := safe) (by omega) (by omega)
    obtain ⟨word, read, finds⟩ := cmpTestnCut_eq (by omega) whole1 whole2
    rw [read]
    apply Ends.iteNe
    · intro some
      obtain ⟨_, first⟩ := finds.firstHit_within clearBelow_zero some
      exact leave_ends.mpr (returnVal_ends needs first)
    · intro none
      have clear := finds.clear_within clearBelow_zero (by omega) none
      apply Ends.ite
      · intro reached
        exact compares_of_sizeLe reached (clear.mono (by omega))
      · intro _
        exact ⟨rfl, clear.mono (by omega)⟩

private theorem strcmpZen4EqualStep_ends {offset : Nat} (needs : Needs m.toMemory str1 str2 size)
    (aligned : (str1 + offset) % 64 = 0 ∧ (str2 + offset) % 64 = 0)
    (clear : ClearBelow (Decides m.byte str1 str2) offset) :
    Ends (strcmpZen4EqualStep m.toMemory size str1 str2 offset)
      (Step.Holds
        (fun next => (offset < next ∧ sizeLe size offset = false) ∧
          ((str1 + next) % 64 = 0 ∧ (str2 + next) % 64 = 0) ∧
          ClearBelow (Decides m.byte str1 str2) next)
        (Compares m.byte str1 str2 size)) exit := by
  apply Ends.ite
  · intro reached
    exact compares_of_sizeLe reached clear
  · intro more
    have live : sizeLe size offset = false := by simpa using more
    obtain ⟨first1, first2⟩ := needs offset clear live
    obtain ⟨vecs, same, room, either⟩ :=
      lesser_spec (pageSafeVecs (str1 + offset)) (pageSafeVecs (str2 + offset))
    simp only [same]
    simp only [pageSafeVecs, pageSafeVecsBytes, pageSz, zmmSz] at room either
    refine (safeVecsPass_ends (m.reads_load 64) clear (fun j less => ⟨?_, ?_⟩)
      fun idx hit => returnVal_ends needs hit).imp fun decision holds => ?_
    · exact ⟨by omega, PagedMemory.canRead_of_page first1 (by omega) (by omega)⟩
    · exact ⟨by omega, PagedMemory.canRead_of_page first2 (by omega) (by omega)⟩
    · cases decision with
      | next next =>
        obtain ⟨rfl, further⟩ := holds
        exact ⟨⟨by omega, live⟩, by omega, further⟩
      | done value => exact holds

/-- A pass of the unaligned case, with the bytes before a page end in a pass of their own. -/
private theorem strcmpZen4MisStep_ends {offset : Nat} (needs : Needs m.toMemory str1 str2 size)
    (clear : ClearBelow (Decides m.byte str1 str2) offset) :
    Ends (strcmpZen4MisStep m.toMemory size str1 str2 offset)
      (Step.Holds
        (fun next => (offset < next ∧ sizeLe size offset = false) ∧
          ClearBelow (Decides m.byte str1 str2) next)
        (Compares m.byte str1 str2 size)) exit := by
  apply Ends.ite
  · intro reached
    exact compares_of_sizeLe reached clear
  · intro more
    have live : sizeLe size offset = false := by simpa using more
    obtain ⟨first1, first2⟩ := needs offset clear live
    obtain ⟨safeBytes, same, room, either⟩ :=
      lesser_spec (pageSafeVecsBytes (str1 + offset)) (pageSafeVecsBytes (str2 + offset))
    simp only [same, zmmSz]
    simp only [pageSafeVecsBytes, pageSz] at room either
    apply Ends.ite
    · intro few
      obtain ⟨word, read, finds⟩ := cmpTestnCut_eq (by omega)
        (PagedMemory.canRead_of_page first1 rfl (by omega) : m.canRead (str1 + offset) safeBytes = true)
        (PagedMemory.canRead_of_page first2 rfl (by omega))
      rw [read]
      apply Ends.iteNe
      · intro nonzero
        obtain ⟨_, first⟩ := finds.firstHit_within clear nonzero
        exact leave_ends.mpr (returnVal_ends needs first)
      · intro zero
        have further := finds.clear_within clear (by omega) zero
        exact ⟨⟨by omega, live⟩, further⟩
    · intro some
      refine (safeVecsPass_ends (m.reads_loadu 64) clear (fun j less => ⟨?_, ?_⟩)
        fun idx hit => returnVal_ends needs hit).imp fun decision holds => ?_
      · exact PagedMemory.canRead_of_page first1 (by omega) (by omega)
      · exact PagedMemory.canRead_of_page first2 (by omega) (by omega)
      · cases decision with
        | next next =>
          obtain ⟨rfl, further⟩ := holds
          exact ⟨⟨by omega, live⟩, further⟩
        | done value => exact holds

/-- A loop whose passes all advance below the bound comes to an end. -/
private theorem advancing_ends (invariant : Nat → Prop) {step : Nat → Exec (Step Nat Int)}
    {result : Int → Prop} (range : horizon < budget)
    (bounded : EndsBelow (Decides m.byte str1 str2) size horizon)
    (pass : ∀ offset, invariant offset → ClearBelow (Decides m.byte str1 str2) offset →
      Ends (step offset)
        (Step.Holds (fun next => (offset < next ∧ sizeLe size offset = false) ∧ invariant next ∧
          ClearBelow (Decides m.byte str1 str2) next) result) exit)
    {start : Nat} (initially : invariant start)
    (clear : ClearBelow (Decides m.byte str1 str2) start) :
    Ends (iterate .diverged step budget start) result exit := by
  refine iterate_ends (fun offset => invariant offset ∧ ClearBelow (Decides m.byte str1 str2) offset)
    (fun offset => horizon - offset) ?_ ⟨initially, clear⟩ (by omega)
  rintro offset ⟨here, before⟩
  refine (pass offset here before).imp fun decision holds => ?_
  cases decision with
  | next next =>
    obtain ⟨⟨advance, live⟩, there, further⟩ := holds
    have limit := bounded offset before live
    exact ⟨⟨there, further⟩, by omega⟩
  | done value => exact holds

private theorem threeFit_live {offset k : Nat} (fits : threeFit size offset = true)
    (inside : k < 192) : sizeLe size (offset + k) = false := by
  apply sizeLe_false.mpr
  intro n bound
  rw [Option.mem_def] at bound
  simp only [threeFit, bound, Option.all_some, zmmSz, decide_eq_true_eq] at fits
  omega

private theorem strcmpZen4Equal_ends {start : Nat} (needs : Needs m.toMemory str1 str2 size)
    (range : horizon < budget) (bounded : EndsBelow (Decides m.byte str1 str2) size horizon)
    (aligned : (str1 + start) % 64 = 0 ∧ (str2 + start) % 64 = 0)
    (clear : ClearBelow (Decides m.byte str1 str2) start) :
    Ends (strcmpZen4Equal m.toMemory size str1 str2 start) (Compares m.byte str1 str2 size) exit := by
  obtain ⟨ramp, same, fits⟩ : ∃ ramp, ramp = (if threeFit size start then 3 else 0) ∧
      (0 < ramp → ramp ≤ 3 ∧ threeFit size start = true) := by
    refine ⟨_, rfl, ?_⟩
    split
    · rename_i fits
      exact fun _ => ⟨Nat.le_refl 3, fits⟩
    · exact fun none => absurd none (Nat.lt_irrefl 0)
  simp only [strcmpZen4Equal, ← same]
  refine ends_bind.mpr ((cmpTestn_probes (m.reads_load 64) str1 str2).scanVecs_ends clear ?_ ?_ ?_)
  · intro j _ word nonzero _ first _
    rw [if_pos nonzero]
    exact returnVal_ends needs first
  · intro further _
    rw [if_neg (by simp)]
    exact advancing_ends (fun k => (str1 + k) % 64 = 0 ∧ (str2 + k) % 64 = 0) range bounded
      (fun offset here before => strcmpZen4EqualStep_ends needs here before) (by omega) further
  · intro j less before missing
    obtain ⟨most, fits⟩ := fits (by omega)
    obtain ⟨first1, first2⟩ := needs _ before (threeFit_live fits (by omega))
    exact absurd ⟨(PagedMemory.alignedRead_iff (by omega) (by decide)).mpr first1,
      (PagedMemory.alignedRead_iff (by omega) (by decide)).mpr first2⟩ missing

/-- What both builds return: the comparison, with every load in a page that is needed. -/
theorem strcmpZen4Text_ends (needs : Needs m.toMemory str1 str2 size) (range : horizon < budget)
    (bounded : EndsBelow (Decides m.byte str1 str2) size horizon) (live : sizeLe size 0 = false) :
    Ends (strcmpZen4Text m.toMemory size str1 str2) (Compares m.byte str1 str2 size) exit := by
  refine (strcmpZen4Head_ends needs live).bind ?_
  intro decision holds
  cases decision with
  | done value => exact holds
  | next offset =>
    obtain ⟨first, clear⟩ := holds
    apply Ends.ite
    · intro same
      have line := lineOffset_of_same same
      simp only [zmmSz] at same
      exact strcmpZen4Equal_ends needs range bounded (by omega) clear
    · intro _
      exact advancing_ends (fun _ => True) range bounded
        (fun offset _ before => (strcmpZen4MisStep_ends needs before).imp fun decision holds => by
          cases decision with
          | next next => exact ⟨holds.1, trivial, holds.2⟩
          | done value => exact holds) trivial clear

end Runs

/-- `__strcmp_zen4` reads no more than the pages that hold the strings as far as they agree,
and orders them. -/
theorem strcmpZen4_orders (m : PagedMemory) (str1 str2 len : Nat)
    (null : m.byte (str1 + len) = 0) (range : len < sizeRange)
    (needs : Needs m.toMemory str1 str2 none) :
    ∃ value, strcmpZen4 m.toMemory str1 str2 = .ok value ∧
      Ordered m.byte str1 str2 none value := by
  have run : Ends (strcmpZen4 m.toMemory str1 str2) _ fun _ => False :=
    strcmpZen4Text_ends needs (budget_of_range range) (endsBelow_of_nul null) sizeLe_none
  obtain ⟨value, returned, compares⟩ := run.returns
  exact ⟨value, returned, compares.ordered⟩

theorem strcmpZen4_orders_words :
    ∃ value, strcmpZen4 wordPage.toMemory 8184 4096 = .ok value ∧
      Ordered wordPage.byte 8184 4096 none value :=
  strcmpZen4_orders wordPage 8184 4096 7 rfl (by rw [sizeRange_eq]; decide) wordPage_needs

/-- `_strncmp_zen4` reads no more than the pages that hold the bytes below the bound as far as
they agree, and orders them, for every bound that a `size_t` can hold. -/
theorem strncmpZen4_orders (m : PagedMemory) (str1 str2 n : Nat) (range : n < sizeRange)
    (needs : Needs m.toMemory str1 str2 (some n)) :
    ∃ value, strncmpZen4 m.toMemory str1 str2 n = .ok value ∧
      Ordered m.byte str1 str2 (some n) value := by
  by_cases none : n = 0
  · subst none
    exact ⟨0, rfl, (Compares.same rfl clearBelow_zero).ordered⟩
  · have live : sizeLe (some n) 0 = false :=
      sizeLe_false.mpr fun _ bound => by cases bound; exact Nat.pos_of_ne_zero none
    have run : Ends (strcmpZen4Text m.toMemory (some n) str1 str2) _ fun _ => False :=
      strcmpZen4Text_ends needs (Nat.lt_of_succ_lt (budget_of_range range)) endsBelow_bound live
    obtain ⟨value, returned, compares⟩ := run.returns
    exact ⟨value, (if_neg none).trans returned, compares.ordered⟩

theorem strncmpZen4_orders_onePage :
    ∃ value, strncmpZen4 onePage.toMemory 8064 8100 65 = .ok value ∧
      Ordered onePage.byte 8064 8100 (some 65) value :=
  strncmpZen4_orders onePage 8064 8100 65 (by rw [sizeRange_eq]; decide)
    (needs_of_prefixMapped (onePage_mapped (by decide) (by decide))
      (onePage_mapped (by decide) (by decide)))

end AoclLibmem.Strings
