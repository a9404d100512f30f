import AoclLibmem.Strings.StrcmpAvx512

/-! What the AVX512 comparison reads and returns, for every page map. Only the loops
of equal alignment can read past the bound. -/

namespace AoclLibmem.Strings

open Base Machine

section Kernel
variable {m : Memory}

private theorem marks_nullOrNeq {z1 z2 : Lanes 64} {hit : Nat → Prop}
    (lane : ∀ i : Fin 64, (z1 i ≠ z2 i ∨ z1 i = 0) ↔ hit i) : Marks (nullOrNeq z1 z2) hit := by
  refine marks_of_lanes fun i => ?_
  rw [nullOrNeq, BitVec.getLsbD_or, getLsbD_cmpeqEpu8Mask, getLsbD_cmpneqEpu8Mask, ← lane i,
    or_comm]
  simp [setzero]

theorem cmpZmm_probes (str1 str2 : Nat) {load1 load2 : Nat → Exec (Lanes 64)}
    {ready1 ready2 : Nat → Prop} (reads1 : m.Reads 64 load1 ready1)
    (reads2 : m.Reads 64 load2 ready2) :
    Probes (cmpZmm load1 load2 str1 str2) (Decides m.byte str1 str2)
      (fun offset => ready1 (str1 + offset) ∧ ready2 (str2 + offset)) where
  reads offset ready := by
    rw [cmpZmm, reads1.reads _ ready.1, reads2.reads _ ready.2]
    refine ⟨_, rfl, Marks.finds (marks_nullOrNeq fun i => ?_)⟩
    rw [← decides_add]
    rfl
  faults offset missing := by
    rw [cmpZmm]
    by_cases ready : ready1 (str1 + offset)
    · rw [reads1.reads _ ready, reads2.faults _ fun ready' => missing ⟨ready, ready'⟩]
      rfl
    · rw [reads1.faults _ ready]
      rfl

/-- The masked pair reads and decides the first `64 - k` bytes only. -/
private theorem cmpZmmHead_eq {k str1 str2 offset : Nat}
    (rights1 : m.canRead (str1 + offset) (64 - k) = true)
    (rights2 : m.canRead (str2 + offset) (64 - k) = true) :
    ∃ word, cmpZmmHead m k str1 str2 offset = .ok word ∧
      Finds word (fun i => i < 64 - k ∧ Decides m.byte str1 str2 (offset + i)) := by
  have active {addr : Nat} (rights : m.canRead addr (64 - k) = true) :
      ∀ i < 64, (headMask k : BitVec 64).getLsbD i = true → m.readable (addr + i) = true := by
    intro i _ set
    rw [getLsbD_headMask, decide_eq_true_eq] at set
    exact Memory.canRead_iff.mp rights i (by omega)
  simp only [cmpZmmHead, cmpZmm, Memory.maskLoadu_eq (active rights1),
    Memory.maskLoadu_eq (active rights2)]
  refine ⟨_, rfl, Marks.finds (marks_nullOrNeq fun i => ?_)⟩
  rw [← decides_add]
  simp only [getLsbD_headMask, decide_eq_true_eq, set1, Decides]
  by_cases inside : k + i.val < 64
  · have low : i.val < 64 - k := by omega
    simp [inside, low]
  · have high : ¬ i.val < 64 - k := by omega
    simp [inside, high]

end Kernel

/-- The bound up to which the start of the kernel returns by itself. -/
def headBoundAvx512 (str1 str2 : Nat) : Nat :=
  if pageSz - zmmSz < (str1 ||| str2) % pageSz then zmmSz - lineOffset str1 str2 else zmmSz

/-- The kernel reads an unreadable block past the bound `n`: the strings have one
position in the line, and the bound is beyond the start of the kernel and below four
vectors, where `size - 4 * ZMM_SZ` wraps. -/
def OverreadsAvx512 (m : Memory) (str1 str2 n : Nat) : Prop :=
  headBoundAvx512 str1 str2 < n ∧ n < 4 * zmmSz ∧ str1 % cachelineSz = str2 % cachelineSz ∧
    EqualOverread (Decides m.byte str1 str2) (BothReadable m str1 str2) zmmSz n
      (zmmSz - lineOffset str1 str2)

section Runs
variable {m : PagedMemory} {str1 str2 : Nat} {size : Option Nat} {horizon : Nat} {exit : Trap → Prop}

private theorem strcmpAvx512Head_ends (needs : Needs m.toMemory str1 str2 size)
    (live : sizeLe size 0 = false) :
    Ends (strcmpAvx512Head m.toMemory size str1 str2)
      (Step.Holds
        (fun offset => offset = zmmSz - lineOffset str1 str2 ∧
          ClearBelow (Decides m.byte str1 str2) offset ∧
          sizeLe size (headBoundAvx512 str1 str2) = false)
        (fun value => Compares m.byte str1 str2 size value ∧
          Settled (Decides m.byte str1 str2) size (headBoundAvx512 str1 str2)
            (zmmSz - lineOffset str1 str2)))
      exit := by
  obtain ⟨line1, line2, line⟩ := lineOffset_bounds str1 str2
  have rights {n : Nat} := needs.rights (n := n) clearBelow_zero live
  simp only [strcmpAvx512Head, zmmSz, pageSz] at *
  apply Ends.ite
  · intro edge
    have bound : headBoundAvx512 str1 str2 = 64 - lineOffset str1 str2 := by
      rw [headBoundAvx512, if_pos edge]
    rw [bound]
    obtain ⟨whole1, whole2⟩ := rights (n := 64 - lineOffset str1 str2)
      (inside_of_line (by omega)) (inside_of_line (by omega))
    obtain ⟨word, read, finds⟩ := cmpZmmHead_eq whole1 whole2
    rw [read]
    apply Ends.iteNe
    · intro nonzero
      obtain ⟨inside, first⟩ := finds.firstHit_within clearBelow_zero nonzero
      exact leave_ends.mpr (returnVal_settles needs first (.inl inside))
    · intro zero
      have clear := finds.clear_within clearBelow_zero (by omega) zero
      rw [Nat.zero_add] at clear
      apply Ends.ite
      · intro reached
        exact compares_settles reached (by omega) clear
      · intro more
        exact ⟨rfl, clear, by simpa using more⟩
  · intro inner
    have bound : headBoundAvx512 str1 str2 = 64 := by
      rw [headBoundAvx512, if_neg inner]
    rw [bound]
    obtain ⟨low1, low2⟩ := or_mod_page_le (Nat.not_lt.mp inner)
    refine testBound_ends (cmpZmm_probes str1 str2 (m.reads_loadu 64) (m.reads_loadu 64))
      (rights (by omega) (by omega)) clearBelow_zero (by omega) ?_ ?_ ?_
    · intro idx below first
      exact returnVal_settles needs first (.inl (by omega))
    · intro reached clear
      exact compares_settles reached (by omega) clear
    · intro more clear
      exact ⟨rfl, clear.mono (by omega), more⟩

theorem Settled.fine512 (settled : Settled (Decides m.byte str1 str2) size
    (headBoundAvx512 str1 str2) (zmmSz - lineOffset str1 str2)) :
    ¬ ∃ n ∈ size, OverreadsAvx512 m.toMemory str1 str2 n := by
  rintro ⟨n, bound, above, _, _, i, _, past, clear, _⟩
  exact settled n bound above _ past (Nat.le_add_right _ _) clear

private theorem strcmpAvx512Equal_ends (needs : Needs m.toMemory str1 str2 size)
    (range : horizon < budget) (bounded : EndsBelow (Decides m.byte str1 str2) size horizon)
    (sizes : ∀ n ∈ size, n < sizeRange) (same : str1 % cachelineSz = str2 % cachelineSz)
    {start : Nat} (first : start = zmmSz - lineOffset str1 str2)
    (clear : ClearBelow (Decides m.byte str1 str2) start)
    (live : sizeLe size (headBoundAvx512 str1 str2) = false) :
    Ends (strcmpAvx512Equal m.toMemory size str1 str2 start)
      (fun value => Compares m.byte str1 str2 size value ∧
        ¬ ∃ n ∈ size, OverreadsAvx512 m.toMemory str1 str2 n)
      (fun trap => trap = .fault ∧ ∃ n ∈ size, OverreadsAvx512 m.toMemory str1 str2 n) := by
  have line : lineOffset str1 str2 = str1 % 64 := lineOffset_of_same same
  simp only [zmmSz, cachelineSz] at first same
  have overread : EqualLoopsOverread (Decides m.byte str1 str2) (BothReadable m.toMemory str1 str2) 64
      size start ↔ ∃ n ∈ size, OverreadsAvx512 m.toMemory str1 str2 n := by
    refine exists_congr fun n => and_congr_right fun bound => ?_
    rw [OverreadsAvx512, and_iff_right (sizeLe_false.mp live n bound), and_iff_right same, zmmSz,
      ← first]
  simp only [← overread]
  exact alignedLoops_ends (by decide) (by decide) (by decide)
    (cmpZmm_probes _ _ (m.reads_load 64) (m.reads_load 64)) needs range bounded sizes (by omega)
    (by omega) (by omega) clear

private theorem strcmpAvx512Pass_ends {alignedStr unalignedStr offset : Nat}
    (needs : Needs m.toMemory alignedStr unalignedStr size)
    (leaves : ∀ idx, FirstHit (Decides m.byte alignedStr unalignedStr) idx →
      Ends (returnVal m.toMemory size str1 str2 idx) (Compares m.byte str1 str2 size) exit)
    (ended : ∀ k, ClearBelow (Decides m.byte alignedStr unalignedStr) k → sizeLe size k = true →
      Compares m.byte str1 str2 size 0)
    (aligned : (alignedStr + offset) % 64 = 0)
    (clear : ClearBelow (Decides m.byte alignedStr unalignedStr) offset) :
    Ends (strcmpAvx512Pass m.toMemory size str1 str2 alignedStr unalignedStr offset)
      (Step.Holds
        (fun next => offset < next ∧ (unalignedStr + next) % 64 = 0 ∧ sizeLe size next = false ∧
          ClearBelow (Decides m.byte alignedStr unalignedStr) next)
        (Compares m.byte str1 str2 size)) exit := by
  obtain ⟨vecs, room⟩ : ∃ vecs, vecs = vecsInPageAvx512 unalignedStr offset := ⟨_, rfl⟩
  have pages : vecs = (4096 - (unalignedStr + offset) % 4096) / 64 := room
  have probes := cmpZmm_probes alignedStr unalignedStr (m.reads_load 64) (m.reads_loadu 64)
  have live (j : Nat) (less : j < vecs)
      (before : ClearBelow (Decides m.byte alignedStr unalignedStr) (offset + j * 64))
      (inside : sizeLe size (offset + j * 64) = false) :
      m.AlignedRead 64 (alignedStr + (offset + j * 64)) ∧
        m.canRead (unalignedStr + (offset + j * 64)) 64 = true := by
    obtain ⟨first1, first2⟩ := needs _ before inside
    exact ⟨(PagedMemory.alignedRead_iff (by omega) (by decide)).mpr first1,
      PagedMemory.canRead_of_page first2 rfl (by omega)⟩
  rw [strcmpAvx512Pass, ← room]
  refine pageLoops_ends probes (by unfold budget; omega) clear live ?_ ?_ ?_ ?_ ?_
  · intro j less idx above below first _
    exact leaves idx first
  · intro j four idx below first
    exact leaves idx first
  · intro j four k below further reached
    exact ended k further reached
  · intro j four inside further live'
    obtain ⟨first1, first2⟩ := needs _ further live'
    simp only [strcmpAvx512Edge, zmmSz]
    obtain ⟨word, read, finds⟩ := cmpZmmHead_eq (k := (unalignedStr + (offset + vecs * 64)) % 64)
      (PagedMemory.canRead_of_page first1 rfl (by omega))
      (PagedMemory.canRead_of_page first2 rfl (by omega))
    rw [read]
    apply Ends.iteNe
    · intro nonzero
      obtain ⟨_, first⟩ := finds.firstHit_within further nonzero
      exact leave_ends.mpr (leaves _ first)
    · intro zero
      have all := finds.clear_within further (by omega) zero
      apply Ends.ite
      · intro reached
        exact ended _ all reached
      · intro more
        exact ⟨by omega, by omega, by simpa using more, all⟩
  · intro j i less fits opened before missing
    refine absurd (live _ (by omega) before (sizeLe_false.mpr fun n bound => ?_)) missing
    rw [Option.mem_def] at bound
    simp only [fourFit, bound, Option.all_some, zmmSz, decide_eq_true_eq] at opened
    omega

private theorem strcmpAvx512MisStep_ends {offset : Nat} (needs : Needs m.toMemory str1 str2 size)
    (aligned : (str1 + offset) % 64 = 0 ∨ (str2 + offset) % 64 = 0)
    (clear : ClearBelow (Decides m.byte str1 str2) offset) :
    Ends (strcmpAvx512MisStep m.toMemory size str1 str2 offset)
      (Step.Holds
        (fun next => offset < next ∧ ((str1 + next) % 64 = 0 ∨ (str2 + next) % 64 = 0) ∧
          sizeLe size next = false ∧ ClearBelow (Decides m.byte str1 str2) next)
        (Compares m.byte str1 str2 size)) exit := by
  by_cases first : (str1 + offset) % zmmSz = 0
  · rw [strcmpAvx512MisStep, if_pos first]
    refine (strcmpAvx512Pass_ends needs (fun idx hit => returnVal_ends needs hit)
      (fun k further reached => compares_of_sizeLe reached further) first clear).imp ?_
    intro decision holds
    cases decision with
    | next next => exact ⟨holds.1, .inr holds.2.1, holds.2.2⟩
    | done value => exact holds
  · have second : (str2 + offset) % zmmSz = 0 := aligned.resolve_left first
    rw [strcmpAvx512MisStep, if_neg first, if_pos second]
    have pass : Ends _ _ exit := strcmpAvx512Pass_ends needs.swap
      (fun idx hit => returnVal_ends needs (decides_swap m.byte str1 str2 ▸ hit))
      (fun k further reached => compares_of_sizeLe reached (decides_swap m.byte str1 str2 ▸ further))
      second (by rwa [decides_swap])
    rw [decides_swap] at pass
    refine pass.imp ?_
    intro decision holds
    cases decision with
    | next next => exact ⟨holds.1, .inl holds.2.1, holds.2.2⟩
    | done value => exact holds

private theorem strcmpAvx512Mis_ends {start : Nat} (needs : Needs m.toMemory str1 str2 size)
    (range : horizon < budget) (bounded : EndsBelow (Decides m.byte str1 str2) size horizon)
    (aligned : (str1 + start) % 64 = 0 ∨ (str2 + start) % 64 = 0)
    (clear : ClearBelow (Decides m.byte str1 str2) start) :
    Ends (iterate .diverged (strcmpAvx512MisStep m.toMemory size str1 str2) budget start)
      (Compares m.byte str1 str2 size) exit := by
  refine iterate_ends (fun offset => ((str1 + offset) % 64 = 0 ∨ (str2 + offset) % 64 = 0) ∧
    ClearBelow (Decides m.byte str1 str2) offset) (fun offset => horizon - offset) ?_
    ⟨aligned, clear⟩ (by omega)
  rintro offset ⟨alignedHere, clearHere⟩
  refine (strcmpAvx512MisStep_ends needs alignedHere clearHere).imp ?_
  intro decision holds
  cases decision with
  | next next =>
    obtain ⟨advance, boundary, live, further⟩ := holds
    have limit := bounded _ further live
    exact ⟨⟨boundary, further⟩, by omega⟩
  | done value => exact holds

end Runs

/-- What the kernel does on every input whose needed bytes are mapped: it returns the
comparison, unless it reads past the bound. -/
theorem strcmpAvx512Text_ends {m : PagedMemory} {str1 str2 : Nat} {size : Option Nat} {horizon : Nat}
    (needs : Needs m.toMemory str1 str2 size) (range : horizon < budget)
    (bounded : EndsBelow (Decides m.byte str1 str2) size horizon)
    (sizes : ∀ n ∈ size, 0 < n ∧ n < sizeRange) :
    Ends (strcmpAvx512Text m.toMemory size str1 str2)
      (fun value => Compares m.byte str1 str2 size value ∧
        ¬ ∃ n ∈ size, OverreadsAvx512 m.toMemory str1 str2 n)
      (fun trap => trap = .fault ∧ ∃ n ∈ size, OverreadsAvx512 m.toMemory str1 str2 n) := by
  have live : sizeLe size 0 = false := sizeLe_false.mpr fun n bound => (sizes n bound).1
  refine (strcmpAvx512Head_ends needs live).bind ?_
  intro decision holds
  cases decision with
  | done value => exact ⟨holds.1, holds.2.fine512⟩
  | next offset =>
    obtain ⟨first, clear, beyond⟩ := holds
    apply Ends.ite
    · intro same
      exact strcmpAvx512Equal_ends needs range bounded (fun n bound => (sizes n bound).2) same first
        clear beyond
    · intro differ
      have aligned : (str1 + offset) % 64 = 0 ∨ (str2 + offset) % 64 = 0 := by
        obtain ⟨_, _, line⟩ := lineOffset_bounds str1 str2
        simp only [zmmSz] at first
        rcases lineOffset_eq str1 str2 with left | right
        · omega
        · omega
      refine (strcmpAvx512Mis_ends needs range bounded aligned clear).imp fun value good => ⟨good, ?_⟩
      rintro ⟨n, _, _, _, same, _⟩
      exact differ same

/-- Every load of `_strncmp_avx512` succeeds exactly when the kernel does not read past
the bound, given only that the bytes the comparison is about are mapped. -/
theorem strncmpAvx512_loads_iff (m : PagedMemory) (str1 str2 n : Nat) (positive : 1 ≤ n)
    (range : n < sizeRange) (mapped1 : PrefixMapped m.toMemory str1 n)
    (mapped2 : PrefixMapped m.toMemory str2 n) :
    (∃ value, strncmpAvx512 m.toMemory str1 str2 n = .ok value) ↔
      ¬ OverreadsAvx512 m.toMemory str1 str2 n := by
  have run := strcmpAvx512Text_ends (needs_of_prefixMapped mapped1 mapped2)
    (by rw [sizeRange_eq] at range; unfold budget; omega : n < budget) endsBelow_bound
    (fun n' bound => by rw [Option.mem_some_iff] at bound; omega)
  have bounded : strncmpAvx512 m.toMemory str1 str2 n =
      strcmpAvx512Text m.toMemory (some n) str1 str2 := if_neg (by omega)
  rw [bounded]
  exact returns_iff_of_overreads run

theorem strncmpAvx512_loads_iff_onePage :
    (∃ value, strncmpAvx512 onePage.toMemory 4096 4096 100 = .ok value) ↔
      ¬ OverreadsAvx512 onePage.toMemory 4096 4096 100 :=
  strncmpAvx512_loads_iff onePage 4096 4096 100 (by decide) (by rw [sizeRange_eq]; decide)
    (onePage_mapped (by decide) (by decide)) (onePage_mapped (by decide) (by decide))

/-- A hundred equal bytes in the last 128 of a page: the guard wraps and the second
vector of the loop is loaded from the page behind. -/
theorem strncmpAvx512_reads_next_page :
    PrefixMapped onePage.toMemory 8064 100 ∧
      strncmpAvx512 onePage.toMemory 8064 8064 100 = .error .fault :=
  ⟨onePage_mapped (by decide) (by decide), by decide +kernel⟩

end AoclLibmem.Strings
