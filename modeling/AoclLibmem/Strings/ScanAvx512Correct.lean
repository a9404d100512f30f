import AoclLibmem.Strings.ScanAvx512

/-! What the AVX512 scans return, for every page map that holds the string. `strlen` is
right at every address; `strchr` is, but for the character its sentinel collides with. -/

namespace AoclLibmem.Strings

open Base Machine

section Line
variable {α : Type} {probe7 probe4 : Nat → Exec (BitVec 64)} {found main : Nat → Exec α}
variable {hit ready : Nat → Prop} {str : Nat} {post : α → Prop} {exit : Trap → Prop}

private theorem scanLineAvx512_ends (probes7 : Probes probe7 hit ready)
    (probes4 : Probes probe4 hit ready)
    {start : Nat} (aligned : (str + start) % 64 = 0) (clear : ClearBelow hit start)
    (needed : ∀ offset, (str + offset) % 64 = 0 → ClearBelow hit offset → ready offset)
    (onFound : ∀ idx, FirstHit hit idx → Ends (found idx) post exit)
    (onMain : ∀ offset, (str + offset) % 256 = 0 → ClearBelow hit offset →
      Ends (main offset) post exit) :
    Ends (scanLineAvx512 probe7 probe4 found main str start) post exit := by
  refine ends_bind.mpr (probes7.scanVecs_ends clear ?_ ?_ ?_)
  · intro j less word nonzero below first _
    exact ends_ite.mpr ⟨fun _ => onFound _ first, fun zero => absurd nonzero zero⟩
  · intro further _
    refine ends_ite.mpr ⟨fun nonzero => absurd rfl nonzero, fun _ => ?_⟩
    refine ends_bind.mpr (probes4.scanVecs_ends further ?_ ?_ ?_)
    · intro j less word nonzero below first _
      exact ends_ite.mpr ⟨fun _ => onFound _ first, fun zero => absurd nonzero zero⟩
    · intro whole _
      refine ends_ite.mpr ⟨fun nonzero => absurd rfl nonzero, fun _ => onMain _ ?_ whole⟩
      simp only [zmmSz]
      omega
    · intro j less before missing
      exact absurd (needed _ (by omega) before) missing
  · intro j less before missing
    exact absurd (needed _ (by omega) before) missing

/-- The main loop, four lines a pass, gets as far as the first hit. -/
private theorem lineLoop_ends {step : Nat → Exec (Step Nat α)} {stop : Nat}
    (stops : FirstHit hit stop) (range : stop < sizeRange)
    (pass : ∀ offset, (str + offset) % 256 = 0 → ClearBelow hit offset →
      Ends (step offset) (Step.Holds (fun next => next = offset + 256 ∧ ClearBelow hit next) post) exit)
    {start : Nat} (aligned : (str + start) % 256 = 0) (clear : ClearBelow hit start) :
    Ends (iterate .diverged step budget start) post exit := by
  have steps (k : Nat) (boundary : (str + k) % 256 = 0) (before : ClearBelow hit k) :
      Ends (step (0 + k))
        (Step.Holds (fun next => next = 0 + (k + 256) ∧ ClearBelow hit (k + 256)) post) exit := by
    rw [Nat.zero_add, Nat.zero_add]
    refine (pass k boundary before).imp ?_
    intro decision holds
    cases decision with
    | next next =>
      obtain ⟨rfl, further⟩ := holds
      exact ⟨rfl, further⟩
    | done result => exact holds
  rw [← Nat.zero_add start]
  exact strideLoop_ends stops range (by decide) (by decide) steps aligned clear

end Line

section Strlen
variable {m : PagedMemory} {str len : Nat} {exit : Trap → Prop}

theorem nullZmm_probes (str : Nat) {m : Memory} {load : Nat → Exec (Lanes 64)} {ready : Nat → Prop}
    (reads : m.Reads 64 load ready) :
    Probes (nullZmm load str) (fun i => m.byte (str + i) = 0) (fun offset => ready (str + offset)) where
  reads offset here := by
    rw [nullZmm, reads.reads _ here]
    refine ⟨_, rfl, (marks_null fun i => ?_).finds⟩
    rw [Memory.lanes_apply, Nat.add_assoc]
  faults offset missing := by
    rw [nullZmm, reads.faults _ missing]
    rfl

private theorem strlenAvx512Step_ends
    (needs : ScanNeeds m.toMemory str fun i => m.byte (str + i) = 0)
    {offset : Nat} (aligned : (str + offset) % 256 = 0)
    (clear : ClearBelow (fun i => m.byte (str + i) = 0) offset) :
    Ends (strlenAvx512Step m.toMemory str offset)
      (Step.Holds
        (fun next => next = offset + 256 ∧ ClearBelow (fun i => m.byte (str + i) = 0) next)
        (IsLength m.byte str)) exit := by
  obtain ⟨read1, read2, read3, read4⟩ := fourVecs_read (.inr rfl) aligned (needs offset clear)
  simp only [strlenAvx512Step, zmmSz, read1, read2, read3, read4]
  have four := nullFour (w := 64) m.toMemory str offset
  apply Ends.iteNe
  · intro nonzero
    exact four.firstHit marksZeros_null clear nonzero
  · intro zero
    exact ⟨rfl, four.clear marksZeros_null clear zero⟩

/-- The first block before a page end, by a mask of its first `width` lanes. -/
theorem nullZmmHead_eq (str : Nat) {m : Memory} {mask : BitVec 64} {width : Nat}
    (lanes : ∀ i < 64, mask.getLsbD i = decide (i < width)) (rights : m.canRead str width = true) :
    ∃ word, nullZmm (m.maskLoadu (set1 0xff) mask) str 0 = .ok word ∧
      Finds word (fun i => i < width ∧ m.byte (str + (0 + i)) = 0) := by
  have active : ∀ i < 64, mask.getLsbD i = true → m.readable (str + i) = true := by
    intro i below set
    rw [lanes i below, decide_eq_true_eq] at set
    exact Memory.canRead_iff.mp rights i set
  rw [nullZmm, Nat.add_zero, Memory.maskLoadu_eq active]
  refine ⟨_, rfl, (marks_null fun i => ?_).finds⟩
  simp only [lanes i i.isLt, decide_eq_true_eq, set1, Nat.zero_add]
  by_cases inside : i.val < width
  · simp [inside]
  · simp [inside]

private theorem strlenAvx512Rest_ends
    (needs : ScanNeeds m.toMemory str fun i => m.byte (str + i) = 0)
    (ends : IsLength m.byte str len) (range : len < sizeRange) {start : Nat}
    (aligned : (str + start) % 64 = 0) (clear : ClearBelow (fun i => m.byte (str + i) = 0) start) :
    Ends (scanLineAvx512 (nullZmm (m.load 64) str) (nullZmm (m.load 64) str) pure
      (iterate .diverged (strlenAvx512Step m.toMemory str) budget) str start)
      (IsLength m.byte str) exit := by
  refine scanLineAvx512_ends (nullZmm_probes _ (m.reads_load 64)) (nullZmm_probes _ (m.reads_load 64))
    aligned clear ?_ (fun _ found => found) ?_
  · intro k boundary before
    exact (PagedMemory.alignedRead_iff boundary (by decide)).mpr (needs k before)
  · intro k boundary before
    refine lineLoop_ends ends range ?_ boundary before
    intro k boundary before
    exact strlenAvx512Step_ends needs boundary before

private theorem strlenAvx512Enter_ends (needs : ScanNeeds m.toMemory str fun i => m.byte (str + i) = 0)
    (ends : IsLength m.byte str len) (range : len < sizeRange) {word : BitVec 64} {width : Nat}
    (wide : 64 - str % 64 ≤ width) (narrow : width ≤ 64)
    (finds : Finds word (fun i => i < width ∧ m.byte (str + (0 + i)) = 0)) :
    Ends (if word ≠ 0#64 then pure (tzcnt word) else
      scanLineAvx512 (nullZmm (m.load 64) str) (nullZmm (m.load 64) str) pure
        (iterate .diverged (strlenAvx512Step m.toMemory str) budget) str (64 - str % 64))
      (IsLength m.byte str) exit := by
  have start : ClearBelow (fun i => m.byte (str + i) = 0) 0 := clearBelow_zero
  apply Ends.iteNe
  · intro nonzero
    exact (finds.firstHit_within start nonzero).2
  · intro zero
    have clear := finds.clear_within start narrow zero
    exact strlenAvx512Rest_ends needs ends range (by omega) (clear.mono (by omega))

/-- Either mask of the first block cuts it at the page end. -/
theorem strlenZmm_ends (needs : ScanNeeds m.toMemory str fun i => m.byte (str + i) = 0)
    (ends : IsLength m.byte str len) (range : len < sizeRange) {safeMask : Nat → BitVec 64}
    (lanes : ∀ i < 64, (safeMask (str % 64)).getLsbD i = decide (i < 64 - str % 64)) :
    Ends (strlenZmm safeMask m.toMemory str) (IsLength m.byte str) exit := by
  have first := needs 0 clearBelow_zero
  simp only [strlenZmm, pageSz, zmmSz]
  apply Ends.ite
  · intro edge
    obtain ⟨word, read, finds⟩ := nullZmmHead_eq str lanes
      (PagedMemory.canRead_of_page first rfl (by omega))
    rw [read]
    exact strlenAvx512Enter_ends needs ends range (Nat.le_refl _) (by omega) finds
  · intro inner
    obtain ⟨word, read, finds⟩ := (nullZmm_probes str (m.reads_loadu 64)).reads 0
      (PagedMemory.canRead_of_page first (by omega) (by omega))
    rw [read]
    exact strlenAvx512Enter_ends needs ends range (by omega) (Nat.le_refl _) finds.within

theorem strlenAvx512_ends (needs : ScanNeeds m.toMemory str fun i => m.byte (str + i) = 0)
    (ends : IsLength m.byte str len) (range : len < sizeRange) :
    Ends (strlenAvx512 m.toMemory str) (IsLength m.byte str) exit := by
  refine strlenZmm_ends needs ends range fun i _ => ?_
  rw [getLsbD_headMask, decide_eq_decide]
  omega

theorem strlenZen4_ends (needs : ScanNeeds m.toMemory str fun i => m.byte (str + i) = 0)
    (ends : IsLength m.byte str len) (range : len < sizeRange) :
    Ends (strlenZen4 m.toMemory str) (IsLength m.byte str) exit := by
  refine strlenZmm_ends needs ends range fun i below => ?_
  rw [getLsbD_bzhiOnes below, zmmSz, Nat.mod_eq_of_lt (by omega)]

end Strlen

section Strchr
variable {m : PagedMemory} {str stop : Nat} {ch : UInt8} {c : Int} {exit : Trap → Prop}

private theorem chZmm_probes (str : Nat) (ch : UInt8) {m : Memory} {load : Nat → Exec (Lanes 64)}
    {ready : Nat → Prop} (reads : m.Reads 64 load ready) :
    Probes (chZmm load ch str) (Stops m.byte str ch) (fun offset => ready (str + offset)) where
  reads offset here := by
    rw [chZmm, reads.reads _ here]
    refine ⟨_, rfl, (marks_null fun i => ?_).finds⟩
    rw [matchOrZero_eq_zero, Memory.lanes_apply, Nat.add_assoc, Stops]
  faults offset missing := by
    rw [chZmm, reads.faults _ missing]
    rfl

private theorem chZmmTestn_probes (str : Nat) (ch : UInt8) {m : Memory}
    {load : Nat → Exec (Lanes 64)} {ready : Nat → Prop} (reads : m.Reads 64 load ready) :
    Probes (chZmmTestn load ch str) (Stops m.byte str ch) (fun offset => ready (str + offset)) where
  reads offset here := by
    rw [chZmmTestn, reads.reads _ here]
    refine ⟨_, rfl, (marks_of_lanes fun i => ?_ : Marks _ _).finds⟩
    rw [getLsbD_testnEpi8Mask, UInt8.and_self, beq_iff_eq, matchOrZero_eq_zero, Memory.lanes_apply,
      Nat.add_assoc, Stops]
  faults offset missing := by
    rw [chZmmTestn, reads.faults _ missing]
    rfl

/-- The complement of a mask of quiet lanes marks the loud ones. -/
theorem marks_not {n : Nat} {word : BitVec n} {hit : Nat → Prop}
    (quiet : ∀ i : Fin n, word.getLsbD i = true ↔ ¬ hit i) : Marks (~~~word) hit :=
  marks_of_lanes fun i => by
    rw [BitVec.getLsbD_not, decide_eq_true i.isLt, Bool.true_and, Bool.not_eq_true',
      ← Bool.not_eq_true, quiet i, not_not]

theorem not_eq_zero_iff {n : Nat} {word : BitVec n} : ~~~word = 0#n ↔ word = BitVec.allOnes n := by
  constructor
  · intro zero
    rw [← BitVec.not_not (b := word), zero, BitVec.not_zero]
  · rintro rfl
    exact BitVec.not_allOnes

section Masks
variable {z1 z2 z3 z4 : Lanes 64} {i : Fin 64}

/-- The chained masks of one pass, lane by lane. -/
private theorem first_quiet_iff :
    (maskTestEpi8Mask (cmpneqEpu8Mask z1 (set1 ch)) z1 z1).getLsbD i = true ↔
      ¬ (z1 i = ch ∨ z1 i = 0) := by
  simp only [getLsbD_maskTestEpi8Mask, getLsbD_cmpneqEpu8Mask, UInt8.and_self, Bool.and_eq_true,
    bne_iff_ne, set1, not_or, ne_eq]

private theorem second_quiet_iff (before : ¬ (z1 i = ch ∨ z1 i = 0)) :
    (maskTestEpi8Mask (cmpneqEpu8Mask z2 (set1 ch)) (minEpu8 z1 z2) (minEpu8 z1 z2)).getLsbD i = true ↔
      ¬ (z2 i = ch ∨ z2 i = 0) := by
  have nonzero := (not_or.mp before).2
  simp only [getLsbD_maskTestEpi8Mask, getLsbD_cmpneqEpu8Mask, UInt8.and_self, Bool.and_eq_true,
    bne_iff_ne, set1, not_or, ne_eq, minEpu8_eq_zero, nonzero, false_or]

private theorem third_quiet_iff (before : ¬ (z1 i = ch ∨ z1 i = 0)) :
    (maskTestEpi8Mask (maskCmpneqEpu8Mask (cmpneqEpu8Mask z1 (set1 ch)) z3 (set1 ch)) z3 z3).getLsbD i
      = true ↔ ¬ (z3 i = ch ∨ z3 i = 0) := by
  have other := (not_or.mp before).1
  simp only [getLsbD_maskTestEpi8Mask, getLsbD_cmpneqEpu8Mask, getLsbD_maskCmpneqEpu8Mask,
    UInt8.and_self, Bool.and_eq_true, bne_iff_ne, set1, not_or, ne_eq, other, not_false_eq_true,
    true_and]

private theorem all_quiet_iff :
    (maskTestEpi8Mask (maskCmpneqEpu8Mask (cmpneqEpu8Mask z2 (set1 ch)) z4 (set1 ch))
      (maskzMinEpu8 (maskCmpneqEpu8Mask (cmpneqEpu8Mask z1 (set1 ch)) z3 (set1 ch))
        (minEpu8 z1 z2) (minEpu8 z3 z4))
      (maskzMinEpu8 (maskCmpneqEpu8Mask (cmpneqEpu8Mask z1 (set1 ch)) z3 (set1 ch))
        (minEpu8 z1 z2) (minEpu8 z3 z4))).getLsbD i = true ↔
      ¬ (((z1 i = ch ∨ z1 i = 0) ∨ z2 i = ch ∨ z2 i = 0) ∨
        (z3 i = ch ∨ z3 i = 0) ∨ z4 i = ch ∨ z4 i = 0) := by
  have lane : maskzMinEpu8 (maskCmpneqEpu8Mask (cmpneqEpu8Mask z1 (set1 ch)) z3 (set1 ch))
      (minEpu8 z1 z2) (minEpu8 z3 z4) i = 0 ↔
        (z1 i = ch ∨ z3 i = ch) ∨ (z1 i = 0 ∨ z2 i = 0) ∨ z3 i = 0 ∨ z4 i = 0 := by
    simp only [maskzMinEpu8, getLsbD_maskCmpneqEpu8Mask, getLsbD_cmpneqEpu8Mask, set1,
      Bool.and_eq_true, bne_iff_ne]
    split
    · rename_i other
      rw [minEpu8_eq_zero, minEpu8_eq_zero, minEpu8_eq_zero]
      tauto
    · rename_i odd
      simp only [true_iff]
      tauto
  simp only [getLsbD_maskTestEpi8Mask, getLsbD_cmpneqEpu8Mask, getLsbD_maskCmpneqEpu8Mask,
    UInt8.and_self, Bool.and_eq_true, bne_iff_ne, ne_eq, lane]
  simp only [set1]
  tauto

end Masks

private theorem strchrAvx512Step_ends (needs : ScanNeeds m.toMemory str (Stops m.byte str ch))
    {offset : Nat}
    (aligned : (str + offset) % 256 = 0) (clear : ClearBelow (Stops m.byte str ch) offset) :
    Ends (strchrAvx512Step m.toMemory ch str offset)
      (Step.Holds
        (fun next => next = offset + 256 ∧ ClearBelow (Stops m.byte str ch) next)
        (Locates m.byte str ch)) exit := by
  obtain ⟨read1, read2, read3, read4⟩ := fourVecs_read (.inr rfl) aligned (needs offset clear)
  have lane (k : Nat) (i : Fin 64) :
      (m.lanes 64 (str + offset + k) i = ch ∨ m.lanes 64 (str + offset + k) i = 0) ↔
        Stops m.byte str ch (offset + k + i) := by
    rw [Memory.lanes_apply, Nat.add_assoc, Nat.add_assoc, Nat.add_assoc, Stops]
  have lane1 := lane 0
  have lane2 := lane 64
  have lane3 := lane (2 * 64)
  have lane4 := lane (3 * 64)
  simp only [strchrAvx512Step, zmmSz, Nat.one_mul, read1, read2, read3, read4]
  simp only [Nat.add_zero] at lane1
  generalize m.lanes 64 (str + offset) = z1 at lane1 ⊢
  generalize m.lanes 64 (str + offset + 64) = z2 at lane2 ⊢
  generalize m.lanes 64 (str + offset + 2 * 64) = z3 at lane3 ⊢
  generalize m.lanes 64 (str + offset + 3 * 64) = z4 at lane4 ⊢
  have leaves {idx result : Nat} (first : FirstHit (Stops m.byte str ch) idx)
      (same : result = str + idx) :
      Ends (matchOrNull m.toMemory ch result >>= fun found => pure (Step.done found))
        (Step.Holds (fun next => next = offset + 4 * 64 ∧ ClearBelow (Stops m.byte str ch) next)
          (Locates m.byte str ch)) exit := by
    rw [same]
    exact (matchOrNull_ends needs first).bind fun _ good => good
  have quiet4 : Marks (~~~ maskTestEpi8Mask
      (maskCmpneqEpu8Mask (cmpneqEpu8Mask z2 (set1 ch)) z4 (set1 ch))
      (maskzMinEpu8 (maskCmpneqEpu8Mask (cmpneqEpu8Mask z1 (set1 ch)) z3 (set1 ch))
        (minEpu8 z1 z2) (minEpu8 z3 z4))
      (maskzMinEpu8 (maskCmpneqEpu8Mask (cmpneqEpu8Mask z1 (set1 ch)) z3 (set1 ch))
        (minEpu8 z1 z2) (minEpu8 z3 z4)))
      fun i => (Stops m.byte str ch (offset + i) ∨ Stops m.byte str ch (offset + 64 + i)) ∨
        Stops m.byte str ch (offset + 2 * 64 + i) ∨ Stops m.byte str ch (offset + 3 * 64 + i) :=
    marks_not fun i => all_quiet_iff.trans (not_congr
      (or_congr (or_congr (lane1 i) (lane2 i)) (or_congr (lane3 i) (lane4 i))))
  have quiet1 : Marks (~~~ maskTestEpi8Mask (cmpneqEpu8Mask z1 (set1 ch)) z1 z1)
      fun i => Stops m.byte str ch (offset + i) :=
    marks_not fun i => first_quiet_iff.trans (not_congr (lane1 i))
  apply Ends.ite
  · intro zero
    exact ⟨rfl, pickFour_none clear quiet4 (not_eq_zero_iff.mpr zero)⟩
  · intro some
    apply Ends.iteNe
    · intro in1
      exact leaves (quiet1.finds.firstHit clear (not_eq_zero_iff.not.mpr in1)) (by omega)
    · intro not1
      have clear1 := quiet1.finds.clear clear (not_eq_zero_iff.mpr not1)
      have none1 (i : Fin 64) : ¬ (z1 i = ch ∨ z1 i = 0) := by
        rw [lane1 i]
        exact quiet1.none_iff.mp (not_eq_zero_iff.mpr not1) i i.isLt
      have quiet2 : Marks (~~~ maskTestEpi8Mask (cmpneqEpu8Mask z2 (set1 ch)) (minEpu8 z1 z2)
          (minEpu8 z1 z2))
          fun i => Stops m.byte str ch (offset + 64 + i) :=
        marks_not fun i => (second_quiet_iff (none1 i)).trans (not_congr (lane2 i))
      have quiet3 : Marks (~~~ maskTestEpi8Mask
          (maskCmpneqEpu8Mask (cmpneqEpu8Mask z1 (set1 ch)) z3 (set1 ch)) z3 z3)
          fun i => Stops m.byte str ch (offset + 2 * 64 + i) :=
        marks_not fun i => (third_quiet_iff (none1 i)).trans (not_congr (lane3 i))
      apply Ends.iteNe
      · intro in2
        exact leaves (quiet2.finds.firstHit clear1 (not_eq_zero_iff.not.mpr in2)) (by omega)
      · intro not2
        have none2 := quiet2.none_iff.mp (not_eq_zero_iff.mpr not2)
        have clear2 : ClearBelow (Stops m.byte str ch) (offset + 2 * 64) :=
          (clear1.extend none2).mono (by omega)
        apply Ends.iteNe
        · intro in3
          exact leaves (quiet3.finds.firstHit clear2 (not_eq_zero_iff.not.mpr in3)) (by omega)
        · intro not3
          have none3 := quiet3.none_iff.mp (not_eq_zero_iff.mpr not3)
          have clear3 : ClearBelow (Stops m.byte str ch) (offset + 3 * 64) :=
            (clear2.extend none3).mono (by omega)
          have last := quiet4.congr fun i below => by
            rw [or_iff_right (not_or.mpr ⟨(lane1 ⟨i, below⟩).not.mp (none1 ⟨i, below⟩), none2 i below⟩),
              or_iff_right (none3 i below)]
          exact leaves (last.finds.firstHit clear3 (not_eq_zero_iff.not.mpr some)) (by omega)

/-- The case in which the sentinel hides the match: the string starts in the last line
of a page, `ch` is the sentinel itself and its first place in the string is past the
first byte behind the page. -/
def SentinelHides (byte : Nat → UInt8) (str : Nat) (ch : UInt8) : Prop :=
  pageSz - zmmSz < str % pageSz ∧ ch = 0xff ∧
    ∃ i, FirstHit (fun j => byte (str + j) = ch) i ∧ (∀ j < i, byte (str + j) ≠ 0) ∧
      zmmSz - str % zmmSz < i

/-- The first block before a page end. Behind it, a lane counts when `ch` is the sentinel. -/
private theorem chZmmHead_eq (str : Nat) (ch : UInt8) {m : Memory} {k : Nat} (short : k ≤ 64)
    (rights : m.canRead str k = true) :
    ∃ word, chZmm (m.maskLoadu (set1 0xff) (bzhiOnes k)) ch str 0 = .ok word ∧
      Marks word (fun i => if i < k then Stops m.byte str ch i else ch = 0xff) := by
  have active : ∀ i < 64, (bzhiOnes k : BitVec 64).getLsbD i = true → m.readable (str + i) = true := by
    intro i lanes set
    rw [getLsbD_bzhiOnes lanes, decide_eq_true_eq] at set
    exact Memory.canRead_iff.mp rights i (by omega)
  rw [chZmm, Nat.add_zero, Memory.maskLoadu_eq active]
  refine ⟨_, rfl, marks_null fun i => ?_⟩
  rw [matchOrZero_eq_zero, getLsbD_bzhiOnes i.isLt, Nat.mod_eq_of_lt (by omega : k < 256)]
  by_cases inside : i.val < k
  · simp [inside, Stops]
  · simp [inside, set1, eq_comm]

private theorem sentinelHides_iff {byte : Nat → UInt8} (first : FirstHit (Stops byte str ch) stop) :
    SentinelHides byte str ch ↔ pageSz - zmmSz < str % pageSz ∧ ch = 0xff ∧
      byte (str + stop) = ch ∧ zmmSz - str % zmmSz < stop := by
  refine and_congr_right fun _ => and_congr_right fun _ => ⟨?_, ?_⟩
  · rintro ⟨i, ⟨found, before⟩, inside, beyond⟩
    have here : FirstHit (Stops byte str ch) i :=
      ⟨.inl found, fun j below => not_or.mpr ⟨before j below, inside j below⟩⟩
    rw [first.unique here]
    exact ⟨found, beyond⟩
  · rintro ⟨found, beyond⟩
    exact ⟨stop, ⟨found, fun j below same => first.2 j below (.inl same)⟩,
      fun j below zero => first.2 j below (.inr zero), beyond⟩

private theorem strchrAvx512Rest_ends (needs : ScanNeeds m.toMemory str (Stops m.byte str ch))
    (stops : FirstHit (Stops m.byte str ch) stop) (range : stop < sizeRange)
    (clear : ClearBelow (Stops m.byte str ch) (64 - str % 64)) :
    Ends (scanLineAvx512 (chZmmTestn (m.load 64) ch str) (chZmm (m.load 64) ch str)
      (fun idx => matchOrNull m.toMemory ch (str + idx))
      (iterate .diverged (strchrAvx512Step m.toMemory ch str) budget) str (64 - str % 64))
      (Locates m.byte str ch) exit := by
  refine scanLineAvx512_ends (chZmmTestn_probes _ _ (m.reads_load 64))
    (chZmm_probes _ _ (m.reads_load 64)) (by omega) clear ?_
    (fun _ found => matchOrNull_ends needs found) ?_
  · intro k boundary before
    exact (PagedMemory.alignedRead_iff boundary (by decide)).mpr (needs k before)
  · intro k boundary before
    refine lineLoop_ends stops range ?_ boundary before
    intro k boundary before
    exact strchrAvx512Step_ends needs boundary before

/-- Behind a mask of the first block that speaks for its line at least, all is regular. -/
private theorem strchrAvx512Enter_ends (needs : ScanNeeds m.toMemory str (Stops m.byte str ch))
    (stops : FirstHit (Stops m.byte str ch) stop) (range : stop < sizeRange)
    {word : BitVec 64} {width : Nat} (wide : 64 - str % 64 ≤ width) (narrow : width ≤ 64)
    (finds : Finds word (fun i => i < width ∧ Stops m.byte str ch (0 + i))) :
    Ends (if word ≠ 0#64 then matchOrNull m.toMemory ch (str + tzcnt word) else
      scanLineAvx512 (chZmmTestn (m.load 64) ch str) (chZmm (m.load 64) ch str)
        (fun idx => matchOrNull m.toMemory ch (str + idx))
        (iterate .diverged (strchrAvx512Step m.toMemory ch str) budget) str (64 - str % 64))
      (Locates m.byte str ch) exit := by
  have start : ClearBelow (Stops m.byte str ch) 0 := clearBelow_zero
  apply Ends.iteNe
  · intro nonzero
    exact matchOrNull_ends needs (finds.firstHit_within start nonzero).2
  · intro zero
    have clear := finds.clear_within start narrow zero
    exact strchrAvx512Rest_ends needs stops range (clear.mono (by omega))

/-- What the search for the sentinel itself does with the first block before a page end:
the lane behind the page counts as a match, so the byte there decides. -/
private theorem matchOrNull_sentinel (needs : ScanNeeds m.toMemory str (Stops m.byte str ch))
    (stops : FirstHit (Stops m.byte str ch) stop) (edge : pageSz - zmmSz < str % pageSz)
    (sentinel : ch = 0xff) {idx : Nat} (below : ClearBelow (Stops m.byte str ch) idx)
    (first : idx < 64 - str % 64 ∧ FirstHit (Stops m.byte str ch) idx ∨ idx = 64 - str % 64) :
    Ends (matchOrNull m.toMemory ch (str + idx))
      (fun result => (SentinelHides m.byte str ch → result = none) ∧
        (¬ SentinelHides m.byte str ch → Locates m.byte str ch result)) exit := by
  have upTo : idx ≤ 64 - str % 64 := first.elim (fun inside => by omega) (fun same => by omega)
  by_cases here : stop = idx
  · -- the first stop is in the line or right behind it: seen as it is
    rw [here] at stops
    refine (matchOrNull_ends needs stops).imp fun _ good => ⟨fun hides => ?_, fun _ => good⟩
    have beyond := ((sentinelHides_iff stops).mp hides).2.2.2
    simp only [zmmSz] at beyond
    omega
  · have behind : idx = 64 - str % 64 :=
      first.elim (fun inside => absurd (stops.unique inside.2) here) id
    have before := stops.clear_le below
    have other : m.byte (str + idx) ≠ ch := fun same => stops.2 idx (by omega) (.inl same)
    rw [matchOrNull, Memory.byteAt_eq (needs idx below)]
    refine ⟨fun _ => if_neg other, fun visible => ?_⟩
    have missing : m.byte (str + stop) ≠ ch := fun same =>
      visible ((sentinelHides_iff stops).mpr ⟨edge, sentinel, same, by simp only [zmmSz]; omega⟩)
    have located := locates_of_stop stops
    rw [if_neg missing] at located
    rwa [if_neg other]

theorem strchrAvx512_ends {len : Nat}
    (needs : ScanNeeds m.toMemory str (Stops m.byte str (charOfInt c)))
    (ends : IsLength m.byte str len) (range : len < sizeRange) :
    Ends (strchrAvx512 m.toMemory str c)
      (fun result => (SentinelHides m.byte str (charOfInt c) → result = none) ∧
        (¬ SentinelHides m.byte str (charOfInt c) → Locates m.byte str (charOfInt c) result)) exit := by
  simp only [strchrAvx512]
  generalize charOfInt c = ch at needs ⊢
  obtain ⟨stop, le, stops⟩ := exists_stop ch ends
  have first := needs 0 clearBelow_zero
  have regular {run : Exec (Option Nat)} (fine : ¬ SentinelHides m.byte str ch)
      (located : Ends run (Locates m.byte str ch) exit) :
      Ends run (fun result => (SentinelHides m.byte str ch → result = none) ∧
        (¬ SentinelHides m.byte str ch → Locates m.byte str ch result)) exit :=
    located.imp fun _ good => ⟨fun hides => absurd hides fine, fun _ => good⟩
  apply Ends.ite
  · intro edge
    have lastLine : 4096 - 64 < str % 4096 := edge
    obtain ⟨word, read, marks⟩ := chZmmHead_eq str ch (k := 64 - str % 64) (by omega)
      (PagedMemory.canRead_of_page first rfl (by omega))
    simp only [zmmSz]
    rw [read]
    by_cases sentinel : ch = 0xff
    · have loud : word ≠ 0#64 := fun zero =>
        marks.none_iff.mp zero (64 - str % 64) (by omega) (by simpa using sentinel)
      obtain ⟨found, below⟩ := marks.first loud
      have upTo : tzcnt word ≤ 64 - str % 64 := by
        by_contra more
        exact below (64 - str % 64) (by omega) (by simpa using sentinel)
      have clear : ClearBelow (Stops m.byte str ch) (tzcnt word) := by
        intro i less stopped
        refine below i less ?_
        rwa [if_pos (by omega)]
      rw [ok_bind, if_pos loud]
      refine matchOrNull_sentinel needs stops edge sentinel clear ?_
      by_cases inside : tzcnt word < 64 - str % 64
      · exact .inl ⟨inside, by simpa [inside] using found, clear⟩
      · exact .inr (by omega)
    · refine regular (fun hides => sentinel hides.2.1)
        (strchrAvx512Enter_ends needs stops (by omega) (Nat.le_refl _) (by omega) ?_)
      refine (marks.congr fun i _ => ?_).finds
      simp [sentinel]
  · intro inner
    refine regular (fun hides => inner hides.1) ?_
    simp only [pageSz, zmmSz] at inner ⊢
    obtain ⟨word, read, finds⟩ := (chZmm_probes str ch (m.reads_loadu 64)).reads 0
      (PagedMemory.canRead_of_page first (by omega) (by omega))
    rw [read]
    exact strchrAvx512Enter_ends needs stops (by omega) (by omega) (Nat.le_refl _) finds.within

theorem SentinelHides.locates {byte : Nat → UInt8} (hides : SentinelHides byte str ch) :
    ∃ i, Locates byte str ch (some (str + i)) := by
  obtain ⟨_, _, i, first, inside, _⟩ := hides
  exact ⟨i, .found first inside⟩

/-- On a fully mapped memory `_strchr_avx512` is right exactly when the sentinel does
not hide the match. -/
theorem strchrAvx512_locates_iff (byte : Nat → UInt8) (str : Nat) (c : Int) (len : Nat)
    (ends : IsLength byte str len) (fits : str + len < sizeRange) :
    (∃ result, strchrAvx512 (PagedMemory.full byte).toMemory str c = .ok result ∧
      Locates byte str (charOfInt c) result) ↔ ¬ SentinelHides byte str (charOfInt c) := by
  have run : Ends (strchrAvx512 (PagedMemory.full byte).toMemory str c) _ fun _ => False :=
    strchrAvx512_ends (scanNeeds_full byte str _) ends (by omega)
  obtain ⟨value, returned, hidden, located⟩ := run.returns
  constructor
  · rintro ⟨result, returned', good⟩ hides
    obtain ⟨i, wanted⟩ := hides.locates
    rw [returned, Except.ok.injEq] at returned'
    rw [← returned', hidden hides] at good
    exact Option.some_ne_none _ (good.unique wanted).symm
  · intro visible
    exact ⟨value, returned, located visible⟩

end Strchr

/-- The bytes `a`, `a`, `0xff`, NUL around address 4096. -/
def pageEndText (addr : Nat) : UInt8 := if addr = 4097 then 0xff else if addr = 4098 then 0 else 97

theorem strchrAvx512_locates_iff_inside :
    (∃ result, strchrAvx512 (PagedMemory.full pageEndText).toMemory 4096 255 = .ok result ∧
      Locates pageEndText 4096 (charOfInt 255) result) ↔
        ¬ SentinelHides pageEndText 4096 (charOfInt 255) :=
  strchrAvx512_locates_iff pageEndText 4096 255 2 ⟨by decide, by unfold ClearBelow; decide⟩
    (by rw [sizeRange_eq]; decide)

/-- One byte before the page end the same text yields `NULL`, although it holds the
character. -/
theorem strchrAvx512_misses_sentinel :
    IsLength pageEndText 4095 3 ∧
      strchrAvx512 (PagedMemory.full pageEndText).toMemory 4095 255 = .ok none ∧
      ¬ Locates pageEndText 4095 (charOfInt 255) none := by
  refine ⟨⟨by decide, by unfold ClearBelow; decide⟩, by decide +kernel, fun wrong => ?_⟩
  have right : Locates pageEndText 4095 (charOfInt 255) (some (4095 + 2)) :=
    .found ⟨by decide, by unfold ClearBelow; decide⟩ (by decide)
  exact Option.some_ne_none _ (wrong.unique right).symm

end AoclLibmem.Strings
