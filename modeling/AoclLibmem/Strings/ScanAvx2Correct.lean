import AoclLibmem.Strings.ScanAvx2

/-! What the AVX2 scans return, for every page map that holds the string. -/

namespace AoclLibmem.Strings

open Base Machine

theorem marks_zeroMask {y : Lanes 32} {hit : Nat → Prop} (lane : ∀ i : Fin 32, y i = 0 ↔ hit i) :
    Marks (zeroMask y) hit :=
  marks_of_lanes fun i => by rw [zeroMask, getLsbD_movemask_cmpeq, beq_iff_eq, ← lane i]; rfl

theorem marksZeros_zeroMask : MarksZeros zeroMask := fun _ _ lane => marks_zeroMask lane

/-- A scan for the zeros of a computed vector: `hit` says which addresses yield one. -/
structure ZeroScan (m : Memory) (zeros : Lanes 32 → Lanes 32)
    (pair : Lanes 32 → Lanes 32 → BitVec 32) (hit : Nat → Prop) : Prop where
  lane : ∀ addr (i : Fin 32), zeros (m.lanes 32 addr) i = 0 ↔ hit (addr + i)
  pair : ∀ y1 y2 : Lanes 32, Marks (pair y1 y2)
    (fun i => ∃ inside : i < 32, y1 ⟨i, inside⟩ = 0 ∨ y2 ⟨i, inside⟩ = 0)

section Stages
variable {zeros : Lanes 32 → Lanes 32} {pair : Lanes 32 → Lanes 32 → BitVec 32} {m : PagedMemory}
variable {hit : Nat → Prop} {str stop : Nat} {exit : Trap → Prop}

def HandsOn (hit : Nat → Prop) (str addr : Nat) : Prop :=
  ∃ i, addr = str + i ∧ FirstHit (fun i => hit (str + i)) i

theorem ZeroScan.marks (scan : ZeroScan m.toMemory zeros pair hit) (str k : Nat) :
    Marks (zeroMask (zeros (m.lanes 32 (str + k)))) (fun i => hit (str + (k + i))) :=
  marks_zeroMask fun i => by rw [scan.lane, Nat.add_assoc]

theorem ZeroScan.marks_pair (scan : ZeroScan m.toMemory zeros pair hit) (str k : Nat) :
    Marks (pair (zeros (m.lanes 32 (str + k))) (zeros (m.lanes 32 (str + k + 32))))
      fun i => hit (str + (k + i)) ∨ hit (str + (k + 32 + i)) := by
  refine (scan.pair _ _).congr fun i below => ?_
  have lane1 := scan.lane (str + k) ⟨i, below⟩
  have lane2 := scan.lane (str + k + 32) ⟨i, below⟩
  simp only [Nat.add_assoc] at lane1 lane2 ⊢
  simp only [lane1, lane2, below, exists_true_left]

theorem ZeroScan.four (scan : ZeroScan m.toMemory zeros pair hit) (str k : Nat) :
    FourLanes (fun i => hit (str + i)) k (zeros (m.lanes 32 (str + k)))
      (zeros (m.lanes 32 (str + k + 32))) (zeros (m.lanes 32 (str + k + 2 * 32)))
      (zeros (m.lanes 32 (str + k + 3 * 32))) := by
  constructor <;> intro i <;> rw [scan.lane] <;> simp only [Nat.add_assoc]

private theorem scanAvx2Step_ends (scan : ZeroScan m.toMemory zeros pair hit)
    (needs : ScanNeeds m.toMemory str fun i => hit (str + i)) {offset k : Nat}
    (boundary : offset % 128 = 0) (here : offset + 128 = str + k)
    (clear : ClearBelow (fun i => hit (str + i)) k) :
    Ends (scanAvx2Step zeros m.toMemory offset)
      (Step.Holds (fun next => next = offset + 128 ∧ ClearBelow (fun i => hit (str + i)) (k + 128))
        (HandsOn hit str)) exit := by
  obtain ⟨read1, read2, read3, read4⟩ := fourVecs_read (.inl rfl) (by omega) (needs k clear)
  simp only [scanAvx2Step, avx2Vec4Sz, ymmSz, here, Nat.one_mul, read1, read2, read3, read4]
  have four := scan.four str k
  apply Ends.ite
  · intro zero
    exact ⟨rfl, four.clear marksZeros_zeroMask clear zero⟩
  · intro nonzero
    exact ⟨_, pickFour_add _ _ _ _ str k, four.firstHit marksZeros_zeroMask clear nonzero⟩

private theorem scanAvx2Loop_ends (scan : ZeroScan m.toMemory zeros pair hit)
    (needs : ScanNeeds m.toMemory str fun i => hit (str + i))
    (stops : FirstHit (fun i => hit (str + i)) stop) (range : stop < sizeRange)
    (clear : ClearBelow (fun i => hit (str + i)) (128 - str % 128)) :
    Ends (scanAvx2Loop zeros m.toMemory str) (HandsOn hit str) exit := by
  refine iterate_ends (fun offset => offset % 128 = 0 ∧ ∃ k, offset + 128 = str + k ∧
    ClearBelow (fun i => hit (str + i)) k) (fun offset => stop + 1 - (offset + 128 - str)) ?_
    ⟨by simp only [avx2Vec4Sz]; omega, 128 - str % 128, by simp only [avx2Vec4Sz]; omega, clear⟩ ?_
  · rintro offset ⟨boundary, k, here, before⟩
    refine (scanAvx2Step_ends scan needs boundary here before).imp ?_
    intro decision holds
    cases decision with
    | next next =>
      obtain ⟨rfl, further⟩ := holds
      have limit := stops.clear_le before
      exact ⟨⟨by omega, k + 128, by omega, further⟩, by omega⟩
    | done addr => exact holds
  · rw [sizeRange_eq] at range
    unfold budget
    omega

private theorem scanAvx2Pair_ends (scan : ZeroScan m.toMemory zeros pair hit)
    (needs : ScanNeeds m.toMemory str fun i => hit (str + i))
    (stops : FirstHit (fun i => hit (str + i)) stop) (range : stop < sizeRange)
    (clear : ClearBelow (fun i => hit (str + i)) (64 - str % 64)) :
    Ends (scanAvx2Pair zeros pair m.toMemory str) (HandsOn hit str) exit := by
  simp only [scanAvx2Pair, avx2Vec4Offset, ymmSz]
  apply Ends.ite
  · intro even
    have first := needs _ clear
    have here : str - str % 64 + 2 * 32 = str + (64 - str % 64) := by omega
    rw [here]
    generalize same : 64 - str % 64 = k at clear first
    rw [Memory.load_eq (by omega) (PagedMemory.canRead_of_page first rfl (by omega)),
      Memory.load_eq (by omega) (PagedMemory.canRead_of_page first (by omega) (by omega))]
    have marks1 := scan.marks str k
    have marks2 := scan.marks_pair str k
    apply Ends.iteNe
    · intro some
      apply Ends.iteNe
      · intro in1
        exact ⟨_, by omega, marks1.finds.firstHit clear in1⟩
      · intro not1
        exact ⟨_, by omega, second_firstHit clear marks1 marks2 not1 some⟩
    · intro none
      have clear2 := pair_clear clear marks2 none
      exact scanAvx2Loop_ends scan needs stops range (clear2.mono (by omega))
  · intro odd
    exact scanAvx2Loop_ends scan needs stops range (clear.mono (by omega))

private theorem scanAvx2_ends (scan : ZeroScan m.toMemory zeros pair hit)
    (needs : ScanNeeds m.toMemory str fun i => hit (str + i))
    (stops : FirstHit (fun i => hit (str + i)) stop) (range : stop < sizeRange)
    (clear : ClearBelow (fun i => hit (str + i)) (32 - str % 32)) :
    Ends (scanAvx2 zeros pair m.toMemory str) (HandsOn hit str) exit := by
  simp only [scanAvx2, cacheLineOffset, ymmSz]
  apply Ends.ite
  · intro even
    have first := needs _ clear
    have here : str - str % 32 + 32 = str + (32 - str % 32) := by omega
    rw [here, Memory.load_eq (by omega) (PagedMemory.canRead_of_page first rfl (by omega))]
    have marks := scan.marks str (32 - str % 32)
    apply Ends.iteNe
    · intro some
      exact ⟨_, by omega, marks.finds.firstHit clear some⟩
    · intro none
      have further := marks.finds.clear clear none
      exact scanAvx2Pair_ends scan needs stops range (further.mono (by omega))
  · intro odd
    exact scanAvx2Pair_ends scan needs stops range (clear.mono (by omega))

end Stages

section Strings
variable {m : PagedMemory} {str len : Nat} {c : Int} {exit : Trap → Prop}

theorem strlen_zeroScan : ZeroScan m.toMemory id (fun y1 y2 =>
    movemaskEpi8 (orSi (cmpeqEpi8 y1 setzero) (cmpeqEpi8 y2 setzero)))
    (fun addr => m.byte addr = 0) where
  lane addr i := Iff.rfl
  pair y1 y2 := marks_of_lanes fun i => by
    rw [getLsbD_movemask_full (p := y1 i == 0 || y2 i == 0) (full_or _ _)]
    simp

private theorem strchr_zeroScan (ch : UInt8) : ZeroScan m.toMemory (matchOrZero ch)
    (fun y3 y4 => zeroMask (minEpu8 y3 y4)) (fun addr => m.byte addr = ch ∨ m.byte addr = 0) where
  lane addr i := matchOrZero_eq_zero i
  pair y1 y2 := marks_zeroMask fun i => by
    rw [minEpu8_eq_zero]
    simp

/-- Before a page end the vector is loaded from the boundary below the string. -/
theorem loadBelow_eq (first : m.readable str = true) :
    m.loadu 32 (str - str % 32) = .ok (m.lanes 32 (str - str % 32)) :=
  Memory.loadu_eq (PagedMemory.canRead_of_page first (by omega) (by omega))

/-- The mask of that vector speaks for the lanes from the string's start on. -/
theorem belowMask_finds (m : Memory) (str : Nat) :
    Finds ((zeroMask (m.lanes 32 (str - str % 32))).sshiftRight (str % 32))
      fun i => i < 32 - str % 32 ∧ m.byte (str + (0 + i)) = 0 := by
  have below : str % 32 < 32 := by omega
  have marks : Marks (zeroMask (m.lanes 32 (str - str % 32)))
      (fun i => m.byte (str - str % 32 + i) = 0) := marks_zeroMask fun i => Iff.rfl
  refine (marks.finds_sshiftRight below).congr fun i => ?_
  rw [← Nat.add_assoc, Nat.sub_add_cancel (Nat.mod_le _ _), Nat.zero_add]

theorem strlenAvx2_ends (needs : ScanNeeds m.toMemory str fun i => m.byte (str + i) = 0)
    (ends : IsLength m.byte str len) (range : len < sizeRange) :
    Ends (strlenAvx2 m.toMemory str) (IsLength m.byte str) exit := by
  have first : m.readable str = true := needs 0 clearBelow_zero
  have start : ClearBelow (fun i => m.byte (str + i) = 0) 0 := clearBelow_zero
  have enter {word : BitVec 32} {width : Nat} (wide : 32 - str % 32 ≤ width) (narrow : width ≤ 32)
      (finds : Finds word (fun i => i < width ∧ m.byte (str + (0 + i)) = 0)) :
      Ends (if word ≠ 0#32 then pure (tzcnt word) else do
        let offset ← scanAvx2 id (fun y1 y2 =>
          movemaskEpi8 (orSi (cmpeqEpi8 y1 setzero) (cmpeqEpi8 y2 setzero))) m.toMemory str
        pure (offset - str)) (IsLength m.byte str) exit := by
    apply Ends.iteNe
    · intro nonzero
      exact (finds.firstHit_within start nonzero).2
    · intro zero
      have clear := finds.clear_within start narrow zero
      refine (scanAvx2_ends strlen_zeroScan needs ends range (clear.mono (by omega))).bind ?_
      rintro _ ⟨i, rfl, found⟩
      rw [ends_pure, Nat.add_sub_cancel_left]
      exact found
  simp only [strlenAvx2, pageSz, ymmSz]
  apply Ends.ite
  · intro edge
    rw [loadBelow_eq first]
    exact enter (Nat.le_refl _) (by omega) (belowMask_finds m.toMemory str)
  · intro inner
    have marks : Marks (zeroMask (m.lanes 32 str)) (fun i => m.byte (str + (0 + i)) = 0) :=
      marks_zeroMask fun i => by rw [Memory.lanes_apply, Nat.zero_add]
    rw [Memory.loadu_eq (PagedMemory.canRead_of_page first rfl (by omega))]
    exact enter (by omega) (Nat.le_refl _) marks.finds.within

theorem strchrAvx2_ends (needs : ScanNeeds m.toMemory str (Stops m.byte str (charOfInt c)))
    (ends : IsLength m.byte str len) (range : len < sizeRange) :
    Ends (strchrAvx2 m.toMemory str c) (Locates m.byte str (charOfInt c)) exit := by
  simp only [strchrAvx2]
  generalize charOfInt c = ch at needs ⊢
  obtain ⟨stop, le, stops⟩ := exists_stop ch ends
  have first : m.readable str = true := needs 0 clearBelow_zero
  have start : ClearBelow (Stops m.byte str ch) 0 := clearBelow_zero
  have enter {word : BitVec 32} {width : Nat} (wide : 32 - str % 32 ≤ width) (narrow : width ≤ 32)
      (finds : Finds word (fun i => i < width ∧ Stops m.byte str ch (0 + i))) :
      Ends (if word ≠ 0#32 then matchOrNull m.toMemory ch (str + tzcnt word) else do
        let offset ← scanAvx2 (matchOrZero ch) (fun y3 y4 => zeroMask (minEpu8 y3 y4)) m.toMemory str
        matchOrNull m.toMemory ch offset) (Locates m.byte str ch) exit := by
    apply Ends.iteNe
    · intro nonzero
      exact matchOrNull_ends needs (finds.firstHit_within start nonzero).2
    · intro zero
      have clear := finds.clear_within start narrow zero
      refine (scanAvx2_ends (strchr_zeroScan ch) needs stops (by omega)
        (clear.mono (by omega))).bind ?_
      rintro _ ⟨i, rfl, found⟩
      exact matchOrNull_ends needs found
  simp only [pageSz, ymmSz]
  by_cases edge : 4096 - 32 < str % 4096
  · have marks : Marks (zeroMask (matchOrZero ch (m.lanes 32 (str - str % 32))))
        (fun i => Stops m.byte (str - str % 32) ch i) :=
      marks_zeroMask fun i => matchOrZero_eq_zero i
    rw [if_pos edge, loadBelow_eq first]
    refine enter (Nat.le_refl _) (by omega) (((marks.ushiftRight (str % 32)).congr fun i _ => ?_).finds)
    rw [Stops, Stops, ← Nat.add_assoc, Nat.sub_add_cancel (Nat.mod_le _ _), Nat.zero_add,
      Nat.lt_sub_iff_add_lt']
  · have marks : Marks (zeroMask (matchOrZero ch (m.lanes 32 str))) (Stops m.byte str ch) :=
      marks_zeroMask fun i => matchOrZero_eq_zero i
    rw [if_neg edge, Nat.sub_zero,
      Memory.loadu_eq (PagedMemory.canRead_of_page first rfl (by omega)), ok_bind,
      BitVec.ushiftRight_zero]
    refine enter (by omega) (Nat.le_refl _) (marks.finds.within.congr fun i => ?_)
    rw [Nat.zero_add]

/-- With no more mapped than the pages of the string and its terminator, at any page offset and
for every `int`, the character is located. -/
theorem strchrAvx2_locates (m : PagedMemory) (str len : Nat) (c : Int)
    (ends : IsLength m.byte str len) (range : len < sizeRange)
    (mapped : ∀ i ≤ len, m.readable (str + i) = true) :
    ∃ result, strchrAvx2 m.toMemory str c = .ok result ∧
      Locates m.byte str (charOfInt c) result := by
  have needs : ScanNeeds m.toMemory str (Stops m.byte str (charOfInt c)) :=
    scanNeeds_of_hit (.inr ends.1) mapped
  have run : Ends (strchrAvx2 m.toMemory str c) _ fun _ => False := strchrAvx2_ends needs ends range
  exact run.returns

theorem strchrAvx2_locates_lastWord :
    ∃ result, strchrAvx2 lastWord.toMemory 5000 256 = .ok result ∧
      Locates lastWord.byte 5000 (charOfInt 256) result :=
  strchrAvx2_locates lastWord 5000 3191 256 (lastWord_isLength rfl) (by rw [sizeRange_eq]; decide)
    fun _ inside => lastWord_mapped (by decide) (by omega)

end Strings

end AoclLibmem.Strings
