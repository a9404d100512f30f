import AoclLibmem.Strings.StrnlenAvx2

/-! `_strlen_avx2` and `_strnlen_avx2` return the length, with no more than the pages
mapped that hold the bytes they have to look at. -/

namespace AoclLibmem.Strings

open Base Machine

private theorem getLsbD_lowMask {rem i : Nat} (below : i < 32) :
    (lowMask rem).getLsbD i = decide (i < rem) := by
  unfold lowMask
  split
  · have inside : i < rem := by omega
    rw [BitVec.getLsbD_allOnes, decide_eq_true below, decide_eq_true inside]
  · rename_i narrow
    have power : (BitVec.twoPow 32 rem).toNat = 2 ^ rem :=
      BitVec.toNat_twoPow_of_lt (Nat.not_le.mp narrow)
    have positive : 1#32 ≤ BitVec.twoPow 32 rem := by
      rw [BitVec.le_def, power]
      exact Nat.one_le_two_pow
    have value : (BitVec.twoPow 32 rem - 1#32).toNat = 2 ^ rem - 1 := by
      rw [BitVec.toNat_sub_of_le positive, power]
      rfl
    rw [← BitVec.twoPow_eq, BitVec.getLsbD, value, Nat.testBit_two_pow_sub_one]

/-- The mask leaves the first `rem` lanes. -/
private theorem marks_lowMask {word : BitVec 32} {hit : Nat → Prop} (marks : Marks word hit)
    (rem : Nat) : Marks (word &&& lowMask rem) fun i => i < rem ∧ hit i := by
  intro i below
  rw [BitVec.getLsbD_and, getLsbD_lowMask below, Bool.and_eq_true, marks i below,
    decide_eq_true_eq, and_comm]

section Strnlen
variable {m : PagedMemory} {str maxlen offset : Nat} {exit : Trap → Prop}

theorem marks_nul (m : Memory) (str offset : Nat) :
    Marks (zeroMask (m.lanes 32 (str + offset))) fun i => m.byte (str + (offset + i)) = 0 :=
  marks_zeroMask fun i => by rw [Memory.lanes_apply, Nat.add_assoc]

theorem partialAvx2_ends {rem : Nat} (rights : m.canRead (str + offset) 32 = true)
    (clear : ClearBelow (fun i => m.byte (str + i) = 0) offset) (narrow : rem ≤ 32)
    (whole : offset + rem = maxlen) :
    Ends (partialAvx2 m.toMemory str maxlen offset rem) (IsBoundedLength m.byte str maxlen) exit := by
  rw [partialAvx2, Memory.loadu_eq rights]
  exact lastBlock_ends (marks_lowMask (marks_nul m.toMemory str offset) rem).finds clear narrow whole

private theorem strnlenAvx2Four_passes (needs : BoundedNeeds m.toMemory str maxlen) :
    Passes m.byte str maxlen 128 (MainPlace 32 str maxlen) (strnlenAvx2Four m.toMemory str maxlen)
      exit := by
  rintro offset fits ⟨aligned, multiple⟩ clear
  have boundary := multiple fits
  obtain ⟨read1, read2, read3, read4⟩ :=
    fourVecs_read (.inl rfl) boundary (needs offset (by omega) clear)
  simp only [strnlenAvx2Four, ymmSz, Nat.one_mul, read1, read2, read3, read4]
  have four : FourLanes (fun i => m.byte (str + i) = 0) offset _ _ _ _ :=
    strlen_zeroScan.four str offset
  apply Ends.iteNe
  · intro nonzero
    exact clip_bounded (four.firstHit marksZeros_zeroMask clear nonzero)
  · intro zero
    have further := four.clear marksZeros_zeroMask clear zero
    exact ⟨zero, ⟨by omega, by omega⟩, further⟩

private theorem strnlenAvx2One_passes (needs : BoundedNeeds m.toMemory str maxlen) :
    Passes m.byte str maxlen 32 (fun k => (str + k) % 32 = 0)
      (strnlenAvx2One m.toMemory str maxlen) exit := by
  intro offset fits aligned clear
  have first := needs offset (by omega) clear
  rw [strnlenAvx2One, Memory.loadu_eq (PagedMemory.canRead_of_page first rfl (by omega))]
  have finds := (marks_nul m.toMemory str offset).finds
  apply Ends.iteNe
  · intro nonzero
    exact clip_bounded (finds.firstHit clear nonzero)
  · intro zero
    exact ⟨zero, by omega, finds.clear clear zero⟩

private theorem strnlenAvx2Last_ends (needs : BoundedNeeds m.toMemory str maxlen)
    (here : Scanned m.byte str maxlen (fun k => (str + k) % 32 = 0) (0#32, offset))
    (narrow : maxlen < offset + 32) :
    Ends (strnlenAvx2Last m.toMemory str maxlen offset) (IsBoundedLength m.byte str maxlen) exit := by
  obtain ⟨_, within, clear, aligned⟩ := here
  apply Ends.ite
  · intro inside
    have first := needs offset inside clear
    rw [Memory.loadu_eq (PagedMemory.canRead_of_page first rfl (by omega))]
    have finds := (marks_lowMask (marks_nul m.toMemory str offset) (maxlen - offset)).finds
    apply Ends.iteNe
    · intro nonzero
      exact clip_bounded (finds.firstHit_within clear nonzero).2
    · intro zero
      exact lastBlock_clear finds clear (by omega) (by omega) zero
  · intro full
    have same : offset = maxlen := by omega
    rw [same] at clear
    exact boundedLength_of_clear clear

private theorem strnlenAvx2Main_ends (needs : BoundedNeeds m.toMemory str maxlen)
    (room : Room m.byte str maxlen) (range : maxlen < sizeRange) {state : BitVec 32 × Nat}
    (start : Scanned m.byte str maxlen (MainPlace 32 str maxlen) state) :
    Ends (strnlenAvx2Main m.toMemory str maxlen state) (IsBoundedLength m.byte str maxlen) exit :=
  fitMain_ends (.inl rfl) (strnlenAvx2Four_passes needs) (strnlenAvx2One_passes needs) range room
    start fun _ => strnlenAvx2Last_ends needs

private theorem strnlenAvx2Pair_ends (needs : BoundedNeeds m.toMemory str maxlen)
    (room : Room m.byte str maxlen) (range : maxlen < sizeRange)
    (clear : ClearBelow (fun i => m.byte (str + i) = 0) (64 - str % 64))
    (within : 64 - str % 64 ≤ maxlen) :
    Ends (strnlenAvx2Pair m.toMemory str maxlen 0#32) (IsBoundedLength m.byte str maxlen) exit := by
  simp only [strnlenAvx2Pair, avx2Vec4Offset, avx2Vec4Sz, ymmSz]
  have offset4 : str - str % 128 + 128 - str = 128 - str % 128 := by omega
  rw [offset4]
  apply Ends.ite
  · intro even
    have here : str - str % 64 + 2 * 32 - str = 64 - str % 64 := by omega
    have place : str - str % 64 + 2 * 32 = str + (64 - str % 64) := by omega
    rw [here, place, addSize_of_lt (room.add_lt within clear (by decide))]
    apply Ends.ite
    · intro narrow
      exact strnlenAvx2Main_ends needs room range ⟨rfl, within, clear, by omega, by omega⟩
    · intro fits
      have first := needs _ (by omega) clear
      obtain ⟨k, same⟩ : ∃ k, 64 - str % 64 = k := ⟨_, rfl⟩
      simp only [same] at clear first within ⊢
      rw [Memory.load_eq (by omega) (PagedMemory.canRead_of_page first rfl (by omega)),
        Memory.load_eq (by omega) (PagedMemory.canRead_of_page first (by omega) (by omega))]
      have marks1 := marks_nul m.toMemory str k
      have marks2 := strlen_zeroScan.marks_pair (m := m) str k
      simp only [id_eq] at marks2
      apply Ends.iteNe
      · intro some
        apply Ends.iteNe
        · intro in1
          exact clip_found (marks1.finds.firstHit clear in1) (by omega)
        · intro not1
          exact clip_found (second_firstHit clear marks1 marks2 not1 some) (by omega)
      · intro none
        have further := pair_clear clear marks2 none
        exact strnlenAvx2Main_ends needs room range
          ⟨none, by omega, further.mono (by omega), by omega, by omega⟩
  · intro odd
    exact strnlenAvx2Main_ends needs room range
      ⟨rfl, by omega, clear.mono (by omega), by omega, by omega⟩

private theorem strnlenAvx2Line_ends (needs : BoundedNeeds m.toMemory str maxlen)
    (room : Room m.byte str maxlen) (range : maxlen < sizeRange)
    (clear : ClearBelow (fun i => m.byte (str + i) = 0) (32 - str % 32)) (long : 32 < maxlen) :
    Ends (strnlenAvx2Line m.toMemory str maxlen 0#32) (IsBoundedLength m.byte str maxlen) exit := by
  simp only [strnlenAvx2Line, cacheLineOffset, ymmSz]
  apply Ends.ite
  · intro even
    have here : str - str % 32 + 32 - str = 32 - str % 32 := by omega
    have place : str - str % 32 + 32 = str + (32 - str % 32) := by omega
    rw [here, place, addSize_of_lt (room.add_lt (by omega) clear (by decide))]
    have first := needs _ (by omega) clear
    have reads := PagedMemory.canRead_of_page (n := 32) first rfl (by omega)
    apply Ends.ite
    · intro narrow
      apply Ends.ite
      · intro outside
        omega
      · intro inside
        exact partialAvx2_ends reads clear (by omega) (by omega)
    · intro fits
      rw [Memory.load_eq (by omega) reads]
      have finds := (marks_nul m.toMemory str (32 - str % 32)).finds
      apply Ends.iteNe
      · intro some
        exact clip_found (finds.firstHit clear some) (by omega)
      · intro none
        have further := finds.clear clear none
        rw [none]
        exact strnlenAvx2Pair_ends needs room range (further.mono (by omega)) (by omega)
  · intro odd
    exact strnlenAvx2Pair_ends needs room range (clear.mono (by omega)) (by omega)

private theorem strnlenAvx2First_ends (needs : BoundedNeeds m.toMemory str maxlen)
    (some : maxlen ≠ 0) : Ends (strnlenAvx2First m.toMemory str maxlen)
      (Step.Holds (fun ret => ret = 0#32 ∧ 32 < maxlen ∧
          ClearBelow (fun i => m.byte (str + i) = 0) (32 - str % 32))
        (IsBoundedLength m.byte str maxlen)) exit := by
  have start : ClearBelow (fun i => m.byte (str + i) = 0) 0 := clearBelow_zero
  have first : m.readable str = true := needs 0 (Nat.pos_of_ne_zero some) start
  simp only [strnlenAvx2First, pageSz, ymmSz]
  apply Ends.ite
  · intro edge
    have finds := belowMask_finds m.toMemory str
    rw [loadBelow_eq first]
    apply Ends.iteNe
    · intro nonzero
      exact clip_bounded (finds.firstHit_within start nonzero).2
    · intro zero
      have clear := finds.clear_within start (by omega) zero
      rw [Nat.zero_add] at clear
      apply Ends.ite
      · intro safe
        exact boundedLength_of_clear (clear.mono safe)
      · intro more
        apply Ends.ite
        · intro short
          have second := needs _ (Nat.not_le.mp more) clear
          have reads := PagedMemory.canRead_of_page (n := 32) second rfl (by omega)
          refine (partialAvx2_ends reads clear ?_ ?_).bind fun len bounded => bounded
          · omega
          · omega
        · intro long
          exact ⟨zero, Nat.not_le.mp long, clear⟩
  · intro inner
    have reads := PagedMemory.canRead_of_page (n := 32) first rfl (by omega)
    apply Ends.ite
    · intro short
      refine (partialAvx2_ends reads start ?_ ?_).bind fun len bounded => bounded
      · omega
      · omega
    · intro long
      have finds := (marks_nul m.toMemory str 0).finds
      rw [Memory.loadu_eq reads]
      apply Ends.iteNe
      · intro nonzero
        have inside := tzcnt_lt nonzero
        exact boundedLength_of_isLength (finds.firstHit start nonzero) (by omega)
      · intro zero
        have clear := finds.clear start zero
        apply Ends.ite
        · intro exact32
          exact boundedLength_of_clear (clear.mono (by omega))
        · intro more
          exact ⟨zero, Nat.not_le.mp more, clear.mono (by omega)⟩

theorem strnlenAvx2_ends (needs : BoundedNeeds m.toMemory str maxlen)
    (room : Room m.byte str maxlen) (range : maxlen < sizeRange) :
    Ends (strnlenAvx2 m.toMemory str maxlen) (IsBoundedLength m.byte str maxlen) exit := by
  apply Ends.ite
  · intro zero
    rw [zero]
    exact boundedLength_of_clear clearBelow_zero
  · intro some
    refine (strnlenAvx2First_ends needs some).bind fun decision holds => ?_
    cases decision with
    | done len => exact holds
    | next ret =>
      obtain ⟨rfl, long, clear⟩ := holds
      exact strnlenAvx2Line_ends needs room range clear long

end Strnlen

/-- Both return the exact length with no more mapped than the bytes they have to look at: up to
the first NUL, and for `_strnlen_avx2` below `maxlen`. What lies between the page of the null
pointer and the end of the address space is as short as `_strnlen_avx2` needs it. -/
theorem strlenAvx2_exact (m : PagedMemory) (str : Nat) :
    (∀ len, IsLength m.byte str len → len < sizeRange →
      (∀ i ≤ len, m.readable (str + i) = true) → strlenAvx2 m.toMemory str = .ok len) ∧
    ∀ maxlen len, maxlen < sizeRange → IsBoundedLength m.byte str maxlen len →
      len + pageSz ≤ sizeRange →
      (∀ i < maxlen, i ≤ len → m.readable (str + i) = true) →
      strnlenAvx2 m.toMemory str maxlen = .ok len := by
  constructor
  · intro len first range mapped
    exact returns_length (strlenAvx2_ends (scanNeeds_of_hit first.1 mapped) first range) first
  · intro maxlen len range bounded room mapped
    exact returns_boundedLength
      (strnlenAvx2_ends (bounded.needs mapped) (bounded.room room) range) bounded

theorem strlenAvx2_exact_lastWord :
    strlenAvx2 lastWord.toMemory 5000 = .ok 3191 ∧
      strnlenAvx2 lastWord.toMemory 5000 18446744073709551615 = .ok 3191 := by
  obtain ⟨strlen, strnlen⟩ := strlenAvx2_exact lastWord 5000
  constructor
  · exact strlen 3191 (lastWord_isLength rfl) (by rw [sizeRange_eq]; decide) fun i le =>
      lastWord_mapped (by decide) (by omega)
  · exact strnlen _ 3191 (by rw [sizeRange_eq]; decide)
      (boundedLength_of_isLength (lastWord_isLength rfl) (by decide)) (by rw [sizeRange_eq]; decide)
      fun i _ le => lastWord_mapped (by decide) (by omega)

end AoclLibmem.Strings
