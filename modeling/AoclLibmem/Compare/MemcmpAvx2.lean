import AoclLibmem.Compare.MemcmpTests

/-! `memcmp_avx2.c`. The last four vectors keep the index of the difference in the `int`
that held their mask. -/

namespace AoclLibmem.Compare

open Base Machine

section Kernel
variable (m : Memory) (mem1 mem2 size : Nat)

def memcmpLtYmm : Exec Int :=
  let testScalar (n w place : Nat) :=
    testBlock m mem1 mem2 (m.loadu n) (unequalScalar w) Nat.cast place
  if size ≥ qwordSz then
    if size ≥ xmmSz then
      orGo (testMerged m mem1 mem2 xmmSz 0 (size - xmmSz)) (pure 0)
    else
      orGo (testScalar qwordSz 64 0) <|
      orGo (testScalar qwordSz 64 (size - qwordSz)) (pure 0)
  else if size ≥ dwordSz then
    orGo (testScalar dwordSz 32 0) <|
    orGo (testScalar dwordSz 32 (size - dwordSz)) (pure 0)
  else if size ≥ wordSz then
    orGo (testScalar wordSz 32 0) <|
    if size = 3 then byteDiff m mem1 mem2 2 else pure 0
  else if size = 1 then
    byteDiff m mem1 mem2 0
  else pure 0

/-- `size & (-4 * YMM_SZ)`, the constant converted to `size_t`. -/
def wholeVec4 : Nat := size &&& (sizeRange - 4 * ymmSz)

def memcmpAvx2 : Exec Int :=
  let merged := testMerged m mem1 mem2 ymmSz
  if size < ymmSz then
    memcmpLtYmm m mem1 mem2 (size % 2 ^ 8)
  else if size ≤ 2 * ymmSz then
    orGo (merged 0 (size - ymmSz)) (pure 0)
  else
    orGo (merged (0 * ymmSz) (1 * ymmSz)) <|
    if size ≤ 4 * ymmSz then
      orGo (merged (size - 2 * ymmSz) (size - 1 * ymmSz)) (pure 0)
    else
      orGo (merged (2 * ymmSz) (3 * ymmSz)) <|
      if size > 8 * ymmSz then
        vec4Loop avx2Vec4Sz (fun offset => wholeVec4 size > offset) (testMerged4 m mem1 mem2)
          (fun offset =>
            if offset = size then pure 0 else tail4Ymm m mem1 mem2 size (m.loadu ymmSz))
          (4 * ymmSz)
      else tail4Ymm m mem1 mem2 size (m.loadu ymmSz)

end Kernel

private theorem wholeVec4_eq {size : Nat} (range : size < sizeRange) :
    wholeVec4 size = size - size % 128 := by
  rw [sizeRange_eq] at range
  have mask : sizeRange - 4 * ymmSz = 2 ^ 64 - (127 + 1) := by
    rw [sizeRange_eq]
    rfl
  have shift : size - size % 128 = 2 ^ 7 * (size / 2 ^ 7) := by omega
  rw [wholeVec4, mask, shift]
  apply Nat.eq_of_testBit_eq
  intro i
  rw [Nat.testBit_and, Nat.testBit_two_pow_sub_succ (by decide), Nat.testBit_two_pow_mul,
    Nat.testBit_div_two_pow, show 127 = 2 ^ 7 - 1 from rfl, Nat.testBit_two_pow_sub_one]
  by_cases low : i < 7
  · simp [low, show ¬ 7 ≤ i by omega]
  · by_cases high : i < 64
    · simp [low, high, Nat.not_lt.mp low]
    · have clear : size.testBit i = false := by
        refine Nat.testBit_lt_two_pow (Nat.lt_of_lt_of_le range ?_)
        exact Nat.pow_le_pow_right (n := 2) (by decide) (Nat.not_lt.mp high)
      simp [low, high, clear, Nat.sub_add_cancel (Nat.not_lt.mp low)]

section Correct
variable {m : Memory} {mem1 mem2 size : Nat} {good : Nat → Prop}

private theorem memcmpLtYmm_ends (buffers : Buffers m mem1 mem2 size) (small : size < 32)
    (kept : ∀ k < 32, good k) :
    Ends (memcmpLtYmm m mem1 mem2 size) (Answers m mem1 mem2 size good)
      fun _ => Lost m mem1 mem2 size good := by
  have start : ClearBelow (Differs m.byte mem1 mem2) 0 := clearBelow_zero
  have scalar {n w place clearTo : Nat} (wide : 8 * n ≤ w)
      (clear : ClearBelow (Differs m.byte mem1 mem2) clearTo) (near : place ≤ clearTo)
      (inside : place + n ≤ size) :=
    buffers.testBlock_exact (unequalScalar_reports wide) clear near inside
      fun k below => kept k (by omega)
  rw [memcmpLtYmm]
  simp only [qwordSz, xmmSz, dwordSz, wordSz]
  apply Ends.ite
  · intro atLeast8
    apply Ends.ite
    · intro atLeast16
      exact (testMerged_tests start buffers (by decide) (Nat.zero_le 0) (by omega) (by omega) (by omega)
        fun k below => kept k (by omega)).last (by omega)
    · intro below16
      refine (scalar (by decide) start (Nat.zero_le 0) (by omega)).orGo fun clear => ?_
      exact (scalar (by decide) clear (by omega) (by omega)).last (by omega)
  · intro below8
    apply Ends.ite
    · intro atLeast4
      refine (scalar (by decide) start (Nat.zero_le 0) (by omega)).orGo fun clear => ?_
      exact (scalar (by decide) clear (by omega) (by omega)).last (by omega)
    · intro below4
      apply Ends.ite
      · intro atLeast2
        refine (scalar (by decide) start (Nat.zero_le 0) (by omega)).orGo fun clear => ?_
        apply Ends.ite
        · intro three
          exact buffers.byteDiff_last three clear (kept 2 (by omega))
        · intro two
          exact answers_same (clear.mono (by omega))
      · intro below2
        apply Ends.ite
        · intro one
          exact buffers.byteDiff_last one start (kept 0 (by omega))
        · intro empty
          exact answers_same (start.mono (by omega))

/-- The first difference is not in the part behind the last whole four vectors at an index
that no `int` holds. -/
def FitsTail (size k : Nat) : Prop := ¬ (size - size % 128 ≤ k ∧ 2 ^ 31 ≤ k)

theorem memcmpAvx2_ends (buffers : Buffers m mem1 mem2 size) :
    Ends (memcmpAvx2 m mem1 mem2 size) (Answers m mem1 mem2 size (FitsTail size))
      fun _ => Lost m mem1 mem2 size (FitsTail size) := by
  have start : ClearBelow (Differs m.byte mem1 mem2) 0 := clearBelow_zero
  have kept {k : Nat} (within : k < size - size % 128 ∨ k < 2 ^ 31) : FitsTail size k := by
    unfold FitsTail
    omega
  have tail {clearTo : Nat} (clear : ClearBelow (Differs m.byte mem1 mem2) clearTo)
      (large : 128 ≤ size) (near : size - 128 ≤ clearTo)
      (reached : size - size % 128 ≤ clearTo ∨ size ≤ 256) :
      Ends (tail4Ymm m mem1 mem2 size (m.loadu 32)) (Answers m mem1 mem2 size (FitsTail size))
        fun _ => Lost m mem1 mem2 size (FitsTail size) := by
    refine tail4Ymm_ends buffers clear (fun _ => buffers.loads_unaligned) large near fun k first => ?_
    have above := first.clear_le clear
    unfold FitsTail
    omega
  rw [memcmpAvx2]
  simp only [ymmSz]
  apply Ends.ite
  · intro below32
    rw [Nat.mod_eq_of_lt (by omega)]
    exact memcmpLtYmm_ends buffers below32 fun k below => kept (by omega)
  · intro from32
    apply Ends.ite
    · intro to64
      exact (testMerged_tests start buffers (by decide) (Nat.zero_le 0) (by omega) (by omega) (by omega)
        fun k below => kept (by omega)).last (by omega)
    · intro from65
      refine (testMerged_tests start buffers (by decide) (by omega) (by omega) (by omega) (by omega)
        fun k below => kept (by omega)).orGo fun clear64 => ?_
      apply Ends.ite
      · intro to128
        exact (testMerged_tests clear64 buffers (by decide) (by omega) (by omega) (by omega) (by omega)
          fun k below => kept (by omega)).last (by omega)
      · intro from129
        refine (testMerged_tests clear64 buffers (by decide) (by omega) (by omega) (by omega) (by omega)
          fun k below => kept (by omega)).orGo fun clear128 => ?_
        apply Ends.ite
        · intro from257
          refine vec4Loop_ends (by decide) buffers.range
            (fun offset => offset % 128 = 0 ∧ offset ≤ size - size % 128) ⟨by decide, by omega⟩
            clear128 ?_ ?_
          · rintro offset ⟨whole, _⟩ guard clear
            rw [decide_eq_true_iff, wholeVec4_eq buffers.range] at guard
            simp only [avx2Vec4Sz]
            refine ⟨by omega, ⟨by omega, by omega⟩, testMerged4_tests buffers clear (by omega) ?_⟩
            exact fun k below => kept (by omega)
          · rintro offset ⟨_, inside⟩ guard clear
            rw [ne_eq, decide_eq_true_iff, wholeVec4_eq buffers.range] at guard
            apply Ends.ite
            · intro reached
              exact answers_same (by rwa [← reached])
            · intro more
              exact tail clear (by omega) (by omega) (.inl (by omega))
        · intro to256
          exact tail clear128 (by omega) (by omega) (by omega)

/-- The kernel is right unless the buffers first differ behind the last whole four vectors
at an index from 2^31 on. -/
theorem memcmpAvx2_orders_iff (m : Memory) (mem1 mem2 size : Nat)
    (buffers : Buffers m mem1 mem2 size) :
    OrdersExactly m mem1 mem2 size (memcmpAvx2 m mem1 mem2 size) ↔
      ∀ k < size, FirstHit (Differs m.byte mem1 mem2) k → FitsTail size k :=
  ordersExactly_iff (memcmpAvx2_ends buffers)

theorem memcmpAvx2_orders_iff_small :
    OrdersExactly (twoBuffers UInt8.ofNat 64 512 300) 64 512 300
      (memcmpAvx2 (twoBuffers UInt8.ofNat 64 512 300) 64 512 300) :=
  (memcmpAvx2_orders_iff _ 64 512 300 (twoBuffers_buffers (by decide))).mpr fun k below _ =>
    fun late => absurd late.2 (by omega)

/-- With the difference at index 2^31 the kernel reads 2^31 bytes before a buffer. -/
theorem memcmpAvx2_loses_far_byte :
    ¬ OrdersExactly farByte (2 ^ 32) (2 ^ 34) (2 ^ 31 + 1)
      (memcmpAvx2 farByte (2 ^ 32) (2 ^ 34) (2 ^ 31 + 1)) := by
  refine farByte_lost (fun m => memcmpAvx2 m (2 ^ 32) (2 ^ 34) (2 ^ 31 + 1))
    (fun m buffers => memcmpAvx2_ends buffers) fun fits => ?_
  exact fits (by omega)

end Correct

end AoclLibmem.Compare
