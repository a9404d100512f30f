import AoclLibmem.Compare.MemcmpTests

/-! `uarch/zen4/memcmp_zen4.c`. The last vectors, as many as the remainder needs, keep the
index of the difference in the `int` that held their mask. -/

namespace AoclLibmem.Compare

open Base Machine

section Kernel
variable (m : Memory) (mem1 mem2 size : Nat)

/-- The cases of `switch (rem_vecs)`: each falls through to the next smaller one. -/
def remVecs : Nat → Exec Int
  | 0 => pure 0
  | k + 1 =>
    orGo (testBlock m mem1 mem2 (m.loadu ymmSz) unequalYmm intIndex (size - (k + 1) * ymmSz))
      (remVecs k)

def memcmpZen4 : Exec Int :=
  let testZmm := testBlock m mem1 mem2 (m.loadu zmmSz) unequalZmm Nat.cast
  let testZmms := testTwo m mem1 mem2 (m.loadu zmmSz) unequalZmm Nat.cast
  if size ≤ zmmSz then
    let mask : BitVec zmmSz := bzhiOnes (size % 2 ^ 8)
    orGo (testBlock m mem1 mem2 (m.maskLoadu setzero mask) unequalZmm Nat.cast 0) (pure 0)
  else if size ≤ 2 * zmmSz then
    orGo (testZmm (0 * zmmSz)) <|
    orGo (testZmm (size - zmmSz)) (pure 0)
  else if size ≤ 4 * zmmSz then
    orGo (testZmms (0 * zmmSz) (1 * zmmSz)) <|
    orGo (testZmms (size - 2 * zmmSz) (size - 1 * zmmSz)) (pure 0)
  else
    vec4Loop avx2Vec4Sz (fun offset => subSize size (4 * ymmSz) > offset) (testMerged4 m mem1 mem2)
      (fun offset =>
        if offset = size then pure 0
        else
          let remData := (size - offset) % 2 ^ 16
          let remVec := remData / 2 ^ 5 + (if remData % 2 ^ 5 ≠ 0 then 1 else 0)
          if remVec ≤ 4 then remVecs m mem1 mem2 size remVec else pure 0)
      0

end Kernel

section Correct
variable {m : Memory} {mem1 mem2 size : Nat} {good : Nat → Prop} {clearTo : Nat}

theorem testMasked_tests (buffers : Buffers m mem1 mem2 size) (small : size ≤ 64)
    (kept : ∀ k < size, good k) :
    Tests m mem1 mem2 size good size (testBlock m mem1 mem2
      (m.maskLoadu setzero (bzhiOnes (size % 2 ^ 8) : BitVec 64)) unequalZmm Nat.cast 0) := by
  have active {i : Nat} (below : i < 64) :
      (bzhiOnes (size % 2 ^ 8) : BitVec 64).getLsbD i = decide (i < size) := by
    have kept : size % 2 ^ 8 % 256 = size := by omega
    rw [getLsbD_bzhiOnes below, kept]
  have rights (mem : Nat) (lies : mem = mem1 ∨ mem = mem2) :
      ∀ i < 64, (bzhiOnes (size % 2 ^ 8) : BitVec 64).getLsbD i = true →
        m.readable (mem + 0 + i) = true := by
    intro i below set
    rw [active below, decide_eq_true_iff] at set
    rw [buffers.only]
    omega
  rw [testBlock, Memory.maskLoadu_eq (rights mem2 (.inr rfl)),
    Memory.maskLoadu_eq (rights mem1 (.inl rfl)), ok_bind, ok_bind]
  have lane {i : Nat} (below : i < 64) : Unlike
      (fun i : Fin 64 => if (bzhiOnes (size % 2 ^ 8) : BitVec 64).getLsbD i then
        m.byte (mem2 + 0 + i) else setzero i)
      (fun i : Fin 64 => if (bzhiOnes (size % 2 ^ 8) : BitVec 64).getLsbD i then
        m.byte (mem1 + 0 + i) else setzero i) i ↔ i < size ∧ Differs m.byte mem1 mem2 i := by
    rw [Unlike, exists_prop_of_true below, active below]
    by_cases inside : i < size
    · simpa [inside, Differs] using ne_comm
    · simp [inside]
  have report := (unequalZmm_reports _ _).congr fun i below => lane below
  cases result : unequalZmm _ _ with
  | none =>
    rw [result] at report
    exact fun i below differs => report.of_none i (by omega) ⟨below, differs⟩
  | some k =>
    rw [result] at report
    obtain ⟨_, ⟨inside, differs⟩, before⟩ := report.of_some
    have first : FirstHit (Differs m.byte mem1 mem2) k :=
      ⟨differs, fun i less here => before i less ⟨by omega, here⟩⟩
    exact leaveAt_tests (buffers.serves_cast inside (kept k inside) first)

private theorem remVecs_ends (buffers : Buffers m mem1 mem2 size) {k : Nat} (inside : k * 32 ≤ size)
    (clear : ClearBelow (Differs m.byte mem1 mem2) clearTo) (near : size - k * 32 ≤ clearTo)
    (kept : ∀ k, FirstHit (Differs m.byte mem1 mem2) k → (good k ↔ k < 2 ^ 31)) :
    Ends (remVecs m mem1 mem2 size k) (Answers m mem1 mem2 size good)
      fun _ => Lost m mem1 mem2 size good := by
  induction k generalizing clearTo with
  | zero => exact answers_same (clear.mono (by omega))
  | succ k ih =>
    rw [remVecs]
    simp only [ymmSz]
    refine (testBlock_tests clear (by omega) (buffers.loads_unaligned (by omega)) unequalYmm_reports
      fun k below first => buffers.serves_int (by omega) (kept k first) first).orGo fun further => ?_
    exact ih (by omega) further (by omega)

/-- The first difference is not among the last vectors, behind the last pass of the loop, at
an index that no `int` holds. -/
def FitsRemainder (size k : Nat) : Prop := ¬ (size - 1 - (size - 1) % 128 ≤ k ∧ 2 ^ 31 ≤ k)

theorem memcmpZen4_ends (buffers : Buffers m mem1 mem2 size) :
    Ends (memcmpZen4 m mem1 mem2 size) (Answers m mem1 mem2 size (FitsRemainder size))
      fun _ => Lost m mem1 mem2 size (FitsRemainder size) := by
  have start : ClearBelow (Differs m.byte mem1 mem2) 0 := clearBelow_zero
  have kept {k : Nat} (within : k < size - 1 - (size - 1) % 128 ∨ k < 2 ^ 31) :
      FitsRemainder size k := by
    unfold FitsRemainder
    omega
  have serves {k : Nat} (inside : k < size) (small : size ≤ 256) :
      Serves m mem1 mem2 size (FitsRemainder size) Nat.cast k :=
    buffers.serves_cast inside (kept (by omega))
  rw [memcmpZen4]
  simp only [ymmSz, zmmSz]
  apply Ends.ite
  · intro to64
    exact (testMasked_tests buffers to64 fun k below => kept (by omega)).last (Nat.le_refl _)
  · intro from65
    apply Ends.ite
    · intro to128
      refine (buffers.testBlock_exact unequalZmm_reports start (by omega) (by omega)
        fun k below => kept (by omega)).orGo fun clear => ?_
      exact (buffers.testBlock_exact unequalZmm_reports clear (by omega) (by omega)
        fun k below => kept (by omega)).last (by omega)
    · intro from129
      apply Ends.ite
      · intro to256
        refine (testTwo_tests start (buffers.loads_unaligned (by omega))
          (buffers.loads_unaligned (by omega)) unequalZmm_reports (by omega) (by omega)
          fun k below => serves (by omega) to256).orGo fun clear => ?_
        exact (testTwo_tests clear (buffers.loads_unaligned (by omega))
          (buffers.loads_unaligned (by omega)) unequalZmm_reports (by omega) (by omega)
          fun k below => serves (by omega) to256).last (by omega)
      · intro from257
        have bound : subSize size (4 * 32) = size - 128 := subSize_of_le (by omega) buffers.range
        refine vec4Loop_ends (by decide) buffers.range
          (fun offset => offset % 128 = 0 ∧ offset ≤ size - 1 - (size - 1) % 128) ⟨rfl, Nat.zero_le _⟩
          start ?_ ?_
        · rintro offset ⟨whole, _⟩ guard clear
          rw [decide_eq_true_iff, bound] at guard
          simp only [avx2Vec4Sz]
          refine ⟨by omega, ⟨by omega, by omega⟩, testMerged4_tests buffers clear (by omega) ?_⟩
          exact fun k below => kept (by omega)
        · rintro offset ⟨whole, inside⟩ guard clear
          rw [ne_eq, decide_eq_true_iff, bound] at guard
          refine ends_ite.mpr ⟨fun reached => answers_same (by rwa [← reached]), fun _ => ?_⟩
          have remainder : (size - offset) % 2 ^ 16 = size - offset := Nat.mod_eq_of_lt (by omega)
          rw [remainder]
          apply Ends.ite
          · intro _
            refine remVecs_ends buffers ?_ clear ?_ fun k first => ?_
            · split <;> omega
            · split <;> omega
            · have above := first.clear_le clear
              unfold FitsRemainder
              omega
          · intro none
            split at none <;> omega

/-- The kernel is right unless the buffers first differ behind the last pass of the loop at
an index from 2^31 on. -/
theorem memcmpZen4_orders_iff (m : Memory) (mem1 mem2 size : Nat)
    (buffers : Buffers m mem1 mem2 size) :
    OrdersExactly m mem1 mem2 size (memcmpZen4 m mem1 mem2 size) ↔
      ∀ k < size, FirstHit (Differs m.byte mem1 mem2) k → FitsRemainder size k :=
  ordersExactly_iff (memcmpZen4_ends buffers)

theorem memcmpZen4_orders_iff_small :
    OrdersExactly (twoBuffers UInt8.ofNat 64 512 300) 64 512 300
      (memcmpZen4 (twoBuffers UInt8.ofNat 64 512 300) 64 512 300) :=
  (memcmpZen4_orders_iff _ 64 512 300 (twoBuffers_buffers (by decide))).mpr fun k below _ =>
    fun late => absurd late.2 (by omega)

theorem memcmpZen4_loses_far_byte :
    ¬ OrdersExactly farByte (2 ^ 32) (2 ^ 34) (2 ^ 31 + 1)
      (memcmpZen4 farByte (2 ^ 32) (2 ^ 34) (2 ^ 31 + 1)) := by
  refine farByte_lost (fun m => memcmpZen4 m (2 ^ 32) (2 ^ 34) (2 ^ 31 + 1))
    (fun m buffers => memcmpZen4_ends buffers) fun fits => ?_
  exact fits (by omega)

end Correct

end AoclLibmem.Compare
