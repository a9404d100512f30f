import AoclLibmem.Compare.MemcmpTests

/-! `tunable/avx2/memcmp_avx2.c`: three bodies that differ in the loads they make from the
start of the buffers. From 65 bytes on the index of the difference is kept in an `int`. -/

namespace AoclLibmem.Compare

open Base Machine

/-- `_tzcnt_u64` or `_tzcnt_u32` of the xor of two scalars; the width says that they are equal. -/
def unequalTzcnt {n : Nat} (w : Nat) (a b : Lanes n) : Option Nat :=
  let ret := tzcnt (scalarXor w a b)
  if ret = w then none else some (ret / 8)

section Kernel
variable (m : Memory) (mem1 mem2 size : Nat)

/-- A block at the start, then the one at the end. -/
def testEnds {n : Nat} (unequal : Lanes n → Lanes n → Option Nat) : Exec Int :=
  orGo (testBlock m mem1 mem2 (m.loadu n) unequal Nat.cast 0) <|
  orGo (testBlock m mem1 mem2 (m.loadu n) unequal Nat.cast (size - n)) (pure 0)

def memcmpLe2Ymm : Exec Int :=
  if size = 0 then
    pure 0
  else if size ≥ qwordSz then
    if size ≥ xmmSz then
      if size ≥ ymmSz then
        testEnds m mem1 mem2 size unequalYmm
      else testEnds m mem1 mem2 size unequalXmm
    else testEnds m mem1 mem2 size (unequalTzcnt (n := qwordSz) 64)
  else if size = 1 then
    byteDiff m mem1 mem2 0
  else if size ≤ 2 * wordSz then
    testEnds m mem1 mem2 size (unequalTzcnt (n := wordSz) 32)
  else if size < 2 * dwordSz then
    testEnds m mem1 mem2 size (unequalTzcnt (n := dwordSz) 32)
  else pure 0

/-- The common body, with the kind of load that a variant makes before the last vectors. -/
def memcmpAvx2Body (type : Access) : Exec Int :=
  let testYmms := testTwo m mem1 mem2 (loadAs m type ymmSz) unequalYmm intIndex
  if size ≤ 2 * ymmSz then
    memcmpLe2Ymm m mem1 mem2 size
  else if size ≤ 4 * ymmSz then
    orGo (testYmms (0 * ymmSz) (1 * ymmSz)) <|
    orGo (testTwo m mem1 mem2 (loadAs m .unaligned ymmSz) unequalYmm intIndex
      (size - 2 * ymmSz) (size - 1 * ymmSz)) (pure 0)
  else
    let reduced := size - 4 * ymmSz
    vec4Loop avx2Vec4Sz (fun offset => reduced ≥ offset)
      (fun offset =>
        elseTest (testYmms (offset + 0 * ymmSz) (offset + 1 * ymmSz))
          (testYmms (offset + 2 * ymmSz) (offset + 3 * ymmSz)))
      (fun offset =>
        let restored := reduced + 4 * ymmSz
        if offset = restored then pure 0
        else tail4Ymm m mem1 mem2 restored (loadAs m .unaligned ymmSz))
      0

/-- `__memcmp_avx2_unaligned`, and by alias `__memcmp_avx2_aligned_store`,
`__memcmp_avx2_aligned_load`, `__memcmp_avx2_nt_store` and `__memcmp_avx2_nt_load`. -/
def memcmpAvx2Unaligned : Exec Int := memcmpAvx2Body m mem1 mem2 size .unaligned

def memcmpAvx2Nt : Exec Int := memcmpAvx2Body m mem1 mem2 size .stream

def memcmpAvx2Aligned : Exec Int := memcmpAvx2Body m mem1 mem2 size .aligned

end Kernel

section Correct
variable {m : Memory} {mem1 mem2 size : Nat} {good : Nat → Prop} {n w : Nat} {type : Access}

theorem unequalTzcnt_reports (wide : 8 * n ≤ w) (a b : Lanes n) :
    Reports n (Unlike a b) (unequalTzcnt w a b) := by
  have same : unequalTzcnt w a b = unequalScalar w a b := by
    simp only [unequalTzcnt, unequalScalar, tzcnt_eq_width_iff, ne_eq, ite_not]
  rw [same]
  exact unequalScalar_reports wide a b

theorem testEnds_ends (buffers : Buffers m mem1 mem2 size) {unequal : Lanes n → Lanes n → Option Nat}
    (reports : ∀ a b, Reports n (Unlike a b) (unequal a b)) (least : n ≤ size) (most : size ≤ 2 * n)
    (kept : ∀ k < size, good k) :
    Ends (testEnds m mem1 mem2 size unequal) (Answers m mem1 mem2 size good)
      fun _ => Lost m mem1 mem2 size good := by
  rw [testEnds]
  refine (buffers.testBlock_exact reports clearBelow_zero (Nat.zero_le 0) (by omega)
    fun k below => kept k (by omega)).orGo fun clear => ?_
  exact (buffers.testBlock_exact reports clear (by omega) (by omega)
    fun k below => kept k (by omega)).last (by omega)

private theorem memcmpLe2Ymm_ends (buffers : Buffers m mem1 mem2 size) (small : size ≤ 64)
    (kept : ∀ k < size, good k) :
    Ends (memcmpLe2Ymm m mem1 mem2 size) (Answers m mem1 mem2 size good)
      fun _ => Lost m mem1 mem2 size good := by
  have start : ClearBelow (Differs m.byte mem1 mem2) 0 := clearBelow_zero
  have scalars {n w : Nat} (wide : 8 * n ≤ w) (least : n ≤ size) (most : size ≤ 2 * n) :=
    testEnds_ends buffers (unequalTzcnt_reports wide) least most kept
  rw [memcmpLe2Ymm]
  simp only [qwordSz, xmmSz, ymmSz, dwordSz, wordSz]
  apply Ends.ite
  · intro empty
    exact answers_same (start.mono (by omega))
  · intro some
    apply Ends.ite
    · intro atLeast8
      apply Ends.ite
      · intro atLeast16
        apply Ends.ite
        · intro atLeast32
          exact testEnds_ends buffers unequalYmm_reports (by omega) (by omega) kept
        · intro below32
          exact testEnds_ends buffers unequalXmm_reports (by omega) (by omega) kept
      · intro below16
        exact scalars (by decide) (by omega) (by omega)
    · intro below8
      apply Ends.ite
      · intro one
        exact buffers.byteDiff_last one start (kept 0 (by omega))
      · intro more
        apply Ends.ite
        · intro to4
          exact scalars (by decide) (by omega) (by omega)
        · intro from5
          apply Ends.ite
          · intro to7
            exact scalars (by decide) (by omega) (by omega)
          · intro beyond
            omega

theorem memcmpAvx2Body_ends (buffers : Buffers m mem1 mem2 size)
    (allowed : type = .unaligned ∨ (mem1 % 32 = 0 ∧ mem2 % 32 = 0)) :
    Ends (memcmpAvx2Body m mem1 mem2 size type) (Answers m mem1 mem2 size (· < 2 ^ 31))
      fun _ => Lost m mem1 mem2 size (· < 2 ^ 31) := by
  have start : ClearBelow (Differs m.byte mem1 mem2) 0 := clearBelow_zero
  have loads {place : Nat} (inside : place + 32 ≤ size) (line : place % 32 = 0) :
      Loads m mem1 mem2 (loadAs m type 32) place :=
    buffers.loads_as inside (allowed.imp_right fun both => by omega)
      (allowed.imp_right fun both => by omega)
  have free {place : Nat} (inside : place + 32 ≤ size) :
      Loads m mem1 mem2 (loadAs m .unaligned 32) place :=
    buffers.loads_as inside allows_unaligned allows_unaligned
  have serves {k : Nat} (inside : k < size) : Serves m mem1 mem2 size (· < 2 ^ 31) intIndex k :=
    buffers.serves_int inside Iff.rfl
  rw [memcmpAvx2Body]
  simp only [ymmSz]
  refine ends_ite.mpr ⟨fun to64 => memcmpLe2Ymm_ends buffers to64 fun k below => by omega, fun from65 =>
    ends_ite.mpr ⟨fun to128 => ?_, fun from129 => ?_⟩⟩
  · refine (testTwo_tests start (loads (by omega) (by omega)) (loads (by omega) (by omega))
      unequalYmm_reports (by omega) (by omega) fun k below => serves (by omega)).orGo fun clear => ?_
    exact (testTwo_tests clear (free (by omega)) (free (by omega)) unequalYmm_reports (by omega)
      (by omega) fun k below => serves (by omega)).last (by omega)
  · refine vec4Loop_ends (by decide) buffers.range (fun offset => offset % 128 = 0 ∧ offset ≤ size)
      ⟨rfl, Nat.zero_le _⟩ start ?_ ?_
    · rintro offset ⟨whole, _⟩ guard clear
      rw [decide_eq_true_iff] at guard
      simp only [avx2Vec4Sz]
      refine ⟨by omega, ⟨by omega, by omega⟩, ?_⟩
      refine (testTwo_tests clear (loads (by omega) (by omega)) (loads (by omega) (by omega))
        unequalYmm_reports (by omega) (by omega) fun k below => serves (by omega)).elseTest
        fun further => ?_
      exact testTwo_tests further (loads (by omega) (by omega)) (loads (by omega) (by omega))
        unequalYmm_reports (by omega) (by omega) fun k below => serves (by omega)
    · rintro offset ⟨whole, inside⟩ guard clear
      rw [ne_eq, decide_eq_true_iff] at guard
      have restored : size - 4 * 32 + 4 * 32 = size := by omega
      rw [restored]
      refine ends_ite.mpr ⟨fun reached => answers_same (by rwa [← reached]), fun _ => ?_⟩
      exact tail4Ymm_ends buffers clear (fun _ => free) (by omega) (by omega) fun _ _ => Iff.rfl

/-- The kernels are right unless the buffers first differ at an index from 2^31 on. -/
theorem memcmpTunable_orders_iff (m : Memory) (mem1 mem2 size : Nat)
    (buffers : Buffers m mem1 mem2 size) :
    (OrdersExactly m mem1 mem2 size (memcmpAvx2Unaligned m mem1 mem2 size) ↔
      ∀ k < size, FirstHit (Differs m.byte mem1 mem2) k → k < 2 ^ 31) ∧
    (mem1 % 32 = 0 → mem2 % 32 = 0 →
      (OrdersExactly m mem1 mem2 size (memcmpAvx2Aligned m mem1 mem2 size) ↔
        ∀ k < size, FirstHit (Differs m.byte mem1 mem2) k → k < 2 ^ 31) ∧
      (OrdersExactly m mem1 mem2 size (memcmpAvx2Nt m mem1 mem2 size) ↔
        ∀ k < size, FirstHit (Differs m.byte mem1 mem2) k → k < 2 ^ 31)) := by
  refine ⟨ordersExactly_iff (memcmpAvx2Body_ends buffers (.inl rfl)), fun aligned1 aligned2 => ?_⟩
  exact ⟨ordersExactly_iff (memcmpAvx2Body_ends buffers (.inr ⟨aligned1, aligned2⟩)),
    ordersExactly_iff (memcmpAvx2Body_ends buffers (.inr ⟨aligned1, aligned2⟩))⟩

theorem memcmpTunable_orders_iff_aligned :
    OrdersExactly (twoBuffers UInt8.ofNat 64 512 300) 64 512 300
      (memcmpAvx2Aligned (twoBuffers UInt8.ofNat 64 512 300) 64 512 300) :=
  ((memcmpTunable_orders_iff _ 64 512 300 (twoBuffers_buffers (by decide))).2 rfl rfl).1.mpr
    fun k below _ => by omega

theorem memcmpAvx2Unaligned_loses_far_byte :
    ¬ OrdersExactly farByte (2 ^ 32) (2 ^ 34) (2 ^ 31 + 1)
      (memcmpAvx2Unaligned farByte (2 ^ 32) (2 ^ 34) (2 ^ 31 + 1)) :=
  farByte_lost (fun m => memcmpAvx2Unaligned m (2 ^ 32) (2 ^ 34) (2 ^ 31 + 1))
    (fun _ buffers => memcmpAvx2Body_ends buffers (.inl rfl)) (by omega)

end Correct

end AoclLibmem.Compare
