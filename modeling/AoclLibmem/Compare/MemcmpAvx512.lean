import AoclLibmem.Compare.MemcmpZen4

/-! `isa/avx512/optimized/memcmp_avx512.c`: two loops for large buffers, chosen by the size of
the L1 data cache. Every index is a `size_t`. -/

namespace AoclLibmem.Compare

open Base Machine

def memcmpLoopStrategyThreshold (l1dPerCore : Nat) : Nat := l1dPerCore / 3 * 2

section Kernel
variable (m : Memory) (mem1 mem2 size : Nat)

/-- Four vectors from `offset`, each loaded and tested before the next. -/
def testEach4 (load : Nat → Exec (Lanes zmmSz)) (unequal : Lanes zmmSz → Lanes zmmSz → Option Nat)
    (offset : Nat) : Exec (Option Int) :=
  let test := testBlock m mem1 mem2 load unequal Nat.cast
  elseTest (test (offset + 0 * zmmSz)) <| elseTest (test (offset + 1 * zmmSz)) <|
    elseTest (test (offset + 2 * zmmSz)) (test (offset + 3 * zmmSz))

/-- The last of four vectors, in which the difference lies: its mask is not tested. -/
def leaveInLast (place : Nat) : Exec (Option Int) := do
  let z3 ← m.loadu zmmSz (mem2 + place)
  let z7 ← m.loadu zmmSz (mem1 + place)
  leaveAt m mem1 mem2 (some ((tzcnt (cmpneqEpu8Mask z3 z7) + place : Nat) : Int))

/-- Four vectors under one test of their xors; after a hit they are read again. -/
def testXor4 (offset : Nat) : Exec (Option Int) := do
  let test := testBlock m mem1 mem2 (m.loadu zmmSz) unequalZmm Nat.cast
  let z0 ← m.loadu zmmSz (mem2 + (offset + 0 * zmmSz))
  let z4 ← m.loadu zmmSz (mem1 + (offset + 0 * zmmSz))
  let z1 ← m.loadu zmmSz (mem2 + (offset + 1 * zmmSz))
  let z5 ← m.loadu zmmSz (mem1 + (offset + 1 * zmmSz))
  let z2 ← m.loadu zmmSz (mem2 + (offset + 2 * zmmSz))
  let z6 ← m.loadu zmmSz (mem1 + (offset + 2 * zmmSz))
  let z3 ← m.loadu zmmSz (mem2 + (offset + 3 * zmmSz))
  let z7 ← m.loadu zmmSz (mem1 + (offset + 3 * zmmSz))
  let z := orSi (orSi (xorSi z0 z4) (xorSi z1 z5)) (orSi (xorSi z2 z6) (xorSi z3 z7))
  if testEpi8Mask z z ≠ 0#64 then
    elseTest (test (offset + 0 * zmmSz)) <| elseTest (test (offset + 1 * zmmSz)) <|
      elseTest (test (offset + 2 * zmmSz)) (leaveInLast m mem1 mem2 (offset + 3 * zmmSz))
  else return none

/-- The last `k` vectors, in order: the cases of `switch (rem_vecs)`, which fall through. -/
def remVecsZmm (unequal : Lanes zmmSz → Lanes zmmSz → Option Nat) : Nat → Exec Int
  | 0 => pure 0
  | k + 1 =>
    orGo (testBlock m mem1 mem2 (m.loadu zmmSz) unequal Nat.cast (size - (k + 1) * zmmSz))
      (remVecsZmm unequal k)

/-- `_memcmp_avx512`. The first vector is compared before the size is looked at again. -/
def memcmpAvx512 (l1dPerCore : Nat) : Exec Int :=
  let test := testBlock m mem1 mem2 (m.loadu zmmSz) unequalZmm Nat.cast
  if size = 0 ∨ mem1 = mem2 then pure 0
  else if size ≤ zmmSz then
    let mask : BitVec zmmSz := bzhiOnes (size % 2 ^ 8)
    orGo (testBlock m mem1 mem2 (m.maskLoadu setzero mask) unequalZmm Nat.cast 0) (pure 0)
  else
    orGo (test (0 * zmmSz)) <|
    if size ≤ 2 * zmmSz then orGo (test (size - zmmSz)) (pure 0)
    else if size ≤ 4 * zmmSz then
      orGo (test (1 * zmmSz)) <|
      orGo (testTwo m mem1 mem2 (m.loadu zmmSz) unequalZmm Nat.cast
        (size - 2 * zmmSz) (size - 1 * zmmSz)) (pure 0)
    else
      let guard := fun offset => decide (size - 4 * zmmSz > offset)
      let rest := fun offset =>
        if offset = size then pure 0
        else
          let remData := subSize size offset % 2 ^ 16
          let remVecs := (remData / 2 ^ 6 + (if remData % 2 ^ 6 ≠ 0 then 1 else 0)) % 2 ^ 8
          if remVecs ≤ 4 then remVecsZmm m mem1 mem2 size unequalZmm remVecs else pure 0
      if size ≥ memcmpLoopStrategyThreshold l1dPerCore then
        vec4Loop avx512Vec4Sz guard (testEach4 m mem1 mem2 (m.loadu zmmSz) unequalZmm) rest zmmSz
      else vec4Loop avx512Vec4Sz guard (testXor4 m mem1 mem2) rest zmmSz

end Kernel

section Parts
variable {m : Memory} {mem1 mem2 size clearTo : Nat}

/-- No index is handled badly. -/
abbrev Any : Nat → Prop := fun _ => True

theorem ordersExactly_of_ends {run : Exec Int}
    (ends : Ends run (Answers m mem1 mem2 size Any) fun _ => Lost m mem1 mem2 size Any) :
    OrdersExactly m mem1 mem2 size run :=
  (ordersExactly_iff ends).mpr fun _ _ _ => trivial

theorem testEach4_tests (buffers : Buffers m mem1 mem2 size) {offset : Nat}
    {load : Nat → Exec (Lanes 64)} {unequal : Lanes 64 → Lanes 64 → Option Nat}
    (reports : ∀ a b, Reports 64 (Unlike a b) (unequal a b))
    (clear : ClearBelow (Differs m.byte mem1 mem2) clearTo) (near : offset ≤ clearTo)
    (inside : offset + 256 ≤ size) (loads : ∀ j < 4, Loads m mem1 mem2 load (offset + j * 64)) :
    Tests m mem1 mem2 size Any (offset + 256) (testEach4 m mem1 mem2 load unequal offset) := by
  have block {j near : Nat} (less : j < 4) (clear : ClearBelow (Differs m.byte mem1 mem2) near)
      (reach : offset + j * 64 ≤ near) :
      Tests m mem1 mem2 size Any (offset + j * 64 + 64)
        (testBlock m mem1 mem2 load unequal Nat.cast (offset + j * 64)) :=
    testBlock_tests clear reach (loads j less) reports fun k below =>
      buffers.serves_cast (by omega) trivial
  rw [testEach4]
  refine (block (by decide) clear (by omega)).elseTest fun clear1 => ?_
  refine (block (by decide) clear1 (by omega)).elseTest fun clear2 => ?_
  refine (block (by decide) clear2 (by omega)).elseTest fun clear3 => ?_
  exact block (by decide) clear3 (by omega)

theorem remVecsZmm_ends (buffers : Buffers m mem1 mem2 size) {k : Nat}
    {unequal : Lanes 64 → Lanes 64 → Option Nat}
    (reports : ∀ a b, Reports 64 (Unlike a b) (unequal a b)) (inside : k * 64 ≤ size)
    (clear : ClearBelow (Differs m.byte mem1 mem2) clearTo) (near : size - k * 64 ≤ clearTo) :
    Ends (remVecsZmm m mem1 mem2 size unequal k) (Answers m mem1 mem2 size Any)
      fun _ => Lost m mem1 mem2 size Any := by
  induction k generalizing clearTo with
  | zero => exact answers_same (clear.mono (by omega))
  | succ k ih =>
    rw [remVecsZmm]
    simp only [zmmSz]
    refine (buffers.testBlock_exact reports clear (by omega) (by omega)
      fun _ _ => trivial).orGo fun further => ?_
    exact ih (by omega) further (by omega)

/-- What follows the loops: nothing, or the last vectors. -/
private theorem afterLoop_ends (buffers : Buffers m mem1 mem2 size) {offset : Nat}
    (large : 256 ≤ size) (inside : offset ≤ size) (few : size ≤ offset + 256)
    (clear : ClearBelow (Differs m.byte mem1 mem2) offset) :
    Ends (if offset = size then pure 0
      else
        let remData := subSize size offset % 2 ^ 16
        let remVecs := (remData / 2 ^ 6 + (if remData % 2 ^ 6 ≠ 0 then 1 else 0)) % 2 ^ 8
        if remVecs ≤ 4 then remVecsZmm m mem1 mem2 size unequalZmm remVecs else pure 0)
      (Answers m mem1 mem2 size Any) fun _ => Lost m mem1 mem2 size Any := by
  refine ends_ite.mpr ⟨fun reached => answers_same (by rwa [← reached]), fun _ => ?_⟩
  dsimp only
  generalize counted : (_ + _) % 2 ^ 8 = remVecs
  have vectors := remVecs_covers inside few buffers.range counted
  rw [if_pos vectors.1]
  exact remVecsZmm_ends buffers unequalZmm_reports (by omega) clear (by omega)

/-- The merged test sees a difference in any of the four pairs. -/
private theorem testXor_eq_zero {z0 z1 z2 z3 z4 z5 z6 z7 : Lanes 64} :
    testEpi8Mask (orSi (orSi (xorSi z0 z4) (xorSi z1 z5)) (orSi (xorSi z2 z6) (xorSi z3 z7)))
        (orSi (orSi (xorSi z0 z4) (xorSi z1 z5)) (orSi (xorSi z2 z6) (xorSi z3 z7))) = 0#64 ↔
      ∀ i : Fin 64, z0 i = z4 i ∧ z1 i = z5 i ∧ z2 i = z6 i ∧ z3 i = z7 i := by
  rw [eq_zero_iff_getLsbD, Fin.forall_iff]
  refine forall_congr' fun i => forall_congr' fun below => ?_
  rw [getLsbD_testEpi8Mask ⟨i, below⟩]
  simp only [orSi, xorSi, UInt8.and_self, bne_eq_false_iff_eq, UInt8.or_eq_zero_iff, xor_eq_zero_iff,
    and_assoc]

/-- When a difference is known to lie in the block, not testing for it changes nothing. -/
private theorem leaveInLast_eq {place : Nat} (loads : Loads m mem1 mem2 (m.loadu 64) place)
    {i : Nat} (below : i < 64) (differs : Differs m.byte mem1 mem2 (place + i)) :
    leaveInLast m mem1 mem2 place =
      testBlock m mem1 mem2 (m.loadu 64) unequalZmm Nat.cast place := by
  have report := unequalZmm_reports (m.lanes 64 (mem2 + place)) (m.lanes 64 (mem1 + place))
  rw [leaveInLast, testBlock, loads.1, loads.2, ok_bind, ok_bind, ok_bind, ok_bind]
  unfold unequalZmm at report ⊢
  dsimp only at report ⊢
  split
  · rfl
  · rename_i zero
    rw [if_neg zero] at report
    exact absurd ((unlike_lanes below).mpr differs) (report.of_none i below)

private theorem testXor4_tests (buffers : Buffers m mem1 mem2 size) {offset : Nat}
    (clear : ClearBelow (Differs m.byte mem1 mem2) offset) (inside : offset + 256 ≤ size) :
    Tests m mem1 mem2 size Any (offset + 256) (testXor4 m mem1 mem2 offset) := by
  have loads {j : Nat} (less : j < 4) : Loads m mem1 mem2 (m.loadu 64) (offset + j * 64) :=
    buffers.loads_unaligned (by omega)
  have block {j near : Nat} (less : j < 4) (clear : ClearBelow (Differs m.byte mem1 mem2) near)
      (reach : offset + j * 64 ≤ near) := buffers.testBlock_exact unequalZmm_reports clear reach
        (by omega : offset + j * 64 + 64 ≤ size) fun _ _ => trivial
  obtain ⟨load4, load0⟩ := loads (by decide : 0 < 4)
  obtain ⟨load5, load1⟩ := loads (by decide : 1 < 4)
  obtain ⟨load6, load2⟩ := loads (by decide : 2 < 4)
  obtain ⟨load7, load3⟩ := loads (by decide : 3 < 4)
  simp only [testXor4, zmmSz]
  rw [load0, load1, load2, load3, load4, load5, load6, load7]
  simp only [ok_bind]
  have lane (j : Nat) {i : Nat} (below : i < 64) :
      Differs m.byte mem1 mem2 (offset + j * 64 + i) ↔
        m.lanes 64 (mem2 + (offset + j * 64)) ⟨i, below⟩ ≠
          m.lanes 64 (mem1 + (offset + j * 64)) ⟨i, below⟩ := by
    rw [← unlike_lanes below]
    exact unlike_fin (i := ⟨i, below⟩)
  split
  · rename_i found
    refine (block (by decide) clear (by omega)).elseTest fun clear1 => ?_
    refine (block (by decide) clear1 (by omega)).elseTest fun clear2 => ?_
    refine (block (by decide) clear2 (by omega)).elseTest fun clear3 => ?_
    -- the first three vectors are equal, so what the merged test has seen lies in the last one
    obtain ⟨i, below, differs⟩ : ∃ i < 64, Differs m.byte mem1 mem2 (offset + 3 * 64 + i) := by
      by_contra none
      refine found (testXor_eq_zero.mpr fun i => ?_)
      have equal (j : Nat) (off : ¬ Differs m.byte mem1 mem2 (offset + j * 64 + i)) :
          m.lanes 64 (mem2 + (offset + j * 64)) i = m.lanes 64 (mem1 + (offset + j * 64)) i := by
        rw [lane j i.isLt] at off
        exact not_not.mp off
      have below := i.isLt
      exact ⟨equal 0 (clear3 _ (by omega)), equal 1 (clear3 _ (by omega)),
        equal 2 (clear3 _ (by omega)), equal 3 fun differs => none ⟨i, below, differs⟩⟩
    rw [leaveInLast_eq (loads (by decide)) below differs]
    exact block (by decide) clear3 (by omega)
  · rename_i none
    have equal := testXor_eq_zero.mp (not_not.mp none)
    refine clear.extend fun i below differs => ?_
    have inBlock (j : Nat) (less : i - j * 64 < 64) (above : j * 64 ≤ i) :
        m.lanes 64 (mem2 + (offset + j * 64)) ⟨i - j * 64, less⟩ ≠
          m.lanes 64 (mem1 + (offset + j * 64)) ⟨i - j * 64, less⟩ := by
      rw [← lane j less, show offset + j * 64 + (i - j * 64) = offset + i by omega]
      exact differs
    rcases Nat.lt_or_ge i 64 with first | from64
    · exact inBlock 0 (by omega) (by omega) (equal _).1
    rcases Nat.lt_or_ge i 128 with second | from128
    · exact inBlock 1 (by omega) (by omega) (equal _).2.1
    rcases Nat.lt_or_ge i 192 with third | from192
    · exact inBlock 2 (by omega) (by omega) (equal _).2.2.1
    · exact inBlock 3 (by omega) (by omega) (equal _).2.2.2

end Parts

section Correct
variable {m : Memory} {mem1 mem2 size : Nat}

theorem memcmpAvx512_ends (buffers : Buffers m mem1 mem2 size) (l1dPerCore : Nat) :
    Ends (memcmpAvx512 m mem1 mem2 size l1dPerCore) (Answers m mem1 mem2 size Any)
      fun _ => Lost m mem1 mem2 size Any := by
  have start : ClearBelow (Differs m.byte mem1 mem2) 0 := clearBelow_zero
  have block {place clearTo : Nat} (clear : ClearBelow (Differs m.byte mem1 mem2) clearTo)
      (near : place ≤ clearTo) (inside : place + 64 ≤ size) :
      Tests m mem1 mem2 size Any (place + 64)
        (testBlock m mem1 mem2 (m.loadu 64) unequalZmm Nat.cast place) :=
    buffers.testBlock_exact unequalZmm_reports clear near inside fun _ _ => trivial
  rw [memcmpAvx512]
  simp only [zmmSz]
  refine ends_ite.mpr ⟨fun same => answers_same ?_, fun _ =>
    ends_ite.mpr ⟨fun to64 => ?_, fun from65 => ?_⟩⟩
  · intro i below differs
    rcases same with empty | rfl
    · omega
    · exact differs rfl
  · exact (testMasked_tests buffers to64 fun _ _ => trivial).last (Nat.le_refl _)
  refine (block start (by omega) (by omega)).orGo fun clear64 => ?_
  refine ends_ite.mpr ⟨fun to128 => ?_, fun from129 =>
    ends_ite.mpr ⟨fun to256 => ?_, fun from257 => ?_⟩⟩
  · exact (block clear64 (by omega) (by omega)).last (by omega)
  · refine (block clear64 (by omega) (by omega)).orGo fun clear128 => ?_
    exact (testTwo_tests clear128 (buffers.loads_unaligned (by omega))
      (buffers.loads_unaligned (by omega)) unequalZmm_reports (by omega) (by omega)
      fun k below => buffers.serves_cast (by omega) trivial).last (by omega)
  -- both loops stop with one to four vectors left
  have loop {test : Nat → Exec (Option Int)} {rest : Nat → Exec Int}
      (tests : ∀ offset, ClearBelow (Differs m.byte mem1 mem2) offset → offset + 256 ≤ size →
        Tests m mem1 mem2 size Any (offset + 256) (test offset))
      (after : ∀ offset, offset ≤ size → size ≤ offset + 256 →
        ClearBelow (Differs m.byte mem1 mem2) offset →
          Ends (rest offset) (Answers m mem1 mem2 size Any) fun _ => Lost m mem1 mem2 size Any) :
      Ends (vec4Loop avx512Vec4Sz (fun offset => decide (size - 4 * 64 > offset)) test rest 64)
        (Answers m mem1 mem2 size Any) fun _ => Lost m mem1 mem2 size Any := by
    refine vec4Loop_ends (by decide) buffers.range (· < size) (by omega) (clear64.mono (by omega)) ?_ ?_
    · intro offset _ guard clear
      rw [decide_eq_true_iff] at guard
      simp only [avx512Vec4Sz]
      exact ⟨by omega, by omega, tests offset clear (by omega)⟩
    · intro offset inside guard clear
      rw [ne_eq, decide_eq_true_iff] at guard
      exact after offset (Nat.le_of_lt inside) (by omega) clear
  refine ends_ite.mpr ⟨fun _ => loop (fun offset clear inside => ?_) ?_, fun _ =>
    loop (fun offset clear inside => testXor4_tests buffers clear inside) ?_⟩
  · exact testEach4_tests buffers unequalZmm_reports clear (Nat.le_refl _) inside fun j less =>
      buffers.loads_unaligned (by omega)
  all_goals
    intro offset inside few clear
    exact afterLoop_ends buffers (by omega) inside few clear

/-- One result for every size of the L1 data cache: the required one. Only the two buffers are
mapped, so nothing else is read. -/
theorem memcmpAvx512_orders (m : Memory) (mem1 mem2 size : Nat) (buffers : Buffers m mem1 mem2 size) :
    ∃ value, Orders m.byte mem1 mem2 size value ∧
      ∀ l1dPerCore, memcmpAvx512 m mem1 mem2 size l1dPerCore = .ok value := by
  obtain ⟨value, _, orders⟩ := ordersExactly_of_ends (memcmpAvx512_ends buffers 0)
  refine ⟨value, orders, fun l1dPerCore => ?_⟩
  obtain ⟨other, returned, orders'⟩ := ordersExactly_of_ends (memcmpAvx512_ends buffers l1dPerCore)
  rw [returned, orders'.unique orders]

theorem memcmpAvx512_orders_shifted :
    ∃ value, Orders UInt8.ofNat 64 512 300 value ∧ ∀ l1dPerCore,
      memcmpAvx512 (twoBuffers UInt8.ofNat 64 512 300) 64 512 300 l1dPerCore = .ok value :=
  memcmpAvx512_orders _ 64 512 300 (twoBuffers_buffers (by decide))

end Correct

end AoclLibmem.Compare
