import AoclLibmem.Compare.MemcmpAvx512
import AoclLibmem.Compare.MemcmpTunable

/-! `tunable/avx512/memcmp_avx512.c`: three bodies that differ in the loads they make from the
start of the buffers. Every index behind the small sizes is a `size_t`. -/

namespace AoclLibmem.Compare

open Base Machine

/-- `_mm512_cmpeq_epu8_mask(a, b) + 1` and its trailing zeros. -/
def unequalCarryZmm (a b : Lanes zmmSz) : Option Nat :=
  let ret := cmpeqEpu8Mask a b + 1#64
  if ret ≠ 0#64 then some (tzcnt ret) else none

section Kernel
variable (m : Memory) (mem1 mem2 size : Nat)

def memcmpLe2Zmm : Exec Int :=
  if size = 0 then pure 0
  else if size = 1 then byteDiff m mem1 mem2 0
  else if size ≤ 2 * wordSz then testEnds m mem1 mem2 size (unequalTzcnt (n := wordSz) 32)
  else if size ≤ 2 * dwordSz then testEnds m mem1 mem2 size (unequalTzcnt (n := dwordSz) 32)
  else if size ≤ 2 * qwordSz then testEnds m mem1 mem2 size (unequalTzcnt (n := qwordSz) 64)
  else if size ≤ 2 * xmmSz then testEnds m mem1 mem2 size unequalXmm
  else if size ≤ 2 * ymmSz then testEnds m mem1 mem2 size unequalYmm
  else testEnds m mem1 mem2 size unequalCarryZmm

/-- The common body, with the kind of load that a variant makes before the last vectors. -/
def memcmpAvx512Body (type : Access) : Exec Int :=
  if size ≤ 2 * zmmSz then
    memcmpLe2Zmm m mem1 mem2 size
  else if size ≤ 4 * zmmSz then
    orGo (testTwo m mem1 mem2 (loadAs m type zmmSz) unequalCarryZmm Nat.cast
      (0 * zmmSz) (1 * zmmSz)) <|
    orGo (testTwo m mem1 mem2 (m.loadu zmmSz) unequalCarryZmm Nat.cast
      (size - 2 * zmmSz) (size - 1 * zmmSz)) (pure 0)
  else
    let reduced := size - 4 * zmmSz
    vec4Loop avx512Vec4Sz (fun offset => reduced > offset)
      (testEach4 m mem1 mem2 (loadAs m type zmmSz) unequalCarryZmm)
      (fun offset =>
        let restored := reduced + 4 * zmmSz
        if offset = restored then pure 0
        else remVecsZmm m mem1 mem2 restored unequalCarryZmm 4)
      0

/-- `__memcmp_avx512_unaligned`, and by alias `__memcmp_avx512_aligned_store`,
`__memcmp_avx512_aligned_load`, `__memcmp_avx512_nt_store` and `__memcmp_avx512_nt_load`. -/
def memcmpAvx512Unaligned : Exec Int := memcmpAvx512Body m mem1 mem2 size .unaligned

def memcmpAvx512Nt : Exec Int := memcmpAvx512Body m mem1 mem2 size .stream

def memcmpAvx512Aligned : Exec Int := memcmpAvx512Body m mem1 mem2 size .aligned

end Kernel

section Correct
variable {m : Memory} {mem1 mem2 size : Nat} {type : Access}

/-- The carry of the incremented mask stops at the first unequal lane, and leaves the word
when there is none. -/
theorem unequalCarryZmm_reports (a b : Lanes 64) :
    Reports 64 (Unlike a b) (unequalCarryZmm a b) := by
  have equal (i : Nat) (below : i < 64) :
      (cmpeqEpu8Mask a b).getLsbD i = true ↔ ¬ Unlike a b i := by
    rw [getLsbD_cmpeqEpu8Mask ⟨i, below⟩, beq_iff_eq]
    exact (not_iff_comm.mp unlike_fin.symm).symm
  rw [unequalCarryZmm]
  rcases clear_or_firstHit (Unlike a b) 64 with clear | ⟨k, below, first⟩
  · rw [if_neg (not_not.mpr (add_one_eq_zero.mpr fun i inside => (equal i inside).mpr (clear i inside)))]
    exact .clear clear
  · have off : (cmpeqEpu8Mask a b).getLsbD k = false := by
      rw [← Bool.not_eq_true, equal k below, not_not]
      exact first.1
    have carry := tzcnt_add_one below off fun j less =>
      (equal j (by omega)).mpr (first.2 j less)
    have some : cmpeqEpu8Mask a b + 1#64 ≠ 0#64 := fun zero => by
      rw [add_one_eq_zero.mp zero k below] at off
      cases off
    rw [if_pos some, carry]
    exact .first below first.1 first.2

private theorem memcmpLe2Zmm_ends (buffers : Buffers m mem1 mem2 size) (small : size ≤ 128) :
    Ends (memcmpLe2Zmm m mem1 mem2 size) (Answers m mem1 mem2 size Any)
      fun _ => Lost m mem1 mem2 size Any := by
  have start : ClearBelow (Differs m.byte mem1 mem2) 0 := clearBelow_zero
  have pair {n : Nat} {unequal : Lanes n → Lanes n → Option Nat}
      (reports : ∀ a b, Reports n (Unlike a b) (unequal a b)) (least : n ≤ size)
      (most : size ≤ 2 * n) :
      Ends (testEnds m mem1 mem2 size unequal) (Answers m mem1 mem2 size Any)
        fun _ => Lost m mem1 mem2 size Any :=
    testEnds_ends buffers reports least most fun _ _ => trivial
  rw [memcmpLe2Zmm]
  simp only [wordSz, dwordSz, qwordSz, xmmSz, ymmSz, zmmSz]
  apply Ends.ite
  · intro empty
    exact answers_same (start.mono (by omega))
  · intro some
    apply Ends.ite
    · intro one
      exact buffers.byteDiff_last one start trivial
    · intro from2
      apply Ends.ite
      · intro to4
        exact pair (unequalTzcnt_reports (by decide)) (by omega) to4
      · intro from5
        apply Ends.ite
        · intro to8
          exact pair (unequalTzcnt_reports (by decide)) (by omega) to8
        · intro from9
          apply Ends.ite
          · intro to16
            exact pair (unequalTzcnt_reports (by decide)) (by omega) to16
          · intro from17
            apply Ends.ite
            · intro to32
              exact pair unequalXmm_reports (by omega) to32
            · intro from33
              apply Ends.ite
              · intro to64
                exact pair unequalYmm_reports (by omega) to64
              · intro from65
                exact pair unequalCarryZmm_reports (by omega) small

theorem memcmpAvx512Body_ends (buffers : Buffers m mem1 mem2 size)
    (allowed : type = .unaligned ∨ (mem1 % 64 = 0 ∧ mem2 % 64 = 0)) :
    Ends (memcmpAvx512Body m mem1 mem2 size type) (Answers m mem1 mem2 size Any)
      fun _ => Lost m mem1 mem2 size Any := by
  have start : ClearBelow (Differs m.byte mem1 mem2) 0 := clearBelow_zero
  have loads {place : Nat} (inside : place + 64 ≤ size) (line : place % 64 = 0) :
      Loads m mem1 mem2 (loadAs m type 64) place :=
    buffers.loads_as inside (allowed.imp_right fun both => by omega)
      (allowed.imp_right fun both => by omega)
  rw [memcmpAvx512Body]
  simp only [zmmSz]
  refine ends_ite.mpr ⟨fun to128 => memcmpLe2Zmm_ends buffers to128, fun from129 =>
    ends_ite.mpr ⟨fun to256 => ?_, fun from257 => ?_⟩⟩
  · refine (testTwo_tests start (loads (by omega) (by omega)) (loads (by omega) (by omega))
      unequalCarryZmm_reports (by omega) (by omega) fun k below =>
        buffers.serves_cast (by omega) trivial).orGo fun clear => ?_
    exact (testTwo_tests clear (buffers.loads_unaligned (by omega))
      (buffers.loads_unaligned (by omega)) unequalCarryZmm_reports (by omega) (by omega)
      fun k below => buffers.serves_cast (by omega) trivial).last (by omega)
  · refine vec4Loop_ends (by decide) buffers.range (fun offset => offset % 256 = 0 ∧ offset ≤ size)
      ⟨rfl, Nat.zero_le _⟩ start ?_ ?_
    · rintro offset ⟨whole, _⟩ guard clear
      rw [decide_eq_true_iff] at guard
      simp only [avx512Vec4Sz]
      refine ⟨by omega, ⟨by omega, by omega⟩, ?_⟩
      exact testEach4_tests buffers unequalCarryZmm_reports clear (Nat.le_refl _) (by omega)
        fun j less => loads (by omega) (by omega)
    · rintro offset ⟨whole, inside⟩ guard clear
      rw [ne_eq, decide_eq_true_iff] at guard
      have restored : size - 4 * 64 + 4 * 64 = size := by omega
      rw [restored]
      refine ends_ite.mpr ⟨fun reached => answers_same (by rwa [← reached]), fun _ => ?_⟩
      exact remVecsZmm_ends buffers unequalCarryZmm_reports (by omega) clear (by omega)

/-- The three bodies return the one required result, the last two where their loads may be
made. Only the two buffers are mapped, so nothing else is read. -/
theorem tunableMemcmpAvx512_orders (m : Memory) (mem1 mem2 size : Nat)
    (buffers : Buffers m mem1 mem2 size) :
    ∃ value, Orders m.byte mem1 mem2 size value ∧
      memcmpAvx512Unaligned m mem1 mem2 size = .ok value ∧
      (mem1 % 64 = 0 → mem2 % 64 = 0 →
        memcmpAvx512Aligned m mem1 mem2 size = .ok value ∧
        memcmpAvx512Nt m mem1 mem2 size = .ok value) := by
  obtain ⟨value, returned, orders⟩ :=
    ordersExactly_of_ends (memcmpAvx512Body_ends buffers (.inl rfl))
  have same {type : Access} (aligned1 : mem1 % 64 = 0) (aligned2 : mem2 % 64 = 0) :
      memcmpAvx512Body m mem1 mem2 size type = .ok value := by
    obtain ⟨other, returned, orders'⟩ :=
      ordersExactly_of_ends (memcmpAvx512Body_ends buffers (.inr ⟨aligned1, aligned2⟩))
    rw [returned, orders'.unique orders]
  exact ⟨value, orders, returned, fun aligned1 aligned2 =>
    ⟨same aligned1 aligned2, same aligned1 aligned2⟩⟩

theorem tunableMemcmpAvx512_orders_aligned :
    ∃ value, Orders UInt8.ofNat 64 512 300 value ∧
      memcmpAvx512Aligned (twoBuffers UInt8.ofNat 64 512 300) 64 512 300 = .ok value := by
  obtain ⟨value, orders, _, aligned⟩ :=
    tunableMemcmpAvx512_orders _ 64 512 300 (twoBuffers_buffers (by decide))
  exact ⟨value, orders, (aligned rfl rfl).1⟩

end Correct

end AoclLibmem.Compare
