import AoclLibmem.Copy.TunableMovers
import AoclLibmem.Copy.LegalAccess

/-! `_memcpy_avx2` and `_mempcpy_avx2`. -/

namespace AoclLibmem.Copy

open Base Machine

section Kernel
variable (l1dPerCore ntStartThreshold dst src size : Nat)

def memcpyAvx2LtYmm : Kernel Nat := do
  if size ≥ xmmSz then vecLoadStoreHeadTail xmmSz .unaligned .unaligned 2 dst src size
  else if size ≥ qwordSz then headThenTailScalar dst src size qwordSz
  else if size ≥ dwordSz then headThenTailScalar dst src size dwordSz
  else if size ≥ wordSz then headThenTailScalar dst src size wordSz
  else moveByte dst src size
  return dst

def memcpyAvx2Le4Ymm : Kernel Nat := do
  let y0 ← vecLoad ymmSz .unaligned (src + 0)
  let y1 ← vecLoad ymmSz .unaligned (src + (size - ymmSz))
  if size ≤ 2 * ymmSz then
    vecStore ymmSz .unaligned (dst + 0) y0
    vecStore ymmSz .unaligned (dst + (size - ymmSz)) y1
    return dst
  else
    let y2 ← vecLoad ymmSz .unaligned (src + ymmSz)
    let y3 ← vecLoad ymmSz .unaligned (src + (size - 2 * ymmSz))
    vecStore ymmSz .unaligned (dst + 0) y0
    vecStore ymmSz .unaligned (dst + ymmSz) y2
    vecStore ymmSz .unaligned (dst + (size - 2 * ymmSz)) y3
    vecStore ymmSz .unaligned (dst + (size - ymmSz)) y1
    return dst

/-- The number of vectors left, from the sixteen bits kept of their size. -/
def remVecsAvx2 (remData : Nat) : Nat :=
  ((remData &&& 0x3E0) >>> 5 + if remData &&& 0x1F = 0 then 0 else 1) % 256

def remainderAvx2 (remVecs : Nat) : Kernel Unit :=
  if remVecs = 1 then loadStoreYmmVec (dst + (size - ymmSz)) (src + (size - ymmSz)) 0 1
  else if remVecs = 2 then do
    let _ ← loadStoreLe2YmmVec (dst + (size - 2 * ymmSz)) (src + (size - 2 * ymmSz)) (2 * ymmSz)
  else if remVecs = 3 ∨ remVecs = 4 then
    loadStoreLeYmmVec (dst + (size - 4 * ymmSz)) (src + (size - 4 * ymmSz)) (4 * ymmSz) 4
  else pure ()

def memcpyAvx2Cached (offset : Nat) : Kernel Nat := do
  let offset ← unalignedLoadAlignedStore4YmmVecLoopPftch dst src (size - 4 * ymmSz) offset
  remainderAvx2 dst src size (remVecsAvx2 ((size - offset) % 65536))
  return dst

def memcpyAvx2Loops (offset : Nat) : Kernel Nat :=
  if src % ymmSz = dst % ymmSz then
    if size < ntStartThreshold then alignedLoadAndStore4YmmVecLoop dst src (size - 4 * ymmSz) offset
    else alignedLoadNtStore4YmmVecLoop dst src (size - 4 * ymmSz) offset
  else
    if size < ntStartThreshold then
      unalignedLoadAlignedStore4YmmVecLoopPftch dst src (size - 4 * ymmSz) offset
    else unalignedLoadNtStore4YmmVecLoop dst src (size - 4 * ymmSz) offset

def memcpyAvx2Large (offset : Nat) : Kernel Nat := do
  let _ ← memcpyAvx2Loops ntStartThreshold dst src size offset
  loadStoreLeYmmVec (dst + (size - 4 * ymmSz)) (src + (size - 4 * ymmSz)) (4 * ymmSz) 4
  return dst

def memcpyAvx2 : Kernel Nat := do
  if size ≤ 4 * ymmSz then
    if size < ymmSz then memcpyAvx2LtYmm dst src size else memcpyAvx2Le4Ymm dst src size
  else if size ≤ 8 * ymmSz then
    loadStoreLeYmmVec dst src size 8
    return dst
  else
    let dstAlign := (4 * ymmSz - dst % ymmSz) % 256
    loadStoreYmmVec dst src 0 4
    if size ≤ l1dPerCore then memcpyAvx2Cached dst src size dstAlign
    else memcpyAvx2Large ntStartThreshold dst src size dstAlign

def mempcpyAvx2 : Kernel Nat := do
  let ret := dst + size
  let _ ← memcpyAvx2 l1dPerCore ntStartThreshold dst src size
  return ret

end Kernel

section Correct
variable {start : Memory} {l1dPerCore ntStartThreshold dst src size : Nat}

private theorem memcpyAvx2LtYmm_complete (buffers : Buffers start dst src size)
    (short : size < ymmSz) (apart : dst + size ≤ src ∨ src + size ≤ dst) :
    Triple (Progress start dst src ∅) (memcpyAvx2LtYmm dst src size)
      (Complete start dst src size) := by
  have scalar := headThenTailScalar_moves buffers apart
  simp only [ymmSz] at short
  unfold memcpyAvx2LtYmm
  simp only [wordSz, dwordSz, qwordSz, xmmSz]
  apply triple_ite
  · intro from16
    exact complete_of_triple (headTail_whole 0 buffers (by omega) (by omega) (by omega) intact_empty)
  intro below16
  apply triple_ite
  · intro from8
    exact complete_of_triple (scalar 8 (by omega) (by omega))
  intro below8
  apply triple_ite
  · intro from4
    exact complete_of_triple (scalar 4 (by omega) (by omega))
  intro below4
  apply triple_ite
  · intro from2
    exact complete_of_triple (scalar 2 (by omega) (by omega))
  · intro below2
    have byte : Triple (Progress start dst src ∅) (moveByte (dst + 0) (src + 0) size) _ :=
      moveByte_triple buffers (by omega) (by omega) intact_empty
    exact complete_of_triple byte

private theorem memcpyAvx2Le4Ymm_complete (buffers : Buffers start dst src size)
    (from32 : ymmSz ≤ size) (upTo128 : size ≤ 4 * ymmSz) :
    Triple (Progress start dst src ∅) (memcpyAvx2Le4Ymm dst src size)
      (Complete start dst src size) := by
  simp only [ymmSz] at from32 upTo128
  have load {k : Nat} (inside : k + 32 ≤ size) :
      Triple (Progress start dst src ∅) (vecLoad 32 .unaligned (src + k))
        fun v m => Holds start src k v ∧ Progress start dst src ∅ m :=
    vecLoad_triple buffers allows_unaligned inside intact_empty
  have store {done : Set Nat} {k : Nat} {v : Lanes 32} (inside : k + 32 ≤ size)
      (holds : Holds start src k v) :
      Triple (Progress start dst src done) (vecStore 32 .unaligned (dst + k) v)
        fun _ => Progress start dst src (done ∪ Set.Ico k (k + 32)) :=
    vecStore_triple buffers allows_unaligned inside holds
  refine (load (by omega)).bind fun y0 => triple_fact fun hold0 => ?_
  refine (load (by simp only [ymmSz]; omega)).bind fun y1 => triple_fact fun hold1 => ?_
  simp only [ymmSz] at hold1 ⊢
  apply triple_ite
  · intro upTo64
    refine (store (by omega) hold0).bind fun _ => ?_
    refine (store (by omega) hold1).bind fun _ => complete_return fun i => ?_
    simp only [Set.mem_union, Set.mem_Ico, Set.mem_empty_iff_false, false_or]
    omega
  · intro over64
    refine (load (by omega)).bind fun y2 => triple_fact fun hold2 => ?_
    refine (load (by omega)).bind fun y3 => triple_fact fun hold3 => ?_
    refine (store (by omega) hold0).bind fun _ => ?_
    refine (store (by omega) hold2).bind fun _ => ?_
    refine (store (by omega) hold3).bind fun _ => ?_
    refine (store (by omega) hold1).bind fun _ => complete_return fun i => ?_
    simp only [Set.mem_union, Set.mem_Ico, Set.mem_empty_iff_false, false_or]
    omega

private theorem remVecsAvx2_eq {remData : Nat} (short : remData < 1024) :
    remVecsAvx2 remData = remData / 32 + if remData % 32 = 0 then 0 else 1 := by
  have high : (remData &&& 0x3E0) >>> 5 = remData / 32 % 32 := shiftRight_field remData 5 5 rfl
  have low : remData &&& 0x1F = remData % 32 := Nat.and_two_pow_sub_one_eq_mod remData 5
  rw [remVecsAvx2, high, low]
  split <;> omega

/-- The switch moves a tail that begins where the loop has ended, or before. -/
private theorem remainderAvx2_triple (buffers : Buffers start dst src size)
    (large : 8 * ymmSz < size)
    (apart : dst + size ≤ src ∨ src + size ≤ dst) {done : Set Nat} (earlier : ∀ j ∈ done, j < size)
    {offset : Nat} (below : offset < size) (near : size ≤ offset + 128) :
    Triple (Progress start dst src done)
      (remainderAvx2 dst src size (remVecsAvx2 ((size - offset) % 65536)))
      fun _ m => ∃ low ≤ offset, Progress start dst src (done ∪ Set.Ico low size) m := by
  simp only [ymmSz] at large
  have rest : (size - offset) % 65536 = size - offset := by omega
  have covers : size - offset ≤ remVecsAvx2 (size - offset) * 32 ∧
      remVecsAvx2 (size - offset) * 32 < size - offset + 32 := by
    rw [remVecsAvx2_eq (by omega)]
    split <;> omega
  rw [rest]
  generalize remVecsAvx2 (size - offset) = remVecs at covers ⊢
  have headTail {count k : Nat} (room : k ≤ size) (half : count / 2 * 32 ≤ k)
      (whole : k ≤ count / 2 * 32 + count / 2 * 32) (enough : size ≤ offset + k) :
      Triple (Progress start dst src done)
        (vecLoadStoreHeadTail 32 .unaligned .unaligned count (dst + (size - k)) (src + (size - k)) k)
        fun _ m => ∃ low ≤ offset, Progress start dst src (done ∪ Set.Ico low size) m :=
    lastBytes_triple room enough
      (headTail_whole _ buffers half whole (by omega) (intact_last apart earlier room))
  unfold remainderAvx2
  simp only [ymmSz]
  apply triple_ite
  · intro one
    exact lastBytes_triple (k := 32) (by omega) (by omega) (vecLoadStore_triple (n := 32) _ buffers
      allows_unaligned allows_unaligned (by omega) (intact_last apart earlier (by omega)))
  intro not1
  apply triple_ite
  · intro two
    have last : Moves start dst src done (size - 64) 64
        (loadStoreLe2YmmVec (dst + (size - 64)) (src + (size - 64)) 64) :=
      loadStoreLe2YmmVec_moves buffers (by decide) (by omega)
        (intact_last apart earlier (by omega)) apart
    refine lastBytes_triple (k := 64) (by omega) (by omega) (last.bind fun _ => ?_)
    exact triple_pure fun _ moved => moved.2
  intro not2
  apply triple_ite
  · intro more
    exact headTail (by omega) (by decide) (by decide) (by omega)
  · intro none
    omega

private theorem memcpyAvx2Cached_complete (buffers : Buffers start dst src size)
    (range : size < sizeRange)
    (large : 8 * ymmSz < size) (apart : dst + size ≤ src ∨ src + size ≤ dst) :
    Triple (Progress start dst src (∅ ∪ Set.Ico (0 + 0) (0 + 0 + 4 * 32)))
      (memcpyAvx2Cached dst src size (128 - dst % 32)) (Complete start dst src size) := by
  simp only [ymmSz] at large
  refine (vecLoadStoreLoop_apart buffers (by decide) (by simp only [ymmSz]; omega) range
    allows_unaligned (allows_of_aligned (by simp only [ymmSz]; omega)) apart ?_).bind
    fun last => triple_fact fun stop => ?_
  · simp only [Set.mem_union, Set.mem_Ico, Set.mem_empty_iff_false, false_or]
    omega
  simp only [ymmSz] at stop
  refine (remainderAvx2_triple buffers large apart ?_ (by omega) (by omega)).bind fun _ =>
    triple_exists fun low => triple_fact fun reached => complete_return fun i => ?_
  · simp only [Set.mem_union, Set.mem_Ico, Set.mem_empty_iff_false, false_or]
    omega
  · simp only [Set.mem_union, Set.mem_Ico, Set.mem_empty_iff_false, false_or]
    omega

private theorem memcpyAvx2Large_complete (buffers : Buffers start dst src size)
    (range : size < sizeRange)
    (large : 8 * ymmSz < size) (apart : dst + size ≤ src ∨ src + size ≤ dst) :
    Triple (Progress start dst src (∅ ∪ Set.Ico (0 + 0) (0 + 0 + 4 * 32)))
      (memcpyAvx2Large ntStartThreshold dst src size (128 - dst % 32))
      (Complete start dst src size) := by
  simp only [ymmSz] at large
  have loop {loadType storeType : Access} (loads : loadType.Allows 32 (src + (128 - dst % 32))) :
      Ascends start dst src (∅ ∪ Set.Ico (0 + 0) (0 + 0 + 4 * 32)) (128 - dst % 32) (size - 128) (4 * 32)
        (vecLoadStoreLoop 32 loadType storeType 4 dst src (size - 128) (128 - dst % 32)) := by
    apply vecLoadStoreLoop_apart buffers (by decide) (by omega) range loads
      (allows_of_aligned (by omega)) apart
    simp only [Set.mem_union, Set.mem_Ico, Set.mem_empty_iff_false, false_or]
    omega
  have loops : Ascends start dst src (∅ ∪ Set.Ico (0 + 0) (0 + 0 + 4 * 32)) (128 - dst % 32)
      (size - 128) (4 * 32) (memcpyAvx2Loops ntStartThreshold dst src size (128 - dst % 32)) := by
    apply triple_ite
    · intro same
      have loads : Access.aligned.Allows 32 (src + (128 - dst % 32)) :=
        allows_of_aligned (by simp only [ymmSz] at same; omega)
      exact triple_ite (fun _ => loop loads) fun _ => loop loads
    · intro differ
      exact triple_ite (fun _ => loop allows_unaligned) fun _ => loop allows_unaligned
  refine loops.bind fun last => triple_fact fun stop => ?_
  simp only [ymmSz]
  refine (headTail_whole (n := 32) (size - 4 * 32) buffers (by decide) (by decide) (by omega)
    (intact_of_apart apart ?_ ?_)).bind fun _ => complete_return fun i => ?_
  · simp only [Set.mem_union, Set.mem_Ico, Set.mem_empty_iff_false, false_or]
    omega
  · simp only [Set.mem_Ico]
    omega
  · simp only [Set.mem_union, Set.mem_Ico, Set.mem_empty_iff_false, false_or]
    omega

theorem memcpyAvx2_complete (buffers : Buffers start dst src size) (range : size < sizeRange)
    (apart : dst + size ≤ src ∨ src + size ≤ dst) :
    Triple (Progress start dst src ∅) (memcpyAvx2 l1dPerCore ntStartThreshold dst src size)
      (Complete start dst src size) := by
  unfold memcpyAvx2
  apply triple_ite
  · intro upTo128
    apply triple_ite
    · intro below32
      exact memcpyAvx2LtYmm_complete buffers below32 apart
    · intro from32
      exact memcpyAvx2Le4Ymm_complete buffers (Nat.le_of_not_lt from32) upTo128
  intro over128
  apply triple_ite
  · intro upTo256
    simp only [ymmSz] at over128 upTo256
    exact complete_of_triple (headTail_whole (n := 32) 0 buffers (by omega) (by omega) (by omega)
      intact_empty)
  · intro over256
    have large : 8 * ymmSz < size := Nat.lt_of_not_le over256
    have align : (4 * ymmSz - dst % ymmSz) % 256 = 128 - dst % 32 := by
      simp only [ymmSz]
      omega
    dsimp only
    rw [align]
    simp only [ymmSz] at over256
    refine (vecLoadStore_triple (n := 32) 0 buffers allows_unaligned allows_unaligned
      (by omega : 0 + 0 + 4 * 32 ≤ size) intact_empty).bind fun _ => ?_
    exact triple_ite (fun _ => memcpyAvx2Cached_complete buffers range large apart)
      fun _ => memcpyAvx2Large_complete buffers range large apart

/-- Between disjoint buffers, for every L1d size and every threshold, both copy and return the
destination or its end. With rights to the two buffers and no others they still do: no load
leaves the source and no aligned or streaming access is misaligned. -/
theorem memcpyAvx2_copies (start : Memory) (l1dPerCore ntStartThreshold dst src size : Nat)
    (buffers : Buffers start dst src size) (range : size < sizeRange)
    (apart : dst + size ≤ src ∨ src + size ≤ dst) :
    ((∃ after, memcpyAvx2 l1dPerCore ntStartThreshold dst src size start = .ok (dst, after) ∧
        Copied start after dst src size) ∧
      LegalCopy (memcpyAvx2 l1dPerCore ntStartThreshold dst src size) dst dst src size) ∧
    (∃ after, mempcpyAvx2 l1dPerCore ntStartThreshold dst src size start = .ok (dst + size, after) ∧
        Copied start after dst src size) ∧
      LegalCopy (mempcpyAvx2 l1dPerCore ntStartThreshold dst src size) (dst + size) dst src size := by
  have complete (start : Memory) (buffers : Buffers start dst src size) :
      Triple (Progress start dst src ∅) (memcpyAvx2 l1dPerCore ntStartThreshold dst src size)
        (Complete start dst src size) :=
    memcpyAvx2_complete buffers range apart
  have legal : LegalCopy (memcpyAvx2 l1dPerCore ntStartThreshold dst src size) dst dst src size :=
    legalCopy_of_complete complete
  exact ⟨⟨runs_of_complete (complete start buffers), legal⟩,
    runs_of_returns (returns_of_complete (complete start buffers)), mempcpy_legal legal⟩

theorem memcpyAvx2_copies_pages :
    ∃ after, mempcpyAvx2 32768 4096 4096 8192 1000 (PagedMemory.full UInt8.ofNat).toMemory =
        .ok (5096, after) ∧ Copied (PagedMemory.full UInt8.ofNat).toMemory after 4096 8192 1000 :=
  (memcpyAvx2_copies _ 32768 4096 4096 8192 1000 ⟨fun _ _ => rfl, fun _ _ => rfl⟩
    (by rw [sizeRange_eq]; decide) (.inl (by decide))).2.1

end Correct

end AoclLibmem.Copy
