import AoclLibmem.Copy.LoadStoreSpec

/-! `_memmove_avx2`. -/

namespace AoclLibmem.Copy

open Base Machine

section Kernel
variable (ntStartThreshold dst src size : Nat)

def memmoveAvx2Apart : Kernel Nat := do
  let dstAlign := dst % ymmSz
  loadStoreLeYmmVec dst src size 8
  let offset := 4 * ymmSz - dstAlign
  if src % ymmSz = dstAlign then
    if size < ntStartThreshold then
      let _ ← alignedLoadAndStore4YmmVecLoop dst src (size - 4 * ymmSz) offset
      return dst
    else
      let _ ← alignedLoadNtStore4YmmVecLoopPftch dst src (size - 4 * ymmSz) offset
      return dst
  else
    if size < ntStartThreshold then
      let _ ← unalignedLoadAndStore4YmmVecLoop dst src (size - 4 * ymmSz) offset
      return dst
    else
      let _ ← unalignedLoadNtStore4YmmVecLoop dst src (size - 4 * ymmSz) offset
      return dst

/-- The destination starts inside the source: downwards, with the first four vectors saved. -/
def memmoveAvx2Backward : Kernel Nat := do
  let saved ← loadAll ymmSz .unaligned src (downwards ymmSz 4 (4 * ymmSz))
  let _ ← unalignedLoadAndStore4YmmVecLoopBkwd dst src size (4 * ymmSz)
  storeAll ymmSz .unaligned dst (downwards ymmSz 4 (4 * ymmSz)) saved
  return dst

def memmoveAvx2Forward : Kernel Nat := do
  let saved ← loadAll ymmSz .unaligned src (upwards ymmSz 4 (size - 4 * ymmSz))
  let _ ← unalignedLoadAndStore4YmmVecLoop dst src (size - 4 * ymmSz) 0
  storeAll ymmSz .unaligned dst (upwards ymmSz 4 (size - 4 * ymmSz)) saved
  return dst

def memmoveAvx2 : Kernel Nat := do
  if size ≤ 2 * ymmSz then loadStoreLe2YmmVecOverlap dst src size
  else if size ≤ 4 * ymmSz then
    loadStoreLeYmmVec dst src size 4
    return dst
  else if size ≤ 8 * ymmSz then
    loadStoreLeYmmVec dst src size 8
    return dst
  else if dst + size < src ∨ src + size < dst then memmoveAvx2Apart ntStartThreshold dst src size
  else if dst < src + size ∧ src < dst then memmoveAvx2Backward dst src size
  else memmoveAvx2Forward dst src size

end Kernel

section Correct
variable {start : Memory} {ntStartThreshold dst src size : Nat}

private theorem memmoveAvx2Backward_complete (buffers : Buffers start dst src size)
    (range : size < sizeRange) (large : 8 * ymmSz < size) (up : src < dst) :
    Triple (Progress start dst src ∅) (memmoveAvx2Backward dst src size)
      (Complete start dst src size) := by
  simp only [ymmSz] at large
  refine savedFirst_complete 32 4 buffers (by omega) allows_unaligned allows_unaligned ?_
  refine (vecLoadStoreLoopBkwd_backward buffers (by decide) (Nat.le_refl size) range
    (fun s more _ => Nat.le_of_lt more) allows_unaligned allows_unaligned (Nat.le_of_lt up)
    fun j none => none.elim).imp fun last m reached => ⟨_, fun i => ?_, reached.2⟩
  have stop := reached.1
  simp only [Set.mem_union, Set.mem_Ico, Set.mem_empty_iff_false, false_or, ymmSz] at stop ⊢
  omega

private theorem memmoveAvx2Forward_complete (buffers : Buffers start dst src size)
    (range : size < sizeRange) (large : 8 * ymmSz < size) (clear : dst ≤ src ∨ src + size ≤ dst) :
    Triple (Progress start dst src ∅) (memmoveAvx2Forward dst src size)
      (Complete start dst src size) := by
  simp only [ymmSz] at large
  refine savedLast_complete 32 4 buffers (by omega) ?_
  have loop : Ascends start dst src ∅ 0 (size - 128) (4 * 32)
      (unalignedLoadAndStore4YmmVecLoop dst src (size - 4 * ymmSz) 0) :=
    vecLoadStoreLoop_clear buffers (by decide) (by omega) range allows_unaligned allows_unaligned clear
  refine loop.imp fun last m reached => ⟨_, fun i => ?_, reached.2⟩
  have stop := reached.1
  simp only [Set.mem_union, Set.mem_Ico, Set.mem_empty_iff_false, false_or]
  omega

private theorem memmoveAvx2Apart_complete (buffers : Buffers start dst src size)
    (range : size < sizeRange)
    (large : 8 * ymmSz < size) (apart : dst + size ≤ src ∨ src + size ≤ dst) :
    Triple (Progress start dst src ∅) (memmoveAvx2Apart ntStartThreshold dst src size)
      (Complete start dst src size) := by
  simp only [ymmSz] at large
  refine (vecLoadStoreHeadTail_triple 0 buffers (by omega : 8 / 2 * 32 ≤ size) (by omega)
    intact_empty).bind fun _ => ?_
  -- the loop starts at a multiple of the vector and ends in the last four
  have between {loadType storeType : Access} (loads : loadType.Allows 32 (src + (128 - dst % 32)))
      (stores : storeType.Allows 32 (dst + (128 - dst % 32))) :=
    between_complete 4 128 buffers range apart (by decide) (by decide) (by omega) (by omega) loads
      stores
  have store {storeType : Access} : storeType.Allows 32 (dst + (128 - dst % 32)) :=
    allows_of_aligned (by omega)
  refine triple_ite (fun same => ?_) fun differ => ?_
  · have load : Access.aligned.Allows 32 (src + (128 - dst % 32)) :=
      allows_of_aligned (by simp only [ymmSz] at same; omega)
    exact triple_ite (fun _ => between load store) fun _ => between load store
  · exact triple_ite (fun _ => between allows_unaligned store) fun _ => between allows_unaligned store

theorem memmoveAvx2_complete (buffers : Buffers start dst src size) (range : size < sizeRange) :
    Triple (Progress start dst src ∅) (memmoveAvx2 ntStartThreshold dst src size)
      (Complete start dst src size) := by
  refine triple_ite (fun upTo2 => ?_) fun over2 => triple_ite (fun upTo4 => ?_) fun over4 => ?_
  · exact Moves.complete (loadStoreLe2YmmVecOverlap_moves buffers upTo2 (by omega) intact_empty)
  · simp only [ymmSz] at over2 upTo4
    exact complete_of_triple (headTail_whole (n := 32) 0 buffers (by omega) (by omega) (by omega)
      intact_empty)
  refine triple_ite (fun upTo8 => ?_) fun over8 => ?_
  · simp only [ymmSz] at over4 upTo8
    exact complete_of_triple (headTail_whole (n := 32) 0 buffers (by omega) (by omega) (by omega)
      intact_empty)
  have large : 8 * ymmSz < size := by omega
  refine triple_ite (fun apart => ?_) fun close => triple_ite (fun up => ?_) fun forward => ?_
  · exact memmoveAvx2Apart_complete buffers range large (by omega)
  · exact memmoveAvx2Backward_complete buffers range large up.2
  · exact memmoveAvx2Forward_complete buffers range large (by omega)

/-- For every overlap and every threshold the bytes are moved. It is enough to have the rights
to the two buffers: no load leaves the source, and no aligned or streaming access, which
would stop the run too, is misaligned. -/
theorem memmoveAvx2_copies (start : Memory) (ntStartThreshold dst src size : Nat)
    (buffers : Buffers start dst src size) (range : size < sizeRange) :
    (∃ after, memmoveAvx2 ntStartThreshold dst src size start = .ok (dst, after) ∧
      Copied start after dst src size) ∧
    ∃ after, memmoveAvx2 ntStartThreshold dst src size (confined start dst src size) =
      .ok (dst, after) := by
  refine ⟨runs_of_complete (memmoveAvx2_complete buffers range), ?_⟩
  have complete : Triple _ (memmoveAvx2 ntStartThreshold dst src size) _ :=
    memmoveAvx2_complete (confined_buffers start dst src size) range
  obtain ⟨after, returned, _⟩ := runs_of_complete complete
  exact ⟨after, returned⟩

theorem memmoveAvx2_copies_overlapping :
    ∃ after, memmoveAvx2 4096 132 100 300 (PagedMemory.full UInt8.ofNat).toMemory = .ok (132, after) ∧
      Copied (PagedMemory.full UInt8.ofNat).toMemory after 132 100 300 :=
  (memmoveAvx2_copies _ 4096 132 100 300 ⟨fun _ _ => rfl, fun _ _ => rfl⟩
    (by rw [sizeRange_eq]; decide)).1

end Correct

end AoclLibmem.Copy
