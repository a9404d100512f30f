import AoclLibmem.Copy.MemcpyZmm

/-! `_memcpy_zen4_impl`, in its memcpy and memmove builds. -/

namespace AoclLibmem.Copy

open Base Machine

section Kernel
variable (l2PerCore ntStartThreshold dst src size : Nat)

def remainderZen4 (dst src remData : Nat) : Kernel Unit := do
  if remData > 2 * zmmSz then loadStoreLeZmmVec dst src remData 4
  else if remData > zmmSz then loadStoreLeZmmVec dst src remData 2
  else if remData > 0 then
    let _ ← loadStoreBleZmmVec dst src remData

/-- The part without overlap: four vectors at each end, then what lies between them. -/
def memcpyZen4Apart : Kernel Nat := do
  let dstAlign := dst % zmmSz
  loadStoreLeZmmVec dst src size 8
  let offset := 4 * zmmSz - dstAlign
  if src % zmmSz = dstAlign then
    if size < l2PerCore then
      let _ ← alignedLoadAndStore8YmmVecLoop dst src (size - 4 * zmmSz) offset
      return dst
    else if size < ntStartThreshold then
      let _ ← alignedLoadAndStore4YmmVecLoopPftch dst src (size - 4 * zmmSz) offset
      return dst
    else
      let _ ← alignedLoadNtStore4ZmmVecLoopPftch dst src (size - 4 * zmmSz) offset
      return dst
  else
    if size < ntStartThreshold then
      let _ ← unalignedLoadAlignedStore4ZmmVecLoop dst src (size - 4 * zmmSz) offset
      return dst
    else
      let _ ← unalignedLoadNtStore4ZmmVecLoop dst src (size - 4 * zmmSz) offset
      return dst

def memcpyZen4Impl (build : Build) : Kernel Nat :=
  if size ≤ 8 * zmmSz then moveUpTo8Zmm build dst src size size
  else if build = .memmove ∧ Overlapping dst src size then
    if src < dst then saveLastBackward remainderZen4 dst src size
    else
      saveFirstForward remainderZen4 dst src size 4 alignedLoadAndStore4ZmmVecLoopPftch
        unalignedLoadAlignedStore4ZmmVecLoopPftch
  else memcpyZen4Apart l2PerCore ntStartThreshold dst src size

def memmoveZen4 : Kernel Nat := memcpyZen4Impl l2PerCore ntStartThreshold dst src size .memmove

def memcpyZen4 : Kernel Nat := memcpyZen4Impl l2PerCore ntStartThreshold dst src size .memcpy

def mempcpyZen4 : Kernel Nat := do
  let ret := dst + size
  let _ ← memcpyZen4Impl l2PerCore ntStartThreshold dst src size .memcpy
  return ret

end Kernel

section Correct
variable {start : Memory} {l2PerCore ntStartThreshold dst src size : Nat} {build : Build}

private theorem remainderZen4_moves (buffers : Buffers start dst src size) :
    RestMoves start dst src size (4 * zmmSz) remainderZen4 := by
  intro done base len positive limit inside intact
  simp only [zmmSz] at limit
  unfold remainderZen4
  simp only [zmmSz]
  refine triple_ite (fun over2 => ?_) fun upTo2 => triple_ite (fun over1 => ?_) fun upTo1 => ?_
  · exact headTail_whole (n := 64) base buffers (by omega) (by omega) inside intact
  · exact headTail_whole (n := 64) base buffers (by omega) (by omega) inside intact
  · rw [if_pos positive]
    refine (loadStoreBleZmmVec_moves buffers (by omega) inside intact).bind fun _ => ?_
    exact triple_pure fun _ moved => moved.2

private theorem memcpyZen4Apart_complete (buffers : Buffers start dst src size)
    (range : size < sizeRange)
    (large : 8 * zmmSz < size) (apart : dst + size ≤ src ∨ src + size ≤ dst) :
    Triple (Progress start dst src ∅) (memcpyZen4Apart l2PerCore ntStartThreshold dst src size)
      (Complete start dst src size) := by
  simp only [zmmSz] at large
  refine (vecLoadStoreHeadTail_triple 0 buffers (by omega : 8 / 2 * 64 ≤ size) (by omega)
    intact_empty).bind fun _ => ?_
  -- every loop starts at a multiple of its vector and ends in the last four
  have between {n count : Nat} {loadType storeType : Access} (some : 0 < count * n)
      (most : count * n ≤ 256) (loads : loadType.Allows n (src + (256 - dst % 64)))
      (stores : storeType.Allows n (dst + (256 - dst % 64))) :=
    between_complete count 256 buffers range apart some most (by omega) (by omega) loads stores
  have stores {n : Nat} {storeType : Access} (divides : n ∣ 64) :
      storeType.Allows n (dst + (256 - dst % 64)) :=
    allows_of_aligned (by
      have multiple : 64 ∣ dst + (256 - dst % 64) := by omega
      exact Nat.mod_eq_zero_of_dvd (divides.trans multiple))
  refine triple_ite (fun same => ?_) fun differ => ?_
  · simp only [zmmSz] at same
    have loads {n : Nat} (divides : n ∣ 64) : Access.aligned.Allows n (src + (256 - dst % 64)) :=
      allows_of_aligned (by
        have multiple : 64 ∣ src + (256 - dst % 64) := by omega
        exact Nat.mod_eq_zero_of_dvd (divides.trans multiple))
    refine triple_ite (fun _ => ?_) fun _ => triple_ite (fun _ => ?_) fun _ => ?_
    · exact between (by decide) (by decide) (loads (by decide)) (stores (by decide))
    · exact between (by decide) (by decide) (loads (by decide)) (stores (by decide))
    · exact between (by decide) (by decide) (loads (by decide)) (stores (by decide))
  · refine triple_ite (fun _ => ?_) fun _ => ?_
    · exact between (by decide) (by decide) allows_unaligned (stores (by decide))
    · exact between (by decide) (by decide) allows_unaligned (stores (by decide))

theorem memcpyZen4Impl_complete (buffers : Buffers start dst src size) (range : size < sizeRange)
    (admits : build = .memmove ∨ dst + size ≤ src ∨ src + size ≤ dst) :
    Triple (Progress start dst src ∅) (memcpyZen4Impl l2PerCore ntStartThreshold dst src size build)
      (Complete start dst src size) := by
  refine triple_ite (moveUpTo8Zmm_complete buffers) fun more => ?_
  have large : 8 * zmmSz < size := by omega
  refine triple_ite (fun overlap => triple_ite (fun up => ?_) fun down => ?_) fun clear => ?_
  · exact saveLastBackward_complete buffers range large up (remainderZen4_moves buffers)
  · simp only [zmmSz] at large
    exact saveFirstForward_complete buffers range (by decide) (by simp only [zmmSz]; omega)
      (Nat.le_of_not_lt down) (remainderZen4_moves buffers)
  · exact memcpyZen4Apart_complete buffers range large (apart_of_clear admits clear)

/-- For every threshold and L2 size: the memmove build copies whatever the overlap; for
disjoint buffers the memcpy build does too, and `__mempcpy_zen4` returns the end. -/
theorem memcpyZen4_copies (start : Memory) (l2PerCore ntStartThreshold dst src size : Nat)
    (buffers : Buffers start dst src size) (range : size < sizeRange) :
    (∃ after, memmoveZen4 l2PerCore ntStartThreshold dst src size start = .ok (dst, after) ∧
      Copied start after dst src size) ∧
    ((dst + size ≤ src ∨ src + size ≤ dst) →
      (∃ after, memcpyZen4 l2PerCore ntStartThreshold dst src size start = .ok (dst, after) ∧
        Copied start after dst src size) ∧
      ∃ after, mempcpyZen4 l2PerCore ntStartThreshold dst src size start = .ok (dst + size, after) ∧
        Copied start after dst src size) := by
  refine ⟨runs_of_complete (memcpyZen4Impl_complete buffers range (.inl rfl)), fun apart => ?_⟩
  have complete : Triple (Progress start dst src ∅) (memcpyZen4 l2PerCore ntStartThreshold dst src size)
      (Complete start dst src size) := memcpyZen4Impl_complete buffers range (.inr apart)
  exact ⟨runs_of_complete complete, runs_of_returns (returns_of_complete complete)⟩

theorem memcpyZen4_copies_pages :
    (∃ after, memmoveZen4 4096 8192 4096 8192 1000 (PagedMemory.full UInt8.ofNat).toMemory =
        .ok (4096, after) ∧ Copied (PagedMemory.full UInt8.ofNat).toMemory after 4096 8192 1000) ∧
      ∃ after, mempcpyZen4 4096 8192 4096 8192 1000 (PagedMemory.full UInt8.ofNat).toMemory =
        .ok (5096, after) ∧ Copied (PagedMemory.full UInt8.ofNat).toMemory after 4096 8192 1000 := by
  have copies := memcpyZen4_copies (PagedMemory.full UInt8.ofNat).toMemory 4096 8192 4096 8192 1000
    ⟨fun _ _ => rfl, fun _ _ => rfl⟩ (by rw [sizeRange_eq]; decide)
  exact ⟨copies.1, (copies.2 (.inl (by decide))).2⟩

end Correct

end AoclLibmem.Copy
