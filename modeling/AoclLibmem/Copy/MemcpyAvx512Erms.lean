import AoclLibmem.Copy.MemcpyZmm
import AoclLibmem.Copy.StringMoves

/-! `_memcpy_avx512_erms`, in its memcpy and memmove builds. -/

namespace AoclLibmem.Copy

open Base Machine

/-- `COMPUTE_ALIGNED_VEC_MOV_TH`. -/
def alignedVecMovThreshold (l1dBytes : Nat) : Nat := l1dBytes / 2 + 2048

/-- The vectors that `remData` bytes fill or begin, as a `uint8_t`. -/
def remVecs (remData : Nat) : Nat :=
  (remData / zmmSz + if remData % zmmSz = 0 then 0 else 1) % 256

section Kernel
variable (l1dPerCore ntStartThreshold dst src size : Nat)

def remainderUpTo4 (dst src remData : Nat) : Kernel Unit := do
  let vecs := remVecs remData
  if vecs = 4 ∨ vecs = 3 then loadStoreLeZmmVec dst src remData 4
  else if vecs = 2 then loadStoreLeZmmVec dst src remData 2
  else if vecs = 1 then
    let _ ← loadStoreBleZmmVec dst src remData

def remainderUpTo8 (dst src remData : Nat) : Kernel Unit := do
  let vecs := remVecs remData
  if vecs = 8 ∨ vecs = 7 ∨ vecs = 6 ∨ vecs = 5 then loadStoreLeZmmVec dst src remData 8
  else remainderUpTo4 dst src remData

/-- The upward loops keep sixteen bits of what is left. -/
def forwardRemainder (remainder : Nat → Nat → Nat → Kernel Unit) (dst src len : Nat) : Kernel Unit :=
  remainder dst src (len % 65536)

/-- The last vectors after the temporal loop, by how many are left. -/
def lastVecs (vecs : Nat) : Kernel Unit :=
  if vecs = 4 then loadStoreZmmVec dst src (size - 4 * zmmSz) 4
  else if vecs = 3 then loadStoreZmmVec dst src (size - 3 * zmmSz) 3
  else if vecs = 2 then loadStoreZmmVec dst src (size - 2 * zmmSz) 2
  else if vecs = 1 then loadStoreZmmVec dst src (size - zmmSz) 1
  else pure ()

def memcpyErmsTemporal : Kernel Nat := do
  loadStoreZmmVec dst src 0 4
  let offset := 4 * zmmSz - dst % zmmSz
  let offset ← unalignedLoadAlignedStore4ZmmVecLoopPftch dst src (size - 4 * zmmSz) offset
  lastVecs dst src size (remVecs ((size - offset) % 65536))
  return dst

def memcpyErmsStream : Kernel Nat := do
  loadStoreZmmVec dst src 0 8
  let offset := 8 * zmmSz - dst % zmmSz
  let _ ← unalignedLoadNtStore8ZmmVecLoopPftch dst src (size - 8 * zmmSz) offset
  loadStoreLeZmmVec (dst + (size - 8 * zmmSz)) (src + (size - 8 * zmmSz)) (8 * zmmSz) 8
  return dst

def memmoveErmsForward : Kernel Nat :=
  if size ≤ 26 * 1024 then
    saveFirstForward (forwardRemainder remainderUpTo4) dst src size 4
      alignedLoadAndStore4ZmmVecLoopPftch unalignedLoadAlignedStore4ZmmVecLoopPftch
  else
    saveFirstForward (forwardRemainder remainderUpTo8) dst src size 8
      alignedLoadAndStore8ZmmVecLoopPftch unalignedLoadAlignedStore8ZmmVecLoopPftch

def memcpyAvx512Erms (build : Build) : Kernel Nat := do
  if size ≤ 8 * zmmSz then moveUpTo8Zmm build dst src size (size % 65536)
  else if build = .memmove ∧ Overlapping dst src size then
    if src < dst then saveLastBackward remainderUpTo4 dst src size
    else memmoveErmsForward dst src size
  else if size < alignedVecMovThreshold l1dPerCore then memcpyErmsTemporal dst src size
  else if size < ntStartThreshold then
    let _ ← ermsMovs .b dst src size
    return dst
  else memcpyErmsStream dst src size

end Kernel

section Correct
variable {start : Memory} {l1dPerCore ntStartThreshold dst src size : Nat} {build : Build}

theorem remVecs_eq (remData : Nat) (short : remData ≤ 512) :
    remData ≤ remVecs remData * 64 ∧ remVecs remData * 64 < remData + 64 := by
  unfold remVecs
  simp only [zmmSz]
  split <;> omega

theorem remainderUpTo4_moves (buffers : Buffers start dst src size) :
    RestMoves start dst src size (4 * zmmSz) remainderUpTo4 := by
  intro done base len positive limit inside intact
  simp only [zmmSz] at limit
  have vecs := remVecs_eq len (by omega)
  unfold remainderUpTo4
  generalize remVecs len = count at vecs ⊢
  refine triple_ite (fun four => ?_) fun less => triple_ite (fun two => ?_) fun less => ?_
  · exact headTail_whole (n := 64) base buffers (by omega) (by omega) inside intact
  · exact headTail_whole (n := 64) base buffers (by omega) (by omega) inside intact
  · rw [if_pos (by omega)]
    refine (loadStoreBleZmmVec_moves buffers (by omega) inside intact).bind fun _ => ?_
    exact triple_pure fun _ moved => moved.2

private theorem remainderUpTo8_moves (buffers : Buffers start dst src size) :
    RestMoves start dst src size (8 * zmmSz) remainderUpTo8 := by
  intro done base len positive limit inside intact
  simp only [zmmSz] at limit
  have vecs := remVecs_eq len (by omega)
  refine triple_ite (fun eight => ?_) fun less => ?_
  · exact headTail_whole (n := 64) base buffers (by omega) (by omega) inside intact
  · exact remainderUpTo4_moves buffers done base len positive (by simp only [zmmSz]; omega) inside
      intact

private theorem forwardRemainder_moves {limit : Nat} {remainder : Nat → Nat → Nat → Kernel Unit}
    (small : limit < 65536) (moves : RestMoves start dst src size limit remainder) :
    RestMoves start dst src size limit (forwardRemainder remainder) := by
  intro done base len positive short inside intact
  rw [forwardRemainder, Nat.mod_eq_of_lt (Nat.lt_of_le_of_lt short small)]
  exact moves done base len positive short inside intact

private theorem memmoveErmsForward_complete (buffers : Buffers start dst src size)
    (range : size < sizeRange) (large : 8 * zmmSz < size) (down : dst ≤ src) :
    Triple (Progress start dst src ∅) (memmoveErmsForward dst src size)
      (Complete start dst src size) := by
  simp only [zmmSz] at large
  refine triple_ite (fun upTo26K => ?_) fun over26K => ?_
  · exact saveFirstForward_complete buffers range (by decide) (by simp only [zmmSz]; omega) down
      (forwardRemainder_moves (by decide) (remainderUpTo4_moves buffers))
  · exact saveFirstForward_complete buffers range (by decide) (by simp only [zmmSz]; omega) down
      (forwardRemainder_moves (by decide) (remainderUpTo8_moves buffers))

private theorem lastVecs_triple (buffers : Buffers start dst src size) (large : 8 * zmmSz < size)
    (apart : dst + size ≤ src ∨ src + size ≤ dst) {done : Set Nat} (earlier : ∀ j ∈ done, j < size)
    {offset : Nat} (below : offset < size) (near : size ≤ offset + 256) :
    Triple (Progress start dst src done)
      (lastVecs dst src size (remVecs ((size - offset) % 65536)))
      fun _ m => ∃ low ≤ offset, Progress start dst src (done ∪ Set.Ico low size) m := by
  simp only [zmmSz] at large
  have rest : (size - offset) % 65536 = size - offset := by omega
  have vecs := remVecs_eq (size - offset) (by omega)
  rw [rest]
  generalize remVecs (size - offset) = count at vecs ⊢
  have last {k : Nat} (some : 0 < k) (same : count = k) :
      Triple (Progress start dst src done) (loadStoreZmmVec dst src (size - k * zmmSz) k)
        fun _ m => ∃ low ≤ offset, Progress start dst src (done ∪ Set.Ico low size) m := by
    simp only [zmmSz]
    have moves : Triple _ (loadStoreZmmVec dst src (size - k * 64) k) _ :=
      vecLoadStore_triple (n := 64) 0 buffers allows_unaligned allows_unaligned (by omega)
        (by rw [Nat.zero_add]; exact intact_last apart earlier (by omega))
    rw [Nat.zero_add] at moves
    exact lastBytes_triple (by omega) (by omega) moves
  refine triple_ite (last (by decide)) fun not4 => triple_ite (last (by decide)) fun not3 =>
    triple_ite (last (by decide)) fun not2 => triple_ite (fun one => ?_) fun not1 => ?_
  · exact last (by decide) one
  · omega

private theorem memcpyErmsTemporal_complete (buffers : Buffers start dst src size)
    (range : size < sizeRange)
    (large : 8 * zmmSz < size) (apart : dst + size ≤ src ∨ src + size ≤ dst) :
    Triple (Progress start dst src ∅) (memcpyErmsTemporal dst src size)
      (Complete start dst src size) := by
  simp only [zmmSz] at large
  refine (vecLoadStore_triple (n := 64) 0 buffers allows_unaligned allows_unaligned
    (by omega : 0 + 0 + 4 * 64 ≤ size) intact_empty).bind fun _ => ?_
  refine (vecLoadStoreLoop_apart buffers (by decide) (by simp only [zmmSz]; omega) range
    allows_unaligned (allows_of_aligned (by simp only [zmmSz]; omega)) apart ?_).bind
    fun last => triple_fact fun stop => ?_
  · simp only [Set.mem_union, Set.mem_Ico, Set.mem_empty_iff_false, false_or]
    omega
  simp only [zmmSz] at stop
  refine (lastVecs_triple buffers large apart ?_ (by omega) (by omega)).bind fun _ =>
    triple_exists fun low => triple_fact fun reached => complete_return fun i => ?_
  · simp only [Set.mem_union, Set.mem_Ico, Set.mem_empty_iff_false, false_or, zmmSz]
    omega
  · simp only [Set.mem_union, Set.mem_Ico, Set.mem_empty_iff_false, false_or, zmmSz]
    omega

private theorem memcpyErmsStream_complete (buffers : Buffers start dst src size)
    (range : size < sizeRange)
    (large : 8 * zmmSz < size) (apart : dst + size ≤ src ∨ src + size ≤ dst) :
    Triple (Progress start dst src ∅) (memcpyErmsStream dst src size)
      (Complete start dst src size) := by
  simp only [zmmSz] at large
  refine (vecLoadStore_triple (n := 64) 0 buffers allows_unaligned allows_unaligned
    (by omega : 0 + 0 + 8 * 64 ≤ size) intact_empty).bind fun _ => ?_
  refine (vecLoadStoreLoop_apart buffers (by decide) (by simp only [zmmSz]; omega) range
    allows_unaligned (allows_of_aligned (by simp only [zmmSz]; omega)) apart ?_).bind
    fun last => triple_fact fun stop => ?_
  · simp only [Set.mem_union, Set.mem_Ico, Set.mem_empty_iff_false, false_or]
    omega
  simp only [zmmSz] at stop
  refine (headTail_whole (n := 64) (size - 8 * zmmSz) buffers (by decide) (by decide)
    (by simp only [zmmSz]; omega) (intact_of_apart apart ?_ ?_)).bind fun _ =>
    complete_return fun i => ?_
  · simp only [Set.mem_union, Set.mem_Ico, Set.mem_empty_iff_false, false_or, zmmSz]
    omega
  · simp only [Set.mem_Ico, zmmSz]
    omega
  · simp only [Set.mem_union, Set.mem_Ico, Set.mem_empty_iff_false, false_or, zmmSz]
    omega

private theorem ermsMovsb_complete (buffers : Buffers start dst src size)
    (apart : dst + size ≤ src ∨ src + size ≤ dst) :
    Triple (Progress start dst src ∅) (do let _ ← ermsMovs .b dst src size; return dst)
      (Complete start dst src size) := by
  have clear : dst ≤ src ∨ src + size ≤ dst := by omega
  exact (ermsMovs_triple buffers (StringUnit.covers_b size) clear).bind fun _ =>
    triple_pure fun _ done => ⟨⟨rfl, done.1.2⟩, done.2⟩

theorem memcpyAvx512Erms_complete (buffers : Buffers start dst src size) (range : size < sizeRange)
    (admits : build = .memmove ∨ dst + size ≤ src ∨ src + size ≤ dst) :
    Triple (Progress start dst src ∅) (memcpyAvx512Erms l1dPerCore ntStartThreshold dst src size build)
      (Complete start dst src size) := by
  refine triple_ite (fun short => ?_) fun more => ?_
  · have whole : size % 65536 = size := by
      simp only [zmmSz] at short
      omega
    rw [whole]
    exact moveUpTo8Zmm_complete buffers short
  have large : 8 * zmmSz < size := Nat.lt_of_not_le more
  refine triple_ite (fun overlap => triple_ite (fun up => ?_) fun down => ?_) fun clear => ?_
  · exact saveLastBackward_complete buffers range large up (remainderUpTo4_moves buffers)
  · exact memmoveErmsForward_complete buffers range large (Nat.le_of_not_lt down)
  have apart := apart_of_clear admits clear
  refine triple_ite (fun _ => ?_) fun _ => triple_ite (fun _ => ?_) fun _ => ?_
  · exact memcpyErmsTemporal_complete buffers range large apart
  · exact ermsMovsb_complete buffers apart
  · exact memcpyErmsStream_complete buffers range large apart

theorem memmoveAvx512Erms_copies (start : Memory) (l1dPerCore ntStartThreshold dst src size : Nat)
    (buffers : Buffers start dst src size) (range : size < sizeRange) :
    ∃ after, memcpyAvx512Erms l1dPerCore ntStartThreshold dst src size .memmove start =
        .ok (dst, after) ∧
      Copied start after dst src size :=
  runs_of_complete (memcpyAvx512Erms_complete buffers range (.inl rfl))

theorem memmoveAvx512Erms_copies_overlapping :
    ∃ after, memcpyAvx512Erms 32768 4096 64 100 1000 .memmove (PagedMemory.full UInt8.ofNat).toMemory =
        .ok (64, after) ∧
      Copied (PagedMemory.full UInt8.ofNat).toMemory after 64 100 1000 :=
  memmoveAvx512Erms_copies _ 32768 4096 64 100 1000 ⟨fun _ _ => rfl, fun _ _ => rfl⟩
    (by rw [sizeRange_eq]; decide)

end Correct

end AoclLibmem.Copy
