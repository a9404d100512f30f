import AoclLibmem.Copy.MemcpyZmm

/-! `_memcpy_avx512`, in its memcpy and memmove builds. -/

namespace AoclLibmem.Copy

open Base Machine

section Kernel
variable (l2PerCore ntStartThreshold dst src size : Nat)

/-- `__load_store_le_4zmm_vec` from an offset on. With less than two vectors behind the offset
the tail starts below it, so both ends are counted from the start of the buffers. -/
def loadStoreLe4ZmmVecFrom (offset len : Nat) : Kernel Unit :=
  loadStore zmmSz .unaligned .unaligned dst src
    (upwards zmmSz 2 offset ++ upwards zmmSz 2 (offset + len - 2 * zmmSz))

def memcpyAvx512Small (build : Build) : Kernel Nat :=
  match build with
  | .memmove => moveUpTo8Zmm .memmove dst src size (size % 65536)
  | .memcpy =>
    if size ≤ 2 * zmmSz then moveUpTo2Zmm .memcpy dst src size
    else do
      loadStoreLeZmmVec dst src (size % 65536) 4
      if size ≤ 4 * zmmSz then return dst
      else
        loadStoreLe4ZmmVecFrom dst src (2 * zmmSz) (size % 65536 - 4 * zmmSz)
        return dst

/-- The loop of the backward move; the aligned one cannot reach the last part of a vector. -/
def memcpyAvx512Bkwd : Kernel Unit :=
  if dst % zmmSz = 0 ∧ src % zmmSz = 0 then do
    let z8 ← vecLoad zmmSz .unaligned (src + (size - zmmSz))
    let _ ← alignedLoadAndStore4ZmmVecLoopBkwd dst src (size - size % zmmSz) (3 * zmmSz)
    vecStore zmmSz .unaligned (dst + (size - zmmSz)) z8
  else do
    let _ ← unalignedLoadAndStore4ZmmVecLoopBkwd dst src size (4 * zmmSz)
    return ()

/-- Downwards, with the first four vectors saved. -/
def memcpyAvx512Backward : Kernel Nat := do
  let saved ← loadAll zmmSz .unaligned src (downwards zmmSz 4 (4 * zmmSz))
  memcpyAvx512Bkwd dst src size
  storeAll zmmSz .unaligned dst (downwards zmmSz 4 (4 * zmmSz)) saved
  return dst

def memcpyAvx512Forward : Kernel Nat := do
  let saved ← loadAll zmmSz .unaligned src (upwards zmmSz 4 (size - 4 * zmmSz))
  let _ ← (if dst % zmmSz = 0 ∧ src % zmmSz = 0 then
    alignedLoadAndStore4ZmmVecLoop dst src (size - 4 * zmmSz) 0
    else unalignedLoadAndStore4ZmmVecLoop dst src (size - 4 * zmmSz) 0)
  storeAll zmmSz .unaligned dst (upwards zmmSz 4 (size - 4 * zmmSz)) saved
  return dst

/-- The loops between the first eight vectors and the last eight: the final offset. -/
def memcpyAvx512Loops (offset : Nat) : Kernel Nat :=
  if src % zmmSz = dst % zmmSz then
    if size < l2PerCore then alignedLoadAndStore4ZmmVecLoop dst src (size - 8 * zmmSz) offset
    else if size < ntStartThreshold then
      alignedLoadAndStore4ZmmVecLoopPftch dst src (size - 8 * zmmSz) offset
    else alignedLoadNtStore8ZmmVecLoopPftch dst src (size - 8 * zmmSz) offset
  else
    if size < ntStartThreshold then
      unalignedLoadAlignedStore4ZmmVecLoop dst src (size - 8 * zmmSz) offset
    else unalignedLoadNtStore4ZmmVecLoopPftch dst src (size - 8 * zmmSz) offset

/-- The number of vectors left, from the sixteen bits kept of their size. -/
def remVecsAvx512 (remData : Nat) : Nat :=
  ((remData &&& 0x3C0) >>> 6 + if remData &&& 0x3F = 0 then 0 else 1) % 256

def remainderAvx512 (remVecs : Nat) : Kernel Unit :=
  if remVecs > 4 then
    loadStoreLeZmmVec (dst + (size - 8 * zmmSz)) (src + (size - 8 * zmmSz)) (8 * zmmSz) 8
  else if remVecs > 2 then
    loadStoreLeZmmVec (dst + (size - 4 * zmmSz)) (src + (size - 4 * zmmSz)) (4 * zmmSz) 4
  else if remVecs = 2 then
    loadStoreLeZmmVec (dst + (size - 2 * zmmSz)) (src + (size - 2 * zmmSz)) (2 * zmmSz) 2
  else loadStoreZmmVec (dst + (size - zmmSz)) (src + (size - zmmSz)) 0 1

def memcpyAvx512Apart : Kernel Nat := do
  loadStoreLeZmmVec dst src (8 * zmmSz) 8
  let offset ← (if size > 16 * zmmSz then
    memcpyAvx512Loops l2PerCore ntStartThreshold dst src size (8 * zmmSz - dst % zmmSz)
    else pure (8 * zmmSz))
  remainderAvx512 dst src size (remVecsAvx512 ((size - offset) % 65536))
  return dst

def memcpyAvx512 (build : Build) : Kernel Nat :=
  if size ≤ 8 * zmmSz then memcpyAvx512Small dst src size build
  else if build = .memmove ∧ Overlapping dst src size then
    if src < dst then memcpyAvx512Backward dst src size else memcpyAvx512Forward dst src size
  else memcpyAvx512Apart l2PerCore ntStartThreshold dst src size

end Kernel

section Correct
variable {start : Memory} {l2PerCore ntStartThreshold dst src size : Nat} {build : Build}

private theorem remVecsAvx512_eq {remData : Nat} (short : remData < 1024) :
    remVecsAvx512 remData = remData / 64 + if remData % 64 = 0 then 0 else 1 := by
  have high : (remData &&& 0x3C0) >>> 6 = remData / 64 % 16 := shiftRight_field remData 6 4 rfl
  have low : remData &&& 0x3F = remData % 64 := Nat.and_two_pow_sub_one_eq_mod remData 6
  rw [remVecsAvx512, high, low]
  split <;> omega

private theorem loadStoreLe4ZmmVecFrom_triple (buffers : Buffers start dst src size)
    {done : Set Nat}
    {offset len : Nat} (room : 128 ≤ offset + len) (inside : offset + 128 ≤ size ∧ offset + len ≤ size)
    (apart : dst + size ≤ src ∨ src + size ≤ dst) (earlier : ∀ j ∈ done, j < size) :
    Triple (Progress start dst src done) (loadStoreLe4ZmmVecFrom dst src offset len)
      fun _ => Progress start dst src (done ∪ (Set.Ico offset (offset + 128) ∪
        Set.Ico (offset + len - 128) (offset + len))) := by
  have region : Spans 64 0 (upwards 64 2 offset ++ upwards 64 2 (offset + len - 128)) =
      Set.Ico offset (offset + 128) ∪ Set.Ico (offset + len - 128) (offset + len) := by
    rw [spans_append, spans_upwards, spans_upwards, Nat.zero_add, Nat.zero_add,
      Nat.sub_add_cancel room]
  have within : ∀ k ∈ upwards 64 2 offset ++ upwards 64 2 (offset + len - 128), 0 + k + 64 ≤ size := by
    intro k member
    rcases List.mem_append.mp member with head | tail
    · have fits := upwards_fits head
      omega
    · have fits := upwards_fits tail
      omega
  rw [← region]
  refine loadStore_triple 0 buffers (fun _ _ => allows_unaligned) (fun _ _ => allows_unaligned)
    within (intact_of_apart apart earlier ?_)
  rintro i ⟨k, member, _, high⟩
  exact Nat.lt_of_lt_of_le high (within k member)

private theorem memcpyAvx512Small_complete (buffers : Buffers start dst src size)
    (short : size ≤ 8 * zmmSz) (admits : build = .memmove ∨ dst + size ≤ src ∨ src + size ≤ dst) :
    Triple (Progress start dst src ∅) (memcpyAvx512Small dst src size build)
      (Complete start dst src size) := by
  have whole : size % 65536 = size := by
    simp only [zmmSz] at short
    omega
  unfold memcpyAvx512Small
  rw [whole]
  cases build with
  | memmove => exact moveUpTo8Zmm_complete buffers short
  | memcpy =>
    have apart := admits.resolve_left Build.noConfusion
    refine triple_ite (fun upTo2 => moveUpTo2Zmm_complete buffers upTo2) fun over2 => ?_
    simp only [zmmSz] at short over2
    refine (vecLoadStoreHeadTail_triple 0 buffers (by omega : 4 / 2 * 64 ≤ size) (by omega)
      intact_empty).bind fun _ => triple_ite (fun upTo4 => ?_) fun over4 => ?_
    · simp only [zmmSz] at upTo4
      refine complete_return fun i => ?_
      simp only [Set.mem_union, Set.mem_Ico, Set.mem_empty_iff_false, false_or]
      omega
    · simp only [zmmSz] at over4
      refine (loadStoreLe4ZmmVecFrom_triple buffers (by simp only [zmmSz]; omega)
        (by simp only [zmmSz]; omega) apart ?_).bind fun _ => complete_return fun i => ?_
      · simp only [Set.mem_union, Set.mem_Ico, Set.mem_empty_iff_false, false_or]
        omega
      · simp only [Set.mem_union, Set.mem_Ico, Set.mem_empty_iff_false, false_or, zmmSz]
        omega

private theorem memcpyAvx512Bkwd_triple (buffers : Buffers start dst src size)
    (range : size < sizeRange) (large : 8 * zmmSz < size) (up : src < dst) :
    Triple (Progress start dst src ∅) (memcpyAvx512Bkwd dst src size)
      fun _ m => ∃ low ≤ 256, Progress start dst src (Set.Ico low size) m := by
  simp only [zmmSz] at large
  refine triple_ite (fun both => ?_) fun _ => ?_
  · simp only [zmmSz] at both
    refine (vecLoad_triple buffers allows_unaligned (by omega : size - 64 + 64 ≤ size)
      intact_empty).bind fun z8 => triple_fact fun holds => ?_
    refine (vecLoadStoreLoopBkwd_backward buffers (by decide) (Nat.sub_le size _) range ?_
      (allows_of_aligned ?_) (allows_of_aligned ?_) (Nat.le_of_lt up) fun j none => none.elim).bind
      fun last => triple_fact fun stop => ?_
    · simp only [zmmSz]
      omega
    · simp only [zmmSz]
      omega
    · simp only [zmmSz]
      omega
    simp only [zmmSz] at stop
    refine (vecStore_triple buffers allows_unaligned (by omega : size - 64 + 64 ≤ size) holds).imp
      fun _ m progress => ⟨last, by omega, progress.congr fun i => ?_⟩
    simp only [Set.mem_union, Set.mem_Ico, Set.mem_empty_iff_false, false_or, zmmSz]
    omega
  · refine (vecLoadStoreLoopBkwd_backward buffers (by decide) (Nat.le_refl size) range
      (fun s more _ => Nat.le_of_lt more) allows_unaligned allows_unaligned (Nat.le_of_lt up)
      fun j none => none.elim).bind fun last => triple_fact fun stop => ?_
    simp only [zmmSz] at stop
    exact triple_pure fun m progress => ⟨last, stop.2.1, progress.congr fun i => by simp⟩

private theorem memcpyAvx512Backward_complete (buffers : Buffers start dst src size)
    (range : size < sizeRange) (large : 8 * zmmSz < size) (up : src < dst) :
    Triple (Progress start dst src ∅) (memcpyAvx512Backward dst src size)
      (Complete start dst src size) := by
  have loop := memcpyAvx512Bkwd_triple buffers range large up
  simp only [zmmSz] at large
  refine savedFirst_complete 64 4 buffers (by omega) allows_unaligned allows_unaligned ?_
  refine loop.imp fun _ m => ?_
  rintro ⟨low, reached, progress⟩
  refine ⟨_, fun i => ?_, progress⟩
  simp only [Set.mem_union, Set.mem_Ico]
  omega

private theorem memcpyAvx512Forward_complete (buffers : Buffers start dst src size)
    (range : size < sizeRange) (large : 8 * zmmSz < size) (down : dst ≤ src) :
    Triple (Progress start dst src ∅) (memcpyAvx512Forward dst src size)
      (Complete start dst src size) := by
  simp only [zmmSz] at large
  have loop {type : Access} (loads : type.Allows 64 (src + 0)) (stores : type.Allows 64 (dst + 0)) :
      Ascends start dst src ∅ 0 (size - 256) (4 * 64)
        (vecLoadStoreLoop 64 type type 4 dst src (size - 256) 0) :=
    vecLoadStoreLoop_forward buffers (by decide) (by omega) range loads stores down
      fun j none => none.elim
  refine savedLast_complete 64 4 buffers (by omega) ?_
  refine (triple_ite (fun both => loop (allows_of_aligned both.2) (allows_of_aligned both.1))
    fun _ => loop allows_unaligned allows_unaligned).imp
    fun last m reached => ⟨_, fun i => ?_, reached.2⟩
  have stop := reached.1
  simp only [Set.mem_union, Set.mem_Ico, Set.mem_empty_iff_false, false_or]
  omega

private theorem memcpyAvx512Loops_ascend (buffers : Buffers start dst src size)
    (range : size < sizeRange)
    (large : 16 * zmmSz < size) (apart : dst + size ≤ src ∨ src + size ≤ dst) {done : Set Nat}
    (earlier : ∀ j ∈ done, j < size) :
    Ascends start dst src done (512 - dst % 64) (size - 512) 512
      (memcpyAvx512Loops l2PerCore ntStartThreshold dst src size (512 - dst % 64)) := by
  simp only [zmmSz] at large
  have loop {count : Nat} {loadType storeType : Access} (some : 0 < count * 64)
      (most : count * 64 ≤ 512) (loads : loadType.Allows 64 (src + (512 - dst % 64)))
      (stores : storeType.Allows 64 (dst + (512 - dst % 64))) :
      Ascends start dst src done (512 - dst % 64) (size - 512) 512
        (vecLoadStoreLoop 64 loadType storeType count dst src (size - 512) (512 - dst % 64)) := by
    refine (vecLoadStoreLoop_apart buffers some (by omega) range loads stores apart earlier).imp
      fun last m reached => ⟨?_, reached.2⟩
    have stop := reached.1
    omega
  have stores {type : Access} : type.Allows 64 (dst + (512 - dst % 64)) :=
    allows_of_aligned (by omega)
  refine triple_ite (fun same => ?_) fun _ => ?_
  · have loads : Access.aligned.Allows 64 (src + (512 - dst % 64)) :=
      allows_of_aligned (by simp only [zmmSz] at same; omega)
    refine triple_ite (fun _ => ?_) fun _ => triple_ite (fun _ => ?_) fun _ => ?_
    · exact loop (by decide) (by decide) loads stores
    · exact loop (by decide) (by decide) loads stores
    · exact loop (by decide) (by decide) loads stores
  · refine triple_ite (fun _ => ?_) fun _ => ?_
    · exact loop (by decide) (by decide) allows_unaligned stores
    · exact loop (by decide) (by decide) allows_unaligned stores

/-- The ladder moves a tail that begins where the loops have ended, or before. -/
private theorem remainderAvx512_triple (buffers : Buffers start dst src size)
    (large : 8 * zmmSz < size)
    (apart : dst + size ≤ src ∨ src + size ≤ dst) {done : Set Nat} (earlier : ∀ j ∈ done, j < size)
    {offset : Nat} (below : offset < size) (near : size ≤ offset + 512) :
    Triple (Progress start dst src done)
      (remainderAvx512 dst src size (remVecsAvx512 ((size - offset) % 65536)))
      fun _ m => ∃ low ≤ offset, Progress start dst src (done ∪ Set.Ico low size) m := by
  simp only [zmmSz] at large
  have rest : (size - offset) % 65536 = size - offset := by omega
  have covers : size - offset ≤ remVecsAvx512 (size - offset) * 64 := by
    rw [remVecsAvx512_eq (by omega)]
    split <;> omega
  rw [rest]
  generalize remVecsAvx512 (size - offset) = remVecs at covers ⊢
  have intact {k : Nat} (room : k ≤ size) : Intact dst src done (Set.Ico (size - k) (size - k + k)) :=
    intact_last apart earlier room
  unfold remainderAvx512
  simp only [zmmSz]
  refine triple_ite (fun over4 => ?_) fun upTo4 => triple_ite (fun over2 => ?_) fun upTo2 => ?_
  · exact lastBytes_triple (k := 512) (by omega) (by omega) (headTail_whole (n := 64) _ buffers
      (by decide) (by decide) (by omega) (intact (by omega)))
  · exact lastBytes_triple (k := 256) (by omega) (by omega) (headTail_whole (n := 64) _ buffers
      (by decide) (by decide) (by omega) (intact (by omega)))
  refine triple_ite (fun two => ?_) fun one => ?_
  · exact lastBytes_triple (k := 128) (by omega) (by omega) (headTail_whole (n := 64) _ buffers
      (by decide) (by decide) (by omega) (intact (by omega)))
  · exact lastBytes_triple (k := 64) (by omega) (by omega) (vecLoadStore_triple (n := 64) _ buffers
      allows_unaligned allows_unaligned (by omega) (intact (by omega)))

private theorem memcpyAvx512Apart_complete (buffers : Buffers start dst src size)
    (range : size < sizeRange)
    (large : 8 * zmmSz < size) (apart : dst + size ≤ src ∨ src + size ≤ dst) :
    Triple (Progress start dst src ∅) (memcpyAvx512Apart l2PerCore ntStartThreshold dst src size)
      (Complete start dst src size) := by
  have first : Triple (Progress start dst src ∅) (loadStoreLeZmmVec dst src (8 * zmmSz) 8)
      fun _ => Progress start dst src (∅ ∪ Set.Ico 0 (0 + 512)) :=
    headTail_whole (n := 64) 0 buffers (by decide) (by decide)
      (by simp only [zmmSz] at large ⊢; omega) intact_empty
  -- what is done is `[0, 512)` and what the loops add to it, up to their last offset
  have between : Triple (Progress start dst src (∅ ∪ Set.Ico 0 (0 + 512)))
      (if size > 16 * zmmSz then
        memcpyAvx512Loops l2PerCore ntStartThreshold dst src size (8 * zmmSz - dst % zmmSz)
        else pure (8 * zmmSz))
      fun last m => (last < size ∧ size ≤ last + 512) ∧
        Progress start dst src (Set.Ico 0 (max 512 last)) m := by
    refine triple_ite (fun more => ?_) fun less => triple_pure fun m progress => ?_
    · refine (memcpyAvx512Loops_ascend buffers range more apart ?_).imp fun last m reached => ?_
      · simp only [Set.mem_union, Set.mem_Ico, Set.mem_empty_iff_false, false_or, zmmSz] at large ⊢
        omega
      · have stop := reached.1
        simp only [zmmSz] at large more
        refine ⟨by omega, reached.2.congr fun i => ?_⟩
        simp only [Set.mem_union, Set.mem_Ico, Set.mem_empty_iff_false, false_or]
        omega
    · simp only [zmmSz] at large less ⊢
      refine ⟨by omega, progress.congr fun i => ?_⟩
      simp only [Set.mem_union, Set.mem_Ico, Set.mem_empty_iff_false, false_or]
      omega
  refine first.bind fun _ => between.bind fun last => triple_fact fun stop => ?_
  simp only [zmmSz] at large
  refine (remainderAvx512_triple buffers large apart ?_ stop.1 stop.2).bind fun _ =>
    triple_exists fun low => triple_fact fun reached => complete_return fun i => ?_
  · rintro j ⟨_, high⟩
    omega
  · simp only [Set.mem_union, Set.mem_Ico]
    omega

theorem memcpyAvx512_complete (buffers : Buffers start dst src size) (range : size < sizeRange)
    (admits : build = .memmove ∨ dst + size ≤ src ∨ src + size ≤ dst) :
    Triple (Progress start dst src ∅) (memcpyAvx512 l2PerCore ntStartThreshold dst src size build)
      (Complete start dst src size) := by
  refine triple_ite (fun short => memcpyAvx512Small_complete buffers short admits) fun more => ?_
  have large : 8 * zmmSz < size := Nat.lt_of_not_le more
  refine triple_ite (fun overlap => triple_ite (fun up => ?_) fun down => ?_) fun clear => ?_
  · exact memcpyAvx512Backward_complete buffers range large up
  · exact memcpyAvx512Forward_complete buffers range large (Nat.le_of_not_lt down)
  · exact memcpyAvx512Apart_complete buffers range large (apart_of_clear admits clear)

theorem memmoveAvx512_copies (start : Memory) (l2PerCore ntStartThreshold dst src size : Nat)
    (buffers : Buffers start dst src size) (range : size < sizeRange) :
    ∃ after, memcpyAvx512 l2PerCore ntStartThreshold dst src size .memmove start = .ok (dst, after) ∧
      Copied start after dst src size :=
  runs_of_complete (memcpyAvx512_complete buffers range (.inl rfl))

theorem memmoveAvx512_copies_overlapping :
    ∃ after, memcpyAvx512 65536 4096 128 64 1000 .memmove (PagedMemory.full UInt8.ofNat).toMemory =
        .ok (128, after) ∧
      Copied (PagedMemory.full UInt8.ofNat).toMemory after 128 64 1000 :=
  memmoveAvx512_copies _ 65536 4096 128 64 1000 ⟨fun _ _ => rfl, fun _ _ => rfl⟩
    (by rw [sizeRange_eq]; decide)

end Correct

end AoclLibmem.Copy
