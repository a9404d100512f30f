import AoclLibmem.Copy.TunableMemcpy

/-! `tunable/avx2/memmove_avx2.c` and `tunable/avx512/memmove_avx512.c`: seven variants, which
save what the loop of their direction would overwrite or leave out. -/

namespace AoclLibmem.Copy

open Base Machine

section Kernel
variable (isa : VecIsa) (dst src size : Nat)

def saveFirst4 {α : Type} (move : Kernel α) : Kernel Nat := do
  let saved ← loadAll isa.vecSz .unaligned src (downwards isa.vecSz 4 (4 * isa.vecSz))
  let _ ← move
  storeAll isa.vecSz .unaligned dst (downwards isa.vecSz 4 (4 * isa.vecSz)) saved
  return dst

def saveFirst4Aligned {α : Type} (move : Kernel α) : Kernel Nat := do
  let saved ← loadAll isa.vecSz .aligned src (downwards isa.vecSz 4 (4 * isa.vecSz))
  let _ ← move
  storeAll isa.vecSz .aligned dst (downwards isa.vecSz 4 (4 * isa.vecSz)) saved
  return dst

def saveLast4 {α : Type} (move : Kernel α) : Kernel Nat := do
  let saved ← loadAll isa.vecSz .unaligned src (upwards isa.vecSz 4 (size - 4 * isa.vecSz))
  let _ ← move
  storeAll isa.vecSz .unaligned dst (upwards isa.vecSz 4 (size - 4 * isa.vecSz)) saved
  return dst

/-- `__unaligned_load_aligned_store_4ymm_vec_loop_bkwd` from the last boundary of the
destination down, with the last vector saved. -/
def lastVecBackward : Kernel Unit := do
  let offset := (dst + size) % isa.vecSz
  let y8 ← vecLoad isa.vecSz .unaligned (src + (size - isa.vecSz))
  let _ ← vecLoadStoreLoopBkwd isa.vecSz .unaligned .aligned 4 dst src (size - offset) (4 * isa.vecSz)
  vecStore isa.vecSz .unaligned (dst + (size - isa.vecSz)) y8

/-- The other loops down from a boundary, which is `offset` bytes before the end; the last vector
is saved. -/
def lastVecBackwardAs (loadType storeType : Access) (offset : Nat) : Kernel Unit := do
  let y8 ← vecLoad isa.vecSz .unaligned (src + (size - isa.vecSz))
  let _ ← vecLoadStoreLoopBkwd isa.vecSz loadType storeType 4 dst src (size - offset) (4 * isa.vecSz)
  vecStore isa.vecSz .unaligned (dst + (size - isa.vecSz)) y8

/-- The loops with aligned or streaming stores from the first boundary of the destination
up, with the first vector saved. -/
def firstVecForward (storeType : Access) : Kernel Unit := do
  let offset := isa.offset dst
  let y8 ← vecLoad isa.vecSz .unaligned src
  let _ ← vecLoadStoreLoop isa.vecSz .unaligned storeType 4 dst src (size - 4 * isa.vecSz) offset
  vecStore isa.vecSz .unaligned dst y8

/-- The other loops up from a boundary at `offset`, with the first vector saved. -/
def firstVecForwardAs (loadType storeType : Access) (offset : Nat) : Kernel Unit := do
  let y8 ← vecLoad isa.vecSz .unaligned src
  let _ ← vecLoadStoreLoop isa.vecSz loadType storeType 4 dst src (size - 4 * isa.vecSz) offset
  vecStore isa.vecSz .unaligned dst y8

/-- `__memmove_avx2_unaligned`, `__memmove_avx512_unaligned`. -/
def memmoveUnaligned : Kernel Nat :=
  if size ≤ 8 * isa.vecSz then memmoveBle8Vec isa dst src size
  else if dst < src + size ∧ src < dst then
    saveFirst4 isa dst src
      (vecLoadStoreLoopBkwd isa.vecSz .unaligned .unaligned 4 dst src size (4 * isa.vecSz))
  else
    saveLast4 isa dst src size
      (vecLoadStoreLoop isa.vecSz .unaligned .unaligned 4 dst src (size - 4 * isa.vecSz) 0)

/-- `__memmove_avx2_aligned`, `__memmove_avx512_aligned`. -/
def memmoveAligned : Kernel Nat :=
  if size ≤ 8 * isa.vecSz then memmoveBle8Vec isa dst src size
  else if dst < src + size ∧ src < dst then
    saveFirst4Aligned isa dst src
      (lastVecBackwardAs isa dst src size .aligned .aligned (size % isa.vecSz))
  else
    saveLast4 isa dst src size
      (vecLoadStoreLoop isa.vecSz .aligned .aligned 4 dst src (size - 4 * isa.vecSz) 0)

/-- `__memmove_avx2_aligned_load`, `__memmove_avx512_aligned_load`. -/
def memmoveAlignedLoad : Kernel Nat :=
  if size ≤ 8 * isa.vecSz then memmoveBle8Vec isa dst src size
  else if dst < src + size ∧ src < dst then
    saveFirst4 isa dst src
      (lastVecBackwardAs isa dst src size .aligned .unaligned ((src + size) % isa.vecSz))
  else
    saveLast4 isa dst src size
      (firstVecForwardAs isa dst src size .aligned .unaligned (isa.offset src))

/-- `__memmove_avx2_aligned_store`, `__memmove_avx512_aligned_store`. -/
def memmoveAlignedStore : Kernel Nat :=
  if size ≤ 8 * isa.vecSz then memmoveBle8Vec isa dst src size
  else if dst < src + size ∧ src < dst then saveFirst4 isa dst src (lastVecBackward isa dst src size)
  else saveLast4 isa dst src size (firstVecForward isa dst src size .aligned)

/-- `__memmove_avx2_nt`, `__memmove_avx512_nt`: no streaming between buffers that overlap or
touch. -/
def memmoveNt : Kernel Nat :=
  if size ≤ 8 * isa.vecSz then memmoveBle8Vec isa dst src size
  else if ¬ (src + size < dst ∨ dst + size < src) then memmoveAligned isa dst src size
  else
    saveLast4 isa dst src size
      (vecLoadStoreLoop isa.vecSz .stream .stream 4 dst src (size - 4 * isa.vecSz) 0)

/-- `__memmove_avx2_nt_load`, `__memmove_avx512_nt_load`. -/
def memmoveNtLoad : Kernel Nat :=
  if size ≤ 8 * isa.vecSz then memmoveBle8Vec isa dst src size
  else if ¬ (src + size < dst ∨ dst + size < src) then memmoveAlignedLoad isa dst src size
  else
    saveLast4 isa dst src size
      (firstVecForwardAs isa dst src size .stream .unaligned (isa.offset src))

/-- `__memmove_avx2_nt_store`, `__memmove_avx512_nt_store`. -/
def memmoveNtStore : Kernel Nat :=
  if size ≤ 8 * isa.vecSz then memmoveBle8Vec isa dst src size
  else if ¬ (src + size < dst ∨ dst + size < src) then memmoveAlignedStore isa dst src size
  else saveLast4 isa dst src size (firstVecForward isa dst src size .stream)

end Kernel

section Variants

def memmoveAvx2Unaligned := memmoveUnaligned .avx2
def memmoveAvx2Aligned := memmoveAligned .avx2
def memmoveAvx2AlignedLoad := memmoveAlignedLoad .avx2
def memmoveAvx2AlignedStore := memmoveAlignedStore .avx2
def memmoveAvx2Nt := memmoveNt .avx2
def memmoveAvx2NtLoad := memmoveNtLoad .avx2
def memmoveAvx2NtStore := memmoveNtStore .avx2

def memmoveAvx512Unaligned := memmoveUnaligned .avx512
def memmoveAvx512Aligned := memmoveAligned .avx512
def memmoveAvx512AlignedLoad := memmoveAlignedLoad .avx512
def memmoveAvx512AlignedStore := memmoveAlignedStore .avx512
def memmoveAvx512Nt := memmoveNt .avx512
def memmoveAvx512NtLoad := memmoveNtLoad .avx512
def memmoveAvx512NtStore := memmoveNtStore .avx512

def memmoveVariant : VecIsa → Variant → Nat → Nat → Nat → Kernel Nat
  | .avx2, .unaligned => memmoveAvx2Unaligned
  | .avx2, .aligned => memmoveAvx2Aligned
  | .avx2, .alignedLoad => memmoveAvx2AlignedLoad
  | .avx2, .alignedStore => memmoveAvx2AlignedStore
  | .avx2, .nt => memmoveAvx2Nt
  | .avx2, .ntLoad => memmoveAvx2NtLoad
  | .avx2, .ntStore => memmoveAvx2NtStore
  | .avx512, .unaligned => memmoveAvx512Unaligned
  | .avx512, .aligned => memmoveAvx512Aligned
  | .avx512, .alignedLoad => memmoveAvx512AlignedLoad
  | .avx512, .alignedStore => memmoveAvx512AlignedStore
  | .avx512, .nt => memmoveAvx512Nt
  | .avx512, .ntLoad => memmoveAvx512NtLoad
  | .avx512, .ntStore => memmoveAvx512NtStore

end Variants

section Correct
variable {start : Memory} {isa : VecIsa} {dst src size : Nat}

/-- A move that, with the saved vectors, leaves no index out. -/
def MovesBut (start : Memory) (dst src size : Nat) (saved : Set Nat) {α : Type} (move : Kernel α) :
    Prop :=
  Triple (Progress start dst src ∅) move fun _ m =>
    ∃ done, (∀ i, i ∈ done ∪ saved ↔ i < size) ∧ Progress start dst src done m

theorem saveFirst4_complete (buffers : Buffers start dst src size) (large : 8 * isa.vecSz < size)
    {α : Type} {move : Kernel α}
    (moves : MovesBut start dst src size (Set.Ico 0 (4 * isa.vecSz)) move) :
    Triple (Progress start dst src ∅) (saveFirst4 isa dst src move) (Complete start dst src size) :=
  savedFirst_complete isa.vecSz 4 buffers (by omega) allows_unaligned allows_unaligned moves

private theorem saveFirst4Aligned_complete (buffers : Buffers start dst src size)
    (large : 8 * isa.vecSz < size) (source : src % isa.vecSz = 0) (target : dst % isa.vecSz = 0)
    {α : Type} {move : Kernel α}
    (moves : MovesBut start dst src size (Set.Ico 0 (4 * isa.vecSz)) move) :
    Triple (Progress start dst src ∅) (saveFirst4Aligned isa dst src move)
      (Complete start dst src size) :=
  savedFirst_complete isa.vecSz 4 buffers (by omega) (allows_of_aligned source)
    (allows_of_aligned target) moves

theorem saveLast4_complete (buffers : Buffers start dst src size) (large : 8 * isa.vecSz < size)
    {α : Type} {move : Kernel α}
    (moves : MovesBut start dst src size (Set.Ico (size - 4 * isa.vecSz) size) move) :
    Triple (Progress start dst src ∅) (saveLast4 isa dst src size move)
      (Complete start dst src size) :=
  savedLast_complete isa.vecSz 4 buffers (by omega) moves

private theorem unalignedBackward_moves (buffers : Buffers start dst src size)
    (range : size < sizeRange) (large : 8 * isa.vecSz < size) (up : src < dst) :
    MovesBut start dst src size (Set.Ico 0 (4 * isa.vecSz))
      (vecLoadStoreLoopBkwd isa.vecSz .unaligned .unaligned 4 dst src size (4 * isa.vecSz)) := by
  have vector := isa.vecSz_pos
  refine (vecLoadStoreLoopBkwd_backward buffers (by omega) (Nat.le_refl size) range
    (fun s more _ => Nat.le_of_lt more) allows_unaligned allows_unaligned (Nat.le_of_lt up)
    fun j none => none.elim).imp fun last m reached => ⟨_, fun i => ?_, reached.2⟩
  have stop := reached.1
  simp only [Set.mem_union, Set.mem_Ico, Set.mem_empty_iff_false, false_or]
  omega

private theorem forwardLoop_ascends (buffers : Buffers start dst src size)
    (range : size < sizeRange)
    (large : 8 * isa.vecSz < size) (clear : dst ≤ src ∨ src + size ≤ dst) {loadType storeType : Access}
    {offset : Nat} (loads : loadType.Allows isa.vecSz (src + offset))
    (stores : storeType.Allows isa.vecSz (dst + offset)) :
    Ascends start dst src ∅ offset (size - 4 * isa.vecSz) (4 * isa.vecSz)
      (vecLoadStoreLoop isa.vecSz loadType storeType 4 dst src (size - 4 * isa.vecSz) offset) := by
  have vector := isa.vecSz_pos
  exact vecLoadStoreLoop_clear buffers (by omega) (by omega) range loads stores clear

theorem forwardLoop_moves (buffers : Buffers start dst src size) (range : size < sizeRange)
    (large : 8 * isa.vecSz < size) (clear : dst ≤ src ∨ src + size ≤ dst) {loadType storeType : Access}
    (loads : loadType.Allows isa.vecSz src) (stores : storeType.Allows isa.vecSz dst) :
    MovesBut start dst src size (Set.Ico (size - 4 * isa.vecSz) size)
      (vecLoadStoreLoop isa.vecSz loadType storeType 4 dst src (size - 4 * isa.vecSz) 0) := by
  refine (forwardLoop_ascends buffers range large clear loads stores).imp
    fun last m reached => ⟨_, fun i => ?_, reached.2⟩
  have stop := reached.1
  simp only [Set.mem_union, Set.mem_Ico, Set.mem_empty_iff_false, false_or]
  omega

theorem sub_rest_mod {addr size n rest : Nat} (same : rest = (addr + size) % n) (fits : rest ≤ size) :
    (addr + (size - rest)) % n = 0 := by
  rw [← Nat.add_sub_assoc fits, same]
  exact Nat.mod_eq_zero_of_dvd (Nat.dvd_sub_mod _)

theorem lastVecBackwardAs_moves (buffers : Buffers start dst src size) (range : size < sizeRange)
    (large : 8 * isa.vecSz < size) (up : src < dst) {loadType storeType : Access} {offset : Nat}
    (near : offset < isa.vecSz) (loads : loadType.Allows isa.vecSz (src + (size - offset)))
    (stores : storeType.Allows isa.vecSz (dst + (size - offset))) :
    MovesBut start dst src size (Set.Ico 0 (4 * isa.vecSz))
      (lastVecBackwardAs isa dst src size loadType storeType offset) := by
  have vector := isa.vecSz_pos
  refine (vecLoad_triple (k := size - isa.vecSz) buffers allows_unaligned (by omega)
    intact_empty).bind fun y8 => triple_fact fun holds => ?_
  refine (vecLoadStoreLoopBkwd_backward buffers (by omega) (Nat.sub_le _ _) range
    (fun s more _ => Nat.le_of_lt more) loads stores (Nat.le_of_lt up)
    fun j none => none.elim).bind fun last => triple_fact fun stop => ?_
  refine (vecStore_triple buffers allows_unaligned (by omega) holds).imp fun _ m progress =>
    ⟨_, fun i => ?_, progress⟩
  simp only [Set.mem_union, Set.mem_Ico, Set.mem_empty_iff_false, false_or]
  omega

private theorem lastVecBackward_moves (buffers : Buffers start dst src size)
    (range : size < sizeRange) (large : 8 * isa.vecSz < size) (up : src < dst) :
    MovesBut start dst src size (Set.Ico 0 (4 * isa.vecSz)) (lastVecBackward isa dst src size) := by
  have near := Nat.mod_lt (dst + size) isa.vecSz_pos
  exact lastVecBackwardAs_moves buffers range large up near allows_unaligned
    (allows_of_aligned (sub_rest_mod rfl (by omega)))

theorem firstVecForwardAs_moves (buffers : Buffers start dst src size) (range : size < sizeRange)
    (large : 8 * isa.vecSz < size) (clear : dst ≤ src ∨ src + size ≤ dst) {loadType storeType : Access}
    {offset : Nat} (near : offset ≤ isa.vecSz) (loads : loadType.Allows isa.vecSz (src + offset))
    (stores : storeType.Allows isa.vecSz (dst + offset)) :
    MovesBut start dst src size (Set.Ico (size - 4 * isa.vecSz) size)
      (firstVecForwardAs isa dst src size loadType storeType offset) := by
  refine (vecLoad_triple (k := 0) buffers allows_unaligned (by omega) intact_empty).bind
    fun y8 => triple_fact fun holds => ?_
  refine (forwardLoop_ascends buffers range large clear loads stores).bind
    fun last => triple_fact fun stop => ?_
  refine (vecStore_triple (k := 0) buffers allows_unaligned (by omega) holds).imp fun _ m progress =>
    ⟨_, fun i => ?_, progress⟩
  simp only [Set.mem_union, Set.mem_Ico, Set.mem_empty_iff_false, false_or]
  omega

private theorem firstVecForward_moves (buffers : Buffers start dst src size)
    (range : size < sizeRange)
    (large : 8 * isa.vecSz < size) (clear : dst ≤ src ∨ src + size ≤ dst) {storeType : Access} :
    MovesBut start dst src size (Set.Ico (size - 4 * isa.vecSz) size)
      (firstVecForward isa dst src size storeType) :=
  firstVecForwardAs_moves buffers range large clear VecIsa.offset_le allows_unaligned
    VecIsa.offset_allows

/-- The text up to the loops: small sizes, and the direction of the copy. -/
theorem byDirection_complete (buffers : Buffers start dst src size) {backward forward : Kernel Nat}
    (down : 8 * isa.vecSz < size → src < dst →
      Triple (Progress start dst src ∅) backward (Complete start dst src size))
    (up : 8 * isa.vecSz < size → (dst ≤ src ∨ src + size ≤ dst) →
      Triple (Progress start dst src ∅) forward (Complete start dst src size)) :
    Triple (Progress start dst src ∅)
      (if size ≤ 8 * isa.vecSz then memmoveBle8Vec isa dst src size
        else if dst < src + size ∧ src < dst then backward else forward)
      (Complete start dst src size) := by
  refine triple_ite (memmoveBle8Vec_complete buffers) fun more => ?_
  have large := Nat.lt_of_not_le more
  refine triple_ite (fun above => ?_) fun clear => ?_
  · exact down large above.2
  · exact up large (by omega)

/-- The text of the streaming variants: they leave buffers that overlap or touch to another. -/
theorem ifApart_complete (buffers : Buffers start dst src size) {other streaming : Kernel Nat}
    (near : Triple (Progress start dst src ∅) other (Complete start dst src size))
    (up : 8 * isa.vecSz < size → (dst ≤ src ∨ src + size ≤ dst) →
      Triple (Progress start dst src ∅) streaming (Complete start dst src size)) :
    Triple (Progress start dst src ∅)
      (if size ≤ 8 * isa.vecSz then memmoveBle8Vec isa dst src size
        else if ¬ (src + size < dst ∨ dst + size < src) then other else streaming)
      (Complete start dst src size) := by
  refine triple_ite (memmoveBle8Vec_complete buffers) fun more => ?_
  have large := Nat.lt_of_not_le more
  refine triple_ite (fun _ => near) fun apart => ?_
  exact up large (by omega)

theorem memmoveUnaligned_complete (buffers : Buffers start dst src size) (range : size < sizeRange) :
    Triple (Progress start dst src ∅) (memmoveUnaligned isa dst src size)
      (Complete start dst src size) := by
  refine byDirection_complete buffers (fun large up => ?_) fun large clear => ?_
  · exact saveFirst4_complete buffers large (unalignedBackward_moves buffers range large up)
  · exact saveLast4_complete buffers large
      (forwardLoop_moves buffers range large clear allows_unaligned allows_unaligned)

private theorem memmoveAligned_complete (buffers : Buffers start dst src size)
    (range : size < sizeRange) (source : src % isa.vecSz = 0) (target : dst % isa.vecSz = 0) :
    Triple (Progress start dst src ∅) (memmoveAligned isa dst src size)
      (Complete start dst src size) := by
  have near := Nat.mod_lt size isa.vecSz_pos
  -- the end of whole vectors is a boundary of both buffers
  have boundary {addr : Nat} (line : addr % isa.vecSz = 0) :
      Access.aligned.Allows isa.vecSz (addr + (size - size % isa.vecSz)) := by
    refine allows_of_aligned (sub_rest_mod ?_ (Nat.mod_le _ _))
    rw [Nat.add_mod, line, Nat.zero_add, Nat.mod_mod]
  refine byDirection_complete buffers (fun large up => ?_) fun large clear => ?_
  · exact saveFirst4Aligned_complete buffers large source target
      (lastVecBackwardAs_moves buffers range large up near (boundary source) (boundary target))
  · exact saveLast4_complete buffers large (forwardLoop_moves buffers range large clear
      (allows_of_aligned source) (allows_of_aligned target))

private theorem memmoveAlignedLoad_complete (buffers : Buffers start dst src size)
    (range : size < sizeRange) :
    Triple (Progress start dst src ∅) (memmoveAlignedLoad isa dst src size)
      (Complete start dst src size) := by
  have near := Nat.mod_lt (src + size) isa.vecSz_pos
  refine byDirection_complete buffers (fun large up => ?_) fun large clear => ?_
  · exact saveFirst4_complete buffers large (lastVecBackwardAs_moves buffers range large up near
      (allows_of_aligned (sub_rest_mod rfl (by omega))) allows_unaligned)
  · exact saveLast4_complete buffers large (firstVecForwardAs_moves buffers range large clear
      VecIsa.offset_le VecIsa.offset_allows allows_unaligned)

private theorem memmoveAlignedStore_complete (buffers : Buffers start dst src size)
    (range : size < sizeRange) :
    Triple (Progress start dst src ∅) (memmoveAlignedStore isa dst src size)
      (Complete start dst src size) := by
  refine byDirection_complete buffers (fun large up => ?_) fun large clear => ?_
  · exact saveFirst4_complete buffers large (lastVecBackward_moves buffers range large up)
  · exact saveLast4_complete buffers large (firstVecForward_moves buffers range large clear)

private theorem memmoveNt_complete (buffers : Buffers start dst src size) (range : size < sizeRange)
    (source : src % isa.vecSz = 0) (target : dst % isa.vecSz = 0) :
    Triple (Progress start dst src ∅) (memmoveNt isa dst src size)
      (Complete start dst src size) := by
  refine ifApart_complete buffers (memmoveAligned_complete buffers range source target)
    fun large clear => ?_
  exact saveLast4_complete buffers large (forwardLoop_moves buffers range large clear
    (allows_of_aligned source) (allows_of_aligned target))

private theorem memmoveNtLoad_complete (buffers : Buffers start dst src size)
    (range : size < sizeRange) : Triple (Progress start dst src ∅) (memmoveNtLoad isa dst src size)
      (Complete start dst src size) := by
  refine ifApart_complete buffers (memmoveAlignedLoad_complete buffers range) fun large clear => ?_
  exact saveLast4_complete buffers large (firstVecForwardAs_moves buffers range large clear
    VecIsa.offset_le VecIsa.offset_allows allows_unaligned)

theorem memmoveNtStore_complete (buffers : Buffers start dst src size) (range : size < sizeRange) :
    Triple (Progress start dst src ∅) (memmoveNtStore isa dst src size)
      (Complete start dst src size) := by
  refine ifApart_complete buffers (memmoveAlignedStore_complete buffers range) fun large clear => ?_
  exact saveLast4_complete buffers large (firstVecForward_moves buffers range large clear)

theorem memmoveVariant_complete (buffers : Buffers start dst src size) (range : size < sizeRange)
    {variant : Variant}
    (aligned : variant.NeedsAligned → dst % isa.vecSz = 0 ∧ src % isa.vecSz = 0) :
    Triple (Progress start dst src ∅) (memmoveVariant isa variant dst src size)
      (Complete start dst src size) := by
  cases variant with
  | unaligned => cases isa <;> exact memmoveUnaligned_complete buffers range
  | aligned =>
    obtain ⟨target, source⟩ := aligned (.inl rfl)
    cases isa <;> exact memmoveAligned_complete buffers range source target
  | alignedLoad => cases isa <;> exact memmoveAlignedLoad_complete buffers range
  | alignedStore => cases isa <;> exact memmoveAlignedStore_complete buffers range
  | nt =>
    obtain ⟨target, source⟩ := aligned (.inr rfl)
    cases isa <;> exact memmoveNt_complete buffers range source target
  | ntLoad => cases isa <;> exact memmoveNtLoad_complete buffers range
  | ntStore => cases isa <;> exact memmoveNtStore_complete buffers range

end Correct

end AoclLibmem.Copy
