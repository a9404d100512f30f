import AoclLibmem.Copy.TunableMovers

/-! `tunable/avx2/memcpy_avx2.c` and `tunable/avx512/memcpy_avx512.c`, with their mempcpy
files: seven variants, which differ in their kinds of access and in the pointer that they
align. -/

namespace AoclLibmem.Copy

open Base Machine

/-- From an address to the next boundary of a vector: one byte to a whole vector. -/
def VecIsa.offset (isa : VecIsa) (addr : Nat) : Nat := isa.vecSz - addr % isa.vecSz

section Kernel
variable (isa : VecIsa) (loadType storeType : Access) (dst src size : Nat)

/-- The text of all variants: four vectors at each end, then what lies between them. -/
def memcpyVec (offset : Nat) : Kernel Nat :=
  if size ≤ 8 * isa.vecSz then memcpyBle8Vec isa dst src size
  else do
    vecLoadStoreHeadTail isa.vecSz .unaligned .unaligned 8 dst src size
    let _ ← vecLoadStoreLoop isa.vecSz loadType storeType 4 dst src (size - 4 * isa.vecSz) offset
    return dst

def memcpyUnaligned : Kernel Nat := memcpyVec isa .unaligned .unaligned dst src size 0

def memcpyAligned : Kernel Nat := memcpyVec isa .aligned .aligned dst src size 0

def memcpyAlignedLoad : Kernel Nat := memcpyVec isa .aligned .unaligned dst src size (isa.offset src)

def memcpyAlignedStore : Kernel Nat := memcpyVec isa .unaligned .aligned dst src size (isa.offset dst)

def memcpyNt : Kernel Nat := memcpyVec isa .stream .stream dst src size 0

def memcpyNtLoad : Kernel Nat := memcpyVec isa .stream .unaligned dst src size (isa.offset src)

def memcpyNtStore : Kernel Nat := memcpyVec isa .unaligned .stream dst src size (isa.offset dst)

/-- The mempcpy files return the end of the destination in place of its start. -/
def mempcpyUnaligned : Kernel Nat := do
  let _ ← memcpyUnaligned isa dst src size
  return dst + size

def mempcpyAligned : Kernel Nat := do
  let _ ← memcpyAligned isa dst src size
  return dst + size

def mempcpyAlignedLoad : Kernel Nat := do
  let _ ← memcpyAlignedLoad isa dst src size
  return dst + size

def mempcpyAlignedStore : Kernel Nat := do
  let _ ← memcpyAlignedStore isa dst src size
  return dst + size

def mempcpyNt : Kernel Nat := do
  let _ ← memcpyNt isa dst src size
  return dst + size

def mempcpyNtLoad : Kernel Nat := do
  let _ ← memcpyNtLoad isa dst src size
  return dst + size

def mempcpyNtStore : Kernel Nat := do
  let _ ← memcpyNtStore isa dst src size
  return dst + size

end Kernel

section Variants

def memcpyAvx2Unaligned := memcpyUnaligned .avx2
def memcpyAvx2Aligned := memcpyAligned .avx2
def memcpyAvx2AlignedLoad := memcpyAlignedLoad .avx2
def memcpyAvx2AlignedStore := memcpyAlignedStore .avx2
def memcpyAvx2Nt := memcpyNt .avx2
def memcpyAvx2NtLoad := memcpyNtLoad .avx2
def memcpyAvx2NtStore := memcpyNtStore .avx2

def memcpyAvx512Unaligned := memcpyUnaligned .avx512
def memcpyAvx512Aligned := memcpyAligned .avx512
def memcpyAvx512AlignedLoad := memcpyAlignedLoad .avx512
def memcpyAvx512AlignedStore := memcpyAlignedStore .avx512
def memcpyAvx512Nt := memcpyNt .avx512
def memcpyAvx512NtLoad := memcpyNtLoad .avx512
def memcpyAvx512NtStore := memcpyNtStore .avx512

def mempcpyAvx2Unaligned := mempcpyUnaligned .avx2
def mempcpyAvx2Aligned := mempcpyAligned .avx2
def mempcpyAvx2AlignedLoad := mempcpyAlignedLoad .avx2
def mempcpyAvx2AlignedStore := mempcpyAlignedStore .avx2
def mempcpyAvx2Nt := mempcpyNt .avx2
def mempcpyAvx2NtLoad := mempcpyNtLoad .avx2
def mempcpyAvx2NtStore := mempcpyNtStore .avx2

def mempcpyAvx512Unaligned := mempcpyUnaligned .avx512
def mempcpyAvx512Aligned := mempcpyAligned .avx512
def mempcpyAvx512AlignedLoad := mempcpyAlignedLoad .avx512
def mempcpyAvx512AlignedStore := mempcpyAlignedStore .avx512
def mempcpyAvx512Nt := mempcpyNt .avx512
def mempcpyAvx512NtLoad := mempcpyNtLoad .avx512
def mempcpyAvx512NtStore := mempcpyNtStore .avx512

/-- The implementations of the user guide's table, for one family of files. -/
inductive Variant where
  | unaligned
  | aligned
  | alignedLoad
  | alignedStore
  | nt
  | ntLoad
  | ntStore
deriving DecidableEq, Repr

/-- The variants that the user guide allows for vector-aligned pointers only. -/
def Variant.NeedsAligned (variant : Variant) : Prop := variant = .aligned ∨ variant = .nt

def memcpyVariant : VecIsa → Variant → Nat → Nat → Nat → Kernel Nat
  | .avx2, .unaligned => memcpyAvx2Unaligned
  | .avx2, .aligned => memcpyAvx2Aligned
  | .avx2, .alignedLoad => memcpyAvx2AlignedLoad
  | .avx2, .alignedStore => memcpyAvx2AlignedStore
  | .avx2, .nt => memcpyAvx2Nt
  | .avx2, .ntLoad => memcpyAvx2NtLoad
  | .avx2, .ntStore => memcpyAvx2NtStore
  | .avx512, .unaligned => memcpyAvx512Unaligned
  | .avx512, .aligned => memcpyAvx512Aligned
  | .avx512, .alignedLoad => memcpyAvx512AlignedLoad
  | .avx512, .alignedStore => memcpyAvx512AlignedStore
  | .avx512, .nt => memcpyAvx512Nt
  | .avx512, .ntLoad => memcpyAvx512NtLoad
  | .avx512, .ntStore => memcpyAvx512NtStore

def mempcpyVariant : VecIsa → Variant → Nat → Nat → Nat → Kernel Nat
  | .avx2, .unaligned => mempcpyAvx2Unaligned
  | .avx2, .aligned => mempcpyAvx2Aligned
  | .avx2, .alignedLoad => mempcpyAvx2AlignedLoad
  | .avx2, .alignedStore => mempcpyAvx2AlignedStore
  | .avx2, .nt => mempcpyAvx2Nt
  | .avx2, .ntLoad => mempcpyAvx2NtLoad
  | .avx2, .ntStore => mempcpyAvx2NtStore
  | .avx512, .unaligned => mempcpyAvx512Unaligned
  | .avx512, .aligned => mempcpyAvx512Aligned
  | .avx512, .alignedLoad => mempcpyAvx512AlignedLoad
  | .avx512, .alignedStore => mempcpyAvx512AlignedStore
  | .avx512, .nt => mempcpyAvx512Nt
  | .avx512, .ntLoad => mempcpyAvx512NtLoad
  | .avx512, .ntStore => mempcpyAvx512NtStore

end Variants

section Correct
variable {start : Memory} {isa : VecIsa} {loadType storeType : Access} {dst src size : Nat}

theorem VecIsa.vecSz_pos : 0 < isa.vecSz := by cases isa <;> decide

theorem VecIsa.offset_le {addr : Nat} : isa.offset addr ≤ isa.vecSz := Nat.sub_le _ _

theorem VecIsa.offset_allows {type : Access} {addr : Nat} :
    type.Allows isa.vecSz (addr + isa.offset addr) := by
  refine allows_of_aligned ?_
  cases isa <;> simp only [VecIsa.offset, VecIsa.vecSz, ymmSz, zmmSz] <;> omega

theorem memcpyVec_complete (buffers : Buffers start dst src size) (range : size < sizeRange)
    (apart : dst + size ≤ src ∨ src + size ≤ dst) {offset : Nat} (near : offset ≤ isa.vecSz)
    (loads : loadType.Allows isa.vecSz (src + offset))
    (stores : storeType.Allows isa.vecSz (dst + offset)) :
    Triple (Progress start dst src ∅) (memcpyVec isa loadType storeType dst src size offset)
      (Complete start dst src size) := by
  have vector := isa.vecSz_pos
  refine triple_ite (fun short => memcpyBle8Vec_complete buffers short apart) fun large => ?_
  refine (vecLoadStoreHeadTail_triple 0 buffers (by omega : 8 / 2 * isa.vecSz ≤ size) (by omega)
    intact_empty).bind fun _ => ?_
  refine (vecLoadStoreLoop_apart buffers (by omega) (by omega) range loads stores apart ?_).bind
    fun last => triple_fact fun stop => complete_return fun i => ?_
  · simp only [Set.mem_union, Set.mem_Ico, Set.mem_empty_iff_false, false_or]
    omega
  · simp only [Set.mem_union, Set.mem_Ico, Set.mem_empty_iff_false, false_or]
    omega

theorem memcpyVariant_complete (buffers : Buffers start dst src size) (range : size < sizeRange)
    (apart : dst + size ≤ src ∨ src + size ≤ dst) {variant : Variant}
    (aligned : variant.NeedsAligned → dst % isa.vecSz = 0 ∧ src % isa.vecSz = 0) :
    Triple (Progress start dst src ∅) (memcpyVariant isa variant dst src size)
      (Complete start dst src size) := by
  have copies {loadType storeType : Access} {offset : Nat} :=
    @memcpyVec_complete start isa loadType storeType dst src size buffers range apart offset
  have atZero : 0 ≤ isa.vecSz := Nat.zero_le _
  have near {addr : Nat} : isa.offset addr ≤ isa.vecSz := VecIsa.offset_le
  cases variant with
  | unaligned => cases isa <;> exact copies atZero allows_unaligned allows_unaligned
  | aligned =>
    obtain ⟨target, source⟩ := aligned (.inl rfl)
    cases isa <;> exact copies atZero (allows_of_aligned source) (allows_of_aligned target)
  | alignedLoad => cases isa <;> exact copies near VecIsa.offset_allows allows_unaligned
  | alignedStore => cases isa <;> exact copies near allows_unaligned VecIsa.offset_allows
  | nt =>
    obtain ⟨target, source⟩ := aligned (.inr rfl)
    cases isa <;> exact copies atZero (allows_of_aligned source) (allows_of_aligned target)
  | ntLoad => cases isa <;> exact copies near VecIsa.offset_allows allows_unaligned
  | ntStore => cases isa <;> exact copies near allows_unaligned VecIsa.offset_allows

theorem memcpyUnaligned_complete (buffers : Buffers start dst src size) (range : size < sizeRange)
    (apart : dst + size ≤ src ∨ src + size ≤ dst) :
    Triple (Progress start dst src ∅) (memcpyUnaligned isa dst src size)
      (Complete start dst src size) :=
  memcpyVec_complete buffers range apart (Nat.zero_le _) allows_unaligned allows_unaligned

theorem memcpyNtStore_complete (buffers : Buffers start dst src size) (range : size < sizeRange)
    (apart : dst + size ≤ src ∨ src + size ≤ dst) :
    Triple (Progress start dst src ∅) (memcpyNtStore isa dst src size)
      (Complete start dst src size) :=
  memcpyVec_complete buffers range apart VecIsa.offset_le allows_unaligned VecIsa.offset_allows

end Correct

end AoclLibmem.Copy
