import AoclLibmem.Machine.Kernel

/-! The movers of `base_impls`: the macros of `load_store_impls.h` for any vector and
any kinds of access, and the functions of the AVX2 and AVX512 headers made from them.
Prefetches change no memory and are left out. -/

namespace AoclLibmem.Copy

open Base Machine

def loadAll (n : Nat) (loadType : Access) (loadAddr : Nat) : List Nat → Kernel (List (Lanes n))
  | [] => pure []
  | k :: places => do
    let vec ← vecLoad n loadType (loadAddr + k)
    let vecs ← loadAll n loadType loadAddr places
    return vec :: vecs

def storeAll (n : Nat) (storeType : Access) (storeAddr : Nat) :
    List Nat → List (Lanes n) → Kernel Unit
  | k :: places, vec :: vecs => do
    vecStore n storeType (storeAddr + k) vec
    storeAll n storeType storeAddr places vecs
  | _, _ => pure ()

/-- The common shape of the macros: all loads, then all stores, in order. -/
def loadStore (n : Nat) (loadType storeType : Access) (storeAddr loadAddr : Nat)
    (places : List Nat) : Kernel Unit := do
  let vecs ← loadAll n loadType loadAddr places
  storeAll n storeType storeAddr places vecs

def upwards (n count offset : Nat) : List Nat := (List.range count).map fun j => offset + j * n

def downwards (n count size : Nat) : List Nat := (List.range count).map fun j => size - (j + 1) * n

section Macros
variable (n : Nat) (loadType storeType : Access) (count : Nat) (storeAddr loadAddr size offset : Nat)

/-- `VEC_1X_LOAD_STORE`, `VEC_2X_LOAD_STORE`, ... -/
def vecLoadStore : Kernel Unit :=
  loadStore n loadType storeType storeAddr loadAddr (upwards n count offset)

/-- `VEC_2X_LOAD_STORE_HEAD_TAIL`, ...: half of the `count` vectors from the start on, half
of them up to the end. -/
def vecLoadStoreHeadTail : Kernel Unit :=
  loadStore n loadType storeType storeAddr loadAddr
    (upwards n (count / 2) 0 ++ upwards n (count / 2) (size - count / 2 * n))

/-- `VEC_2X_LOAD_STORE_LOOP`, ...: the final offset. -/
def vecLoadStoreLoop : Kernel Nat :=
  loopM .diverged (fun offset =>
    if offset < size then do
      vecLoadStore n loadType storeType count storeAddr loadAddr offset
      return .next (offset + count * n)
    else return .done offset) budget offset

/-- `VEC_2X_LOAD_STORE_LOOP_BKWD`, ...: the final size. -/
def vecLoadStoreLoopBkwd : Kernel Nat :=
  loopM .diverged (fun size =>
    if offset < size then do
      loadStore n loadType storeType storeAddr loadAddr (downwards n count size)
      return .next (subSize size (count * n))
    else return .done size) budget size

end Macros

section Movers
variable (storeAddr loadAddr size offset : Nat)

/-- The scalar cases of the movers: the first `n` bytes and the last `n`, loaded before
the stores. -/
def headTailScalar (n : Nat) : Kernel Unit := do
  let head ← vecLoad n .unaligned loadAddr
  let tail ← vecLoad n .unaligned (loadAddr + (size - n))
  vecStore n .unaligned storeAddr head
  vecStore n .unaligned (storeAddr + (size - n)) tail

/-- The same with the stores in the other order. -/
def tailHeadScalar (n : Nat) : Kernel Unit := do
  let temp ← vecLoad n .unaligned loadAddr
  let tail ← vecLoad n .unaligned (loadAddr + (size - n))
  vecStore n .unaligned (storeAddr + (size - n)) tail
  vecStore n .unaligned storeAddr temp

/-- `*(uint8_t *)store_addr = *(uint8_t *)load_addr`, when there is a byte. -/
def moveByte : Kernel Unit :=
  if size = 0 then pure ()
  else do
    let byte ← vecLoad 1 .unaligned loadAddr
    vecStore 1 .unaligned storeAddr byte

def loadStoreLe2YmmVecOverlap : Kernel Nat := do
  if size ≤ 2 * dwordSz then
    if size ≤ 2 * wordSz then
      if size ≤ 1 then moveByte storeAddr loadAddr size
      else tailHeadScalar storeAddr loadAddr size wordSz
    else tailHeadScalar storeAddr loadAddr size dwordSz
  else if size < 2 * xmmSz then
    if size ≤ 2 * qwordSz then tailHeadScalar storeAddr loadAddr size qwordSz
    else vecLoadStoreHeadTail xmmSz .unaligned .unaligned 2 storeAddr loadAddr size
  else vecLoadStoreHeadTail ymmSz .unaligned .unaligned 2 storeAddr loadAddr size
  return storeAddr

def loadStoreBleZmmVecHeadTail : Kernel Nat := do
  if size ≥ xmmSz then
    if size < ymmSz then vecLoadStoreHeadTail xmmSz .unaligned .unaligned 2 storeAddr loadAddr size
    else vecLoadStoreHeadTail ymmSz .unaligned .unaligned 2 storeAddr loadAddr size
  else if size ≥ qwordSz then headTailScalar storeAddr loadAddr size qwordSz
  else if size ≥ dwordSz then headTailScalar storeAddr loadAddr size dwordSz
  else if size ≥ wordSz then headTailScalar storeAddr loadAddr size wordSz
  else moveByte storeAddr loadAddr size
  return storeAddr

/-- `__load_store_ble_zmm_vec`: one masked vector; the size is cut to eight bits. -/
def loadStoreBleZmmVec : Kernel Nat := do
  let mask := bzhiOnes (size % 256)
  let z0 ← maskLoad zmmSz mask loadAddr
  maskStore zmmSz mask storeAddr z0
  return storeAddr

/-- `__load_store_zmm_vec`, `__load_store_2zmm_vec`, ... -/
def loadStoreZmmVec (count : Nat) : Kernel Unit :=
  vecLoadStore zmmSz .unaligned .unaligned count storeAddr loadAddr offset

/-- `__load_store_le_2zmm_vec`, `__load_store_le_4zmm_vec`, ... -/
def loadStoreLeZmmVec (count : Nat) : Kernel Unit :=
  vecLoadStoreHeadTail zmmSz .unaligned .unaligned count storeAddr loadAddr size

/-- `__load_store_ymm_vec`, `__load_store_4ymm_vec`, ... -/
def loadStoreYmmVec (count : Nat) : Kernel Unit :=
  vecLoadStore ymmSz .unaligned .unaligned count storeAddr loadAddr offset

/-- `__load_store_le_4ymm_vec`, `__load_store_le_8ymm_vec`. -/
def loadStoreLeYmmVec (count : Nat) : Kernel Unit :=
  vecLoadStoreHeadTail ymmSz .unaligned .unaligned count storeAddr loadAddr size

end Movers

section Loops

/-! The loops under their names in the headers. -/

def unalignedLoadAndStore4YmmVecLoop := vecLoadStoreLoop ymmSz .unaligned .unaligned 4
def alignedLoadAndStore4YmmVecLoop := vecLoadStoreLoop ymmSz .aligned .aligned 4
def alignedLoadAndStore4YmmVecLoopPftch := vecLoadStoreLoop ymmSz .aligned .aligned 4
def alignedLoadAndStore8YmmVecLoop := vecLoadStoreLoop ymmSz .aligned .aligned 8
def unalignedLoadAlignedStore4YmmVecLoopPftch := vecLoadStoreLoop ymmSz .unaligned .aligned 4
def alignedLoadNtStore4YmmVecLoop := vecLoadStoreLoop ymmSz .aligned .stream 4
def unalignedLoadNtStore4YmmVecLoop := vecLoadStoreLoop ymmSz .unaligned .stream 4
def alignedLoadNtStore4YmmVecLoopPftch := vecLoadStoreLoop ymmSz .aligned .stream 4
def unalignedLoadAndStore4YmmVecLoopBkwd := vecLoadStoreLoopBkwd ymmSz .unaligned .unaligned 4

def unalignedLoadAndStore4ZmmVecLoop := vecLoadStoreLoop zmmSz .unaligned .unaligned 4
def alignedLoadAndStore4ZmmVecLoop := vecLoadStoreLoop zmmSz .aligned .aligned 4
def alignedLoadAndStore4ZmmVecLoopPftch := vecLoadStoreLoop zmmSz .aligned .aligned 4
def unalignedLoadAlignedStore4ZmmVecLoop := vecLoadStoreLoop zmmSz .unaligned .aligned 4
def unalignedLoadAlignedStore4ZmmVecLoopPftch := vecLoadStoreLoop zmmSz .unaligned .aligned 4
def unalignedLoadNtStore4ZmmVecLoop := vecLoadStoreLoop zmmSz .unaligned .stream 4
def alignedLoadNtStore4ZmmVecLoopPftch := vecLoadStoreLoop zmmSz .aligned .stream 4
def unalignedLoadNtStore4ZmmVecLoopPftch := vecLoadStoreLoop zmmSz .unaligned .stream 4
/-- Its stores are the unaligned kind, for all its name. -/
def alignedLoadAndStore8ZmmVecLoopPftch := vecLoadStoreLoop zmmSz .aligned .unaligned 8
def unalignedLoadAlignedStore8ZmmVecLoopPftch := vecLoadStoreLoop zmmSz .unaligned .aligned 8
def alignedLoadNtStore8ZmmVecLoopPftch := vecLoadStoreLoop zmmSz .aligned .stream 8
def unalignedLoadNtStore8ZmmVecLoopPftch := vecLoadStoreLoop zmmSz .unaligned .stream 8
def unalignedLoadAndStore4ZmmVecLoopBkwd := vecLoadStoreLoopBkwd zmmSz .unaligned .unaligned 4
def alignedLoadAndStore4ZmmVecLoopBkwd := vecLoadStoreLoopBkwd zmmSz .aligned .aligned 4
def alignedLoadAndStore4ZmmVecLoopBkwdPftch := vecLoadStoreLoopBkwd zmmSz .aligned .aligned 4
def unalignedLoadAlignedStore4ZmmVecLoopBkwdPftch :=
  vecLoadStoreLoopBkwd zmmSz .unaligned .aligned 4

end Loops

end AoclLibmem.Copy
