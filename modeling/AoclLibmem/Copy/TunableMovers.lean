import AoclLibmem.Copy.LoadStoreSpec

/-! The small movers of the tunable vector copies, for sizes up to eight vectors. The AVX2
and the AVX512 files are the same text, but for the vector and the mover up to two vectors. -/

namespace AoclLibmem.Copy

open Base Machine

/-- The two families of files under `tunable`. -/
inductive VecIsa where
  | avx2
  | avx512
deriving DecidableEq, Repr

abbrev VecIsa.vecSz : VecIsa → Nat
  | .avx2 => ymmSz
  | .avx512 => zmmSz

/-- `_lzcnt_u32`. -/
def lzcnt32 (x : Nat) : Nat := (BitVec.ofNat 32 x).clz.toNat

section Movers
variable (storeAddr loadAddr size : Nat)

/-- The scalar cases between buffers apart: the tail is loaded after the head's store. -/
def headThenTailScalar (n : Nat) : Kernel Unit := do
  let head ← vecLoad n .unaligned loadAddr
  vecStore n .unaligned storeAddr head
  let tail ← vecLoad n .unaligned (loadAddr + (size - n))
  vecStore n .unaligned (storeAddr + (size - n)) tail

/-- `__load_store_le_2ymm_vec`; its parameter is a `uint8_t`. -/
def loadStoreLe2YmmVec : Kernel Nat := do
  let size := size % 256
  if size ≤ 2 * dwordSz then
    if size ≤ 2 * wordSz then
      if size ≤ 1 then moveByte storeAddr loadAddr size
      else headThenTailScalar storeAddr loadAddr size wordSz
    else headThenTailScalar storeAddr loadAddr size dwordSz
  else if size ≤ 2 * xmmSz then
    if size ≤ 2 * qwordSz then headThenTailScalar storeAddr loadAddr size qwordSz
    else vecLoadStoreHeadTail xmmSz .unaligned .unaligned 2 storeAddr loadAddr size
  else vecLoadStoreHeadTail ymmSz .unaligned .unaligned 2 storeAddr loadAddr size
  return storeAddr

/-- The switch on the leading zeros of the size, with the scalar cases as a parameter. -/
def loadStoreBle2Zmm (scalar : Nat → Nat → Nat → Nat → Kernel Unit) : Kernel Nat := do
  match lzcnt32 size with
  | 32 => pure ()
  | 31 => vecLoadStore 1 .unaligned .unaligned 1 storeAddr loadAddr 0
  | 30 => scalar storeAddr loadAddr size wordSz
  | 29 => scalar storeAddr loadAddr size dwordSz
  | 28 => scalar storeAddr loadAddr size qwordSz
  | 27 => vecLoadStoreHeadTail xmmSz .unaligned .unaligned 2 storeAddr loadAddr size
  | 26 => vecLoadStoreHeadTail ymmSz .unaligned .unaligned 2 storeAddr loadAddr size
  | _ => vecLoadStoreHeadTail zmmSz .unaligned .unaligned 2 storeAddr loadAddr size
  return storeAddr

def loadStoreBle2ZmmVec : Kernel Nat := loadStoreBle2Zmm storeAddr loadAddr size headThenTailScalar

def loadStoreBle2ZmmVecOverlap : Kernel Nat := loadStoreBle2Zmm storeAddr loadAddr size tailHeadScalar

end Movers

section Small
variable (isa : VecIsa) (dst src size : Nat)

/-- The ladder up to eight vectors, above the mover for two. -/
def moveBle8Vec (upTo2 : Nat → Nat → Nat → Kernel Nat) : Kernel Nat :=
  if size ≤ 2 * isa.vecSz then upTo2 dst src size
  else if size ≤ 4 * isa.vecSz then do
    vecLoadStoreHeadTail isa.vecSz .unaligned .unaligned 4 dst src size
    return dst
  else do
    vecLoadStoreHeadTail isa.vecSz .unaligned .unaligned 8 dst src size
    return dst

/-- `__memcpy_ble_8ymm`, `__memcpy_ble_8zmm`. -/
def memcpyBle8Vec : Kernel Nat :=
  moveBle8Vec isa dst src size
    (match isa with
    | .avx2 => loadStoreLe2YmmVec
    | .avx512 => loadStoreBle2ZmmVec)

/-- `__memmove_ble_8ymm`, `__memmove_ble_8zmm`. -/
def memmoveBle8Vec : Kernel Nat :=
  moveBle8Vec isa dst src size
    (match isa with
    | .avx2 => loadStoreLe2YmmVecOverlap
    | .avx512 => loadStoreBle2ZmmVecOverlap)

end Small

section Correct
variable {start : Memory} {dst src size : Nat} {done : Set Nat} {base len n : Nat}

private theorem lzcnt32_cases : ∀ size ≤ 128,
    (lzcnt32 size = 32 → size = 0) ∧ (lzcnt32 size = 31 → size = 1) ∧
      (∀ k ∈ [1, 2, 3, 4, 5], lzcnt32 size = 31 - k → 2 ^ k ≤ size ∧ size < 2 * 2 ^ k) ∧
      (lzcnt32 size < 26 ∨ 32 < lzcnt32 size → 64 ≤ size) := by
  decide +kernel

private theorem headThenTailScalar_triple (buffers : Buffers start dst src size) (room : n ≤ len)
    (covers : len ≤ 2 * n) (inside : base + len ≤ size)
    (intact : Intact dst src done (Set.Ico base (base + len)))
    (apart : dst + size ≤ src ∨ src + size ≤ dst) :
    Triple (Progress start dst src done) (headThenTailScalar (dst + base) (src + base) len n)
      fun _ => Progress start dst src (done ∪ Set.Ico base (base + len)) := by
  refine (scalarLoad_triple buffers (k := 0) (by omega) (intact_part intact (by omega))).bind fun head =>
    triple_fact fun first => ?_
  refine (scalarStore_triple buffers (k := 0) (by omega) first).bind fun _ => ?_
  refine (scalarLoad_triple buffers (k := len - n) (by omega) ?_).bind fun tail =>
    triple_fact fun last => ?_
  · rintro i read j (earlier | ⟨_, high⟩)
    · exact intact_part intact (by omega) i read j earlier
    · have limit := read.2
      omega
  rw [← ends_cover room covers, ← Set.union_assoc]
  exact scalarStore_triple buffers (by omega) last

/-- What a mover of two overlapping scalars has to do. -/
def ScalarMoves (start : Memory) (dst src size : Nat) (scalar : Nat → Nat → Nat → Nat → Kernel Unit) :
    Prop :=
  ∀ n, n ≤ size → size ≤ 2 * n →
    Triple (Progress start dst src ∅) (scalar dst src size n)
      fun _ => Progress start dst src (∅ ∪ Set.Ico 0 (0 + size))

theorem headThenTailScalar_moves (buffers : Buffers start dst src size)
    (apart : dst + size ≤ src ∨ src + size ≤ dst) :
    ScalarMoves start dst src size headThenTailScalar := by
  intro n room covers
  have moves : Triple (Progress start dst src ∅) (headThenTailScalar (dst + 0) (src + 0) size n) _ :=
    headThenTailScalar_triple buffers room covers (by omega) intact_empty apart
  exact moves

theorem tailHeadScalar_moves (buffers : Buffers start dst src size) :
    ScalarMoves start dst src size tailHeadScalar := by
  intro n room covers
  have moves : Triple (Progress start dst src ∅) (tailHeadScalar (dst + 0) (src + 0) size n) _ :=
    tailHeadScalar_triple buffers room covers (by omega) intact_empty
  exact moves

theorem loadStoreLe2YmmVec_moves (buffers : Buffers start dst src size) (short : len ≤ 64)
    (inside : base + len ≤ size) (intact : Intact dst src done (Set.Ico base (base + len)))
    (apart : dst + size ≤ src ∨ src + size ≤ dst) :
    Moves start dst src done base len (loadStoreLe2YmmVec (dst + base) (src + base) len) := by
  have whole : len % 256 = len := by omega
  have scalar (n : Nat) (room : n ≤ len) (covers : len ≤ 2 * n) :=
    headThenTailScalar_triple buffers room covers inside intact apart
  unfold loadStoreLe2YmmVec
  dsimp only
  rw [whole]
  simp only [wordSz, dwordSz, qwordSz, xmmSz, ymmSz]
  refine triple_ite (fun upTo8 => ?_) fun over8 => triple_ite (fun upTo32 => ?_) fun over32 => ?_
  · refine triple_ite (fun upTo4 => triple_ite (fun upTo1 => ?_) fun over1 => ?_) fun over4 => ?_
    · exact moves_of_triple (moveByte_triple buffers upTo1 inside intact)
    · exact moves_of_triple (scalar 2 (by omega) (by omega))
    · exact moves_of_triple (scalar 4 (by omega) (by omega))
  · refine triple_ite (fun upTo16 => ?_) fun over16 => ?_
    · exact moves_of_triple (scalar 8 (by omega) (by omega))
    · exact moves_of_triple (headTail_whole base buffers (by omega) (by omega) inside intact)
  · exact moves_of_triple (headTail_whole base buffers (by omega) (by omega) inside intact)

private theorem loadStoreLe2YmmVec_complete (buffers : Buffers start dst src size)
    (short : size ≤ 64) (apart : dst + size ≤ src ∨ src + size ≤ dst) :
    Triple (Progress start dst src ∅) (loadStoreLe2YmmVec dst src size)
      (Complete start dst src size) :=
  Moves.complete (loadStoreLe2YmmVec_moves buffers short (by omega) intact_empty apart)

theorem loadStoreBle2Zmm_complete (buffers : Buffers start dst src size) (short : size ≤ 128)
    {scalar : Nat → Nat → Nat → Nat → Kernel Unit} (moves : ScalarMoves start dst src size scalar) :
    Triple (Progress start dst src ∅) (loadStoreBle2Zmm dst src size scalar)
      (Complete start dst src size) := by
  obtain ⟨none, one, power, large⟩ := lzcnt32_cases size short
  have headTail {n : Nat} (room : n ≤ size) (covers : size ≤ 2 * n) : Triple (Progress start dst src ∅)
      (do vecLoadStoreHeadTail n .unaligned .unaligned 2 dst src size; return dst)
      (Complete start dst src size) :=
    complete_of_triple (headTail_whole 0 buffers (by omega) (by omega) (by omega) intact_empty)
  unfold loadStoreBle2Zmm
  simp only [wordSz, dwordSz, qwordSz, xmmSz, ymmSz, zmmSz]
  split
  · next zeros =>
    have empty := none zeros
    subst empty
    exact complete_return fun i => by simp
  · next zeros =>
    have single := one zeros
    subst single
    have byte : Triple (Progress start dst src ∅) (vecLoadStore 1 .unaligned .unaligned 1 dst src 0)
        fun _ => Progress start dst src (∅ ∪ Set.Ico (0 + 0) (0 + 0 + 1 * 1)) :=
      vecLoadStore_triple 0 buffers allows_unaligned allows_unaligned (by omega) intact_empty
    exact complete_of_triple byte
  · next zeros =>
    have bounds := power 1 (by decide) zeros
    exact complete_of_triple (moves 2 (by omega) (by omega))
  · next zeros =>
    have bounds := power 2 (by decide) zeros
    exact complete_of_triple (moves 4 (by omega) (by omega))
  · next zeros =>
    have bounds := power 3 (by decide) zeros
    exact complete_of_triple (moves 8 (by omega) (by omega))
  · next zeros =>
    have bounds := power 4 (by decide) zeros
    exact headTail (by omega) (by omega)
  · next zeros =>
    have bounds := power 5 (by decide) zeros
    exact headTail (by omega) (by omega)
  · next n32 n31 n30 n29 n28 n27 n26 =>
    simp only [imp_false] at n32 n31 n30 n29 n28 n27 n26
    have bounds := large (by omega)
    exact headTail (by omega) (by omega)

private theorem moveBle8Vec_complete (buffers : Buffers start dst src size) {isa : VecIsa}
    {upTo2 : Nat → Nat → Nat → Kernel Nat} (short : size ≤ 8 * isa.vecSz)
    (small : size ≤ 2 * isa.vecSz →
      Triple (Progress start dst src ∅) (upTo2 dst src size) (Complete start dst src size)) :
    Triple (Progress start dst src ∅) (moveBle8Vec isa dst src size upTo2)
      (Complete start dst src size) := by
  refine triple_ite small fun over2 => triple_ite (fun upTo4 => ?_) fun over4 => ?_
  · exact complete_of_triple (headTail_whole 0 buffers (by omega) (by omega) (by omega) intact_empty)
  · exact complete_of_triple (headTail_whole 0 buffers (by omega) (by omega) (by omega) intact_empty)

theorem memcpyBle8Vec_complete (buffers : Buffers start dst src size) {isa : VecIsa}
    (short : size ≤ 8 * isa.vecSz) (apart : dst + size ≤ src ∨ src + size ≤ dst) :
    Triple (Progress start dst src ∅) (memcpyBle8Vec isa dst src size)
      (Complete start dst src size) := by
  refine moveBle8Vec_complete buffers short fun upTo2 => ?_
  cases isa with
  | avx2 => exact loadStoreLe2YmmVec_complete buffers upTo2 apart
  | avx512 => exact loadStoreBle2Zmm_complete buffers upTo2 (headThenTailScalar_moves buffers apart)

theorem memmoveBle8Vec_complete (buffers : Buffers start dst src size) {isa : VecIsa}
    (short : size ≤ 8 * isa.vecSz) :
    Triple (Progress start dst src ∅) (memmoveBle8Vec isa dst src size)
      (Complete start dst src size) := by
  refine moveBle8Vec_complete buffers short fun upTo2 => ?_
  cases isa with
  | avx2 =>
    exact Moves.complete (loadStoreLe2YmmVecOverlap_moves buffers upTo2 (by omega) intact_empty)
  | avx512 => exact loadStoreBle2Zmm_complete buffers upTo2 (tailHeadScalar_moves buffers)

end Correct

end AoclLibmem.Copy
