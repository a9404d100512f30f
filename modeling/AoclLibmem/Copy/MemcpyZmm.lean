import AoclLibmem.Copy.LoadStoreSpec

/-! The parts that the AVX512 kernels have in common: the sizes up to eight vectors, and the
two moves between overlapping buffers, where the stores of the loop are aligned and the
vector that the loop cannot reach is saved first. -/

namespace AoclLibmem.Copy

open Base Machine

/-- The builds of a kernel's text. -/
inductive Build where
  | memcpy
  | memmove
deriving DecidableEq, Repr

/-- The test of the memmove builds; buffers that only touch count as overlapping. -/
def Overlapping (dst src size : Nat) : Prop := ¬ (dst + size < src ∨ src + size < dst)

instance (dst src size : Nat) : Decidable (Overlapping dst src size) :=
  inferInstanceAs (Decidable (¬ _))

section Small
variable (build : Build) (dst src size : Nat)

def moveUpTo2Zmm : Kernel Nat :=
  if size < zmmSz then
    match build with
    | .memmove => loadStoreBleZmmVecHeadTail dst src size
    | .memcpy => loadStoreBleZmmVec dst src (size % 256)
  else do
    loadStoreLeZmmVec dst src (size % 256) 2
    return dst

def moveUpTo8Zmm (cut : Nat) : Kernel Nat :=
  if size ≤ 2 * zmmSz then moveUpTo2Zmm build dst src size
  else if size ≤ 4 * zmmSz then do
    loadStoreLeZmmVec dst src cut 4
    return dst
  else do
    loadStoreLeZmmVec dst src cut 8
    return dst

end Small

section Kernel
variable (rest : Nat → Nat → Nat → Kernel Unit) (dst src size : Nat)

/-- Downwards, with the last vector saved; `rest` moves what the loop leaves. -/
def saveLastBackward : Kernel Nat := do
  let off := (dst + size) % zmmSz
  let z8 ← vecLoad zmmSz .unaligned (src + (size - zmmSz))
  let remData ← (if dst % zmmSz = src % zmmSz then
    alignedLoadAndStore4ZmmVecLoopBkwdPftch dst src (size - off) (4 * zmmSz)
    else unalignedLoadAlignedStore4ZmmVecLoopBkwdPftch dst src (size - off) (4 * zmmSz))
  rest dst src remData
  vecStore zmmSz .unaligned (dst + (size - zmmSz)) z8
  return dst

/-- Upwards by `count` vectors a pass, with the first vector saved. -/
def saveFirstForward (count : Nat) (alignedLoop unalignedLoop : Nat → Nat → Nat → Nat → Kernel Nat) :
    Kernel Nat := do
  let offset := zmmSz - dst % zmmSz
  let z8 ← vecLoad zmmSz .unaligned src
  let offset ← (if dst % zmmSz = src % zmmSz then
    alignedLoop dst src (size - count * zmmSz) offset
    else unalignedLoop dst src (size - count * zmmSz) offset)
  rest (dst + offset) (src + offset) (size - offset)
  vecStore zmmSz .unaligned dst z8
  return dst

end Kernel

/-- `rest` moves any intact range of at most `limit` bytes. -/
def RestMoves (start : Memory) (dst src size limit : Nat) (rest : Nat → Nat → Nat → Kernel Unit) :
    Prop :=
  ∀ done base len, 0 < len → len ≤ limit → base + len ≤ size →
    Intact dst src done (Set.Ico base (base + len)) →
    Triple (Progress start dst src done) (rest (dst + base) (src + base) len)
      fun _ => Progress start dst src (done ∪ Set.Ico base (base + len))

/-- Past the test the buffers lie apart, by the test or because the build needs it. -/
theorem apart_of_clear {build : Build} {dst src size : Nat}
    (admits : build = .memmove ∨ dst + size ≤ src ∨ src + size ≤ dst)
    (clear : ¬ (build = .memmove ∧ Overlapping dst src size)) :
    dst + size ≤ src ∨ src + size ≤ dst := by
  rcases admits with moves | apart
  · have apart : dst + size < src ∨ src + size < dst := by
      by_contra overlap
      exact clear ⟨moves, overlap⟩
    omega
  · exact apart

section Correct
variable {start : Memory} {build : Build} {dst src size : Nat}
variable {rest : Nat → Nat → Nat → Kernel Unit}

theorem moveUpTo2Zmm_complete (buffers : Buffers start dst src size) (short : size ≤ 2 * zmmSz) :
    Triple (Progress start dst src ∅) (moveUpTo2Zmm build dst src size)
      (Complete start dst src size) := by
  simp only [zmmSz] at short
  have whole : size % 256 = size := by omega
  unfold moveUpTo2Zmm
  rw [whole]
  refine triple_ite (fun below => ?_) fun more => ?_
  · simp only [zmmSz] at below
    cases build with
    | memmove =>
      exact Moves.complete (loadStoreBleZmmVecHeadTail_moves buffers below (by omega) intact_empty)
    | memcpy =>
      exact Moves.complete (loadStoreBleZmmVec_moves buffers (by omega) (by omega) intact_empty)
  · simp only [zmmSz] at more
    exact complete_of_triple (headTail_whole (n := 64) 0 buffers (by omega) (by omega) (by omega)
      intact_empty)

theorem moveUpTo8Zmm_complete (buffers : Buffers start dst src size) (short : size ≤ 8 * zmmSz) :
    Triple (Progress start dst src ∅) (moveUpTo8Zmm build dst src size size)
      (Complete start dst src size) := by
  simp only [zmmSz] at short
  refine triple_ite (fun upTo2 => moveUpTo2Zmm_complete buffers upTo2) fun over2 => ?_
  simp only [zmmSz] at over2
  refine triple_ite (fun upTo4 => ?_) fun over4 => ?_
  · simp only [zmmSz] at upTo4
    exact complete_of_triple (headTail_whole (n := 64) 0 buffers (by omega) (by omega) (by omega)
      intact_empty)
  · simp only [zmmSz] at over4
    exact complete_of_triple (headTail_whole (n := 64) 0 buffers (by omega) (by omega) (by omega)
      intact_empty)

theorem saveLastBackward_complete (buffers : Buffers start dst src size) (range : size < sizeRange)
    (large : 8 * zmmSz < size) (up : src < dst)
    (moves : RestMoves start dst src size (4 * zmmSz) rest) :
    Triple (Progress start dst src ∅) (saveLastBackward rest dst src size)
      (Complete start dst src size) := by
  simp only [zmmSz] at large
  refine (vecLoad_triple buffers allows_unaligned (by omega : size - 64 + 64 ≤ size) intact_empty).bind
    fun z8 => triple_fact fun holds => ?_
  have store : Access.aligned.Allows 64 (dst + (size - (dst + size) % 64)) :=
    allows_of_aligned (by omega)
  have loop {loadType : Access} (loads : loadType.Allows 64 (src + (size - (dst + size) % 64))) :
      Descends start dst src ∅ (4 * 64) (size - (dst + size) % 64) (4 * 64)
        (vecLoadStoreLoopBkwd 64 loadType .aligned 4 dst src (size - (dst + size) % 64) (4 * 64)) :=
    vecLoadStoreLoopBkwd_backward buffers (by decide) (Nat.sub_le size _) range
      (fun s more _ => Nat.le_of_lt more) loads store (Nat.le_of_lt up) fun j none => none.elim
  refine (triple_ite (fun same => loop (allows_of_aligned ?_)) fun _ => loop allows_unaligned).bind
    fun last => triple_fact fun stop => ?_
  · simp only [zmmSz] at same
    omega
  refine (moves _ 0 last (by omega) (by simp only [zmmSz]; omega) (by omega)
    (intact_backward (k := last) (Nat.le_of_lt up) ?_ ?_)).bind fun _ => ?_
  · rintro j (none | ⟨above, _⟩)
    · exact none.elim
    · exact above
  · exact fun i member => by have high := member.2; omega
  refine (vecStore_triple buffers allows_unaligned (by omega : size - 64 + 64 ≤ size) holds).bind
    fun _ => complete_return fun i => ?_
  simp only [Set.mem_union, Set.mem_Ico, Set.mem_empty_iff_false, false_or]
  omega

theorem saveFirstForward_complete (buffers : Buffers start dst src size) (range : size < sizeRange)
    {count : Nat} (positive : 0 < count) (large : (count + 1) * zmmSz ≤ size) (down : dst ≤ src)
    {alignedStore : Access} (moves : RestMoves start dst src size (count * zmmSz) rest) :
    Triple (Progress start dst src ∅)
      (saveFirstForward rest dst src size count
        (vecLoadStoreLoop zmmSz .aligned alignedStore count)
        (vecLoadStoreLoop zmmSz .unaligned .aligned count))
      (Complete start dst src size) := by
  rw [Nat.succ_mul] at large
  simp only [zmmSz] at large moves
  refine (vecLoad_triple (k := 0) buffers allows_unaligned (by omega : 0 + 64 ≤ size) intact_empty).bind
    fun z8 => triple_fact fun holds => ?_
  have loop {loadType storeType : Access} (loads : loadType.Allows 64 (src + (64 - dst % 64))) :
      Ascends start dst src ∅ (64 - dst % 64) (size - count * 64) (count * 64)
        (vecLoadStoreLoop 64 loadType storeType count dst src (size - count * 64) (64 - dst % 64)) :=
    vecLoadStoreLoop_forward buffers (Nat.mul_pos positive (by decide)) (by omega) range loads
      (allows_of_aligned (by omega)) down fun j none => none.elim
  refine (triple_ite (fun same => loop (allows_of_aligned ?_)) fun _ => loop allows_unaligned).bind
    fun last => triple_fact fun stop => ?_
  · simp only [zmmSz] at same
    omega
  have whole : last + (size - last) = size := by omega
  refine (moves _ last (size - last) (by omega) (by omega) (by omega)
    (intact_forward (k := last) down ?_ fun i member => member.1)).bind fun _ => ?_
  · rintro j (none | ⟨_, below⟩)
    · exact none.elim
    · exact below
  refine (vecStore_triple (k := 0) buffers allows_unaligned (by omega : 0 + 64 ≤ size) holds).bind
    fun _ => complete_return fun i => ?_
  simp only [Set.mem_union, Set.mem_Ico, Set.mem_empty_iff_false, false_or, whole]
  omega

end Correct

end AoclLibmem.Copy
