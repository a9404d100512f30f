import AoclLibmem.Strings.StrncpyAvx2

/-! `strcpy_avx2.c` in its STRNCPY_AVX2 build without ALMEM_STRICT_BOUNDS: a small size is
loaded by one chunk that may reach beyond it, behind the check for the page end. -/

namespace AoclLibmem.Strings

open Base Machine

section Small

def copyWords (dst src size : Nat) : Kernel Unit := do
  let w0 ← vecLoad wordSz .unaligned src
  vecStore wordSz .unaligned dst w0
  if size > wordSz then do
    let w1 ← vecLoad wordSz .unaligned (src + size - wordSz)
    vecStore wordSz .unaligned (dst + size - wordSz) w1
  else pure ()

/-- The sizes that one chunk of `n` bytes covers. -/
def strncpyChunk (n : Nat) (copy : Kernel Unit) (dst src size : Nat) : Kernel Unit := do
  let chunk ← vecLoad n .unaligned src
  let mask := nullMask chunk
  if mask ≠ 0#n then
    let nullPos := tzcnt mask
    if nullPos < size then do
      copy
      padFrom dst nullPos size
    else copy
  else copy

def strncpyXmm (dst src size : Nat) : Kernel Unit := do
  let x1 ← vecLoad xmmSz .unaligned src
  let mask := bzhi (nullMask x1) size
  if mask ≠ 0#16 then do
    copyEnds qwordSz dst src size
    padFrom dst (tzcnt mask) size
  else copyEnds qwordSz dst src size

/-- `_strncpy_small_avx2`. -/
def strncpySmallDefault (dst src size : Nat) : Kernel Unit :=
  if size ≤ dwordSz then
    if size = 1 then do
      let byte ← vecLoad 1 .unaligned src
      vecStore 1 .unaligned dst byte
    else strncpyChunk dwordSz (copyWords dst src size) dst src size
  else if size ≤ qwordSz then strncpyChunk qwordSz (copyEnds dwordSz dst src size) dst src size
  else if size ≤ xmmSz then strncpyXmm dst src size
  else strncpyBlocks xmmSz dst src size

end Small

section Kernel
variable (dst src size : Nat)

def strncpyFirstDefault : Kernel Nat :=
  if size < ymmSz then do
    strncpySmallDefault dst src size
    return dst
  else strncpyFirst strncpySmallDefault dst src size

/-- `_strncpy_avx2`. -/
def strncpyAvx2Default : Kernel Nat :=
  if size = 0 then return dst else strncpyHead dst src size (strncpyFirstDefault dst src size)

end Kernel

end AoclLibmem.Strings
