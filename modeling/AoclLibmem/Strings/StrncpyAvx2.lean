import AoclLibmem.Strings.StrncpyLoops
import AoclLibmem.Strings.NullFill

/-! `strcpy_avx2.c` in its STRNCPY_AVX2 build, and with ALMEM_STRICT_BOUNDS as a whole. -/

namespace AoclLibmem.Strings

open Base Machine

section Helpers

/-- The first `n` bytes and the last, which may overlap them. -/
def copyEnds (n dst src size : Nat) : Kernel Unit := do
  let head ← vecLoad n .unaligned src
  vecStore n .unaligned dst head
  let tail ← vecLoad n .unaligned (src + size - n)
  vecStore n .unaligned (dst + size - n) tail

def strcpyBleYmm (dst src size : Nat) : Kernel Unit :=
  if size = 1 then do
    let byte ← vecLoad 1 .unaligned src
    vecStore 1 .unaligned dst byte
  else if size ≤ 2 * wordSz then copyEnds wordSz dst src size
  else if size ≤ 2 * dwordSz then copyEnds dwordSz dst src size
  else if size ≤ 2 * qwordSz then copyEnds qwordSz dst src size
  else copyEnds xmmSz dst src size

def padFrom (dst nullPos size : Nat) : Kernel Unit :=
  if nullPos + 1 < size then do
    let _ ← fillNullAvx2 (dst + nullPos + 1) (size - nullPos - 1)
  else pure ()

/-- The lanes of `v` that hold a NUL: of a scalar in a vector register, the mask keeps the
lanes it fills. -/
def nullMask {n : Nat} (v : Lanes n) : BitVec n := movemaskEpi8 (cmpeqEpi8 v setzero)

/-- The cases of two overlapping blocks of `n` bytes, both loaded before a store. -/
def strncpyBlocks (n dst src size : Nat) : Kernel Unit := do
  let d0 ← vecLoad n .unaligned src
  if nullMask d0 ≠ 0#n then do
    vecStore n .unaligned dst d0
    padFrom dst (tzcnt (nullMask d0)) size
  else do
    let d1 ← vecLoad n .unaligned (src + size - n)
    vecStore n .unaligned dst d0
    vecStore n .unaligned (dst + size - n) d1
    if nullMask d1 ≠ 0#n then padFrom dst (size - n + tzcnt (nullMask d1)) size else pure ()

/-- The case of two words: the first is stored before the second is loaded. -/
def strncpyWords (dst src size : Nat) : Kernel Unit := do
  let w0 ← vecLoad wordSz .unaligned src
  if nullMask w0 ≠ 0#2 then do
    vecStore wordSz .unaligned dst w0
    padFrom dst (tzcnt (nullMask w0)) size
  else do
    vecStore wordSz .unaligned dst w0
    if size > wordSz then do
      let w1 ← vecLoad wordSz .unaligned (src + size - wordSz)
      vecStore wordSz .unaligned (dst + size - wordSz) w1
      if nullMask w1 ≠ 0#2 then padFrom dst (size - wordSz + tzcnt (nullMask w1)) size else pure ()
    else pure ()

def strncpySmallAvx2 (dst src size : Nat) : Kernel Unit :=
  if size ≤ dwordSz then
    if size = 1 then do
      let byte ← vecLoad 1 .unaligned src
      vecStore 1 .unaligned dst byte
    else strncpyWords dst src size
  else if size ≤ qwordSz then strncpyBlocks dwordSz dst src size
  else if size ≤ xmmSz then strncpyBlocks qwordSz dst src size
  else strncpyBlocks xmmSz dst src size

end Helpers

section Kernel
variable (dst src size : Nat)

/-- Copy `slen` bytes at `offset` of which `y1` holds a vector: the vector itself when they
fill it. -/
def storeVec (y1 : Lanes ymmSz) (offset slen : Nat) : Kernel Unit :=
  if slen ≥ ymmSz then vecStore ymmSz .unaligned (dst + offset) y1
  else strcpyBleYmm (dst + offset) (src + offset) slen

/-- The vector at `offset` with a NUL in lane `nullIdx`: copy up to it, fill behind it. -/
def finishVec (y1 : Lanes ymmSz) (offset nullIdx : Nat) : Kernel Unit := do
  let rem := size - offset
  let slen := if nullIdx + 1 < rem then nullIdx + 1 else rem
  storeVec dst src y1 offset slen
  let nullStart := offset + nullIdx + 1
  if nullStart < size then
    let _ ← fillNullAvx2 (dst + nullStart) (size - nullStart)

/-- One pass of the loops over single vectors; true when the copy is done. -/
def copyVec (offset : Nat) : Kernel Bool := do
  let y1 ← vecLoad ymmSz .aligned (src + offset)
  let ret := nullMask y1
  if ret ≠ 0#32 then do
    finishVec dst src size y1 offset (tzcnt ret)
    return true
  else
    let rem := size - offset
    if rem ≥ ymmSz then do
      vecStore ymmSz .unaligned (dst + offset) y1
      return false
    else do
      strcpyBleYmm (dst + offset) (src + offset) rem
      return true

end Kernel

section Build
variable (small : Nat → Nat → Nat → Kernel Unit) (dst src size : Nat)

/-- The label `handle_remaining`, with the small copy of a build. -/
def handleRemaining (offset : Nat) : Kernel Unit :=
  loopM .diverged (fun offset =>
    if offset < size then
      let rem := size - offset
      if rem ≥ ymmSz then do
        let y1 ← vecLoad ymmSz .unaligned (src + offset)
        if nullMask y1 ≠ 0#32 then do
          vecStore ymmSz .unaligned (dst + offset) y1
          padFrom (dst + offset) (tzcnt (nullMask y1)) rem
          return .done ()
        else do
          vecStore ymmSz .unaligned (dst + offset) y1
          return .next (offset + ymmSz)
      else do
        small (dst + offset) (src + offset) rem
        return .done ()
    else return .done ()) budget offset

def strncpyRest (offset : Nat) : Kernel Nat :=
  strncpyTail (w := ymmSz) (copyVec dst src size) nullMask (handleRemaining small dst src size)
    dst src size 6 offset

def strncpyFirst : Kernel Nat := do
  let y1 ← vecLoad ymmSz .unaligned src
  let ret := nullMask y1
  if ret ≠ 0#32 then do
    finishVec dst src size y1 0 (tzcnt ret)
    return dst
  else if size ≥ ymmSz then do
    vecStore ymmSz .unaligned dst y1
    strncpyRest small dst src size (ymmSz - src % ymmSz)
  else do
    strcpyBleYmm dst src size
    return dst

/-- The check for the page end, the vector below the source when it is near, and the rest of the
text. -/
def strncpyHead (first : Kernel Nat) : Kernel Nat :=
  let offset := src % ymmSz
  if pageSz - ymmSz < src % pageSz then do
    let y1 ← vecLoad ymmSz .aligned (src - offset)
    let ret := nullMask y1 >>> offset
    if ret ≠ 0#32 then do
      finishVec dst src size y1 0 (tzcnt ret)
      return dst
    else if size < ymmSz ∧ size ≤ ymmSz - offset then do
      strcpyBleYmm dst src size
      return dst
    else first
  else first

def strncpyAvx2 : Kernel Nat :=
  if size = 0 then return dst
  else if size < ymmSz then do
    strncpySmallAvx2 dst src size
    return dst
  else strncpyHead dst src size (strncpyFirst strncpySmallAvx2 dst src size)

end Build

end AoclLibmem.Strings
