import AoclLibmem.Strings.Strcpy
import AoclLibmem.Strings.StrncpyLoops
import AoclLibmem.Strings.NullFill

/-! `strcpy_avx512.c` in its STRNCPY_AVX512 build. The single vectors may reach beyond the
size: then the offset does too, and every later test for more bytes fails. -/

namespace AoclLibmem.Strings

open Base Machine

section Kernel
variable (dst src size : Nat)

/-- `slen` lanes at `offset`: the whole vector when they fill it. -/
def storeLanes (z : Lanes 64) (offset slen : Nat) : Kernel Unit :=
  if slen ≥ zmmSz then vecStore zmmSz .unaligned (dst + offset) z
  else maskStore zmmSz (bzhiOnes slen) (dst + offset) z

/-- The vector at `offset` with a NUL in lane `nullIdx`: copy up to it, fill behind it. -/
def finishZmm (z : Lanes 64) (offset nullIdx : Nat) : Kernel Unit := do
  let rem := size - offset
  let slen := if nullIdx + 1 < rem then nullIdx + 1 else rem
  storeLanes dst z offset slen
  let nullStart := offset + nullIdx + 1
  if nullStart < size then
    let _ ← fillNullAvx512 (dst + nullStart) (size - nullStart)

/-- The same of the first vector, always by a mask. -/
def finishZmmFirst (z1 : Lanes 64) (index : Nat) : Kernel Unit := do
  let slen := if index + 1 < size then index + 1 else size
  maskStore zmmSz (bzhiOnes slen) dst z1
  if index + 1 < size then
    let _ ← fillNullAvx512 (dst + (index + 1)) (size - (index + 1))

def copyZmm (offset : Nat) : Kernel Bool := do
  let z2 ← vecLoad zmmSz .aligned (src + offset)
  let mtch := nullMaskZmm z2
  if mtch ≠ 0#64 then do
    finishZmm dst size z2 offset (tzcnt mtch)
    return true
  else do
    storeLanes dst z2 offset (size - offset)
    return false

/-- The label `handle_remaining`. -/
def handleRemainingZmm (offset : Nat) : Kernel Unit :=
  loopM .diverged (fun offset =>
    if offset < size then do
      let rem := size - offset
      let block := if rem ≥ zmmSz then BitVec.allOnes 64 else bzhiOnes rem
      let z1 ← maskLoad zmmSz block (src + offset)
      let mask := nullMaskZmm z1 &&& block
      if mask ≠ 0#64 then do
        finishZmm dst size z1 offset (tzcnt mask)
        return .done ()
      else do
        if rem ≥ zmmSz then vecStore zmmSz .unaligned (dst + offset) z1
        else maskStore zmmSz block (dst + offset) z1
        return .next (offset + zmmSz)
    else return .done ()) budget offset

/-- The first vector, of a small size the lanes asked for. -/
def loadFirst : Kernel (Lanes 64) :=
  if size < zmmSz then maskLoad zmmSz (bzhiOnes size) src else vecLoad zmmSz .unaligned src

def strncpyZmmFirst : Kernel Nat := do
  let z1 ← loadFirst src size
  let mtch := nullMaskZmm z1
  if mtch ≠ 0#64 then do
    finishZmmFirst dst size z1 (tzcnt mtch)
    return dst
  else do
    if size ≥ zmmSz then vecStore zmmSz .unaligned dst z1
    else maskStore zmmSz (bzhiOnes size) dst z1
    strncpyTail (w := zmmSz) (copyZmm dst src size) nullMaskZmm (handleRemainingZmm dst src size)
      dst src size 3 (zmmSz - src % zmmSz)

def strncpyAvx512 : Kernel Nat :=
  let offset := src % zmmSz
  if size = 0 then return dst
  else if pageSz - zmmSz < src % pageSz then do
    let z1 ← maskLoadOnto (set1 0xff) (headMask offset) src
    let mtch := nullMaskZmm z1
    if mtch ≠ 0#64 then do
      finishZmmFirst dst size z1 (tzcnt mtch)
      return dst
    else strncpyZmmFirst dst src size
  else strncpyZmmFirst dst src size

end Kernel

end AoclLibmem.Strings
