import AoclLibmem.Strings.StrncpyAvx2

/-! `strcpy_avx2.c` and `strcpy_avx512.c` in their strcpy builds, and `strcpy_zen4.c`. -/

namespace AoclLibmem.Strings

open Base Machine

section Vectors
variable {w : Nat} (nulls : Lanes w → BitVec w) (dst src : Nat)

/-- `copy_tail_vec`: the vector that ends with the terminator. -/
def copyTailVec (ret : BitVec w) (offset : Nat) : Kernel Unit := do
  let index := addSize (subSize (offset + tzcnt ret) w) 1
  let y ← vecLoad w .unaligned (src + index)
  vecStore w .unaligned (dst + index) y

/-- `count` single vectors; the offset behind them, or none when `finish` has copied the one
with the terminator. -/
def strcpyVecs (finish : Lanes w → BitVec w → Nat → Kernel Unit) : Nat → Nat → Kernel (Option Nat)
  | 0, offset => pure (some offset)
  | count + 1, offset => do
    let y ← vecLoad w .aligned (src + offset)
    let ret := nulls y
    if ret ≠ 0#w then do
      finish y ret offset
      return none
    else do
      vecStore w .unaligned (dst + offset) y
      strcpyVecs finish count (offset + w)

/-- The four vectors with the terminator, of which `y5` is the minimum of the first two and
`ret` the mask of all. -/
def strcpyLast4 (y1 y2 y3 y5 : Lanes w) (ret : BitVec w) (offset : Nat) : Kernel Unit :=
  let ret1 := nulls y5
  if ret1 ≠ 0#w then
    let ret2 := nulls y1
    if ret2 ≠ 0#w then copyTailVec dst src ret2 offset
    else do
      vecStore w .unaligned (dst + offset) y1
      copyTailVec dst src ret1 (offset + w)
  else do
    vecStore w .unaligned (dst + offset) y1
    vecStore w .unaligned (dst + offset + w) y2
    let ret1 := nulls y3
    if ret1 ≠ 0#w then copyTailVec dst src ret1 (offset + 2 * w)
    else do
      vecStore w .unaligned (dst + offset + 2 * w) y3
      copyTailVec dst src ret (offset + 3 * w)

/-- The loop over four vectors. -/
def strcpyVec4s (offset : Nat) : Kernel Unit :=
  loopM .diverged (fun offset => do
    let y1 ← vecLoad w .aligned (src + offset)
    let y2 ← vecLoad w .aligned (src + offset + w)
    let y3 ← vecLoad w .aligned (src + offset + 2 * w)
    let y4 ← vecLoad w .aligned (src + offset + 3 * w)
    let y5 := minEpu8 y1 y2
    let y6 := minEpu8 y3 y4
    let ret := nulls (minEpu8 y5 y6)
    if ret ≠ 0#w then do
      strcpyLast4 nulls dst src y1 y2 y3 y5 ret offset
      return .done ()
    else do
      vecStore w .unaligned (dst + offset) y1
      vecStore w .unaligned (dst + offset + w) y2
      vecStore w .unaligned (dst + offset + 2 * w) y3
      vecStore w .unaligned (dst + offset + 3 * w) y4
      return .next (offset + 4 * w)) budget offset

/-- What follows the first vector: `count` vectors, those up to a multiple of four vectors,
and the loop. -/
def strcpyRest (finish : Lanes w → BitVec w → Nat → Kernel Unit) (count offset : Nat) :
    Kernel Nat := do
  match ← strcpyVecs nulls dst src (fun _ ret => copyTailVec dst src ret) count offset with
  | none => return dst
  | some offset =>
    let cntVec := 4 - (src + offset) % (4 * w) / w
    match ← strcpyVecs nulls dst src finish cntVec offset with
    | none => return dst
    | some offset =>
      strcpyVec4s nulls dst src offset
      return dst

end Vectors

section Avx2
variable (dst src : Nat)

def strcpyAvx2First : Kernel Nat := do
  let y1 ← vecLoad ymmSz .unaligned src
  let ret := nullMask y1
  if ret ≠ 0#32 then do
    strcpyBleYmm dst src (tzcnt ret + 1)
    return dst
  else do
    vecStore ymmSz .unaligned dst y1
    strcpyRest (w := ymmSz) nullMask dst src (fun _ ret => copyTailVec dst src ret) 6
      (ymmSz - src % ymmSz)

def strcpyAvx2 : Kernel Nat :=
  let offset := src % ymmSz
  if pageSz - ymmSz < src % pageSz then do
    let y1 ← vecLoad ymmSz .aligned (src - offset)
    let ret := nullMask y1 >>> offset
    if ret ≠ 0#32 then do
      strcpyBleYmm dst src (tzcnt ret + 1)
      return dst
    else strcpyAvx2First dst src
  else strcpyAvx2First dst src

end Avx2

section Zmm
variable (tailMask : BitVec 64 → BitVec 64) (dst src : Nat)

def nullMaskZmm (z : Lanes 64) : BitVec 64 := cmpeqEpu8Mask z setzero

def storeTail (z : Lanes 64) (mtch : BitVec 64) (offset : Nat) : Kernel Unit :=
  maskStore zmmSz (tailMask mtch) (dst + offset) z

def strcpyZmmFirst : Kernel Nat := do
  let z1 ← vecLoad zmmSz .unaligned src
  let mtch := nullMaskZmm z1
  if mtch ≠ 0#64 then do
    storeTail tailMask dst z1 mtch 0
    return dst
  else do
    vecStore zmmSz .unaligned dst z1
    strcpyRest nullMaskZmm dst src (storeTail tailMask dst) 3 (zmmSz - src % zmmSz)

/-- The text of `_strcpy_avx512` and `__strcpy_zen4`, but for the mask of a tail. -/
def strcpyZmm : Kernel Nat :=
  let offset := src % zmmSz
  if pageSz - zmmSz < src % pageSz then do
    let z1 ← maskLoadOnto (set1 0xff) (headMask offset) src
    let mtch := nullMaskZmm z1
    if mtch ≠ 0#64 then do
      storeTail tailMask dst z1 mtch 0
      return dst
    else strcpyZmmFirst tailMask dst src
  else strcpyZmmFirst tailMask dst src

def strcpyAvx512 : Kernel Nat := strcpyZmm (fun mtch => headMask (63 - tzcnt mtch)) dst src

/-- `__strcpy_zen4`, with `GET_TAIL_MASK`. -/
def strcpyZen4 : Kernel Nat := strcpyZmm (fun mtch => bzhiOnes (tzcnt mtch + 1)) dst src

end Zmm

end AoclLibmem.Strings
