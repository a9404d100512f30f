import AoclLibmem.Strings.SearchSpec

/-! `_strlen_avx2` and `_strchr_avx2`: a first block, one and two vectors up to a multiple
of four, and four vectors a pass from there. Both look for zero bytes of a vector
computed from the loaded one, and keep absolute addresses in `offset`. -/

namespace AoclLibmem.Strings

open Base Machine

/-- `_mm256_movemask_epi8(_mm256_cmpeq_epi8(y, y0))`. -/
def zeroMask (y : Lanes 32) : BitVec 32 := movemaskEpi8 (cmpeqEpi8 y setzero)

section Stages
variable (zeros : Lanes 32 → Lanes 32) (pair : Lanes 32 → Lanes 32 → BitVec 32) (m : Memory)

def scanAvx2Step (offset : Nat) : Exec (Step Nat Nat) := do
  let offset := offset + avx2Vec4Sz
  let y1 ← m.load 32 offset
  let y2 ← m.load 32 (offset + 1 * ymmSz)
  let y3 ← m.load 32 (offset + 2 * ymmSz)
  let y4 ← m.load 32 (offset + 3 * ymmSz)
  let y5 := minEpu8 (zeros y1) (zeros y2)
  let y6 := minEpu8 (zeros y3) (zeros y4)
  let ret := zeroMask (minEpu8 y5 y6)
  if ret = 0#32 then return .next offset
  else return .done (pickFour (zeroMask (zeros y1)) (zeroMask y5) (zeroMask (zeros y3)) ret offset)

def scanAvx2Loop (str : Nat) : Exec Nat :=
  iterate .diverged (scanAvx2Step zeros m) budget (str - str % avx2Vec4Sz)

/-- The two vectors up to a multiple of four, when they are not behind the string's start. -/
def scanAvx2Pair (str : Nat) : Exec Nat :=
  if str / avx2Vec4Offset % 2 = 0 then do
    let offset := str - str % avx2Vec4Offset + 2 * ymmSz
    let y1 ← m.load 32 offset
    let y2 ← m.load 32 (offset + ymmSz)
    let ret := pair (zeros y1) (zeros y2)
    if ret ≠ 0#32 then
      let ret1 := zeroMask (zeros y1)
      if ret1 ≠ 0#32 then return tzcnt ret1 + offset
      else return tzcnt ret + offset + ymmSz
    else scanAvx2Loop zeros m str
  else scanAvx2Loop zeros m str

/-- From the end of the first block on: the address of the first zero. -/
def scanAvx2 (str : Nat) : Exec Nat :=
  if str / cacheLineOffset % 2 = 0 then do
    let offset := str - str % cacheLineOffset + ymmSz
    let y1 ← m.load 32 offset
    let ret := zeroMask (zeros y1)
    if ret ≠ 0#32 then return tzcnt ret + offset else scanAvx2Pair zeros pair m str
  else scanAvx2Pair zeros pair m str

end Stages

/-- `_strlen_avx2`. The first mask is an `int32_t`: `>>` is the arithmetic shift. -/
def strlenAvx2 (m : Memory) (str : Nat) : Exec Nat := do
  let ret ←
    if pageSz - ymmSz < str % pageSz then do
      let offset := str % ymmSz
      let y1 ← m.loadu 32 (str - offset)
      pure ((zeroMask y1).sshiftRight offset)
    else do
      let y1 ← m.loadu 32 str
      pure (zeroMask y1)
  if ret ≠ 0#32 then return tzcnt ret
  else
    let offset ← scanAvx2 id (fun y1 y2 =>
      movemaskEpi8 (orSi (cmpeqEpi8 y1 setzero) (cmpeqEpi8 y2 setzero))) m str
    return offset - str

/-- `_strchr_avx2`. The first mask is an `__mmask32`: `>>` is the logical shift. -/
def strchrAvx2 (m : Memory) (str : Nat) (c : Int) : Exec (Option Nat) := do
  let ch := charOfInt c
  let offset := if pageSz - ymmSz < str % pageSz then str % ymmSz else 0
  let y1 ← m.loadu 32 (str - offset)
  let matchMask := zeroMask (matchOrZero ch y1) >>> offset
  if matchMask ≠ 0#32 then matchOrNull m ch (str + tzcnt matchMask)
  else
    let offset ← scanAvx2 (matchOrZero ch) (fun y3 y4 => zeroMask (minEpu8 y3 y4)) m str
    matchOrNull m ch offset

end AoclLibmem.Strings
