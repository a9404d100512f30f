import AoclLibmem.Strings.BoundedScan
import AoclLibmem.Strings.ScanAvx2Correct

/-! `_strnlen_avx2`. The source is that of `_strlen_avx2` with a bound in every stage; `ret`
is passed from stage to stage, as the loops look at it again where they have not run. -/

namespace AoclLibmem.Strings

open Base Machine

/-- `(rem >= 32) ? UINT32_MAX : ((1U << rem) - 1)`. -/
def lowMask (rem : Nat) : BitVec 32 := if 32 ≤ rem then BitVec.allOnes 32 else (1#32 <<< rem) - 1#32

section Kernel
variable (m : Memory) (str maxlen : Nat)

/-- The vector at `offset`, cut to the `rem` bytes below `maxlen`. -/
def partialAvx2 (offset rem : Nat) : Exec Nat := do
  let y1 ← m.loadu 32 (str + offset)
  let ret := zeroMask y1 &&& lowMask rem
  if ret ≠ 0#32 then return tzcnt ret + offset else return maxlen

/-- The first block. Behind a page end with few bytes left the next block is looked at too. -/
def strnlenAvx2First : Exec (Step (BitVec 32) Nat) := do
  if pageSz - ymmSz < str % pageSz then
    let offset := str % ymmSz
    let y1 ← m.loadu 32 (str - offset)
    let ret := (zeroMask y1).sshiftRight offset
    if ret ≠ 0#32 then return .done (clip maxlen (tzcnt ret))
    else
      let safeBytes := ymmSz - offset
      if maxlen ≤ safeBytes then return .done maxlen
      else if maxlen ≤ ymmSz then
        return .done (← partialAvx2 m str maxlen safeBytes (maxlen - safeBytes))
      else return .next ret
  else if maxlen < ymmSz then return .done (← partialAvx2 m str maxlen 0 maxlen)
  else
    let y1 ← m.loadu 32 str
    let ret := zeroMask y1
    if ret ≠ 0#32 then return .done (tzcnt ret)
    else if maxlen ≤ ymmSz then return .done maxlen
    else return .next ret

def strnlenAvx2Four (offset : Nat) : Exec (Step (BitVec 32) Nat) := do
  let y1 ← m.load 32 (str + offset)
  let y2 ← m.load 32 (str + offset + 1 * ymmSz)
  let y3 ← m.load 32 (str + offset + 2 * ymmSz)
  let y4 ← m.load 32 (str + offset + 3 * ymmSz)
  let y5 := minEpu8 y1 y2
  let y6 := minEpu8 y3 y4
  let ret := zeroMask (minEpu8 y5 y6)
  if ret ≠ 0#32 then
    return .done (clip maxlen (pickFour (zeroMask y1) (zeroMask y5) (zeroMask y3) ret offset))
  else return .next ret

def strnlenAvx2One (offset : Nat) : Exec (Step (BitVec 32) Nat) := do
  let y1 ← m.loadu 32 (str + offset)
  let ret := zeroMask y1
  if ret ≠ 0#32 then return .done (clip maxlen (tzcnt ret + offset)) else return .next ret

def strnlenAvx2Last (offset : Nat) : Exec Nat := do
  if offset < maxlen then
    let y1 ← m.loadu 32 (str + offset)
    let ret := zeroMask y1 &&& lowMask (maxlen - offset)
    if ret ≠ 0#32 then return clip maxlen (tzcnt ret + offset) else return maxlen
  else return maxlen

def strnlenAvx2Main : BitVec 32 × Nat → Exec Nat :=
  fitMain maxlen (strnlenAvx2Four m str maxlen) (strnlenAvx2One m str maxlen)
    (strnlenAvx2Last m str maxlen) avx2Vec4Sz ymmSz

/-- The two vectors up to a multiple of four, or the jump into the main loop instead. -/
def strnlenAvx2Pair (ret : BitVec 32) : Exec Nat := do
  let mainOffset := str - str % avx2Vec4Sz + avx2Vec4Sz - str
  if str / avx2Vec4Offset % 2 = 0 then
    let offset := str - str % avx2Vec4Offset + 2 * ymmSz
    if maxlen < addSize (offset - str) (2 * ymmSz) then strnlenAvx2Main m str maxlen (ret, offset - str)
    else
      let y1 ← m.load 32 offset
      let y2 ← m.load 32 (offset + ymmSz)
      let y3 := cmpeqEpi8 y1 setzero
      let y4 := cmpeqEpi8 y2 setzero
      let ret := movemaskEpi8 (orSi y3 y4)
      if ret ≠ 0#32 then
        let ret1 := movemaskEpi8 y3
        if ret1 ≠ 0#32 then return clip maxlen (tzcnt ret1 + offset - str)
        else return clip maxlen (tzcnt ret + offset + ymmSz - str)
      else strnlenAvx2Main m str maxlen (ret, mainOffset)
  else strnlenAvx2Main m str maxlen (ret, mainOffset)

/-- The vector up to a multiple of two. -/
def strnlenAvx2Line (ret : BitVec 32) : Exec Nat := do
  if str / cacheLineOffset % 2 = 0 then
    let offset := str - str % cacheLineOffset + ymmSz
    if maxlen < addSize (offset - str) ymmSz then
      if maxlen ≤ offset - str then return maxlen
      else partialAvx2 m str maxlen (offset - str) (maxlen - (offset - str))
    else
      let y1 ← m.load 32 offset
      let ret := zeroMask y1
      if ret ≠ 0#32 then return clip maxlen (tzcnt ret + offset - str)
      else strnlenAvx2Pair m str maxlen ret
  else strnlenAvx2Pair m str maxlen ret

def strnlenAvx2 : Exec Nat := do
  if maxlen = 0 then return 0
  else
    match ← strnlenAvx2First m str maxlen with
    | .done len => return len
    | .next ret => strnlenAvx2Line m str maxlen ret

end Kernel

end AoclLibmem.Strings
