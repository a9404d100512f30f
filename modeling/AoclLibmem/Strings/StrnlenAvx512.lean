import AoclLibmem.Strings.BoundedScan
import AoclLibmem.Strings.ScanAvx512Correct

/-! `_strnlen_avx512`, which is `_strlen_avx512` with a bound in every stage. -/

namespace AoclLibmem.Strings

open Base Machine

section Kernel
variable (m : Memory) (str maxlen : Nat)

/-- The `rem` bytes from `offset` up to `maxlen`: the other lanes are not loaded. -/
def partialAvx512 (offset rem : Nat) : Exec Nat := do
  let mask := bzhiOnes rem
  let z ← m.maskLoadu setzero mask (str + offset)
  let ret := cmpeqEpu8Mask z setzero &&& mask
  if ret ≠ 0#64 then return tzcnt ret + offset else return maxlen

/-- The first block, up to `offset = ZMM_SZ - offset`. -/
def strnlenAvx512First : Exec (Step (BitVec 64) Nat) := do
  let offset := str % zmmSz
  if pageSz - zmmSz < str % pageSz then
    let safeBytes := min maxlen (zmmSz - offset)
    let mask := bzhi (headMask offset) (safeBytes + offset)
    let ret ← nullZmm (m.maskLoadu (set1 0xff) mask) str 0
    if ret ≠ 0#64 then return .done (clip maxlen (tzcnt ret))
    else if maxlen ≤ safeBytes then return .done maxlen
    else return .next ret
  else
    let loadSize := if maxlen < zmmSz then maxlen else zmmSz
    if loadSize < zmmSz then return .done (← partialAvx512 m str maxlen 0 loadSize)
    else
      let ret ← nullZmm (m.loadu 64) str 0
      if ret ≠ 0#64 then return .done (tzcnt ret) else return .next ret

def strnlenAvx512One (offset : Nat) : Exec (Step (BitVec 64) Nat) := do
  let ret ← nullZmm (m.load 64) str offset
  if ret ≠ 0#64 then return .done (tzcnt ret + offset) else return .next ret

def strnlenAvx512Four (offset : Nat) : Exec (Step (BitVec 64) Nat) := do
  let z1 ← m.load 64 (str + offset)
  let z2 ← m.load 64 (str + offset + zmmSz)
  let z3 ← m.load 64 (str + offset + 2 * zmmSz)
  let z4 ← m.load 64 (str + offset + 3 * zmmSz)
  let z5 := minEpu8 z1 z2
  let z6 := minEpu8 z3 z4
  let ret := cmpeqEpu8Mask (minEpu8 z5 z6) setzero
  if ret ≠ 0#64 then
    return .done (pickFour (cmpeqEpu8Mask z1 setzero) (cmpeqEpu8Mask z5 setzero)
      (cmpeqEpu8Mask z3 setzero) ret offset)
  else return .next ret

def strnlenAvx512Last (offset : Nat) : Exec Nat :=
  if offset < maxlen then partialAvx512 m str maxlen offset (maxlen - offset) else return maxlen

def strnlenAvx512Main : BitVec 64 × Nat → Exec Nat :=
  fitMain maxlen (strnlenAvx512Four m str) (strnlenAvx512One m str) (strnlenAvx512Last m str maxlen)
    avx512Vec4Sz zmmSz

def strnlenAvx512Line (ret : BitVec 64) (offset : Nat) : Exec Nat := do
  match ← fitVecs maxlen (strnlenAvx512One m str) zmmSz 7 (ret, offset) with
  | .done pos => return pos
  | .next (ret, offset) =>
    if offset < maxlen ∧ maxlen < addSize offset zmmSz then
      partialAvx512 m str maxlen offset (maxlen - offset)
    else
      let cntVec := 4 - (str + offset) % (4 * zmmSz) / zmmSz
      match ← fitVecs maxlen (strnlenAvx512One m str) zmmSz cntVec (ret, offset) with
      | .done pos => return pos
      | .next state => strnlenAvx512Main m str maxlen state

def strnlenAvx512 : Exec Nat := do
  if maxlen = 0 then return 0
  else
    match ← strnlenAvx512First m str maxlen with
    | .done len => return len
    | .next ret =>
      let offset := zmmSz - str % zmmSz
      if maxlen ≤ offset then return maxlen else strnlenAvx512Line m str maxlen ret offset

end Kernel

end AoclLibmem.Strings
