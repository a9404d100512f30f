import AoclLibmem.Strings.SearchSpec

/-! `_strlen_avx512`, `__strlen_zen4` and `_strchr_avx512`: a first block, seven vectors, the vectors up
to a multiple of four, and four vectors a pass from there. -/

namespace AoclLibmem.Strings

open Base Machine

/-- The stages between the first block and the main loop. -/
def scanLineAvx512 {α : Type} (probe7 probe4 : Nat → Exec (BitVec 64)) (found main : Nat → Exec α)
    (str offset : Nat) : Exec α := do
  let scan ← scanVecs probe7 7 offset
  if scan.1 ≠ 0#64 then found (tzcnt scan.1 + scan.2)
  else
    let cntVec := 4 - (str + scan.2) % (4 * zmmSz) / zmmSz
    let scan ← scanVecs probe4 cntVec scan.2
    if scan.1 ≠ 0#64 then found (tzcnt scan.1 + scan.2) else main scan.2

/-- `_mm512_cmpeq_epu8_mask(z, z0)` of the vector at `offset`. -/
def nullZmm (load : Nat → Exec (Lanes 64)) (str offset : Nat) : Exec (BitVec 64) := do
  let z ← load (str + offset)
  return cmpeqEpu8Mask z setzero

def strlenAvx512Step (m : Memory) (str offset : Nat) : Exec (Step Nat Nat) := do
  let z1 ← m.load 64 (str + offset)
  let z2 ← m.load 64 (str + offset + zmmSz)
  let z3 ← m.load 64 (str + offset + 2 * zmmSz)
  let z4 ← m.load 64 (str + offset + 3 * zmmSz)
  let z5 := minEpu8 z1 z2
  let z6 := minEpu8 z3 z4
  let ret := cmpeqEpu8Mask (minEpu8 z5 z6) setzero
  if ret ≠ 0#64 then
    return .done (pickFour (cmpeqEpu8Mask z1 setzero) (cmpeqEpu8Mask z5 setzero)
      (cmpeqEpu8Mask z3 setzero) ret offset)
  else return .next (offset + 4 * zmmSz)

/-- The two sources differ in the mask of the lanes before the page end. -/
def strlenZmm (safeMask : Nat → BitVec 64) (m : Memory) (str : Nat) : Exec Nat := do
  let offset := str % zmmSz
  let ret ←
    if pageSz - zmmSz < str % pageSz then
      nullZmm (m.maskLoadu (set1 0xff) (safeMask offset)) str 0
    else nullZmm (m.loadu 64) str 0
  if ret ≠ 0#64 then return tzcnt ret
  else
    let probe := nullZmm (m.load 64) str
    scanLineAvx512 probe probe pure
      (iterate .diverged (strlenAvx512Step m str) budget) str (zmmSz - offset)

def strlenAvx512 : Memory → Nat → Exec Nat := strlenZmm headMask

def strlenZen4 : Memory → Nat → Exec Nat := strlenZmm fun offset => bzhiOnes (zmmSz - offset)

/-- The test by `_mm512_cmpeq_epu8_mask` against zero. -/
def chZmm (load : Nat → Exec (Lanes 64)) (ch : UInt8) (str offset : Nat) : Exec (BitVec 64) := do
  let z ← load (str + offset)
  return cmpeqEpu8Mask (matchOrZero ch z) setzero

/-- The test of the seven vectors, by `_mm512_testn_epi8_mask`. -/
def chZmmTestn (load : Nat → Exec (Lanes 64)) (ch : UInt8) (str offset : Nat) :
    Exec (BitVec 64) := do
  let z ← load (str + offset)
  let zmin := matchOrZero ch z
  return testnEpi8Mask zmin zmin

/-- One pass of the main loop of `_strchr_avx512`. The masks are of lanes that match
neither `ch` nor NUL, chained from vector to vector. -/
def strchrAvx512Step (m : Memory) (ch : UInt8) (str offset : Nat) :
    Exec (Step Nat (Option Nat)) := do
  let zch := set1 ch
  let z1 ← m.load 64 (str + offset)
  let z2 ← m.load 64 (str + offset + 1 * zmmSz)
  let z3 ← m.load 64 (str + offset + 2 * zmmSz)
  let z4 ← m.load 64 (str + offset + 3 * zmmSz)
  let matchMask1 := cmpneqEpu8Mask z1 zch
  let matchMask2 := cmpneqEpu8Mask z2 zch
  let z2 := minEpu8 z1 z2
  let matchMask3 := maskCmpneqEpu8Mask matchMask1 z3 zch
  let matchMask4 := maskCmpneqEpu8Mask matchMask2 z4 zch
  let z4 := maskzMinEpu8 matchMask3 z2 (minEpu8 z3 z4)
  let matchMask := maskTestEpi8Mask matchMask4 z4 z4
  if matchMask = BitVec.allOnes 64 then return .next (offset + 4 * zmmSz)
  else
    let matchMask1 := maskTestEpi8Mask matchMask1 z1 z1
    let matchMask2 := maskTestEpi8Mask matchMask2 z2 z2
    let matchMask3 := maskTestEpi8Mask matchMask3 z3 z3
    let result ←
      if matchMask1 ≠ BitVec.allOnes 64 then matchOrNull m ch (str + tzcnt (~~~matchMask1) + offset)
      else if matchMask2 ≠ BitVec.allOnes 64 then
        matchOrNull m ch (str + tzcnt (~~~matchMask2) + offset + 1 * zmmSz)
      else if matchMask3 ≠ BitVec.allOnes 64 then
        matchOrNull m ch (str + tzcnt (~~~matchMask3) + offset + 2 * zmmSz)
      else matchOrNull m ch (str + tzcnt (~~~matchMask) + offset + 3 * zmmSz)
    return .done result

def strchrAvx512 (m : Memory) (str : Nat) (c : Int) : Exec (Option Nat) := do
  let ch := charOfInt c
  let offset := str % zmmSz
  let ret ←
    if pageSz - zmmSz < str % pageSz then
      -- the lanes behind the page end hold 0xff, whatever `ch` is
      chZmm (m.maskLoadu (set1 0xff) (bzhiOnes (zmmSz - offset))) ch str 0
    else chZmm (m.loadu 64) ch str 0
  let found := fun idx => matchOrNull m ch (str + idx)
  if ret ≠ 0#64 then found (tzcnt ret)
  else
    scanLineAvx512 (chZmmTestn (m.load 64) ch str) (chZmm (m.load 64) ch str) found
      (iterate .diverged (strchrAvx512Step m ch str) budget) str (zmmSz - offset)

end AoclLibmem.Strings
