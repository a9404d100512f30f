import AoclLibmem.Strings.CompareLoops

/-! `_strcmp_avx2` and `_strncmp_avx2`: one source text compiled with and without
`STRNCMP`. The bound `size` is `none` in the build without it. -/

namespace AoclLibmem.Strings

open Base Machine

/-- `y_cmp`, `y_null` and `movemask(y_cmp & y_null) + 1`: zero when every lane is
equal and not NUL, else its lowest set bit is the first lane that is not. The
sum is taken in the width of the mask, as `ret` holds it. -/
def cmpNull {n : Nat} (y1 y2 : Lanes n) : BitVec n :=
  let cmp := cmpeqEpi8 y1 y2
  let null := andnotSi (cmpeqEpi8 y1 setzero) (set1 0xFF)
  movemaskEpi8 (andSi cmp null) + 1#n

/-- `_mm_loadu_si16`, `_si32`, `_si64`, `_si128`: `k` bytes, the upper lanes zero. -/
def loadLow (m : Memory) (k : Nat) (addr : Nat) : Exec (Lanes 16) := do
  let low ← m.loadu k addr
  return fun i => if inside : i.val < k then low ⟨i, inside⟩ else 0

/-- One compare of `_strcmp_ble_ymm`: `k` bytes of each string, `keep` the mask the
source applies to `ret` (all of its 16 bits for a whole XMM). -/
def cmpXmm (m : Memory) (k : Nat) (keep : BitVec 16) (str1 str2 : Nat) : Exec (BitVec 16) := do
  let x1 ← loadLow m k str1
  let x2 ← loadLow m k str2
  return cmpNull x1 x2 &&& keep

/-- One size class of `_strcmp_ble_ymm`: the first `k` bytes, then the last `k`. -/
def cmpHeadTail (m : Memory) (k : Nat) (keep : BitVec 16) (str1 str2 : Nat) (size : Nat) :
    Exec Nat := do
  let ret ← cmpXmm m k keep str1 str2
  if ret ≠ 0#16 then return tzcnt ret
  else
    let cmpIdx := size - k
    let ret ← cmpXmm m k keep (str1 + cmpIdx) (str2 + cmpIdx)
    if ret ≠ 0#16 then return cmpIdx + tzcnt ret
    else return ymmSz

/-- `_strcmp_ble_ymm`: the first deciding index below `size`, or `YMM_SZ`. -/
def strcmpBleYmm (m : Memory) (str1 str2 : Nat) (size : Nat) : Exec Nat := do
  if size = 1 then
    let c1 ← m.byteAt str1
    let c2 ← m.byteAt str2
    if c1 = c2 ∧ c1 ≠ 0 then return ymmSz else return 0
  else if size ≤ 2 * wordSz then cmpHeadTail m wordSz 0x3#16 str1 str2 size
  else if size ≤ 2 * dwordSz then cmpHeadTail m dwordSz 0xf#16 str1 str2 size
  else if size ≤ 2 * qwordSz then cmpHeadTail m qwordSz 0xff#16 str1 str2 size
  else if size ≤ 2 * xmmSz then cmpHeadTail m xmmSz 0xffff#16 str1 str2 size
  else return ymmSz

def cmpYmm (load1 load2 : Nat → Exec (Lanes 32)) (str1 str2 : Nat) (offset : Nat) :
    Exec (BitVec 32) := do
  let y1 ← load1 (str1 + offset)
  let y2 ← load2 (str2 + offset)
  return cmpNull y1 y2

/-- The start of the kernel up to the adjustment of `offset`: it returns, or hands
on the offset at which the loops start. -/
def strcmpAvx2Head (m : Memory) (size : Option Nat) (str1 str2 : Nat) : Exec (Step Nat Int) := do
  let offset := lineOffset str1 str2
  if pageSz - 2 * ymmSz < (str1 ||| str2) % pageSz then
    if offset < ymmSz then
      let ret ← cmpYmm (m.loadu 32) (m.loadu 32) str1 str2 0
      if ret ≠ 0#32 then leave (returnVal m size str1 str2 (tzcnt ret))
      else if sizeLe size (ymmSz - offset) then return .done 0
      else
        let cmpIdx ← strcmpBleYmm m (str1 + ymmSz) (str2 + ymmSz) (ymmSz - offset)
        -- no bound check follows here when the rest of the line is equal
        if cmpIdx ≠ ymmSz then leave (returnVal m size str1 str2 (cmpIdx + ymmSz))
        else return .next (2 * ymmSz - offset)
    else
      let cmpIdx ← strcmpBleYmm m str1 str2 (2 * ymmSz - offset)
      if cmpIdx ≠ ymmSz then leave (returnVal m size str1 str2 cmpIdx)
      else if sizeLe size (2 * ymmSz - offset) then return .done 0
      else return .next (2 * ymmSz - offset)
  else
    let ret ← cmpYmm (m.loadu 32) (m.loadu 32) str1 str2 0
    if ret ≠ 0#32 then leave (returnVal m size str1 str2 (tzcnt ret))
    else if sizeLe size ymmSz then return .done 0
    else
      let ret ← cmpYmm (m.loadu 32) (m.loadu 32) str1 str2 ymmSz
      if ret ≠ 0#32 then leave (returnVal m size str1 str2 (tzcnt ret + ymmSz))
      else if sizeLe size (2 * ymmSz) then return .done 0
      else return .next (2 * ymmSz - offset)

/-- Both strings at one position of the line: the two loops of aligned loads. -/
def strcmpAvx2Equal (m : Memory) (size : Option Nat) (str1 str2 : Nat) (offset : Nat) : Exec Int :=
  equalLoops (cmpYmm (m.load 32) (m.load 32) str1 str2) size (returnVal m size str1 str2) offset

/-- `vecs_in_page`: whole vectors left in the page of the unaligned string. -/
def vecsInPageAvx2 (unalignedStr offset : Nat) : Nat :=
  (pageSz - (unalignedStr + offset) % pageSz) / ymmSz

/-- The bytes before the end of the page of `unalignedStr`. -/
def strcmpAvx2Edge (m : Memory) (size : Option Nat) (str1 str2 alignedStr unalignedStr : Nat)
    (offset : Nat) : Exec (Step Nat Int) := do
  let left := ymmSz - (unalignedStr + offset) % ymmSz
  let cmpIdx ← strcmpBleYmm m (alignedStr + offset) (unalignedStr + offset) left
  if cmpIdx ≠ ymmSz then leave (returnVal m size str1 str2 (cmpIdx + offset))
  else if sizeLe size (offset + left) then return .done 0
  else return .next (offset + left)

/-- One pass of the mis-aligned loop after the roles are chosen: the vectors left in
the page of `unalignedStr`, then the bytes before its end. -/
def strcmpAvx2Pass (m : Memory) (size : Option Nat) (str1 str2 alignedStr unalignedStr : Nat)
    (offset : Nat) : Exec (Step Nat Int) :=
  pageLoops (cmpYmm (m.load 32) (m.loadu 32) alignedStr unalignedStr) size
    (returnVal m size str1 str2) (fun offset => sizeGuard size offset (4 * ymmSz))
    (strcmpAvx2Edge m size str1 str2 alignedStr unalignedStr) (vecsInPageAvx2 unalignedStr offset)
    offset

def strcmpAvx2MisStep (m : Memory) (size : Option Nat) (str1 str2 : Nat) (offset : Nat) :
    Exec (Step Nat Int) :=
  if (str1 + offset) % ymmSz = 0 then strcmpAvx2Pass m size str1 str2 str1 str2 offset
  else if (str2 + offset) % ymmSz = 0 then strcmpAvx2Pass m size str1 str2 str2 str1 offset
  else do
    let ret ← cmpYmm (m.loadu 32) (m.loadu 32) str1 str2 offset
    if ret ≠ 0#32 then leave (returnVal m size str1 str2 (tzcnt ret + offset))
    else if sizeLe size (offset + ymmSz) then return .done 0
    else return .next (offset + ymmSz)

def strcmpAvx2Text (m : Memory) (size : Option Nat) (str1 str2 : Nat) : Exec Int := do
  match ← strcmpAvx2Head m size str1 str2 with
  | .done value => return value
  | .next offset =>
    if str1 % cachelineSz = str2 % cachelineSz then strcmpAvx2Equal m size str1 str2 offset
    else iterate .diverged (strcmpAvx2MisStep m size str1 str2) budget offset

def strcmpAvx2 (m : Memory) (str1 str2 : Nat) : Exec Int := strcmpAvx2Text m none str1 str2

def strncmpAvx2 (m : Memory) (str1 str2 : Nat) (size : Nat) : Exec Int :=
  if size = 0 then return 0 else strcmpAvx2Text m (some size) str1 str2

end AoclLibmem.Strings
