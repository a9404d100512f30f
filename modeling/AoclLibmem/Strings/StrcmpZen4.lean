import AoclLibmem.Strings.CompareLoops

/-! `__strcmp_zen4` and `_strncmp_zen4`: one source text compiled with and without `STRNCMP`.
The bound `size` is `none` in the build without it. Each pass of the main loops stays in the
pages that both strings are in at its start. -/

namespace AoclLibmem.Strings

open Base Machine

/-- `PAGE_SAFE_VECS_BYTES`: the bytes from `ptr` to the end of its page. -/
def pageSafeVecsBytes (ptr : Nat) : Nat := pageSz - ptr % pageSz

def pageSafeVecs (ptr : Nat) : Nat := pageSafeVecsBytes ptr / zmmSz

/-- `(a < b) ? a : b`. -/
def lesser (a b : Nat) : Nat := if a < b then a else b

/-- `_mm512_testn_epi8_mask(z1, z1) | _mm512_cmpneq_epu8_mask(z1, z2)`. -/
def testnOrNeq (z1 z2 : Lanes 64) : BitVec 64 := testnEpi8Mask z1 z1 ||| cmpneqEpu8Mask z1 z2

section Stages
variable (load : Nat → Exec (Lanes 64)) (str1 str2 : Nat)

def cmpTestn (offset : Nat) : Exec (BitVec 64) := do
  let z1 ← load (str1 + offset)
  let z2 ← load (str2 + offset)
  return testnOrNeq z1 z2

/-- One of the registers `r0` to `r3` of the macro: zero in the lanes that differ or end. -/
def loadCompare (offset : Nat) : Exec (Lanes 64) := do
  let a ← load (str1 + offset)
  let b ← load (str2 + offset)
  return maskzMovEpi8 (cmpeqEpu8Mask a b) a

/-- `VEC_4X_LOAD_COMPARE_REDUCE`: `ret` and `offset` as the macro leaves them, in `done` where it
breaks out of the enclosing loop. -/
def vec4xLoadCompareReduce (offset : Nat) : Exec (Step (BitVec 64 × Nat) (BitVec 64 × Nat)) := do
  let r0 ← loadCompare load str1 str2 offset
  let r1 ← loadCompare load str1 str2 (offset + zmmSz)
  let r2 ← loadCompare load str1 str2 (offset + 2 * zmmSz)
  let r3 ← loadCompare load str1 str2 (offset + 3 * zmmSz)
  let reduced := minEpu8 (minEpu8 r0 r1) (minEpu8 r2 r3)
  let ret := testnEpi8Mask reduced reduced
  if ret ≠ 0#64 then
    let m0 := testnEpi8Mask r0 r0
    let m1 := testnEpi8Mask r1 r1
    let m2 := testnEpi8Mask r2 r2
    if m0 ≠ 0#64 then return .done (m0, offset)
    else if m1 ≠ 0#64 then return .done (m1, offset + zmmSz)
    else if m2 ≠ 0#64 then return .done (m2, offset + 2 * zmmSz)
    else return .done (testnEpi8Mask r3 r3, offset + 3 * zmmSz)
  else return .next (ret, offset + 4 * zmmSz)

/-- `if (n4) do { ... } while (!ret && --n4)`; `ret` is zero where the loop is skipped. -/
def fourVecsLoop : Nat → Nat → Exec (BitVec 64 × Nat)
  | 0, offset => return (0#64, offset)
  | n4 + 1, offset => do
    match ← vec4xLoadCompareReduce load str1 str2 offset with
    | .done scan => return scan
    | .next scan => if scan.1 ≠ 0#64 then return scan else fourVecsLoop n4 scan.2

/-- The `vecs` vectors from `offset` on, four at a time and then one at a time. -/
def safeVecsPass (found : Nat → Exec Int) (vecs offset : Nat) : Exec (Step Nat Int) := do
  let scan ← fourVecsLoop load str1 str2 (vecs / 4) offset
  if scan.1 ≠ 0#64 then leave (found (tzcnt scan.1 + scan.2))
  else
    let scan ← scanVecs (cmpTestn load str1 str2) (vecs % 4) scan.2
    if scan.1 ≠ 0#64 then leave (found (tzcnt scan.1 + scan.2)) else return .next scan.2

end Stages

section Kernel
variable (m : Memory) (size : Option Nat) (str1 str2 : Nat)

/-- The pair at `offset`, cut to `k` bytes; the other lanes are `0xff` in both. -/
def cmpTestnCut (k offset : Nat) : Exec (BitVec 64) :=
  cmpTestn (m.maskLoadu (set1 0xff) (bzhiOnes k)) str1 str2 offset

/-- The start of the kernel up to the adjustment of `offset`. -/
def strcmpZen4Head : Exec (Step Nat Int) := do
  let dist1 := pageSafeVecsBytes str1
  let dist2 := pageSafeVecsBytes str2
  let safe := lesser dist1 dist2
  let offset := lineOffset str1 str2
  if zmmSz ≤ safe then
    let ret ← cmpTestn (m.loadu 64) str1 str2 0
    if ret ≠ 0#64 then leave (returnVal m size str1 str2 (tzcnt ret))
    else if sizeLe size zmmSz then return .done 0
    else return .next (zmmSz - offset)
  else
    let ret ← cmpTestnCut m str1 str2 safe 0
    if ret ≠ 0#64 then leave (returnVal m size str1 str2 (tzcnt ret))
    else if sizeLe size safe then return .done 0
    else return .next (zmmSz - offset)

def strcmpZen4EqualStep (offset : Nat) : Exec (Step Nat Int) :=
  if sizeLe size offset then return .done 0
  else
    let vecs := lesser (pageSafeVecs (str1 + offset)) (pageSafeVecs (str2 + offset))
    safeVecsPass (m.load 64) str1 str2 (returnVal m size str1 str2) vecs offset

/-- `offset + 3 * ZMM_SZ <= size`, the guard of the entry ramp. -/
def threeFit (offset : Nat) : Bool := size.all fun n => offset + 3 * zmmSz ≤ n

/-- The aligned case: up to three vectors, then the loop. -/
def strcmpZen4Equal (offset : Nat) : Exec Int := do
  let ramp := if threeFit size offset then 3 else 0
  let scan ← scanVecs (cmpTestn (m.load 64) str1 str2) ramp offset
  if scan.1 ≠ 0#64 then returnVal m size str1 str2 (tzcnt scan.1 + scan.2)
  else iterate .diverged (strcmpZen4EqualStep m size str1 str2) budget scan.2

/-- One pass of the loop of the unaligned case; what is left of a page may be less than
a vector. -/
def strcmpZen4MisStep (offset : Nat) : Exec (Step Nat Int) :=
  if sizeLe size offset then return .done 0
  else
    let safeBytes := lesser (pageSafeVecsBytes (str1 + offset)) (pageSafeVecsBytes (str2 + offset))
    let vecs := safeBytes / zmmSz
    if vecs = 0 then do
      let ret ← cmpTestnCut m str1 str2 safeBytes offset
      if ret ≠ 0#64 then leave (returnVal m size str1 str2 (tzcnt ret + offset))
      else return .next (offset + safeBytes)
    else safeVecsPass (m.loadu 64) str1 str2 (returnVal m size str1 str2) vecs offset

def strcmpZen4Text : Exec Int := do
  match ← strcmpZen4Head m size str1 str2 with
  | .done value => return value
  | .next offset =>
    if str1 % zmmSz = str2 % zmmSz then strcmpZen4Equal m size str1 str2 offset
    else iterate .diverged (strcmpZen4MisStep m size str1 str2) budget offset

end Kernel

def strcmpZen4 (m : Memory) (str1 str2 : Nat) : Exec Int := strcmpZen4Text m none str1 str2

/-- `_strncmp_zen4`, and `__strncmp_zen4`, which calls it. -/
def strncmpZen4 (m : Memory) (str1 str2 size : Nat) : Exec Int :=
  if size = 0 then return 0 else strcmpZen4Text m (some size) str1 str2

end AoclLibmem.Strings
