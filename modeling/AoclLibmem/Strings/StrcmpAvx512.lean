import AoclLibmem.Strings.CompareLoops

/-! `_strcmp_avx512` and `_strncmp_avx512`: one source text compiled with and without
`STRNCMP`. The bound `size` is `none` in the build without it. -/

namespace AoclLibmem.Strings

open Base Machine

/-- `_mm512_cmpeq_epu8_mask(z1, z0) | _mm512_cmpneq_epu8_mask(z1, z2)`. -/
def nullOrNeq (z1 z2 : Lanes 64) : BitVec 64 := cmpeqEpu8Mask z1 setzero ||| cmpneqEpu8Mask z1 z2

def cmpZmm (load1 load2 : Nat → Exec (Lanes 64)) (str1 str2 offset : Nat) : Exec (BitVec 64) := do
  let z1 ← load1 (str1 + offset)
  let z2 ← load2 (str2 + offset)
  return nullOrNeq z1 z2

/-- The masked pair before a page end: the last `k` lanes are `0xff` in both. -/
def cmpZmmHead (m : Memory) (k str1 str2 offset : Nat) : Exec (BitVec 64) :=
  let masked := m.maskLoadu (set1 0xff) (headMask k)
  cmpZmm masked masked str1 str2 offset

def strcmpAvx512Head (m : Memory) (size : Option Nat) (str1 str2 : Nat) : Exec (Step Nat Int) := do
  let offset := lineOffset str1 str2
  if pageSz - zmmSz < (str1 ||| str2) % pageSz then
    let ret ← cmpZmmHead m offset str1 str2 0
    if ret ≠ 0#64 then leave (returnVal m size str1 str2 (tzcnt ret))
    else if sizeLe size (zmmSz - offset) then return .done 0
    else return .next (zmmSz - offset)
  else
    let ret ← cmpZmm (m.loadu 64) (m.loadu 64) str1 str2 0
    if ret ≠ 0#64 then leave (returnVal m size str1 str2 (tzcnt ret))
    else if sizeLe size zmmSz then return .done 0
    else return .next (zmmSz - offset)

def strcmpAvx512Equal (m : Memory) (size : Option Nat) (str1 str2 offset : Nat) : Exec Int :=
  equalLoops (cmpZmm (m.load 64) (m.load 64) str1 str2) size (returnVal m size str1 str2) offset

/-- `vecs_in_page`: whole vectors left in the page of the unaligned string. -/
def vecsInPageAvx512 (unalignedStr offset : Nat) : Nat :=
  (pageSz - (unalignedStr + offset) % pageSz) / zmmSz

/-- `offset + 4 * ZMM_SZ <= size`, the guard of the mis-aligned loop. Four whole vectors are
left in a page, so the sum stays inside the address space. -/
def fourFit (size : Option Nat) (offset : Nat) : Bool := size.all fun n => offset + 4 * zmmSz ≤ n

/-- The bytes before the end of the page of `unalignedStr`. -/
def strcmpAvx512Edge (m : Memory) (size : Option Nat) (str1 str2 alignedStr unalignedStr : Nat)
    (offset : Nat) : Exec (Step Nat Int) := do
  let position := (unalignedStr + offset) % zmmSz
  let ret ← cmpZmmHead m position alignedStr unalignedStr offset
  if ret ≠ 0#64 then leave (returnVal m size str1 str2 (tzcnt ret + offset))
  else if sizeLe size (offset + (zmmSz - position)) then return .done 0
  else return .next (offset + (zmmSz - position))

def strcmpAvx512Pass (m : Memory) (size : Option Nat) (str1 str2 alignedStr unalignedStr : Nat)
    (offset : Nat) : Exec (Step Nat Int) :=
  pageLoops (cmpZmm (m.load 64) (m.loadu 64) alignedStr unalignedStr) size
    (returnVal m size str1 str2) (fourFit size)
    (strcmpAvx512Edge m size str1 str2 alignedStr unalignedStr)
    (vecsInPageAvx512 unalignedStr offset) offset

def strcmpAvx512MisStep (m : Memory) (size : Option Nat) (str1 str2 : Nat) (offset : Nat) :
    Exec (Step Nat Int) :=
  if (str1 + offset) % zmmSz = 0 then strcmpAvx512Pass m size str1 str2 str1 str2 offset
  else if (str2 + offset) % zmmSz = 0 then strcmpAvx512Pass m size str1 str2 str2 str1 offset
  else do
    let ret ← cmpZmm (m.loadu 64) (m.loadu 64) str1 str2 offset
    if ret ≠ 0#64 then leave (returnVal m size str1 str2 (tzcnt ret + offset))
    else if sizeLe size (offset + zmmSz) then return .done 0
    else return .next (offset + zmmSz)

def strcmpAvx512Text (m : Memory) (size : Option Nat) (str1 str2 : Nat) : Exec Int := do
  match ← strcmpAvx512Head m size str1 str2 with
  | .done value => return value
  | .next offset =>
    if str1 % cachelineSz = str2 % cachelineSz then strcmpAvx512Equal m size str1 str2 offset
    else iterate .diverged (strcmpAvx512MisStep m size str1 str2) budget offset

def strcmpAvx512 (m : Memory) (str1 str2 : Nat) : Exec Int := strcmpAvx512Text m none str1 str2

/-- `_strncmp_avx512`, and `__strncmp_zen5`, which calls it. -/
def strncmpAvx512 (m : Memory) (str1 str2 size : Nat) : Exec Int :=
  if size = 0 then return 0 else strcmpAvx512Text m (some size) str1 str2

end AoclLibmem.Strings
