import AoclLibmem.Machine.Memory
import AoclLibmem.Machine.Membership

/-! `_strspn_avx2` and `_strspn_avx512`: a comparison for a single accepted character,
`_mm_cmpistri` for up to sixteen of them, and a table for more. -/

namespace AoclLibmem.Strings

open Base Machine

section Loops
variable {w : Nat} (stops : Lanes w → BitVec w) (m : Memory) (s : Nat)

def spanStep (ptr : Nat) : Exec (Step Nat Nat) := do
  let block ← m.load w ptr
  let stop := stops block
  if stop ≠ 0#w then return .done (ptr - s + tzcnt stop) else return .next (ptr + w)

/-- A single accepted character: the vector below `s`, and from there on vector by vector. -/
def spanSingle : Exec Nat := do
  let ptr := s - s % w
  let skip := s % w
  let block ← m.load w ptr
  let stop := stops block >>> skip
  if stop ≠ 0#w then return tzcnt stop
  else iterate .diverged (spanStep stops m s) budget (ptr + w)

/-- A first chunk that ends the search or hands on an address, which is aligned downwards for
the loop. -/
def spanFrom (w : Nat) (first : Exec (Step Nat Nat)) (step : Nat → Exec (Step Nat Nat)) : Exec Nat := do
  match ← first with
  | .done idx => return idx
  | .next ptr => iterate .diverged step budget (ptr - ptr % w)

end Loops

def neqOrNulYmm (c : UInt8) (block : Lanes 32) : BitVec 32 :=
  let neq := andnotSi (cmpeqEpi8 block (set1 c)) (set1 0xff)
  let nul := cmpeqEpi8 block setzero
  movemaskEpi8 (orSi neq nul)

def neqOrNulZmm (c : UInt8) (block : Lanes 64) : BitVec 64 :=
  cmpneqEpu8Mask block (set1 c) ||| cmpeqEpu8Mask block setzero

section Cmpistri
variable (m : Memory) (s accept : Nat) (acceptVec : Lanes 16)

/-- One pass of the loops with `_mm_cmpistri`. -/
def cmpistriStep (ptr : Nat) : Exec (Step Nat Nat) := do
  let block ← m.load xmmSz ptr
  let idx := cmpistri acceptVec block
  if idx < xmmSz then return .done (ptr - s + idx)
  else
    let block ← m.load xmmSz (ptr + xmmSz)
    let idx := cmpistri acceptVec block
    if idx < xmmSz then return .done (ptr - s + xmmSz + idx)
    else return .next (ptr + 2 * xmmSz)

/-- The first chunk; before a page end it is read by `edge`. -/
def cmpistriFirst (edge : Exec (Step Nat Nat)) : Exec (Step Nat Nat) :=
  if s % pageSz ≤ pageSz - xmmSz then do
    let block ← m.loadu xmmSz s
    let idx := cmpistri acceptVec block
    if idx < xmmSz then return .done idx else return .next (s + xmmSz)
  else edge

/-- `while (*a && *a != c) a++`, and the character it stops at. -/
def findAccept (c : UInt8) : Exec UInt8 :=
  iterate .diverged (fun a => do
    let b ← m.byteAt a
    if b ≠ 0 ∧ b ≠ c then return .next (a + 1) else return .done b) budget accept

/-- Byte by byte up to a multiple of 16. -/
def edgeStepAvx2 (ptr : Nat) : Exec (Step Nat (Step Nat Nat)) :=
  if ptr % 16 ≠ 0 then do
    let c ← m.byteAt ptr
    if c = 0 then return .done (.done (ptr - s))
    else
      let a ← findAccept m accept c
      if a = 0 then return .done (.done (ptr - s)) else return .next (ptr + 1)
  else return .done (.next ptr)

def edgeAvx2 : Exec (Step Nat Nat) := iterate .diverged (edgeStepAvx2 m s accept) budget s

/-- `_mm512_castsi512_si128(_mm512_mask_loadu_epi8(_mm512_setzero_si512(), mask, addr))` with the
mask `_bzhi_u32(0xFFFF, safe)`. -/
def loadSafe (safe addr : Nat) : Exec (Lanes 16) := do
  let mask : BitVec 16 := (bzhi 0xffff#32 safe).setWidth 16
  let z ← m.maskLoadu setzero (mask.setWidth 64) addr
  return castsi512Si128 z

def edgeAvx512 : Exec (Step Nat Nat) := do
  let safe := pageSz - s % pageSz
  let block ← loadSafe m safe s
  let idx := cmpistri acceptVec block
  if idx < safe then return .done idx else return .next (s + safe)

/-- `for (int i = 0; i < XMM_SZ && accept[i]; i++) buf[i] = accept[i];`. -/
def acceptBuf : Exec (Lanes 16) :=
  iterate .diverged (fun state : Nat × Lanes 16 =>
    if inside : state.1 < 16 then do
      let b ← m.byteAt (accept + state.1)
      if b ≠ 0 then return .next (state.1 + 1, Function.update state.2 ⟨state.1, inside⟩ b)
      else return .done state.2
    else return .done state.2) budget (0, setzero)

def loadAcceptAvx2 : Exec (Lanes 16) :=
  if pageSz - xmmSz < accept % pageSz then acceptBuf m accept else m.loadu 16 accept

def loadAcceptAvx512 : Exec (Lanes 16) :=
  if pageSz - xmmSz < accept % pageSz then do
    let safeBytes := pageSz - accept % pageSz
    let acceptVec ← loadSafe m safeBytes accept
    let safeMask : BitVec 16 := (bzhi 0xffff#32 safeBytes).setWidth 16
    let nullsInSafe := movemaskEpi8 (cmpeqEpi8 acceptVec setzero) &&& safeMask
    if nullsInSafe = 0#16 then m.loadu 16 accept else return acceptVec
  else m.loadu 16 accept

/-- `!null_mask && accept[XMM_SZ]`, for `_strspn_avx512` the negation of
`null_mask || !accept[16]`. -/
def acceptIsLong : Exec Bool :=
  let nullMask := movemaskEpi8 (cmpeqEpi8 acceptVec setzero)
  if nullMask = 0#16 then do
    let b ← m.byteAt (accept + xmmSz)
    return b != 0
  else return false

end Cmpistri

section Table
variable (m : Memory) (s accept : Nat)

/-- The loop that enters the accepted characters into a table of zeros. -/
def buildLut (entry : UInt8 → UInt8) : Exec (Lanes 256) :=
  iterate .diverged (fun state : Nat × Lanes 256 => do
    let c ← m.byteAt state.1
    if c ≠ 0 then return .next (state.1 + 1, Function.update state.2 c.toFin (entry c))
    else return .done state.2) budget (accept, setzero)

/-- One pass of the unrolled loop of `_strspn_avx2`. -/
def lutStepAvx2 (lut : Lanes 256) (ptr : Nat) : Exec (Step Nat Nat) := do
  let c0 ← m.byteAt ptr
  if lut c0.toFin = 0 then return .done (ptr - s)
  else
    let c1 ← m.byteAt (ptr + 1)
    if lut c1.toFin = 0 then return .done (ptr + 1 - s)
    else
      let c2 ← m.byteAt (ptr + 2)
      if lut c2.toFin = 0 then return .done (ptr + 2 - s)
      else
        let c3 ← m.byteAt (ptr + 3)
        if lut c3.toFin = 0 then return .done (ptr + 3 - s) else return .next (ptr + 4)

def membershipMaskLut (bytes : Lanes 64) (lut : Fin 4 → Lanes 64) : BitVec 64 :=
  let idx := andSi bytes (set1 0x3f)
  let r0 := cmpltEpu8Mask bytes (set1 64)
  let r1 := cmpltEpu8Mask bytes (set1 128)
  let r2 := cmpltEpu8Mask bytes (set1 192)
  let v0 := permutexvarEpi8 idx (lut 0)
  let v1 := permutexvarEpi8 idx (lut 1)
  let v2 := permutexvarEpi8 idx (lut 2)
  let v3 := permutexvarEpi8 idx (lut 3)
  let result := maskBlendEpi8 r0 (maskBlendEpi8 r1 (maskBlendEpi8 r2 v3 v2) v1) v0
  cmpneqEpu8Mask result setzero

/-- `null_mask_avx | (~member)`. -/
def nullOrMissing (lut : Fin 4 → Lanes 64) (block : Lanes 64) : BitVec 64 :=
  cmpeqEpu8Mask block setzero ||| ~~~membershipMaskLut block lut

def lutFirstAvx512 (lut : Fin 4 → Lanes 64) : Exec (Step Nat Nat) :=
  if pageSz - zmmSz < s % pageSz then do
    let safeBytes := pageSz - s % pageSz
    let loadMask : BitVec 64 := bzhiOnes safeBytes
    let block ← m.maskLoadu setzero loadMask s
    let nullMask := maskCmpeqEpi8Mask loadMask block setzero
    let stop := (nullMask ||| ~~~membershipMaskLut block lut) &&& loadMask
    if stop ≠ 0#64 then return .done (tzcnt stop) else return .next (s + safeBytes)
  else do
    let block ← m.loadu zmmSz s
    let stop := nullOrMissing lut block
    if stop ≠ 0#64 then return .done (tzcnt stop) else return .next (s + zmmSz)

end Table

/-- What the two kernels share: the tests that select a strategy. -/
def strspnBy (m : Memory) (s accept : Nat) (single : UInt8 → Exec Nat) (loadAccept : Exec (Lanes 16))
    (table : Exec Nat) (short : Lanes 16 → Exec Nat) : Exec Nat := do
  let a0 ← m.byteAt accept
  if a0 = 0 then return 0
  else
    let s0 ← m.byteAt s
    if s0 = 0 then return 0
    else
      let a1 ← m.byteAt (accept + 1)
      if a1 = 0 then single a0
      else
        let acceptVec ← loadAccept
        let long ← acceptIsLong m accept acceptVec
        if long then table else short acceptVec

def strspnAvx2 (m : Memory) (s accept : Nat) : Exec Nat :=
  strspnBy m s accept (fun a0 => spanSingle (neqOrNulYmm a0) m s) (loadAcceptAvx2 m accept)
    (do
      let lut ← buildLut m accept fun c => c
      iterate .diverged (lutStepAvx2 m s lut) budget s)
    fun acceptVec =>
      spanFrom 16 (cmpistriFirst m s acceptVec (edgeAvx2 m s accept)) (cmpistriStep m s acceptVec)

def strspnAvx512 (m : Memory) (s accept : Nat) : Exec Nat :=
  strspnBy m s accept (fun a0 => spanSingle (neqOrNulZmm a0) m s) (loadAcceptAvx512 m accept)
    (do
      let lut ← buildLut m accept fun _ => 0xff
      let lut := quarters lut
      spanFrom 64 (lutFirstAvx512 m s lut) (spanStep (nullOrMissing lut) m s))
    fun acceptVec =>
      spanFrom 16 (cmpistriFirst m s acceptVec (edgeAvx512 m s acceptVec)) (cmpistriStep m s acceptVec)

end AoclLibmem.Strings
