import AoclLibmem.Strings.BlockSearch
import AoclLibmem.Strings.ScanAvx512
import AoclLibmem.Strings.StrcmpAvx512

/-! `_strstr_avx512`: as `_strstr_avx2`, with a masked first load, and with the cut at the
terminator made inside the loop over the candidates. -/

namespace AoclLibmem.Strings

open Base Machine

/-- `_mm512_cmpeq_epi8_mask`: equality is the same signed and unsigned. -/
def equalMaskAvx512 (a b : Lanes 64) : BitVec 64 := cmpeqEpu8Mask a b

/-- `load_and_check_first_block`: `z1`, `null_mask` and `null_idx`. -/
def loadAndCheckFirstBlock (m : Memory) (haystack offset : Nat) :
    Exec (Lanes 64 × BitVec 64 × Nat) := do
  if pageSz - zmmSz < haystack % pageSz then
    let haystackLoadMask := headMask offset
    let z1 ← m.maskLoadu (set1 0xff) haystackLoadMask haystack
    let nullMask := equalMaskAvx512 z1 setzero &&& haystackLoadMask
    return (z1, nullMask, if nullMask ≠ 0#64 then tzcnt nullMask else zmmSz)
  else
    let z1 ← m.loadu 64 haystack
    let nullMask := equalMaskAvx512 z1 setzero
    return (z1, nullMask, if nullMask ≠ 0#64 then tzcnt nullMask else zmmSz)

def applyFilter (m : Memory) (haystack offset needleLen : Nat) (keys : Broadcast 64)
    (matchMask : BitVec 64) : Exec (BitVec 64) :=
  applyFilterBy equalMaskAvx512 m haystack offset needleLen keys matchMask

/-- The loop over the candidates of one block; it breaks off where the needle would run
over the terminator. -/
def searchMatchesAvx512 (m : Memory) (haystack needle needleLen offset : Nat)
    (matchMask nullMask : BitVec 64) : Exec (Option Nat) :=
  whileBits (fun matchIdx => do
    let absolutePos := offset + matchIdx
    if nullMask ≠ 0#64 ∧ matchIdx + needleLen > tzcnt nullMask then return .done none
    else
      let ret ← strncmpAvx512 m (haystack + absolutePos) needle needleLen
      if ret = 0 then return .done (some (haystack + absolutePos)) else return .next ())
    matchMask

/-- One block: the filter when some candidate is no NUL, then the loop over the
candidates when `entering` says so of what is left. -/
def searchBlockAvx512 (m : Memory) (haystack needle needleLen : Nat) (keys : Broadcast 64)
    (offset : Nat) (matchMask nullMask : BitVec 64) (entering : BitVec 64 → Bool) :
    Exec (Option Nat) := do
  let matchMask ← (if matchMask &&& ~~~nullMask ≠ 0#64 then
    applyFilter m haystack offset needleLen keys matchMask else pure matchMask)
  if entering matchMask then
    searchMatchesAvx512 m haystack needle needleLen offset matchMask nullMask
  else return none

def strstrAvx512Step (m : Memory) (haystack needle needleLen : Nat) (keys : Broadcast 64) :
    Nat → Exec (Step Nat (Option Nat)) :=
  searchStep equalMaskAvx512 (fun offset matchMask nullMask =>
    searchBlockAvx512 m haystack needle needleLen keys offset matchMask nullMask
      fun left => decide (left &&& ~~~nullMask ≠ 0#64)) m haystack keys

/-- `_strstr_avx512_broadcasting`. The match mask of the first block is not restricted to
the lanes that were loaded. -/
def strstrAvx512Broadcasting (m : Memory) (haystack needle needleLen : Nat) : Exec (Option Nat) := do
  let keys ← broadcastNeedle 64 m needle needleLen
  let (z1, nullMask, nullIdx) ← loadAndCheckFirstBlock m haystack (haystack % zmmSz)
  searchFrom (searchBlockAvx512 m haystack needle needleLen keys 0 (equalMaskAvx512 keys.first z1)
      nullMask fun left => decide (left ≠ 0#64))
    (strstrAvx512Step m haystack needle needleLen keys) haystack needleLen nullMask nullIdx

def strstrAvx512 (m : Memory) (haystack needle : Nat) : Exec (Option Nat) :=
  strstrBy (strchrAvx512 m) (strlenAvx512 m) (strstrAvx512Broadcasting m) m haystack needle

end AoclLibmem.Strings
