import AoclLibmem.Strings.BlockSearch
import AoclLibmem.Strings.ScanAvx2
import AoclLibmem.Strings.StrcmpAvx2

/-! `_strstr_avx2`: the vectors of the haystack are searched for the first byte of the
needle, the candidates thinned out and then compared with `_strncmp_avx2`. -/

namespace AoclLibmem.Strings

open Base Machine

/-- `_mm256_movemask_epi8(_mm256_cmpeq_epi8(a, b))`. -/
def equalMaskAvx2 (a b : Lanes 32) : BitVec 32 := movemaskEpi8 (cmpeqEpi8 a b)

def applyFilterAvx2 (m : Memory) (haystack offset needleLen : Nat) (keys : Broadcast 32)
    (matchMask : BitVec 32) : Exec (BitVec 32) :=
  applyFilterBy equalMaskAvx2 m haystack offset needleLen keys matchMask

/-- `process_full_search_avx2`: candidates up to the first NUL, lowest first. -/
def processFullSearchAvx2 (m : Memory) (haystack needle needleLen baseOffset : Nat)
    (matchMask nullMask : BitVec 32) : Exec (Option Nat) :=
  let matchMask := matchMask &&&
    (if nullMask ≠ 0#32 then nullMask ^^^ (nullMask - 1#32) else BitVec.allOnes 32)
  whileBits (fun matchIdx => do
    let ret ← strncmpAvx2 m (haystack + matchIdx + baseOffset) needle needleLen
    if ret = 0 then return .done (some (haystack + matchIdx + baseOffset)) else return .next ())
    matchMask

/-- One block: the filter when `filtering` says so, then the full search. -/
def searchBlockAvx2 (m : Memory) (haystack needle needleLen : Nat) (keys : Broadcast 32)
    (offset : Nat) (matchMask nullMask : BitVec 32) (filtering : Bool) : Exec (Option Nat) := do
  let matchMask ← (if filtering then applyFilterAvx2 m haystack offset needleLen keys matchMask
    else pure matchMask)
  if matchMask ≠ 0#32 then
    processFullSearchAvx2 m haystack needle needleLen offset matchMask nullMask
  else return none

/-- `null_mask` and `match_mask` of the first block. `movemask` is an `int`, so before the
end of a page both are shifted arithmetically. -/
def firstBlockAvx2 (m : Memory) (haystack : Nat) (needleFirst : Lanes 32) :
    Exec (BitVec 32 × BitVec 32) := do
  if pageSz - ymmSz < haystack % pageSz then
    let offset := haystack % ymmSz
    let y1 ← m.loadu 32 (haystack - offset)
    return ((equalMaskAvx2 setzero y1).sshiftRight offset,
      (equalMaskAvx2 needleFirst y1).sshiftRight offset)
  else
    let y1 ← m.loadu 32 haystack
    return (equalMaskAvx2 y1 setzero, equalMaskAvx2 needleFirst y1)

def strstrAvx2Step (m : Memory) (haystack needle needleLen : Nat) (keys : Broadcast 32) :
    Nat → Exec (Step Nat (Option Nat)) :=
  searchStep equalMaskAvx2 (fun offset matchMask nullMask =>
    searchBlockAvx2 m haystack needle needleLen keys offset matchMask nullMask
      (decide (matchMask &&& ~~~nullMask ≠ 0#32))) m haystack keys

def strstrAvx2Broadcasting (m : Memory) (haystack needle needleLen : Nat) : Exec (Option Nat) := do
  let keys ← broadcastNeedle 32 m needle needleLen
  let (nullMask, matchMask) ← firstBlockAvx2 m haystack keys.first
  let nullIdx := if nullMask ≠ 0#32 then tzcnt nullMask else ymmSz
  let filtering := decide (matchMask ≠ 0#32 ∧ (nullMask = 0#32 ∨ nullIdx > 1))
  searchFrom (searchBlockAvx2 m haystack needle needleLen keys 0 matchMask nullMask filtering)
    (strstrAvx2Step m haystack needle needleLen keys) haystack needleLen nullMask nullIdx

def strstrAvx2 (m : Memory) (haystack needle : Nat) : Exec (Option Nat) :=
  strstrBy (strchrAvx2 m) (strlenAvx2 m) (strstrAvx2Broadcasting m) m haystack needle

end AoclLibmem.Strings
