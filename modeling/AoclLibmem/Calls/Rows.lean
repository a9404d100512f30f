import AoclLibmem.Calls.Contract
import AoclLibmem.Copy.MemmoveAvx2
import AoclLibmem.Copy.LegalAccess
import AoclLibmem.Fill.MemsetRights
import AoclLibmem.Compare.MemcmpZen4
import AoclLibmem.Search.MemchrAvx2
import AoclLibmem.Search.MemchrAvx512
import AoclLibmem.Strings.StrcmpZen4Correct
import AoclLibmem.Strings.StrncpyAvx2Correct
import AoclLibmem.Strings.StrncpyAvx2Safety
import AoclLibmem.Strings.StrncpyAvx512Correct
import AoclLibmem.Strings.StrspnCorrect

/-! The columns of the dispatching table: for each kind of processor an implementation of all
seventeen functions, and the calls that it does not answer as it should. -/

namespace AoclLibmem.Calls

open Base Machine Dispatch Strings Compare Search Fill Copy

def pointing (run : Kernel Nat) : Kernel Reply := do
  let address ← run
  return .pointer (some address)

def telling {α : Type} (wrap : α → Reply) (run : Memory → Exec α) : Kernel Reply := do
  let value ← readOnly run
  return wrap value

section Columns
variable (strict : Bool) (cacheInfo : CacheInfo) (thresholds : Thresholds)

/-- `isa/avx2`, and `uarch/zen1`, `uarch/zen2` and `uarch/zen3`, whose functions call these. -/
def avx2 : Call → Kernel Reply
  | .memcpy dst src size =>
      pointing (memcpyAvx2 cacheInfo.l1dPerCore thresholds.ntStartThreshold dst src size)
  | .mempcpy dst src size =>
      pointing (mempcpyAvx2 cacheInfo.l1dPerCore thresholds.ntStartThreshold dst src size)
  | .memmove dst src size => pointing (memmoveAvx2 thresholds.ntStartThreshold dst src size)
  | .memset mem val size => pointing (memsetAvx2 cacheInfo.l3PerCcx mem val size)
  | .memcmp mem1 mem2 size => telling .order fun m => memcmpAvx2 m mem1 mem2 size
  | .memchr mem val size => telling .pointer fun m => memchrAvx2 strict m mem val size
  | .strcpy dst src => pointing (strcpyAvx2 dst src)
  | .strncpy dst src size =>
      pointing (if strict then strncpyAvx2 dst src size else strncpyAvx2Default dst src size)
  | .strcmp str1 str2 => telling .order fun m => strcmpAvx2 m str1 str2
  | .strncmp str1 str2 size => telling .order fun m => strncmpAvx2 m str1 str2 size
  | .strcat dst src => pointing (strcatAvx2 dst src)
  | .strncat dst src n =>
      pointing (strncatAvx2 cacheInfo.l1dPerCore thresholds.ntStartThreshold dst src n)
  | .strstr haystack needle => telling .pointer fun m => strstrAvx2 m haystack needle
  | .strlen str => telling .size fun m => strlenAvx2 m str
  | .strnlen str maxlen => telling .size fun m => strnlenAvx2 m str maxlen
  | .strchr str c => telling .pointer fun m => strchrAvx2 m str c
  | .strspn str accept => telling .size fun m => strspnAvx2 m str accept

/-- `uarch/zen4`. -/
def zen4 : Call → Kernel Reply
  | .memcpy dst src size =>
      pointing (memcpyZen4 cacheInfo.l2PerCore thresholds.ntStartThreshold dst src size)
  | .mempcpy dst src size =>
      pointing (mempcpyZen4 cacheInfo.l2PerCore thresholds.ntStartThreshold dst src size)
  | .memmove dst src size =>
      pointing (memmoveZen4 cacheInfo.l2PerCore thresholds.ntStartThreshold dst src size)
  | .memset mem val size => pointing (memsetZen4 cacheInfo.l2PerCore mem val size)
  | .memcmp mem1 mem2 size => telling .order fun m => memcmpZen4 m mem1 mem2 size
  | .memchr mem val size => telling .pointer fun m => memchrAvx512 strict m mem val size
  | .strcpy dst src => pointing (strcpyZen4 dst src)
  | .strncpy dst src size => pointing (strncpyAvx512 dst src size)
  | .strcmp str1 str2 => telling .order fun m => strcmpZen4 m str1 str2
  | .strncmp str1 str2 size => telling .order fun m => strncmpZen4 m str1 str2 size
  | .strcat dst src => pointing (strcatAvx512 dst src)
  | .strncat dst src n =>
      pointing (strncatAvx2 cacheInfo.l1dPerCore thresholds.ntStartThreshold dst src n)
  | .strstr haystack needle => telling .pointer fun m => strstrAvx512 m haystack needle
  | .strlen str => telling .size fun m => strlenZen4 m str
  | .strnlen str maxlen => telling .size fun m => strnlenAvx512 m str maxlen
  | .strchr str c => telling .pointer fun m => strchrAvx512 m str c
  | .strspn str accept => telling .size fun m => strspnAvx512 m str accept

def avx512With (memcpy mempcpy memmove : Nat → Nat → Nat → Kernel Nat)
    (memset : Nat → BitVec 32 → Nat → Kernel Nat) : Call → Kernel Reply
  | .memcpy dst src size => pointing (memcpy dst src size)
  | .mempcpy dst src size => pointing (mempcpy dst src size)
  | .memmove dst src size => pointing (memmove dst src size)
  | .memset mem val size => pointing (memset mem val size)
  | .memcmp mem1 mem2 size =>
      telling .order fun m => memcmpAvx512 m mem1 mem2 size cacheInfo.l1dPerCore
  | .memchr mem val size => telling .pointer fun m => memchrAvx512 strict m mem val size
  | .strcpy dst src => pointing (strcpyAvx512 dst src)
  | .strncpy dst src size => pointing (strncpyAvx512 dst src size)
  | .strcmp str1 str2 => telling .order fun m => strcmpAvx512 m str1 str2
  | .strncmp str1 str2 size => telling .order fun m => strncmpAvx512 m str1 str2 size
  | .strcat dst src => pointing (strcatAvx512 dst src)
  | .strncat dst src n =>
      pointing (strncatAvx512 cacheInfo.l1dPerCore thresholds.ntStartThreshold dst src n)
  | .strstr haystack needle => telling .pointer fun m => strstrAvx512 m haystack needle
  | .strlen str => telling .size fun m => strlenAvx512 m str
  | .strnlen str maxlen => telling .size fun m => strnlenAvx512 m str maxlen
  | .strchr str c => telling .pointer fun m => strchrAvx512 m str c
  | .strspn str accept => telling .size fun m => strspnAvx512 m str accept

/-- `uarch/zen5`. -/
def zen5 : Call → Kernel Reply :=
  let erms (build : Build) (dst src size : Nat) :=
    memcpyAvx512Erms cacheInfo.l1dPerCore thresholds.ntStartThreshold dst src size build
  avx512With strict cacheInfo thresholds (erms .memcpy)
    (mempcpyZen5 cacheInfo.l1dPerCore thresholds.ntStartThreshold) (erms .memmove)
    (memsetAvx512Erms thresholds.repstoreStartThreshold thresholds.repstoreStopThreshold)

/-- `isa/avx512`. -/
def avx512 : Call → Kernel Reply :=
  let plain (build : Build) (dst src size : Nat) :=
    memcpyAvx512 cacheInfo.l2PerCore thresholds.ntStartThreshold dst src size build
  avx512With strict cacheInfo thresholds (plain .memcpy)
    (mempcpyAvx512 cacheInfo.l2PerCore thresholds.ntStartThreshold) (plain .memmove) memsetAvx512

end Columns

section Fine
variable (m : Memory)

/-- The needle is found where it stands and nowhere else, and is not compared with bytes that are
not mapped. -/
def FindsNeedle (haystack needle vecSz : Nat) (ghost : Prop) : Prop :=
  ∀ T L, IsLength m.byte haystack T → IsLength m.byte needle L →
    GhostsMapped m haystack needle T vecSz ghost ∧ ¬ FalseMatch m.byte haystack needle T L vecSz ghost

/-- The same for 512 bits, where moreover a needle of one byte is looked for by `strchr`. -/
def FindsNeedle512 (haystack needle : Nat) : Prop :=
  FindsNeedle m haystack needle zmmSz (m.byte needle = 0xff) ∧
    (IsLength m.byte needle 1 → ¬ SentinelHides m.byte haystack (m.byte needle))

/-- The calls that the AVX2 functions answer as they should. -/
def avx2Fine (strict : Bool) : Call → Prop
  | .memcmp mem1 mem2 size => ∀ k < size, FirstHit (Differs m.byte mem1 mem2) k → FitsTail size k
  | .strncpy _ src size => strict = true → ¬ Overruns m src size
  | .strncmp str1 str2 size => ¬ OverreadsAvx2 m str1 str2 size
  | .strstr haystack needle => FindsNeedle m haystack needle ymmSz
      (m.byte (haystack + ymmSz - haystack % ymmSz - 1) = m.byte needle)
  | _ => True

def zen4Fine : Call → Prop
  | .memcmp mem1 mem2 size => ∀ k < size, FirstHit (Differs m.byte mem1 mem2) k → FitsRemainder size k
  | .strstr haystack needle => FindsNeedle512 m haystack needle
  | .strchr str c => ¬ SentinelHides m.byte str (charOfInt c)
  | _ => True

def avx512Fine : Call → Prop
  | .strncmp str1 str2 size => ¬ OverreadsAvx512 m str1 str2 size
  | .strstr haystack needle => FindsNeedle512 m haystack needle
  | .strchr str c => ¬ SentinelHides m.byte str (charOfInt c)
  | _ => True

end Fine

end AoclLibmem.Calls
