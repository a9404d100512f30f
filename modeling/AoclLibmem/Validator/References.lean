import AoclLibmem.Strings.Strcat
import AoclLibmem.Strings.StrspnSpec
import AoclLibmem.Search.MemchrSpec
import AoclLibmem.Compare.MemcmpMapped

/-! The functions that `libmem_validator.c` compares the library with. They go from byte to byte, and
look at no byte that they need not know. -/

namespace AoclLibmem.Validator

open Base Machine Strings

section Reading
variable (m : Memory)

/-- `test_memchr`: a `char` is compared with an `int`. -/
def testMemchr (src : Nat) (ch : Int) (len : Nat) : Exec (Option Nat) :=
  iterate .diverged (fun n =>
    if n < len then do
      let b ← m.byteAt (src + n)
      if intOfChar b = ch then return .done (some (src + n)) else return .next (n + 1)
    else return .done none) budget 0

def testMemcmp (s1 s2 n : Nat) : Exec Int :=
  iterate .diverged (fun i =>
    if i < n then do
      let b1 ← m.byteAt (s1 + i)
      let b2 ← m.byteAt (s2 + i)
      if b1 ≠ b2 then return .done (b1.toNat - b2.toNat) else return .next (i + 1)
    else return .done 0) budget 0

def byteGap (str1 str2 i : Nat) : Exec Int := do
  let b1 ← m.byteAt (str1 + i)
  let b2 ← m.byteAt (str2 + i)
  return b1.toNat - b2.toNat

def strcmpIndex (str1 str2 : Nat) : Exec Nat :=
  iterate .diverged (fun i => do
    let b1 ← m.byteAt (str1 + i)
    if b1 = 0 then return .done i
    let b2 ← m.byteAt (str2 + i)
    if b1 = b2 then return .next (i + 1) else return .done i) budget 0

def testStrcmp (str1 str2 : Nat) : Exec Int := do
  let i ← strcmpIndex m str1 str2
  byteGap m str1 str2 i

def stringCmpIndex (str1 str2 size : Nat) : Exec Nat :=
  iterate .diverged (fun i => do
    let b1 ← m.byteAt (str1 + i)
    if b1 = 0 then return .done i
    let b2 ← m.byteAt (str2 + i)
    if b2 ≠ 0 ∧ b2 = b1 ∧ i < subSize size 1 then return .next (i + 1) else return .done i) budget 0

def stringCmp (str1 str2 size : Nat) : Exec Int := do
  let i ← stringCmpIndex m str1 str2 size
  byteGap m str1 str2 i

/-- The inner loop of `test_strstr`: how far the two strings go together. -/
def matchLength (p1 str2 : Nat) : Exec Nat :=
  iterate .diverged (fun j => do
    let b1 ← m.byteAt (p1 + j)
    if b1 = 0 then return .done j
    let b2 ← m.byteAt (str2 + j)
    if b2 ≠ 0 ∧ b1 = b2 then return .next (j + 1) else return .done j) budget 0

def strstrPass (str1 str2 i : Nat) : Exec (Step Nat (Option Nat)) := do
  let b ← m.byteAt (str1 + i)
  if b = 0 then return .done none
  let c ← m.byteAt str2
  if b = c then
    let j ← matchLength m (str1 + i) str2
    let stop ← m.byteAt (str2 + j)
    if stop = 0 then return .done (some (str1 + i)) else return .next (i + 1)
  else return .next (i + 1)

def testStrstr (str1 str2 : Nat) : Exec (Option Nat) := do
  let first ← m.byteAt str2
  if first = 0 then return some str1
  iterate .diverged (strstrPass m str1 str2) budget 0

def acceptsByte (str2 : Nat) (c : UInt8) : Exec Bool :=
  iterate .diverged (fun j => do
    let b ← m.byteAt (str2 + j)
    if b = 0 then return .done false
    if b = c then return .done true else return .next (j + 1)) budget 0

def testStrspn (str1 str2 : Nat) : Exec Nat :=
  iterate .diverged (fun count => do
    let b ← m.byteAt (str1 + count)
    if b = 0 then return .done count
    let found ← acceptsByte m str2 b
    if found then return .next (count + 1) else return .done count) budget 0

def testStrchr (s : Nat) (c : Int) : Exec (Option Nat) :=
  iterate .diverged (fun i => do
    let b ← m.byteAt (s + i)
    if b ≠ charOfInt c then
      if b = 0 then return .done none else return .next (i + 1)
    else return .done (some (s + i))) budget 0

/-- `while (*dst != NULL_TERM_CHAR) dst++;`, as an index. -/
def endOf (dst : Nat) : Exec Nat :=
  iterate .diverged (fun i => do
    let b ← m.byteAt (dst + i)
    if b ≠ 0 then return .next (i + 1) else return .done i) budget 0

end Reading

section Writing
variable (dst src n : Nat)

/-- `*dst++ = *src++`, and the byte that was copied. -/
def copyByte (k : Nat) : Kernel (Lanes 1) := do
  let b ← vecLoad 1 .unaligned (src + k)
  vecStore 1 .unaligned (dst + k) b
  return b

def testMemcpy : Kernel Nat :=
  loopM .diverged (fun k =>
    if k < n then do
      let _ ← copyByte dst src k
      return .next (k + 1)
    else return .done dst) budget 0

def testStrcpy : Kernel Nat :=
  loopM .diverged (fun k => do
    let b ← copyByte dst src k
    if b 0 ≠ 0 then return .next (k + 1) else return .done dst) budget 0

/-- `while (n-- && *src != NULL_TERM_CHAR) *dst++ = *src++;`, and where it stops. -/
def appendLoop : Kernel Nat :=
  loopM .diverged (fun k =>
    if k < n then do
      let b ← vecLoad 1 .unaligned (src + k)
      if b 0 ≠ 0 then
        let _ ← copyByte dst src k
        return .next (k + 1)
      else return .done k
    else return .done k) budget 0

/-- The loop, and the NUL behind what it copied. -/
def appendAtMost : Kernel Nat := do
  let last ← appendLoop dst src n
  vecStore 1 .unaligned (dst + last) setzero
  return dst

def testStrncat : Kernel Nat := do
  let offset ← readOnly fun m => endOf m dst
  let _ ← appendAtMost (dst + offset) src n
  return dst

/-- `test_strcat_common`: without a bound it is a `strcat`. -/
def testStrcatCommon : Kernel Nat := do
  let offset ← readOnly fun m => endOf m dst
  let _ ← (if n = 0 then testStrcpy (dst + offset) src else appendAtMost (dst + offset) src n)
  return dst

end Writing

end AoclLibmem.Validator
