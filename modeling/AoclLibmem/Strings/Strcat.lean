import AoclLibmem.Strings.StrcpyCorrect
import AoclLibmem.Strings.StrnlenAvx2Correct
import AoclLibmem.Strings.StrnlenAvx512Correct
import AoclLibmem.Copy.MemcpyAvx2
import AoclLibmem.Copy.MemcpyAvx512Erms

/-! `strcat` and `strncat`, put together from the searches and the copies: what is appended
begins at the old terminator and ends with a new one. -/

namespace AoclLibmem.Strings

open Base Machine Copy

section Kernel

def strcatBy (strlen : Memory → Nat → Exec Nat) (strcpy : Nat → Nat → Kernel Nat) (dst src : Nat) :
    Kernel Nat := do
  let offset ← readOnly fun m => strlen m dst
  let _ ← strcpy (dst + offset) src
  return dst

def strcatAvx2 (dst src : Nat) : Kernel Nat := strcatBy strlenAvx2 strcpyAvx2 dst src

def strcatAvx512 (dst src : Nat) : Kernel Nat := strcatBy strlenAvx512 strcpyAvx512 dst src

/-- `if (copy_len > 0) memcpy(dst, src, copy_len)`. -/
def copySome (memcpy : Nat → Nat → Nat → Kernel Nat) (dst src copyLen : Nat) : Kernel Unit :=
  if copyLen > 0 then do
    let _ ← memcpy dst src copyLen
    pure ()
  else pure ()

def strncatBy (strlen : Memory → Nat → Exec Nat) (strnlen : Memory → Nat → Nat → Exec Nat)
    (memcpy : Nat → Nat → Nat → Kernel Nat) (dst src n : Nat) : Kernel Nat :=
  if n = 0 then return dst
  else do
    let dstLen ← readOnly fun m => strlen m dst
    let copyLen ← readOnly fun m => strnlen m src n
    copySome memcpy (dst + dstLen) src copyLen
    vecStore 1 .unaligned (dst + dstLen + copyLen) setzero
    return dst

variable (l1dPerCore ntStartThreshold dst src n : Nat)

def strncatAvx2 : Kernel Nat :=
  strncatBy strlenAvx2 strnlenAvx2 (memcpyAvx2 l1dPerCore ntStartThreshold) dst src n

def strncatAvx512 : Kernel Nat :=
  strncatBy strlenAvx512 strnlenAvx512
    (fun dst src size => memcpyAvx512Erms l1dPerCore ntStartThreshold dst src size .memcpy) dst src n

end Kernel

/-- `copyLen` bytes of the source and a NUL stand behind the first `dstLen` bytes of the
destination, and nothing else has changed. -/
structure Appended (before after : Memory) (dst dstLen src copyLen : Nat) : Prop where
  copied : ∀ i < copyLen, after.byte (dst + dstLen + i) = before.byte (src + i)
  ends : after.byte (dst + dstLen + copyLen) = 0
  frame : ∀ a, ¬ (dst + dstLen ≤ a ∧ a ≤ dst + dstLen + copyLen) → after.byte a = before.byte a

/-- What a caller of strcat provides: two strings, and room behind the first for the second. -/
structure StrcatCall (m : PagedMemory) (dst src dstLen len : Nat) : Prop where
  dstEnds : IsLength m.byte dst dstLen
  dstRange : dstLen < sizeRange
  dstSource : ∀ i ≤ dstLen, m.readable (dst + i) = true
  copies : StrcpyCall m (dst + dstLen) src len

/-- What a caller of strncat provides: `copyLen` bytes come before the first NUL of the source
and before index `n`. They need not end, and lie anywhere but where they are written to. -/
structure StrncatCall (m : PagedMemory) (dst src n dstLen copyLen : Nat) : Prop where
  dstEnds : IsLength m.byte dst dstLen
  dstSource : ∀ i ≤ dstLen, m.readable (dst + i) = true
  range : n < sizeRange
  bounded : IsBoundedLength m.byte src n copyLen
  source : ∀ i < n, i ≤ copyLen → m.readable (src + i) = true
  target : ∀ i ≤ copyLen, m.writable (dst + dstLen + i) = true
  apart : dst + dstLen + copyLen < src ∨ src + copyLen ≤ dst + dstLen
  dstBelow : dst + dstLen + copyLen < sizeRange
  srcBelow : src + copyLen ≤ sizeRange

def appendText (byte : Nat → UInt8) (src copyLen i : Nat) : UInt8 :=
  if i < copyLen then byte (src + i) else 0

section Strcat
variable {start : PagedMemory} {dst src dstLen len : Nat}
variable {strlen : Memory → Nat → Exec Nat} {strcpy : Nat → Nat → Kernel Nat}

theorem strcatBy_writes (found : strlen start.toMemory dst = .ok dstLen)
    (copies : Triple (CopiedTo start.toMemory (dst + dstLen) src (len + 1) 0) (strcpy (dst + dstLen) src)
      fun result m => result = dst + dstLen ∧
        CopiedTo start.toMemory (dst + dstLen) src (len + 1) (len + 1) m) :
    Triple (fun m => m = start.toMemory) (strcatBy strlen strcpy dst src) fun result m => result = dst ∧
      CopiedTo start.toMemory (dst + dstLen) src (len + 1) (len + 1) m := by
  refine (readOnly_triple found).bind fun offset => ?_
  apply triple_fact
  rintro rfl
  refine (copies.from ?_).bind fun _ => ?_
  · rintro _ rfl
    exact copiedTo_start _ _ _ _
  · exact triple_pure fun m written => ⟨rfl, written.2⟩

theorem StrcatCall.appended {m : Memory} (call : StrcatCall start dst src dstLen len)
    (all : CopiedTo start.toMemory (dst + dstLen) src (len + 1) (len + 1) m) :
    Appended start.toMemory m dst dstLen src len := by
  have copied := all.copied call.copies.clear
  refine ⟨fun i below => copied.1 i (by omega), ?_, fun a outside => ?_⟩
  · exact (copied.1 len (Nat.lt_succ_self len)).trans call.copies.ends.1
  · exact copied.2 a (by omega)

private theorem strcatBy_appends (call : StrcatCall start dst src dstLen len)
    (found : strlen start.toMemory dst = .ok dstLen)
    (copies : Triple (CopiedTo start.toMemory (dst + dstLen) src (len + 1) 0) (strcpy (dst + dstLen) src)
      fun result m => result = dst + dstLen ∧
        CopiedTo start.toMemory (dst + dstLen) src (len + 1) (len + 1) m) :
    ∃ after, strcatBy strlen strcpy dst src start.toMemory = .ok (dst, after) ∧
      Appended start.toMemory after dst dstLen src len := by
  obtain ⟨_, after, returned, rfl, all⟩ := strcatBy_writes found copies start.toMemory rfl
  exact ⟨after, returned, call.appended all⟩

end Strcat

section Strncat
variable {start : PagedMemory} {dst src n dstLen copyLen : Nat}
variable {strlen : Memory → Nat → Exec Nat} {strnlen : Memory → Nat → Nat → Exec Nat}
variable {memcpy : Nat → Nat → Nat → Kernel Nat}

theorem appended_of_written {m : Memory}
    (all : Written start.toMemory (dst + dstLen) (copyLen + 1) (appendText start.byte src copyLen)
      (· < copyLen + 1) m) : Appended start.toMemory m dst dstLen src copyLen where
  copied i below := (all.text i (by omega)).trans (if_pos below)
  ends := (all.text copyLen (Nat.lt_succ_self copyLen)).trans (if_neg (Nat.lt_irrefl copyLen))
  frame a outside := all.frame a (by omega)

theorem StrncatCall.written_nothing (call : StrncatCall start dst src 0 dstLen copyLen) :
    Written start.toMemory (dst + dstLen) (copyLen + 1) (appendText start.byte src copyLen)
      (· < copyLen + 1) start.toMemory := by
  obtain rfl : copyLen = 0 := Nat.le_zero.mp call.bounded.within
  refine ⟨Framed.refl _ _ _, fun j below => ?_⟩
  obtain rfl : j = 0 := by omega
  exact call.dstEnds.1

private theorem copySome_written
    (copies : Triple (Progress start.toMemory dst src ∅) (memcpy dst src copyLen)
      (Complete start.toMemory dst src copyLen)) :
    Triple (fun m => m = start.toMemory) (copySome memcpy dst src copyLen)
      fun _ => Written start.toMemory dst (copyLen + 1) (appendText start.byte src copyLen)
        (· < copyLen) := by
  apply triple_ite
  · intro some
    refine (copies.from ?_).bind fun _ => ?_
    · rintro _ rfl
      exact Progress.refl _ dst src
    · apply triple_pure
      rintro m ⟨⟨-, copied, frame⟩, readable, writable⟩
      refine ⟨⟨readable, writable, fun a outside => frame a (by omega)⟩, fun j below => ?_⟩
      exact (copied j below).trans (if_pos below).symm
  · intro none
    apply triple_pure
    rintro _ rfl
    exact (Written.refl _ dst _ _).mono fun j below => none (Nat.zero_lt_of_lt below)

theorem storeNul_written (target : start.canWrite dst (copyLen + 1) = true) :
    Triple (Written start.toMemory dst (copyLen + 1) (appendText start.byte src copyLen) (· < copyLen))
      (vecStore 1 .unaligned (dst + copyLen) setzero)
      fun _ => Written start.toMemory dst (copyLen + 1) (appendText start.byte src copyLen)
        (· < copyLen + 1) := by
  apply written_store target allows_unaligned (Nat.le_refl _)
  · intro i _
    exact (if_neg (by omega)).symm
  · intro i below
    by_cases old : i < copyLen
    · exact .inl old
    · exact .inr ⟨by omega, by omega⟩

theorem StrncatCall.canWrite (call : StrncatCall start dst src n dstLen copyLen) :
    start.canWrite (dst + dstLen) (copyLen + 1) = true :=
  Memory.canWrite_iff.mpr fun i below => call.target i (Nat.le_of_lt_succ below)

theorem strncatBy_writes (call : StrncatCall start dst src n dstLen copyLen)
    (found : strlen start.toMemory dst = .ok dstLen)
    (counted : strnlen start.toMemory src n = .ok copyLen)
    (copies : Triple (Progress start.toMemory (dst + dstLen) src ∅) (memcpy (dst + dstLen) src copyLen)
      (Complete start.toMemory (dst + dstLen) src copyLen)) :
    Triple (fun m => m = start.toMemory) (strncatBy strlen strnlen memcpy dst src n)
      fun result m => result = dst ∧ Written start.toMemory (dst + dstLen) (copyLen + 1)
        (appendText start.byte src copyLen) (· < copyLen + 1) m := by
  apply triple_ite
  · rintro rfl
    apply triple_pure
    rintro _ rfl
    exact ⟨rfl, call.written_nothing⟩
  · intro some
    refine (readOnly_triple found).bind fun offset => ?_
    apply triple_fact
    rintro rfl
    refine (readOnly_triple counted).bind fun count => ?_
    apply triple_fact
    rintro rfl
    refine (copySome_written copies).bind fun _ => ?_
    refine (storeNul_written call.canWrite).bind fun _ => ?_
    exact triple_pure fun m all => ⟨rfl, all⟩

private theorem strncatBy_appends (call : StrncatCall start dst src n dstLen copyLen)
    (found : strlen start.toMemory dst = .ok dstLen)
    (counted : strnlen start.toMemory src n = .ok copyLen)
    (copies : Triple (Progress start.toMemory (dst + dstLen) src ∅) (memcpy (dst + dstLen) src copyLen)
      (Complete start.toMemory (dst + dstLen) src copyLen)) :
    ∃ after, strncatBy strlen strnlen memcpy dst src n start.toMemory = .ok (dst, after) ∧
      Appended start.toMemory after dst dstLen src copyLen := by
  obtain ⟨_, after, returned, rfl, all⟩ :=
    strncatBy_writes call found counted copies start.toMemory rfl
  exact ⟨after, returned, appended_of_written all⟩

end Strncat

section Calls
variable {start : PagedMemory} {dst src n dstLen len copyLen : Nat}

theorem StrncatCall.buffers (call : StrncatCall start dst src n dstLen copyLen) :
    Buffers start.toMemory (dst + dstLen) src copyLen where
  source i below := call.source i (Nat.lt_of_lt_of_le below call.bounded.within) (Nat.le_of_lt below)
  target i below := call.target i (Nat.le_of_lt below)

/-- Source and target fill no more than the address space together. -/
theorem StrncatCall.room (call : StrncatCall start dst src n dstLen copyLen) :
    copyLen + pageSz ≤ sizeRange := by
  have dstBelow := call.dstBelow
  have srcBelow := call.srcBelow
  have apart := call.apart
  rw [sizeRange_eq] at dstBelow srcBelow ⊢
  simp only [pageSz]
  omega

theorem StrncatCall.dstRange (call : StrncatCall start dst src n dstLen copyLen) :
    dstLen < sizeRange := by
  have below := call.dstBelow
  omega

theorem StrncatCall.copyRange (call : StrncatCall start dst src n dstLen copyLen) :
    copyLen < sizeRange :=
  Nat.lt_of_le_of_lt call.bounded.within call.range

theorem StrncatCall.strnlenAvx2_eq (call : StrncatCall start dst src n dstLen copyLen) :
    strnlenAvx2 start.toMemory src n = .ok copyLen :=
  returns_boundedLength (strnlenAvx2_ends (call.bounded.needs call.source)
    (call.bounded.room call.room) call.range) call.bounded

theorem StrncatCall.strnlenAvx512_eq (call : StrncatCall start dst src n dstLen copyLen) :
    strnlenAvx512 start.toMemory src n = .ok copyLen :=
  returns_boundedLength (strnlenAvx512_ends (call.bounded.needs call.source)
    (call.bounded.room call.room) call.range) call.bounded

theorem strlenAvx2_eq (ends : IsLength start.byte dst dstLen) (range : dstLen < sizeRange)
    (mapped : ∀ i ≤ dstLen, start.readable (dst + i) = true) :
    strlenAvx2 start.toMemory dst = .ok dstLen :=
  returns_length (strlenAvx2_ends (scanNeeds_of_hit ends.1 mapped) ends range) ends

theorem strlenAvx512_eq (ends : IsLength start.byte dst dstLen) (range : dstLen < sizeRange)
    (mapped : ∀ i ≤ dstLen, start.readable (dst + i) = true) :
    strlenAvx512 start.toMemory dst = .ok dstLen :=
  returns_length (strlenAvx512_ends (scanNeeds_of_hit ends.1 mapped) ends range) ends

end Calls

/-- Behind the old text, which stays, comes what is appended and one NUL; no other byte changes.
The memory need hold no more than the pages of the strings and of what is written, and a source
that is cut off at `n` need not end. -/
theorem strcat_appends (start : PagedMemory) (l1dPerCore ntStartThreshold dst src : Nat) :
    (∀ dstLen len, StrcatCall start dst src dstLen len →
      (∃ after, strcatAvx2 dst src start.toMemory = .ok (dst, after) ∧
        Appended start.toMemory after dst dstLen src len) ∧
      ∃ after, strcatAvx512 dst src start.toMemory = .ok (dst, after) ∧
        Appended start.toMemory after dst dstLen src len) ∧
    ∀ n dstLen copyLen, StrncatCall start dst src n dstLen copyLen →
      (∃ after, strncatAvx2 l1dPerCore ntStartThreshold dst src n start.toMemory = .ok (dst, after) ∧
        Appended start.toMemory after dst dstLen src copyLen) ∧
      ∃ after, strncatAvx512 l1dPerCore ntStartThreshold dst src n start.toMemory = .ok (dst, after) ∧
        Appended start.toMemory after dst dstLen src copyLen := by
  constructor
  · intro dstLen len call
    have avx2 := strlenAvx2_eq call.dstEnds call.dstRange call.dstSource
    have avx512 := strlenAvx512_eq call.dstEnds call.dstRange call.dstSource
    exact ⟨strcatBy_appends call avx2 (strcpyAvx2_copiesTo call.copies),
      strcatBy_appends call avx512 (strcpyZmm_copiesTo call.copies masksTail_headMask)⟩
  · intro n dstLen copyLen call
    have dstRange : dstLen < sizeRange := by
      have below := call.dstBelow
      omega
    have copyRange := Nat.lt_of_le_of_lt call.bounded.within call.range
    have apart : dst + dstLen + copyLen ≤ src ∨ src + copyLen ≤ dst + dstLen :=
      call.apart.imp_left Nat.le_of_lt
    constructor
    · exact strncatBy_appends call (strlenAvx2_eq call.dstEnds dstRange call.dstSource)
        call.strnlenAvx2_eq (memcpyAvx2_complete call.buffers copyRange apart)
    · exact strncatBy_appends call (strlenAvx512_eq call.dstEnds dstRange call.dstSource)
        call.strnlenAvx512_eq (memcpyAvx512Erms_complete call.buffers copyRange (.inr apart))

def openWord : PagedMemory :=
  .ofPages (fun a => if a < 4099 then 97 else if a < 8180 ∨ a = 8183 then 0 else 100) fun page =>
    page == 1

theorem openWord_rights {a : Nat} (inside : 4096 ≤ a ∧ a < 8192) :
    openWord.readable a = true ∧ openWord.writable a = true := by
  have page1 : a / 4096 = 1 := by omega
  simp [openWord, PagedMemory.ofPages, pageSz, page1]

theorem strcat_appends_openWord :
    (∃ after, strcatAvx2 4096 8180 openWord.toMemory = .ok (4096, after) ∧
      Appended openWord.toMemory after 4096 3 8180 3) ∧
    ∃ after, strncatAvx512 32768 4096 4096 8184 8 openWord.toMemory = .ok (4096, after) ∧
      Appended openWord.toMemory after 4096 3 8184 8 := by
  have dstEnds : IsLength openWord.byte 4096 3 := ⟨rfl, by unfold ClearBelow; decide⟩
  have dstSource (i : Nat) (inside : i ≤ 3) : openWord.readable (4096 + i) = true :=
    (openWord_rights (by omega)).1
  constructor
  · refine ((strcat_appends openWord 32768 4096 4096 8180).1 3 3 ⟨dstEnds, ?_, dstSource, ?_⟩).1
    · rw [sizeRange_eq]
      decide
    exact ⟨⟨rfl, by unfold ClearBelow; decide⟩, by rw [sizeRange_eq]; decide,
      fun i inside => (openWord_rights (by omega)).1, fun i inside => (openWord_rights (by omega)).2,
      by decide⟩
  · refine ((strcat_appends openWord 32768 4096 4096 8184).2 8 3 8 ?_).2
    exact ⟨dstEnds, dstSource, by rw [sizeRange_eq]; decide,
      boundedLength_of_clear (by unfold ClearBelow; decide),
      fun i inside _ => (openWord_rights (by omega)).1, fun i inside => (openWord_rights (by omega)).2,
      by decide, by rw [sizeRange_eq]; decide, by rw [sizeRange_eq]; decide⟩

end AoclLibmem.Strings
