import AoclLibmem.Strings.StrncpyAvx2Default
import AoclLibmem.Strings.StrncpyHelpers

/-! The default `_strncpy_avx2` writes exactly `n` bytes: the source up to its first NUL, and
NULs from there on, whichever vector or chunk the NUL is found in. -/

namespace AoclLibmem.Strings

open Base Machine

section Small
variable {start : PagedMemory} {m : Memory} {dst src n k len : Nat} (call : StringCopy start dst src n)
include call

private theorem copyWords_copies (two : 2 ≤ len) (four : len ≤ 4) (inside : k + len ≤ n)
    (rights : start.canRead (src + k) len = true) :
    CopiesFrom start.toMemory dst src n k (k + len) (copyWords (dst + k) (src + k) len) := by
  by_cases more : len > wordSz
  · have same : copyWords (dst + k) (src + k) len = copyEnds wordSz (dst + k) (src + k) len := by
      simp only [copyWords, copyEnds, if_pos more]
    rw [same]
    exact call.copyEnds two four inside rights
  · intro t le clear
    simp only [wordSz] at more
    have word : start.canRead (src + k) 2 = true := by
      rwa [show len = 2 by omega] at rights
    refine (written_load word allows_unaligned).bind fun w0 => ?_
    apply triple_fact
    rintro ⟨m, framed, rfl⟩
    have short : t ≤ k + 2 := by omega
    have room : k + 2 ≤ n := by omega
    refine (call.store framed (Nat.le_refl k) room short clear).bind fun _ => ?_
    rw [if_neg more]
    exact triple_pure fun m written => written

/-- A copy whose NUL at `z` is followed by the fill. -/
private theorem copyThenPad {copy : Kernel Unit} {z : Nat} (ends : k + len = n)
    (copies : CopiesFrom start.toMemory dst src n k (k + len) copy) (below : z < len)
    (first : FirstHit (Nul start.byte src) (k + z)) :
    Triple (CopiedTo start.toMemory dst src n k) (do copy; padFrom (dst + k) z len)
      fun _ => CopiedTo start.toMemory dst src n n := by
  have copied := copies (k + z + 1) (by omega) fun i less => first.2.mono (by omega)
  exact copied.bind fun _ => call.padFrom ends below first.1

private theorem strncpyChunk_copies {c : Nat} {copy : Kernel Unit} (ends : k + len = n)
    (covers : len ≤ c)
    (clear : ClearBelow (Nul start.byte src) k) (rights : start.canRead (src + k) c = true)
    (copies : CopiesFrom start.toMemory dst src n k (k + len) copy) :
    Triple (CopiedTo start.toMemory dst src n k) (strncpyChunk c copy (dst + k) (src + k) len)
      fun _ => CopiedTo start.toMemory dst src n n := by
  have whole (clear : ClearBelow (Nul start.byte src) n) : Triple (CopiedTo start.toMemory dst src n k)
      copy fun _ => CopiedTo start.toMemory dst src n n :=
    copies n (by omega) fun i less => clear.mono (by omega)
  refine (written_load rights allows_unaligned).bind fun chunk => ?_
  apply triple_fact
  rintro ⟨m, framed, rfl⟩
  apply triple_ite
  · intro some
    have first := call.vec_some framed marksZeros_nullMask clear (by omega) some
    apply triple_ite
    · intro below
      exact copyThenPad call ends copies below (call.first_start framed first (by omega))
    · intro beyond
      exact whole ((call.clear_found framed first).mono (by omega))
  · intro none
    have clear := call.vec_none framed marksZeros_nullMask clear (by omega) (not_not.mp none)
    exact whole (clear.mono (by omega))

private theorem strncpyXmm_copies (ends : k + len = n) (nine : 8 ≤ len) (covers : len ≤ 16)
    (clear : ClearBelow (Nul start.byte src) k) (rights : start.canRead (src + k) 16 = true) :
    Triple (CopiedTo start.toMemory dst src n k) (strncpyXmm (dst + k) (src + k) len)
      fun _ => CopiedTo start.toMemory dst src n n := by
  have part : start.canRead (src + k) len = true := by
    simpa using Memory.canRead_sub (k := 0) rights (by omega)
  have copies := call.copyEnds nine covers (by omega) part
  refine (written_load rights allows_unaligned).bind fun x1 => ?_
  apply triple_fact
  rintro ⟨m, framed, rfl⟩
  have now := call.clear_now framed clear (by omega)
  have finds := ((marks_source (w := 16) marksZeros_nullMask m src k).bzhi (k := len) (by omega)).finds
  apply triple_ite
  · intro some
    obtain ⟨below, first⟩ := finds.firstHit_within now some
    rw [Nat.add_comm] at first
    exact copyThenPad call ends copies below (call.first_start framed first (by omega))
  · intro none
    have clear := finds.clear_within now covers (not_not.mp none)
    rw [ends] at clear
    have clear := call.clear_start framed clear (Nat.le_refl n)
    exact copies n (by omega) fun i less => clear.mono (by omega)

/-- One chunk, or two blocks of it, lie in the 32 bytes that can be read. -/
private theorem strncpySmallDefault_copies (ends : k + len = n) (some : 0 < len) (small : len < 32)
    (clear : ClearBelow (Nul start.byte src) k) (rights : start.canRead (src + k) 32 = true) :
    Triple (CopiedTo start.toMemory dst src n k) (strncpySmallDefault (dst + k) (src + k) len)
      fun _ => CopiedTo start.toMemory dst src n n := by
  have part (c : Nat) (le : c ≤ 32) : start.canRead (src + k) c = true := by
    simpa using Memory.canRead_sub (k := 0) rights (by omega)
  have reads := part len (by omega)
  rw [strncpySmallDefault]
  simp only [xmmSz, qwordSz, dwordSz]
  apply triple_ite
  · intro to4
    apply triple_ite
    · intro one
      refine (written_load (part 1 (by omega)) allows_unaligned).bind fun byte => ?_
      apply triple_fact
      rintro ⟨m, framed, rfl⟩
      exact call.store framed (Nat.le_refl k) (by omega) (by omega) fun i less => clear.mono (by omega)
    · intro more
      apply strncpyChunk_copies call ends to4 clear (part 4 (by omega))
      exact copyWords_copies call (by omega) to4 (by omega) reads
  intro from5
  apply triple_ite
  · intro to8
    apply strncpyChunk_copies call ends to8 clear (part 8 (by omega))
    exact call.copyEnds (by omega) to8 (by omega) reads
  intro from9
  apply triple_ite
  · exact fun to16 => strncpyXmm_copies call ends (by omega) to16 clear (part 16 (by omega))
  · intro from17
    exact strncpyBlocks_copies call ends (by omega) (by omega) clear (.of_canRead reads (by omega))

end Small

section Default
variable {start : PagedMemory} {dst src n : Nat} (call : StrncpyCall start dst src n)
include call

private theorem copiesSmall_default : CopiesSmall start dst src n strncpySmallDefault :=
  fun _ _ ends some small clear rights =>
    strncpySmallDefault_copies call.copy ends some small clear rights

private theorem strncpyFirstDefault_copies (some : 0 < n) (rights : start.canRead src 32 = true) :
    Triple (CopiedTo start.toMemory dst src n 0) (strncpyFirstDefault dst src n)
      fun result m => result = dst ∧ CopiedTo start.toMemory dst src n n m := by
  apply triple_ite
  · intro small
    have copied := copiesSmall_default call 0 n (Nat.zero_add n) some small clearBelow_zero rights
    exact copied.bind fun _ => triple_pure fun m written => ⟨rfl, written⟩
  · intro large
    exact strncpyFirst_copies call (copiesSmall_default call) (Nat.not_lt.mp large) rights

theorem strncpyAvx2Default_copiesTo :
    Triple (CopiedTo start.toMemory dst src n 0) (strncpyAvx2Default dst src n)
      fun result m => result = dst ∧ CopiedTo start.toMemory dst src n n m := by
  apply triple_ite
  · exact fun none => triple_pure fun m written => ⟨rfl, written.less (by omega)⟩
  · intro some
    exact strncpyHead_copies call (Nat.pos_of_ne_zero some)
      (strncpyFirstDefault_copies call (Nat.pos_of_ne_zero some))

end Default

section Correct

/-- Exactly `n` bytes are written: the source up to its first NUL, then NULs. -/
theorem strncpyAvx2Default_pads (start : PagedMemory) (dst src n : Nat)
    (call : StrncpyCall start dst src n) :
    ∃ after, strncpyAvx2Default dst src n start.toMemory = .ok (dst, after) ∧
      Padded start.toMemory after dst src n :=
  call.pads (strncpyAvx2Default_copiesTo call)

theorem strncpyAvx2Default_pads_lastWord :
    ∃ after, strncpyAvx2Default 4096 7000 2904 lastWord.toMemory = .ok (4096, after) ∧
      Padded lastWord.toMemory after 4096 7000 2904 :=
  strncpyAvx2Default_pads lastWord 4096 7000 2904 (lastWord_strncpyCall (by decide) (by decide))

end Correct

end AoclLibmem.Strings
