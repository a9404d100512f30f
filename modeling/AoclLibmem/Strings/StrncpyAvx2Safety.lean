import AoclLibmem.Strings.StrncpyHelpers

/-! The strict-bounds `_strncpy_avx2`: which of its accesses can fail. Only those of the small
sizes can, which load a whole block before they look for a NUL in it. -/

namespace AoclLibmem.Strings

open Base Machine

def blockSz (len : Nat) : Nat :=
  if len = 1 then 1 else if len ≤ 4 then 2 else if len ≤ 8 then 4 else if len ≤ 16 then 8 else 16

private theorem blockSz_le {len : Nat} (some : 0 < len) : blockSz len ≤ len := by
  unfold blockSz
  split_ifs <;> omega

section Small
variable {start : PagedMemory} {dst src n k len : Nat} (call : StringCopy start dst src n)
include call

/-- As `strncpyBlocks`, but two bytes are stored before the next two are loaded. -/
private theorem strncpyWords_copies (ends : k + len = n) (two : 2 ≤ len) (four : len ≤ 4)
    (clear : ClearBelow (Nul start.byte src) k)
    (reads : BlocksRead start.toMemory dst n (src + k) len 2) :
    Triple (CopiedTo start.toMemory dst src n k) (strncpyWords (dst + k) (src + k) len)
      fun _ => CopiedTo start.toMemory dst src n n := by
  rw [strncpyWords]
  simp only [wordSz]
  refine (written_load reads.first allows_unaligned).bind fun w0 => ?_
  apply triple_fact
  rintro ⟨m, framed, rfl⟩
  apply triple_ite
  · exact fun some => firstBlock_copies call framed ends two clear some
  · intro none
    have further := call.vec_none framed marksZeros_nullMask clear (by omega) (not_not.mp none)
    have clear : ClearBelow (Nul start.byte src) (k + 2) := further.mono (by omega)
    have tail := reads.last m framed (nullMask_zero (not_not.mp none))
    have stored := call.store framed (w := 2) (Nat.le_refl k) (by omega) (Nat.le_refl _) fun i less =>
      clear.mono (Nat.le_of_lt less)
    refine stored.bind fun _ => ?_
    apply triple_ite
    · intro more
      refine (written_load tail allows_unaligned).bind fun w1 => ?_
      apply triple_fact
      rintro ⟨m', framed', rfl⟩
      exact lastBlock_copies call framed' ends two four clear
    · exact fun last => triple_pure fun m written => written.less (by omega)

private theorem strncpySmallAvx2_copies (ends : k + len = n) (some : 0 < len) (small : len < 32)
    (clear : ClearBelow (Nul start.byte src) k)
    (reads : BlocksRead start.toMemory dst n (src + k) len (blockSz len)) :
    Triple (CopiedTo start.toMemory dst src n k) (strncpySmallAvx2 (dst + k) (src + k) len)
      fun _ => CopiedTo start.toMemory dst src n n := by
  rw [strncpySmallAvx2]
  simp only [xmmSz, qwordSz, dwordSz]
  unfold blockSz at reads
  apply triple_ite
  · intro to4
    apply triple_ite
    · intro one
      rw [if_pos one] at reads
      refine (written_load reads.first allows_unaligned).bind fun byte => ?_
      apply triple_fact
      rintro ⟨m, framed, rfl⟩
      exact call.store framed (Nat.le_refl k) (by omega) (by omega) fun i less => clear.mono (by omega)
    · intro more
      rw [if_neg more, if_pos to4] at reads
      exact strncpyWords_copies call ends (by omega) to4 clear reads
  intro from5
  rw [if_neg (by omega), if_neg from5] at reads
  apply triple_ite
  · intro to8
    rw [if_pos to8] at reads
    exact strncpyBlocks_copies call ends (by omega) to8 clear reads
  intro from9
  rw [if_neg from9] at reads
  apply triple_ite
  · intro to16
    rw [if_pos to16] at reads
    exact strncpyBlocks_copies call ends (by omega) to16 clear reads
  · intro from17
    rw [if_neg from17] at reads
    exact strncpyBlocks_copies call ends (by omega) (by omega) clear reads

private theorem copiesSmall_strict : CopiesSmall start dst src n strncpySmallAvx2 := by
  intro k len ends some small clear rights
  have part : start.canRead (src + k) len = true := by
    simpa using Memory.canRead_sub (k := 0) rights (by omega)
  exact strncpySmallAvx2_copies call ends some small clear (.of_canRead part (blockSz_le some))

end Small

section Large
variable {start : PagedMemory} {dst src n : Nat} (call : StrncpyCall start dst src n)
include call

theorem strncpyAvx2_large (large : 32 ≤ n) :
    Triple (CopiedTo start.toMemory dst src n 0) (strncpyAvx2 dst src n)
      fun result m => result = dst ∧ CopiedTo start.toMemory dst src n n m := by
  apply triple_ite
  · exact fun none => absurd large (by omega)
  intro some
  apply triple_ite
  · exact fun small => absurd large (Nat.not_le.mpr small)
  · intro _
    exact strncpyHead_copies call (Nat.pos_of_ne_zero some)
      (strncpyFirst_copies call (copiesSmall_strict call.copy) large)

end Large

/-- How far the block is loaded in which the first NUL is found, at `z`: the first block, or
the last one, which ends with the `n` bytes. -/
def reach (n z : Nat) : Nat := if z < blockSz n then blockSz n else n

/-- Fewer than 32 bytes are asked for, and a byte of the block behind its NUL is unmapped. -/
def Overruns (m : Memory) (src n : Nat) : Prop :=
  n < 32 ∧ ∃ z j, FirstHit (Nul m.byte src) z ∧ z < j ∧ j < reach n z ∧ m.readable (src + j) ≠ true

section SmallSize
variable {start : PagedMemory} {m : Memory} {dst src n w : Nat}
variable (call : StrncpyCall start dst src n)
include call

/-- A byte that no NUL precedes is mapped, and so is one behind the NUL that is loaded with
it, unless it overruns. -/
theorem StrncpyCall.readable (small : n < 32) (kept : ¬ Overruns start.toMemory src n) {j : Nat}
    (inside : j < n) (loaded : ∀ z < j, FirstHit (Nul start.byte src) z → j < reach n z) :
    start.readable (src + j) = true := by
  rcases clear_or_firstHit (Nul start.byte src) j with clear | ⟨z, before, first⟩
  · exact call.source j inside clear
  · by_contra missing
    exact kept ⟨small, z, j, first, before, loaded z before first, missing⟩

private theorem blocksRead_of_kept (some : 0 < n) (small : n < 32)
    (kept : ¬ Overruns start.toMemory src n) :
    BlocksRead start.toMemory dst n src n (blockSz n) := by
  have room := blockSz_le some
  refine ⟨Memory.canRead_iff.mpr fun i below => ?_, fun m framed lanes => ?_⟩
  · refine call.readable small kept (by omega) fun z before _ => ?_
    rw [reach, if_pos (by omega)]
    exact below
  · have clear := call.copy.clear_start framed lanes room
    refine Memory.canRead_iff.mpr fun i below => ?_
    have place : src + n - blockSz n + i = src + (n - blockSz n + i) := by omega
    rw [place]
    refine call.readable small kept (by omega) fun z before first => ?_
    have late : ¬ z < blockSz n := fun early => clear z early first.1
    rw [reach, if_neg late]
    omega

theorem strncpyAvx2_small (some : 0 < n) (small : n < 32) (kept : ¬ Overruns start.toMemory src n) :
    Triple (CopiedTo start.toMemory dst src n 0) (strncpyAvx2 dst src n)
      fun result m => result = dst ∧ CopiedTo start.toMemory dst src n n m := by
  apply triple_ite
  · exact fun none => absurd some (by omega)
  intro _
  apply triple_ite
  · intro _
    refine Triple.bind (strncpySmallAvx2_copies call.copy (k := 0) (Nat.zero_add n) some small
      clearBelow_zero (blocksRead_of_kept call some small kept)) fun _ => ?_
    exact triple_pure fun m written => ⟨rfl, written⟩
  · exact fun large => absurd small large

/-- The load of the first block fails, or that of the last one behind a first one without a
NUL. -/
def BlocksFail (start : PagedMemory) (src n w : Nat) : Prop :=
  start.canRead src w ≠ true ∨ start.canRead src w = true ∧
    ClearBelow (Nul start.byte src) w ∧ start.canRead (src + n - w) w ≠ true

private theorem blocksFail_of_overrun {z j : Nat} (first : FirstHit (Nul start.byte src) z)
    (before : z < j) (room : w ≤ n) (covers : n ≤ 2 * w) (loaded : j < if z < w then w else n)
    (missing : start.readable (src + j) ≠ true) : BlocksFail start src n w := by
  split at loaded
  · exact .inl fun rights => missing (Memory.canRead_iff.mp rights j loaded)
  · rename_i late
    refine .inr ⟨Memory.canRead_iff.mpr fun i below => ?_, first.2.mono (by omega), fun rights => ?_⟩
    · exact call.source i (by omega) fun k less => first.2 k (by omega)
    · have place : src + n - w + (j - (n - w)) = src + j := by omega
      have byte := Memory.canRead_iff.mp rights (j - (n - w)) (by omega)
      rw [place] at byte
      exact missing byte

private theorem nullMask_of_clear (framed : Framed start.toMemory dst n m)
    (clear : ClearBelow (Nul start.byte src) w) (room : w ≤ n) : nullMask (m.lanes w src) = 0#w := by
  have now := call.copy.clear_now framed clear room
  have marks := marks_source (w := w) marksZeros_nullMask m src 0
  refine marks.none_iff.mpr fun i below => ?_
  rw [Nat.zero_add]
  exact now i below

theorem strncpyBlocks_faults (room : w ≤ n) (fail : BlocksFail start src n w) :
    strncpyBlocks w dst src n start.toMemory = .error .fault := by
  have begins := copiedTo_start start.toMemory dst src n
  rcases fail with missing | ⟨rights, clear, missing⟩
  · exact bind_error ((Framed.refl _ dst n).load_faults missing)
  · refine (written_load rights allows_unaligned).bind_error begins ?_
    rintro _ after ⟨⟨other, loaded, rfl⟩, written⟩
    rw [if_neg (not_not.mpr (nullMask_of_clear call loaded clear room))]
    exact bind_error (written.load_faults missing)

private theorem strncpyWords_faults (room : 2 ≤ n) (fail : BlocksFail start src n 2) :
    strncpyWords dst src n start.toMemory = .error .fault := by
  have begins := copiedTo_start start.toMemory dst src n
  rcases fail with missing | ⟨rights, clear, missing⟩
  · exact bind_error ((Framed.refl _ dst n).load_faults missing)
  · have more : n > wordSz := by
      by_contra least
      have equal : src + n - 2 = src := by
        simp only [wordSz] at least
        omega
      rw [equal] at missing
      exact missing rights
    refine (written_load rights allows_unaligned).bind_error begins ?_
    rintro _ after ⟨⟨other, loaded, rfl⟩, written⟩
    rw [if_neg (not_not.mpr (nullMask_of_clear call loaded clear room))]
    have stored := call.copy.store loaded (w := 2) (k := 0) (t := 2) (Nat.le_refl 0) (by omega)
      (by omega) fun i less => clear.mono (by omega)
    refine stored.bind_error written fun _ last written => ?_
    rw [if_pos more]
    exact bind_error (written.load_faults missing)

private theorem strncpySmallAvx2_faults (some : 0 < n) (overruns : Overruns start.toMemory src n) :
    strncpySmallAvx2 dst src n start.toMemory = .error .fault := by
  obtain ⟨small, z, j, first, before, loaded, missing⟩ := overruns
  unfold reach blockSz at loaded
  have fail {w : Nat} (room : w ≤ n) (covers : n ≤ 2 * w) (loaded : j < if z < w then w else n) :=
    blocksFail_of_overrun call first before room covers loaded missing
  rw [strncpySmallAvx2]
  simp only [xmmSz, qwordSz, dwordSz]
  by_cases one : n = 1
  · rw [if_pos one] at loaded
    split at loaded <;> omega
  · rw [if_neg one] at loaded
    by_cases to4 : n ≤ 4
    · rw [if_pos to4] at loaded
      rw [if_pos to4, if_neg one]
      exact strncpyWords_faults call (by omega) (fail (by omega) to4 loaded)
    · rw [if_neg to4] at loaded
      rw [if_neg to4]
      by_cases to8 : n ≤ 8
      · rw [if_pos to8] at loaded
        rw [if_pos to8]
        exact strncpyBlocks_faults call (by omega) (fail (by omega) to8 loaded)
      · rw [if_neg to8] at loaded
        rw [if_neg to8]
        by_cases to16 : n ≤ 16
        · rw [if_pos to16] at loaded
          rw [if_pos to16]
          exact strncpyBlocks_faults call (by omega) (fail (by omega) to16 loaded)
        · rw [if_neg to16] at loaded
          rw [if_neg to16]
          exact strncpyBlocks_faults call (by omega) (fail (by omega) (by omega) loaded)

end SmallSize

def Faultless (m : Memory) (run : Kernel Nat) : Prop := ∃ result after, run m = .ok (result, after)

section Correct
variable {start : PagedMemory} {dst src n : Nat}

theorem strncpyAvx2_copiesTo (some : 0 < n) (call : StrncpyCall start dst src n)
    (kept : ¬ Overruns start.toMemory src n) :
    Triple (CopiedTo start.toMemory dst src n 0) (strncpyAvx2 dst src n)
      fun result m => result = dst ∧ CopiedTo start.toMemory dst src n n m := by
  by_cases small : n < 32
  · exact strncpyAvx2_small call some small kept
  · exact strncpyAvx2_large call (by omega)

theorem faultless_iff (some : 0 < n) (call : StrncpyCall start dst src n) :
    Faultless start.toMemory (strncpyAvx2 dst src n) ↔ ¬ Overruns start.toMemory src n := by
  constructor
  · rintro ⟨result, after, returned⟩ overruns
    have fails : strncpyAvx2 dst src n start.toMemory = .error .fault := by
      rw [strncpyAvx2, if_neg (by omega), if_pos overruns.1]
      exact bind_error (strncpySmallAvx2_faults call some overruns)
    rw [fails] at returned
    exact absurd returned (by simp)
  · intro kept
    obtain ⟨result, after, returned, _⟩ :=
      strncpyAvx2_copiesTo some call kept start.toMemory (copiedTo_start _ _ _ _)
    exact ⟨result, after, returned⟩

/-- Every access succeeds unless the kernel overruns: fewer than 32 bytes are asked for and
behind the first NUL of the source the block that holds it reaches into an unmapped page. -/
theorem strncpyAvx2_faultless_iff (start : PagedMemory) (dst src n : Nat) (some : 1 ≤ n)
    (call : StrncpyCall start dst src n) :
    Faultless start.toMemory (strncpyAvx2 dst src n) ↔ ¬ Overruns start.toMemory src n :=
  faultless_iff some call

/-- A NUL in the last byte of page 1; page 2 is not mapped, the destination lies in page 3. -/
def nulAtPageEnd : PagedMemory := .ofPages (fun _ => 0) fun page => page == 1 || page == 3

private theorem nulAtPageEnd_call {src n : Nat} (inside : src / 4096 = 1) (short : n ≤ 4096) :
    StrncpyCall nulAtPageEnd 12288 src n where
  range := by rw [sizeRange_eq]; omega
  source k _ clear := by
    rcases Nat.eq_zero_or_pos k with rfl | some
    · simp [nulAtPageEnd, PagedMemory.ofPages, pageSz, inside]
    · exact absurd rfl (clear 0 some)
  target := by
    refine Memory.canWrite_iff.mpr fun i below => ?_
    have page : (12288 + i) / 4096 = 3 := by omega
    simp [nulAtPageEnd, PagedMemory.ofPages, pageSz, page]
  disjoint k _ clear := by
    rcases Nat.eq_zero_or_pos k with rfl | some
    · omega
    · exact absurd rfl (clear 0 some)
  dstBelow := by rw [sizeRange_eq]; omega
  srcBelow k _ clear := by
    rcases Nat.eq_zero_or_pos k with rfl | some
    · rw [sizeRange_eq]
      omega
    · exact absurd rfl (clear 0 some)

theorem strncpyAvx2_faultless_iff_page :
    Faultless nulAtPageEnd.toMemory (strncpyAvx2 12288 8128 64) :=
  (strncpyAvx2_faultless_iff nulAtPageEnd 12288 8128 64 (by decide)
    (nulAtPageEnd_call (by decide) (by decide))).mpr fun overruns => absurd overruns.1 (by decide)

/-- The source is one NUL, but two bytes are loaded. -/
theorem strncpyAvx2_reads_next_page : StrncpyCall nulAtPageEnd 12288 8191 2 ∧
    ¬ Faultless nulAtPageEnd.toMemory (strncpyAvx2 12288 8191 2) := by
  have call : StrncpyCall nulAtPageEnd 12288 8191 2 := nulAtPageEnd_call (by decide) (by decide)
  refine ⟨call, fun faultless => (faultless_iff (by decide) call).mp faultless ?_⟩
  exact ⟨by decide, 0, 1, ⟨rfl, clearBelow_zero⟩, by decide, by decide, by decide⟩

end Correct

end AoclLibmem.Strings
