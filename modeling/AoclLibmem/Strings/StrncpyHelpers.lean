import AoclLibmem.Strings.StrncpyAvx2

/-! What the helpers of `strcpy_avx2.c` write: a copy by overlapping ends covers exactly the
range it is given. -/

namespace AoclLibmem.Strings

open Base Machine

theorem marksZeros_nullMask {n : Nat} : MarksZeros (nullMask : Lanes n → BitVec n) := by
  intro y hit lane
  apply marks_of_lanes
  intro i
  rw [nullMask, getLsbD_movemask_cmpeq, beq_iff_eq, ← lane i]
  rfl

/-- The aligned vector that the source begins in, without the lanes before it. -/
theorem marks_head (m : Memory) (src : Nat) :
    Marks (nullMask (m.lanes 32 (src - src % 32)) >>> (src % 32))
      fun i => i < 32 - src % 32 ∧ Nul m.byte src i := by
  have vector := marks_source (w := 32) marksZeros_nullMask m (src - src % 32) 0
  apply (vector.ushiftRight (src % 32)).congr
  intro i below
  have place : src - src % 32 + (0 + (src % 32 + i)) = src + i := by omega
  rw [Nul, place]
  exact and_congr_left' (by omega)

section Copy
variable {start : Memory} {dst size s k len w : Nat} {text : Nat → UInt8} {done further : Nat → Prop}
variable (target : start.canWrite dst size = true) (rights : start.canRead s len = true)
variable (inside : k + len ≤ size)
variable (bytes : ∀ m, Framed start dst size m → ∀ i < len, further (k + i) →
  m.byte (s + i) = text (k + i))
variable (joins : ∀ j, further j → done j ∨ k ≤ j ∧ j < k + len)
include target rights inside bytes joins

/-- The blocks at both ends of a range cover it. -/
private theorem copyEnds_written (room : w ≤ len) (covers : len ≤ 2 * w) :
    Triple (Written start dst size text done) (copyEnds w (dst + k) s len)
      fun _ => Written start dst size text further := by
  have head : start.canRead s w = true := by
    simpa using Memory.canRead_sub (k := 0) rights (by omega)
  have tail : start.canRead (s + len - w) w = true := by
    rw [Nat.add_sub_assoc room]
    exact Memory.canRead_sub rights (by omega)
  have place : dst + k + len - w = dst + (k + len - w) := by omega
  rw [copyEnds, place]
  refine (written_load head allows_unaligned).bind fun v => ?_
  apply triple_fact
  rintro ⟨m, framed, rfl⟩
  have first : Triple (Written start dst size text done)
      (vecStore w .unaligned (dst + k) (m.lanes w s))
      fun _ => Written start dst size text fun j => further j ∧ (done j ∨ k ≤ j ∧ j < k + w) := by
    apply written_store target allows_unaligned (by omega)
    · exact fun i member => bytes m framed i (by omega) member.1
    · exact fun j member => member.2
  refine first.bind fun _ => ?_
  refine (written_load tail allows_unaligned).bind fun v => ?_
  apply triple_fact
  rintro ⟨m, framed, rfl⟩
  apply written_store target allows_unaligned (by omega)
  · intro i member
    have index : k + len - w + i = k + (len - w + i) := by omega
    have byte := bytes m framed (len - w + i) (by omega) (by rwa [← index])
    rw [Memory.lanes_apply, index, ← byte]
    congr 1
    omega
  · intro j member
    by_cases last : k + len - w ≤ j ∧ j < k + len - w + w
    · exact .inr last
    · refine .inl ⟨member, (joins j member).imp_right fun position => ?_⟩
      omega

private theorem strcpyBleYmm_written (some : 0 < len) (short : len ≤ 32) :
    Triple (Written start dst size text done) (strcpyBleYmm (dst + k) s len)
      fun _ => Written start dst size text further := by
  have ends (w : Nat) (room : w ≤ len) (covers : len ≤ 2 * w) :
      Triple (Written start dst size text done) (copyEnds w (dst + k) s len)
        fun _ => Written start dst size text further :=
    copyEnds_written target rights inside bytes joins room covers
  rw [strcpyBleYmm]
  simp only [xmmSz, qwordSz, dwordSz, wordSz]
  apply triple_ite
  · intro one
    rw [one] at rights inside bytes joins
    refine (written_load rights allows_unaligned).bind fun v => ?_
    apply triple_fact
    rintro ⟨m, framed, rfl⟩
    apply written_store target allows_unaligned inside
    · exact fun i member => bytes m framed i i.isLt member
    · exact joins
  intro from2
  apply triple_ite
  · exact fun to4 => ends 2 (by omega) (by omega)
  intro from5
  apply triple_ite
  · exact fun to8 => ends 4 (by omega) (by omega)
  intro from9
  apply triple_ite
  · exact fun to16 => ends 8 (by omega) (by omega)
  · exact fun from17 => ends 16 (by omega) (by omega)

end Copy

section Source
variable {start : PagedMemory} {dst src n k len : Nat} (call : StringCopy start dst src n)
include call

/-- From index `k` the run copies as many bytes as hold no NUL, up to `reach`; with the last of
them there may be one. -/
def CopiesFrom (start : Memory) (dst src n k reach : Nat) (run : Kernel Unit) : Prop :=
  ∀ t ≤ reach, (∀ i < t, ClearBelow (Nul start.byte src) i) →
    Triple (CopiedTo start dst src n k) run fun _ => CopiedTo start dst src n t

theorem StringCopy.copyEnds {w : Nat} (room : w ≤ len) (covers : len ≤ 2 * w) (inside : k + len ≤ n)
    (rights : start.canRead (src + k) len = true) :
    CopiesFrom start.toMemory dst src n k (k + len) (copyEnds w (dst + k) (src + k) len) := by
  intro t le clear
  apply copyEnds_written call.target rights inside ?_ ?_ room covers
  · intro m framed i below counts
    rw [Nat.add_assoc]
    exact call.text_eq framed (by omega) (clear _ counts)
  · intro j member
    by_cases old : j < k
    · exact .inl old
    · exact .inr ⟨by omega, by omega⟩

/-- The next `len` bytes of the source, in which only the last may be a NUL. -/
theorem StringCopy.ble (k len : Nat) (some : 0 < len) (short : len ≤ 32) (inside : k + len ≤ n)
    (clear : ∀ i < k + len, ClearBelow (Nul start.byte src) i) :
    Triple (CopiedTo start.toMemory dst src n k) (strcpyBleYmm (dst + k) (src + k) len)
      fun _ => CopiedTo start.toMemory dst src n (k + len) := by
  have rights : start.canRead (src + k) len = true :=
    call.canRead (fun j less => clear (j + 1) less j (Nat.lt_succ_self j)) inside
  apply strcpyBleYmm_written call.target rights inside ?_ ?_ some short
  · intro m framed i below _
    rw [Nat.add_assoc]
    exact call.text_eq framed (by omega) (clear _ (by omega))
  · intro j member
    by_cases old : j < k
    · exact .inl old
    · exact .inr ⟨by omega, member⟩

/-- The NULs behind the first one, when any are asked for. -/
theorem StringCopy.padFrom {z : Nat} (ends : k + len = n) (below : z < len)
    (nul : Nul start.byte src (k + z)) :
    Triple (CopiedTo start.toMemory dst src n (k + z + 1)) (padFrom (dst + k) z len)
      fun _ => CopiedTo start.toMemory dst src n n := by
  have place : dst + k + z + 1 = dst + (k + z + 1) := by omega
  have rest : len - z - 1 = n - (k + z + 1) := by omega
  rw [Strings.padFrom, place, rest]
  apply triple_ite
  · exact fun more => call.fill fillNullAvx2_fills nul (by omega)
  · exact fun last => triple_pure fun m written => written.less (by omega)

end Source

section Blocks
variable {start m : Memory} {low n s len w addr : Nat}

theorem nullMask_zero (clear : nullMask (m.lanes w addr) = 0#w) : ∀ i < w, m.byte (addr + i) ≠ 0 := by
  have marks : Marks (nullMask (m.lanes w addr)) fun i => m.byte (addr + i) = 0 :=
    marksZeros_nullMask _ _ fun i => Iff.rfl
  exact marks.none_iff.mp clear

/-- The two blocks that cover a small size are readable: the first one, and the last one when
the first holds no NUL. -/
structure BlocksRead (start : Memory) (low n s len w : Nat) : Prop where
  first : start.canRead s w = true
  last : ∀ m, Framed start low n m → (∀ i < w, m.byte (s + i) ≠ 0) →
    start.canRead (s + len - w) w = true

theorem BlocksRead.of_canRead (rights : start.canRead s len = true) (room : w ≤ len) :
    BlocksRead start low n s len w where
  first := by simpa using Memory.canRead_sub (k := 0) rights (by omega)
  last _ _ _ := by
    rw [Nat.add_sub_assoc room]
    exact Memory.canRead_sub rights (by omega)

end Blocks

section Small
variable {start : PagedMemory} {dst src n k len : Nat} (call : StringCopy start dst src n)
include call

/-- The first block, when a NUL is in it, and the fill. -/
theorem firstBlock_copies {m : Memory} {w : Nat} (framed : Framed start.toMemory dst n m)
    (ends : k + len = n) (room : w ≤ len) (clear : ClearBelow (Nul start.byte src) k)
    (some : nullMask (m.lanes w (src + k)) ≠ 0#w) :
    Triple (CopiedTo start.toMemory dst src n k) (do
      vecStore w .unaligned (dst + k) (m.lanes w (src + k))
      padFrom (dst + k) (tzcnt (nullMask (m.lanes w (src + k)))) len)
      fun _ => CopiedTo start.toMemory dst src n n := by
  have inVec := tzcnt_lt some
  have first := call.vec_some framed marksZeros_nullMask clear (by omega) some
  have first := call.first_start framed first (by omega)
  refine (call.storeNul framed (Nat.le_refl k) (by omega) first (by omega)).bind fun _ => ?_
  exact call.padFrom ends (by omega) first.1

/-- The last block, behind a first one without a NUL, and the fill when a NUL is in it. -/
theorem lastBlock_copies {m : Memory} {w : Nat} (framed : Framed start.toMemory dst n m)
    (ends : k + len = n) (room : w ≤ len) (covers : len ≤ 2 * w)
    (clear : ClearBelow (Nul start.byte src) (k + w)) :
    Triple (CopiedTo start.toMemory dst src n (k + w)) (do
      vecStore w .unaligned (dst + k + len - w) (m.lanes w (src + k + len - w))
      if nullMask (m.lanes w (src + k + len - w)) ≠ 0#w then
        padFrom (dst + k) (len - w + tzcnt (nullMask (m.lanes w (src + k + len - w)))) len
      else pure ())
      fun _ => CopiedTo start.toMemory dst src n n := by
  have place (base : Nat) : base + k + len - w = base + (k + (len - w)) := by omega
  have before : ClearBelow (Nul start.byte src) (k + (len - w)) := clear.mono (by omega)
  rw [place src, place dst]
  by_cases some : nullMask (m.lanes w (src + (k + (len - w)))) = 0#w
  · have clear := call.vec_none framed marksZeros_nullMask before (by omega) some
    have clear : ClearBelow (Nul start.byte src) n := clear.mono (by omega)
    have last := call.store framed (w := w) (k := k + w) (j := k + (len - w)) (t := n) (by omega)
      (by omega) (by omega) fun i less => clear.mono (by omega)
    refine last.bind fun _ => ?_
    rw [if_neg (not_not.mpr some)]
    exact triple_pure fun m written => written
  · have inVec := tzcnt_lt some
    have first := call.vec_some framed marksZeros_nullMask before (by omega) some
    have first := call.first_start framed first (by omega)
    refine (call.storeNul framed (by omega) (by omega) first (by omega)).bind fun _ => ?_
    rw [if_pos some]
    have nul := first.1
    rw [Nat.add_assoc k] at nul ⊢
    exact call.padFrom ends (by omega) nul

theorem strncpyBlocks_copies {w : Nat} (ends : k + len = n) (room : w ≤ len) (covers : len ≤ 2 * w)
    (clear : ClearBelow (Nul start.byte src) k)
    (reads : BlocksRead start.toMemory dst n (src + k) len w) :
    Triple (CopiedTo start.toMemory dst src n k) (strncpyBlocks w (dst + k) (src + k) len)
      fun _ => CopiedTo start.toMemory dst src n n := by
  refine (written_load reads.first allows_unaligned).bind fun d0 => ?_
  apply triple_fact
  rintro ⟨m, framed, rfl⟩
  apply triple_ite
  · exact fun some => firstBlock_copies call framed ends room clear some
  · intro none
    have further := call.vec_none framed marksZeros_nullMask clear (by omega) (not_not.mp none)
    have clear : ClearBelow (Nul start.byte src) (k + w) := further.mono (by omega)
    have tail := reads.last m framed (nullMask_zero (not_not.mp none))
    refine (written_load tail allows_unaligned).bind fun d1 => ?_
    apply triple_fact
    rintro ⟨m', framed', rfl⟩
    have stored := call.store framed (w := w) (Nat.le_refl k) (by omega) (Nat.le_refl _) fun i less =>
      clear.mono (Nat.le_of_lt less)
    exact stored.bind fun _ => lastBlock_copies call framed' ends room covers clear

end Small

section Vectors
variable {start : PagedMemory} {m : Memory} {dst src n offset : Nat} {y1 : Lanes 32}

section Copy
variable (call : StringCopy start dst src n) (framed : Framed start.toMemory dst n m)
include call framed

private theorem storeVec_copies (slen : Nat) (some : 0 < slen) (short : slen ≤ 32)
    (inside : offset + slen ≤ n) (lanes : 32 ≤ slen → y1 = m.lanes 32 (src + offset))
    (clear : ∀ i < offset + slen, ClearBelow (Nul start.byte src) i) :
    Triple (CopiedTo start.toMemory dst src n offset) (storeVec dst src y1 offset slen)
      fun _ => CopiedTo start.toMemory dst src n (offset + slen) := by
  apply triple_ite
  · intro whole
    rw [lanes whole]
    simp only [ymmSz] at whole
    exact call.store framed (w := 32) (Nat.le_refl offset) (by omega) (by omega) clear
  · exact fun _ => call.ble offset slen some short inside clear

/-- The vector is `y1`, unless its end is not needed. -/
theorem finishVec_copies {nullIdx : Nat} (inside : offset < n) (inVec : nullIdx < 32)
    (first : FirstHit (Nul m.byte src) (offset + nullIdx))
    (lanes : nullIdx + 1 = 32 → y1 = m.lanes 32 (src + offset)) :
    Triple (CopiedTo start.toMemory dst src n offset) (finishVec dst src n y1 offset nullIdx)
      fun _ => CopiedTo start.toMemory dst src n n := by
  have clear := call.clear_found framed first
  rw [finishVec]
  dsimp only
  by_cases more : nullIdx + 1 < n - offset
  · have nul := (call.first_start framed first (by omega)).1
    rw [if_pos more, if_pos (by omega)]
    have stored := storeVec_copies call framed (nullIdx + 1) (by omega) (by omega)
      (by omega) (fun whole => lanes (by omega)) fun i less => clear.mono (by omega)
    exact stored.bind fun _ => call.fill (z := offset + nullIdx) fillNullAvx2_fills nul (by omega)
  · rw [if_neg more, if_neg (by omega)]
    have stored := storeVec_copies call framed (n - offset) (by omega) (by omega)
      (by omega) (fun whole => lanes (by omega)) fun i less => clear.mono (by omega)
    refine stored.bind fun _ => triple_pure fun m written => written.less (by omega)

end Copy

section Loops
variable (call : StringCopy start dst src n)
include call

private theorem copyVec_copies (inside : offset < n)
    (reached : Reached start.toMemory src n 32 offset) :
    Triple (CopiedTo start.toMemory dst src n offset) (copyVec dst src n offset)
      (StepCopied start.toMemory dst src n 32 (offset + 32)) := by
  have aligned := reached.aligned
  have clear := reached.clear_of_le (Nat.le_of_lt inside)
  have le := Nat.le_of_lt inside
  rw [copyVec]
  simp only [ymmSz]
  have rights := call.canRead_aligned clear inside aligned (by decide)
  refine (written_load rights (allows_of_aligned aligned)).bind fun y1 => ?_
  apply triple_fact
  rintro ⟨m, framed, rfl⟩
  apply triple_ite
  · intro some
    have first := call.vec_some framed marksZeros_nullMask clear le some
    refine (finishVec_copies call framed inside (tzcnt_lt some) first fun _ => rfl).bind fun _ => ?_
    exact triple_pure fun m written => written
  · intro none
    have further := call.vec_none framed marksZeros_nullMask clear le (not_not.mp none)
    apply triple_ite
    · intro whole
      have next : ClearBelow (Nul start.byte src) (offset + 32) := further.mono (by omega)
      have stored := call.store framed (w := 32) (Nat.le_refl offset) (by omega) (Nat.le_refl _)
        fun i less => next.mono (Nat.le_of_lt less)
      refine stored.bind fun _ => triple_pure fun m written => at_of_copied ⟨?_, ?_, ?_⟩ written
      · omega
      · omega
      · exact next.mono (Nat.min_le_left _ _)
    · intro partly
      have copied := call.ble offset (n - offset) (by omega) (by omega) (by omega)
        fun i less => further.mono (by omega)
      exact copied.bind fun _ => triple_pure fun m written => written.less (by omega)

/-- A small copy finishes the text, when a whole vector can be read where it begins. -/
def CopiesSmall (start : PagedMemory) (dst src n : Nat) (small : Nat → Nat → Nat → Kernel Unit) : Prop :=
  ∀ k len, k + len = n → 0 < len → len < 32 → ClearBelow (Nul start.byte src) k →
    start.canRead (src + k) 32 = true →
    Triple (CopiedTo start.toMemory dst src n k) (small (dst + k) (src + k) len)
      fun _ => CopiedTo start.toMemory dst src n n

private theorem handleRemaining_copies {small : Nat → Nat → Nat → Kernel Unit}
    (smalls : CopiesSmall start dst src n small) :
    Triple (At start.toMemory dst src n 32 offset) (handleRemaining small dst src n offset)
      fun _ => CopiedTo start.toMemory dst src n n := by
  have range := call.range
  refine loopM_triple (At start.toMemory dst src n 32) (fun offset => n - offset) ?_
    (by rw [sizeRange_eq] at range; rw [budget]; omega)
  simp only [ymmSz]
  intro offset
  apply triple_ite
  · intro inside
    have le := Nat.le_of_lt inside
    apply triple_at le
    intro reached
    have aligned := reached.aligned
    have clear := reached.clear_of_le le
    have rights := call.canRead_aligned clear inside aligned (by decide)
    apply triple_ite
    · intro whole
      refine (written_load rights allows_unaligned).bind fun y1 => ?_
      apply triple_fact
      rintro ⟨m, framed, rfl⟩
      apply triple_ite
      · intro some
        have inVec := tzcnt_lt some
        have first := call.vec_some framed marksZeros_nullMask clear le some
        have first := call.first_start framed first (by omega)
        have stored := call.storeNul framed (w := 32) (Nat.le_refl offset) (by omega) first (by omega)
        refine stored.bind fun _ => ?_
        refine (call.padFrom (by omega) (by omega) first.1).bind fun _ => ?_
        exact triple_pure fun m written => written
      · intro none
        have further := call.vec_none framed marksZeros_nullMask clear le (not_not.mp none)
        have next : ClearBelow (Nul start.byte src) (offset + 32) := further.mono (by omega)
        have stored := call.store framed (w := 32) (Nat.le_refl offset) (by omega) (Nat.le_refl _)
          fun i less => next.mono (Nat.le_of_lt less)
        refine stored.bind fun _ => triple_pure fun m written => ⟨at_of_copied ⟨?_, ?_, ?_⟩ written, ?_⟩
        · omega
        · omega
        · exact next.mono (Nat.min_le_left _ _)
        · omega
    · intro partly
      have copied := smalls offset (n - offset) (by omega) (by omega) (by omega) clear rights
      exact copied.bind fun _ => triple_pure fun m written => written
  · exact fun ended => triple_pure fun m here => here.all (by omega)

end Loops

section Heads
variable (call : StrncpyCall start dst src n) {small : Nat → Nat → Nat → Kernel Unit}
include call

private theorem strncpyRest_copies (smalls : CopiesSmall start dst src n small) :
    Triple (At start.toMemory dst src n 32 offset) (strncpyRest small dst src n offset)
      fun result m => result = dst ∧ CopiedTo start.toMemory dst src n n m := by
  apply strncpyTail_copies call marksZeros_nullMask (by decide)
  · exact fun k inside reached => copyVec_copies call.copy inside reached
  · intro k inside reached
    have remaining : Triple (At start.toMemory dst src n 32 k) _ _ :=
      handleRemaining_copies call.copy smalls
    exact remaining.from fun m written => at_of_copied reached written

theorem strncpyFirst_copies (smalls : CopiesSmall start dst src n small) (large : 32 ≤ n)
    (rights : start.canRead src 32 = true) :
    Triple (CopiedTo start.toMemory dst src n 0) (strncpyFirst small dst src n)
      fun result m => result = dst ∧ CopiedTo start.toMemory dst src n n m := by
  have copy := call.copy
  refine (written_load rights allows_unaligned).bind fun y1 => ?_
  apply triple_fact
  rintro ⟨m, framed, rfl⟩
  apply triple_ite
  · intro found
    have first := copy.vec_some framed marksZeros_nullMask clearBelow_zero (Nat.zero_le n) found
    have finished := finishVec_copies copy framed (by omega) (tzcnt_lt found) first fun _ => rfl
    exact finished.bind fun _ => triple_pure fun m written => ⟨rfl, written⟩
  · intro none
    have further := copy.vec_none framed marksZeros_nullMask clearBelow_zero (Nat.zero_le n)
      (not_not.mp none)
    have clear : ClearBelow (Nul start.byte src) 32 := further.mono (by simp only [ymmSz]; omega)
    apply triple_ite
    · intro _
      have stored := copy.store framed (w := 32) (t := 32) (Nat.le_refl 0) (by omega) (by omega)
        fun i less => clear.mono (by omega)
      have place : ymmSz - src % ymmSz = 32 - src % 32 := rfl
      rw [place]
      refine stored.bind fun _ => (strncpyRest_copies call smalls).from fun m written => ⟨⟨?_, ?_, ?_⟩, ?_⟩
      · omega
      · omega
      · exact clear.mono (by omega)
      · exact written.less (by omega)
    · exact fun small => absurd large small

/-- Behind the page end the source goes on, unless a NUL or its last byte comes before. -/
theorem strncpyHead_copies {first : Kernel Nat} (some : 0 < n)
    (goes : start.canRead src 32 = true → Triple (CopiedTo start.toMemory dst src n 0) first
      fun result m => result = dst ∧ CopiedTo start.toMemory dst src n n m) :
    Triple (CopiedTo start.toMemory dst src n 0) (strncpyHead dst src n first)
      fun result m => result = dst ∧ CopiedTo start.toMemory dst src n n m := by
  have copy := call.copy
  have mapped := copy.source 0 (by omega) clearBelow_zero
  rw [Nat.add_zero] at mapped
  rw [strncpyHead]
  simp only [ymmSz, pageSz]
  apply triple_ite
  · intro pageEnd
    have head : start.canRead (src - src % 32) 32 = true :=
      PagedMemory.canRead_of_page mapped (by omega) (by omega)
    refine (written_load head (allows_of_aligned (by omega))).bind fun y1 => ?_
    apply triple_fact
    rintro ⟨m, framed, rfl⟩
    have marks := marks_head m src
    apply triple_ite
    · intro found
      obtain ⟨below, first⟩ := marks.first_within found
      rw [← Nat.zero_add (tzcnt _)] at first
      refine Triple.bind (finishVec_copies copy framed some (tzcnt_lt found) first fun whole => ?_)
        fun _ => triple_pure fun m written => ⟨rfl, written⟩
      omega
    · intro none
      have now := marks.clear_within (by omega) (not_not.mp none)
      have clear := copy.clear_start framed (now.mono (Nat.min_le_left _ n)) (Nat.min_le_right _ n)
      apply triple_ite
      · rintro ⟨small, inHead⟩
        have copied := copy.ble 0 n some (by omega) (by omega) fun i less => clear.mono (by omega)
        simp only [Nat.add_zero, Nat.zero_add] at copied
        exact copied.bind fun _ => triple_pure fun m written => ⟨rfl, written⟩
      · intro more
        refine goes (copy.canRead_across ?_ (by omega) ?_)
        · omega
        · exact clear.mono (by omega)
  · intro inPage
    exact goes (PagedMemory.canRead_of_page mapped rfl (by omega))

end Heads

end Vectors

end AoclLibmem.Strings
