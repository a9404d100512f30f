import AoclLibmem.Strings.Strcpy
import AoclLibmem.Strings.StrncpyHelpers

/-! The strcpy kernels write the string and nothing else. Whole vectors are stored once they
are known to hold no NUL; the last one is stored so that it ends with the terminator. -/

namespace AoclLibmem.Strings

open Base Machine Copy

section Vectors
variable {start : PagedMemory} {m : Memory} {dst src len offset w : Nat} {nulls : Lanes w → BitVec w}
variable (call : StrcpyCall start dst src len)
include call

theorem StrcpyCall.clear : ∀ i < len + 1, ClearBelow (Nul start.byte src) i :=
  fun i less => call.ends.2.mono (by omega)

/-- The terminator is seen where it is, whatever has been written. -/
theorem StrcpyCall.first_now (framed : Framed start.toMemory dst (len + 1) m) :
    FirstHit (Nul m.byte src) len := by
  have inside : len < len + 1 := Nat.lt_succ_self len
  refine ⟨?_, call.copy.clear_now framed call.ends.2 (Nat.le_of_lt inside)⟩
  rw [Nul, call.copy.byte_eq framed inside call.ends.2]
  exact call.ends.1

theorem StrcpyCall.clear_seen (framed : Framed start.toMemory dst (len + 1) m) (inside : offset ≤ len) :
    ClearBelow (Nul m.byte src) offset :=
  (call.first_now framed).2.mono inside

/-- A vector before the terminator, or with it. -/
theorem StrcpyCall.vec_clear (zeros : MarksZeros nulls) (framed : Framed start.toMemory dst (len + 1) m)
    (inside : offset ≤ len) (none : nulls (m.lanes w (src + offset)) = 0#w) : offset + w ≤ len := by
  have now := call.clear_seen framed inside
  exact (call.first_now framed).clear_le ((marks_source zeros m src offset).finds.clear now none)

theorem StrcpyCall.vec_found (zeros : MarksZeros nulls) (framed : Framed start.toMemory dst (len + 1) m)
    (inside : offset ≤ len) (some : nulls (m.lanes w (src + offset)) ≠ 0#w) :
    tzcnt (nulls (m.lanes w (src + offset))) + offset = len := by
  have now := call.clear_seen framed inside
  exact ((marks_source zeros m src offset).finds.firstHit now some).unique (call.first_now framed)

theorem StrcpyCall.store (framed : Framed start.toMemory dst (len + 1) m) {k j : Nat} (before : j ≤ k)
    (inside : j + w ≤ len + 1) :
    Triple (CopiedTo start.toMemory dst src (len + 1) k)
      (vecStore w .unaligned (dst + j) (m.lanes w (src + j)))
      fun _ => CopiedTo start.toMemory dst src (len + 1) (j + w) :=
  call.copy.store framed before inside (Nat.le_refl _) fun i less => call.clear i (by omega)

/-- The vector that ends with the terminator reaches back over what is copied. -/
theorem StrcpyCall.copyTail {ret : BitVec w} (found : tzcnt ret + offset = len) (inVec : tzcnt ret < w)
    (large : w ≤ len) :
    Triple (CopiedTo start.toMemory dst src (len + 1) offset) (copyTailVec dst src ret offset)
      fun _ => CopiedTo start.toMemory dst src (len + 1) (len + 1) := by
  have range := call.range
  have index : addSize (subSize (offset + tzcnt ret) w) 1 = len + 1 - w := by
    rw [Nat.add_comm offset, found, subSize_of_le large range, addSize_of_lt (by omega)]
    omega
  rw [copyTailVec, index]
  have rights : start.canRead (src + (len + 1 - w)) w = true :=
    call.copy.canRead (fun k less => call.clear (k + 1) (by omega) k (Nat.lt_succ_self k)) (by omega)
  refine (written_load rights allows_unaligned).bind fun y => ?_
  apply triple_fact
  rintro ⟨m, framed, rfl⟩
  have stored := call.store framed (w := w) (k := offset) (j := len + 1 - w) (by omega) (by omega)
  have ends : len + 1 - w + w = len + 1 := by omega
  rwa [ends] at stored

/-- What is left of the string is copied, or all of it. -/
def CopiedOr (start : Memory) (dst src len further : Nat) : Option Nat → Memory → Prop
  | none => CopiedTo start dst src (len + 1) (len + 1)
  | some k => fun m => (k = further ∧ k ≤ len) ∧ CopiedTo start dst src (len + 1) k m

/-- The vector with the terminator, stored as far as it belongs to the string. -/
def Finishes (start : Memory) (dst src len : Nat) (nulls : Lanes w → BitVec w)
    (finish : Lanes w → BitVec w → Nat → Kernel Unit) : Prop :=
  ∀ m offset, Framed start dst (len + 1) m → nulls (m.lanes w (src + offset)) ≠ 0#w →
    tzcnt (nulls (m.lanes w (src + offset))) + offset = len →
    Triple (CopiedTo start dst src (len + 1) offset)
      (finish (m.lanes w (src + offset)) (nulls (m.lanes w (src + offset))) offset)
      fun _ => CopiedTo start dst src (len + 1) (len + 1)

private theorem copyTailVec_finishes (large : w ≤ len) : Finishes start.toMemory dst src len nulls
    fun _ ret => copyTailVec dst src ret :=
  fun _ _ _ some found => call.copyTail found (tzcnt_lt some) large

private theorem strcpyVecs_copies (zeros : MarksZeros nulls) (divides : w ∣ 4096)
    {finish : Lanes w → BitVec w → Nat → Kernel Unit}
    (finishes : Finishes start.toMemory dst src len nulls finish) {count : Nat} (inside : offset ≤ len)
    (aligned : (src + offset) % w = 0) :
    Triple (CopiedTo start.toMemory dst src (len + 1) offset)
      (strcpyVecs nulls dst src finish count offset)
      (CopiedOr start.toMemory dst src len (offset + count * w)) := by
  induction count generalizing offset with
  | zero =>
    rw [Nat.zero_mul, Nat.add_zero]
    exact triple_pure fun m written => ⟨⟨rfl, inside⟩, written⟩
  | succ count ih =>
    have rights := call.copy.canRead_aligned (call.clear _ (by omega)) (by omega) aligned divides
    refine (written_load rights (allows_of_aligned aligned)).bind fun y => ?_
    apply triple_fact
    rintro ⟨m, framed, rfl⟩
    apply triple_ite
    · intro some
      have found := call.vec_found zeros framed inside some
      refine (finishes m offset framed some found).bind fun _ => ?_
      exact triple_pure fun m written => written
    · intro none
      have further := call.vec_clear zeros framed inside (not_not.mp none)
      have place : offset + (count + 1) * w = offset + w + count * w := by
        rw [Nat.succ_mul]
        omega
      have next : (src + (offset + w)) % w = 0 := by
        rw [← Nat.add_assoc, Nat.add_mod_right]
        exact aligned
      rw [place]
      refine (call.store framed (Nat.le_refl _) (by omega)).bind fun _ => ?_
      exact ih further next

private theorem strcpyLast4_copies (zeros : MarksZeros nulls)
    (framed : Framed start.toMemory dst (len + 1) m) (inside : offset ≤ len) (large : w ≤ len)
    (some : nulls (minEpu8 (minEpu8 (m.lanes w (src + offset)) (m.lanes w (src + offset + w)))
      (minEpu8 (m.lanes w (src + offset + 2 * w)) (m.lanes w (src + offset + 3 * w)))) ≠ 0#w) :
    Triple (CopiedTo start.toMemory dst src (len + 1) offset)
      (strcpyLast4 nulls dst src (m.lanes w (src + offset)) (m.lanes w (src + offset + w))
        (m.lanes w (src + offset + 2 * w))
        (minEpu8 (m.lanes w (src + offset)) (m.lanes w (src + offset + w)))
        (nulls (minEpu8 (minEpu8 (m.lanes w (src + offset)) (m.lanes w (src + offset + w)))
          (minEpu8 (m.lanes w (src + offset + 2 * w)) (m.lanes w (src + offset + 3 * w))))) offset)
      fun _ => CopiedTo start.toMemory dst src (len + 1) (len + 1) := by
  have four := nullFour (w := w) m src offset
  have pick := (four.firstHit zeros (call.clear_seen framed inside) some).unique (call.first_now framed)
  have store (k : Nat) (inside : offset + k + w ≤ len) :
      Triple (CopiedTo start.toMemory dst src (len + 1) (offset + k))
        (vecStore w .unaligned (dst + offset + k) (m.lanes w (src + offset + k)))
        fun _ => CopiedTo start.toMemory dst src (len + 1) (offset + k + w) := by
    rw [Nat.add_assoc, Nat.add_assoc src]
    exact call.store framed (Nat.le_refl _) (by omega)
  rw [pickFour] at pick
  apply triple_ite
  · intro pair
    rw [if_pos pair] at pick
    apply triple_ite
    · intro first
      rw [if_pos first] at pick
      exact call.copyTail pick (tzcnt_lt first) large
    · intro notFirst
      rw [if_neg notFirst] at pick
      refine (store 0 (by omega)).bind fun _ => ?_
      exact call.copyTail (by omega) (tzcnt_lt pair) large
  · intro notPair
    rw [if_neg notPair] at pick
    have further : offset + 2 * w ≤ len := by
      split at pick <;> omega
    refine (store 0 (by omega)).bind fun _ => (store w (by omega)).bind fun _ => ?_
    have double : offset + w + w = offset + 2 * w := by omega
    rw [double]
    apply triple_ite
    · intro third
      rw [if_pos third] at pick
      exact call.copyTail (by omega) (tzcnt_lt third) large
    · intro notThird
      rw [if_neg notThird] at pick
      refine (store (2 * w) (by omega)).bind fun _ => ?_
      have triple : offset + 2 * w + w = offset + 3 * w := by omega
      rw [triple]
      exact call.copyTail (by omega) (tzcnt_lt some) large

private theorem strcpyVec4s_copies (zeros : MarksZeros nulls) (divides : 4 * w ∣ 4096)
    (large : w ≤ len) (inside : offset ≤ len) (aligned : (src + offset) % (4 * w) = 0) :
    Triple (CopiedTo start.toMemory dst src (len + 1) offset) (strcpyVec4s nulls dst src offset)
      fun _ => CopiedTo start.toMemory dst src (len + 1) (len + 1) := by
  have some : 0 < w := by
    rcases Nat.eq_zero_or_pos w with rfl | some
    · exact absurd (Nat.eq_zero_of_zero_dvd divides) (by decide)
    · exact some
  have loop : Triple (fun m => (offset ≤ len ∧ (src + offset) % (4 * w) = 0) ∧
      CopiedTo start.toMemory dst src (len + 1) offset m) (strcpyVec4s nulls dst src offset)
      fun _ => CopiedTo start.toMemory dst src (len + 1) (len + 1) := by
    have range := call.range
    refine loopM_triple (fun offset m => (offset ≤ len ∧ (src + offset) % (4 * w) = 0) ∧
      CopiedTo start.toMemory dst src (len + 1) offset m) (fun offset => len - offset) ?_
      (by rw [sizeRange_eq] at range; rw [budget]; omega)
    clear inside aligned
    intro offset
    apply triple_fact
    rintro ⟨inside, aligned⟩
    have whole := call.copy.canRead_aligned (call.clear _ (by omega)) (by omega) aligned divides
    apply written_load4 aligned whole
    intro m framed
    apply triple_ite
    · intro found
      refine (strcpyLast4_copies call zeros framed inside large found).bind fun _ => ?_
      exact triple_pure fun m written => written
    · intro none
      have four := nullFour (w := w) m src offset
      have clear := four.clear zeros (call.clear_seen framed inside) (not_not.mp none)
      have further : offset + 4 * w ≤ len := (call.first_now framed).clear_le clear
      have next : (src + (offset + 4 * w)) % (4 * w) = 0 := by
        rw [← Nat.add_assoc, Nat.add_mod_right]
        exact aligned
      apply call.copy.store4 framed (by omega) fun i less => call.clear i (by omega)
      exact triple_pure fun m written => ⟨⟨⟨further, next⟩, written⟩, by omega⟩
  exact loop.from fun m written => ⟨⟨inside, aligned⟩, written⟩

private theorem strcpyRest_copies (count offset : Nat) (zeros : MarksZeros nulls)
    (divides : 4 * w ∣ 4096) (large : w ≤ len) {finish : Lanes w → BitVec w → Nat → Kernel Unit}
    (finishes : Finishes start.toMemory dst src len nulls finish) (inside : offset ≤ len)
    (aligned : (src + offset) % w = 0) :
    Triple (CopiedTo start.toMemory dst src (len + 1) offset)
      (strcpyRest nulls dst src finish count offset)
      fun result m => result = dst ∧ CopiedTo start.toMemory dst src (len + 1) (len + 1) m := by
  have vector : w ∣ 4096 := Nat.dvd_trans (Nat.dvd_mul_left w 4) divides
  have some : 0 < w := Nat.pos_of_dvd_of_pos vector (by decide)
  have tail : Finishes start.toMemory dst src len nulls _ := copyTailVec_finishes call large
  refine (strcpyVecs_copies call zeros vector tail inside aligned).bind fun result => ?_
  cases result with
  | none => exact triple_pure fun m written => ⟨rfl, written⟩
  | some offset' =>
    apply triple_fact
    rintro ⟨rfl, inside⟩
    have aligned' : (src + (offset + count * w)) % w = 0 := by
      rw [← Nat.add_assoc, Nat.add_mul_mod_self_right]
      exact aligned
    refine (strcpyVecs_copies call zeros vector finishes inside aligned').bind fun result => ?_
    cases result with
    | none => exact triple_pure fun m written => ⟨rfl, written⟩
    | some offset' =>
      apply triple_fact
      rintro ⟨rfl, inside⟩
      have line := lines_aligned some aligned'
      rw [Nat.add_assoc] at line
      refine (strcpyVec4s_copies call zeros divides large inside line).bind fun _ => ?_
      exact triple_pure fun m written => ⟨rfl, written⟩

end Vectors

section Avx2
variable {start : PagedMemory} {dst src len : Nat} (call : StrcpyCall start dst src len)
include call

theorem StrcpyCall.mapped : start.readable src = true := call.source 0 (Nat.zero_le len)

theorem StrcpyCall.ble (short : len < 32) :
    Triple (CopiedTo start.toMemory dst src (len + 1) 0) (strcpyBleYmm dst src (len + 1))
      fun _ => CopiedTo start.toMemory dst src (len + 1) (len + 1) := by
  have copies := call.copy.ble 0 (len + 1) (Nat.succ_pos len) short (by omega)
    fun i less => call.clear i (by omega)
  simpa only [Nat.add_zero, Nat.zero_add] using copies

private theorem strcpyAvx2First_copies (rights : start.canRead src 32 = true) :
    Triple (CopiedTo start.toMemory dst src (len + 1) 0) (strcpyAvx2First dst src)
      fun result m => result = dst ∧ CopiedTo start.toMemory dst src (len + 1) (len + 1) m := by
  refine (written_load rights allows_unaligned).bind fun y1 => ?_
  apply triple_fact
  rintro ⟨m, framed, rfl⟩
  apply triple_ite
  · intro some
    have found := call.vec_found marksZeros_nullMask framed (Nat.zero_le len) some
    have below := tzcnt_lt some
    have length : tzcnt (nullMask (m.lanes ymmSz src)) = len := found
    rw [length] at below ⊢
    exact (call.ble below).bind fun _ => triple_pure fun m written => ⟨rfl, written⟩
  · intro none
    have large := call.vec_clear marksZeros_nullMask framed (Nat.zero_le len) (not_not.mp none)
    simp only [ymmSz, Nat.zero_add] at large
    have stored := call.store framed (w := 32) (Nat.le_refl 0) (by omega)
    refine stored.bind fun _ => ?_
    have rest := strcpyRest_copies call 6 (32 - src % 32) marksZeros_nullMask
      (by decide) large (copyTailVec_finishes call large) (by omega) (by omega)
    exact rest.from fun m written => written.less (by omega)

theorem strcpyAvx2_copiesTo :
    Triple (CopiedTo start.toMemory dst src (len + 1) 0) (strcpyAvx2 dst src)
      fun result m => result = dst ∧ CopiedTo start.toMemory dst src (len + 1) (len + 1) m := by
  rw [strcpyAvx2]
  simp only [ymmSz, pageSz]
  apply triple_ite
  · intro pageEnd
    have head : start.canRead (src - src % 32) 32 = true :=
      PagedMemory.canRead_of_page call.mapped (by omega) (by omega)
    refine (written_load head (allows_of_aligned (by omega))).bind fun y1 => ?_
    apply triple_fact
    rintro ⟨m, framed, rfl⟩
    have marks := marks_head m src
    apply triple_ite
    · intro some
      obtain ⟨below, first⟩ := marks.first_within some
      have length := first.unique (call.first_now framed)
      rw [length] at below ⊢
      exact (call.ble (by omega)).bind fun _ => triple_pure fun m written => ⟨rfl, written⟩
    · intro none
      have clear := marks.clear_within (by omega) (not_not.mp none)
      have further := (call.first_now framed).clear_le clear
      have before := call.copy.clear_start framed clear (by omega)
      have distance : 32 - src % 32 = 4096 - src % 4096 := by omega
      rw [distance] at before
      exact strcpyAvx2First_copies call (call.copy.canRead_across (by omega) (by omega) before)
  · intro inPage
    exact strcpyAvx2First_copies call (PagedMemory.canRead_of_page call.mapped rfl (by omega))

end Avx2

section Zmm
variable {start : PagedMemory} {dst src len offset : Nat} {tailMask : BitVec 64 → BitVec 64}

/-- The mask of the lanes up to the first one that is set. -/
def MasksTail (tailMask : BitVec 64 → BitVec 64) : Prop :=
  ∀ mtch, mtch ≠ 0#64 → ∀ i < 64, (tailMask mtch).getLsbD i = true ↔ i < tzcnt mtch + 1

theorem masksTail_headMask : MasksTail fun mtch => headMask (63 - tzcnt mtch) := by
  intro mtch some i below
  have inVec := tzcnt_lt some
  rw [getLsbD_headMask, decide_eq_true_iff]
  omega

theorem masksTail_bzhi : MasksTail fun mtch => bzhiOnes (tzcnt mtch + 1) := by
  intro mtch some i below
  have inVec := tzcnt_lt some
  rw [getLsbD_bzhiOnes below, decide_eq_true_iff, Nat.mod_eq_of_lt (by omega)]

theorem marksZeros_nullMaskZmm : MarksZeros nullMaskZmm := marksZeros_null

/-- The first vector before a page end: the lanes behind it hold no NUL. -/
theorem marks_headZmm (m : Memory) (src : Nat) :
    Marks (nullMaskZmm fun i => if (headMask (src % 64) : BitVec 64).getLsbD i then m.byte (src + i)
      else set1 0xff i) fun i => i < 64 - src % 64 ∧ Nul m.byte src i := by
  apply marksZeros_nullMaskZmm
  intro i
  simp only [getLsbD_headMask, decide_eq_true_eq]
  split
  · exact (and_iff_right (by omega)).symm
  · exact iff_of_false (show (0xff : UInt8) ≠ 0 by decide) fun both => by omega

variable (call : StrcpyCall start dst src len) (tail : MasksTail tailMask)
include call tail

private theorem storeTail_copies {z : Lanes 64} {mtch : BitVec 64} (some : mtch ≠ 0#64)
    (found : tzcnt mtch + offset = len)
    (lanes : ∀ i : Fin 64, i ≤ tzcnt mtch → z i = copyText start.byte src (offset + i)) :
    Triple (CopiedTo start.toMemory dst src (len + 1) offset) (storeTail tailMask dst z mtch offset)
      fun _ => CopiedTo start.toMemory dst src (len + 1) (len + 1) := by
  have inVec := tzcnt_lt some
  apply written_maskStore call.copy.target (tail mtch some) (by omega)
  · exact fun i active _ => lanes i (by omega)
  · intro j member
    by_cases old : j < offset
    · exact .inl old
    · exact .inr ⟨by omega, by omega, by omega⟩

private theorem storeTail_finishes :
    Finishes start.toMemory dst src len nullMaskZmm (storeTail tailMask dst) := by
  intro m offset framed some found
  apply storeTail_copies call tail some found
  intro i near
  rw [Memory.lanes_apply, Nat.add_assoc]
  exact call.copy.text_eq framed (by omega) (call.clear _ (by omega))

private theorem strcpyZmmFirst_copies (rights : start.canRead src 64 = true) :
    Triple (CopiedTo start.toMemory dst src (len + 1) 0) (strcpyZmmFirst tailMask dst src)
      fun result m => result = dst ∧ CopiedTo start.toMemory dst src (len + 1) (len + 1) m := by
  refine (written_load rights allows_unaligned).bind fun z1 => ?_
  apply triple_fact
  rintro ⟨m, framed, rfl⟩
  apply triple_ite
  · intro some
    have found := call.vec_found marksZeros_nullMaskZmm framed (Nat.zero_le len) some
    refine (storeTail_finishes call tail m 0 framed some found).bind fun _ => ?_
    exact triple_pure fun m written => ⟨rfl, written⟩
  · intro none
    have large := call.vec_clear marksZeros_nullMaskZmm framed (Nat.zero_le len) (not_not.mp none)
    simp only [Nat.zero_add] at large
    have stored := call.store framed (w := 64) (Nat.le_refl 0) (by omega)
    refine stored.bind fun _ => ?_
    have rest := strcpyRest_copies call 3 (64 - src % 64) marksZeros_nullMaskZmm
      (by decide) large (storeTail_finishes call tail) (by omega) (by omega)
    exact rest.from fun m written => written.less (by omega)

theorem strcpyZmm_copiesTo :
    Triple (CopiedTo start.toMemory dst src (len + 1) 0) (strcpyZmm tailMask dst src)
      fun result m => result = dst ∧ CopiedTo start.toMemory dst src (len + 1) (len + 1) m := by
  rw [strcpyZmm]
  simp only [zmmSz, pageSz]
  apply triple_ite
  · intro pageEnd
    have rights : ∀ i < 64, (headMask (src % 64) : BitVec 64).getLsbD i = true →
        start.readable (src + i) = true := by
      intro i below active
      rw [getLsbD_headMask, decide_eq_true_iff] at active
      rw [← call.mapped]
      exact start.byPage _ _ (by simp only [pageSz]; omega)
    refine (written_maskLoadOnto rights).bind fun z1 => ?_
    apply triple_fact
    rintro ⟨m, framed, rfl⟩
    have marks := marks_headZmm m src
    apply triple_ite
    · intro some
      obtain ⟨below, first⟩ := marks.first_within some
      have length := first.unique (call.first_now framed)
      refine (storeTail_copies call tail some (by omega) ?_).bind fun _ => ?_
      · intro i near
        have active : (headMask (src % 64) : BitVec 64).getLsbD i = true := by
          rw [getLsbD_headMask, decide_eq_true_iff]
          omega
        rw [if_pos active, Nat.zero_add]
        exact call.copy.text_eq framed (by omega) (call.clear _ (by omega))
      · exact triple_pure fun m written => ⟨rfl, written⟩
    · intro none
      have clear := marks.clear_within (by omega) (not_not.mp none)
      have further := (call.first_now framed).clear_le clear
      have before := call.copy.clear_start framed clear (by omega)
      have distance : 64 - src % 64 = 4096 - src % 4096 := by omega
      rw [distance] at before
      exact strcpyZmmFirst_copies call tail (call.copy.canRead_across (by omega) (by omega) before)
  · intro inPage
    exact strcpyZmmFirst_copies call tail (PagedMemory.canRead_of_page call.mapped rfl (by omega))

end Zmm

section Correct
variable {start : PagedMemory} {dst src len : Nat}

theorem StrcpyCall.copied (call : StrcpyCall start dst src len) {run : Kernel Nat}
    (copies : Triple (CopiedTo start.toMemory dst src (len + 1) 0) run
      fun result m => result = dst ∧ CopiedTo start.toMemory dst src (len + 1) (len + 1) m) :
    ∃ after, run start.toMemory = .ok (dst, after) ∧ Copied start.toMemory after dst src (len + 1) := by
  obtain ⟨_, after, returned, rfl, all⟩ := copies start.toMemory (copiedTo_start _ _ _ _)
  exact ⟨after, returned, all.copied call.clear⟩

theorem strcpyAvx2_copies (start : PagedMemory) (dst src len : Nat)
    (call : StrcpyCall start dst src len) :
    ∃ after, strcpyAvx2 dst src start.toMemory = .ok (dst, after) ∧
      Copied start.toMemory after dst src (len + 1) :=
  call.copied (strcpyAvx2_copiesTo call)

theorem strcpyAvx2_copies_lastWord :
    ∃ after, strcpyAvx2 4096 6144 lastWord.toMemory = .ok (4096, after) ∧
      Copied lastWord.toMemory after 4096 6144 2048 :=
  strcpyAvx2_copies lastWord 4096 6144 2047 (lastWord_strcpyCall rfl (by decide))

/-- Both 64-byte kernels, with the masks by which they cut a vector off. -/
theorem strcpyZmm_copies (start : PagedMemory) (dst src len : Nat)
    (call : StrcpyCall start dst src len) :
    (∃ after, strcpyAvx512 dst src start.toMemory = .ok (dst, after) ∧
        Copied start.toMemory after dst src (len + 1)) ∧
      ∃ after, strcpyZen4 dst src start.toMemory = .ok (dst, after) ∧
        Copied start.toMemory after dst src (len + 1) :=
  ⟨call.copied (strcpyZmm_copiesTo call masksTail_headMask),
    call.copied (strcpyZmm_copiesTo call masksTail_bzhi)⟩

theorem strcpyZmm_copies_lastWord :
    (∃ after, strcpyAvx512 4096 6144 lastWord.toMemory = .ok (4096, after) ∧
        Copied lastWord.toMemory after 4096 6144 2048) ∧
      ∃ after, strcpyZen4 4096 6144 lastWord.toMemory = .ok (4096, after) ∧
        Copied lastWord.toMemory after 4096 6144 2048 :=
  strcpyZmm_copies lastWord 4096 6144 2047 (lastWord_strcpyCall rfl (by decide))

end Correct

end AoclLibmem.Strings
