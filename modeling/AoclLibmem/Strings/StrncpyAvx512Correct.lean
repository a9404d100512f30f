import AoclLibmem.Strings.StrncpyAvx512
import AoclLibmem.Strings.StrcpyCorrect

/-! `_strncpy_avx512` writes exactly `n` bytes. A lane outside the mask of a load reads as a
NUL, but at or behind index `n`, where nothing is copied or filled any more. -/

namespace AoclLibmem.Strings

open Base Machine

section Store
variable {start : PagedMemory} {m : Memory} {dst src n offset : Nat} {z : Lanes 64}
variable (call : StringCopy start dst src n)
include call

private theorem storeLanes_copies (offset slen : Nat) (inside : offset + min slen 64 ≤ n)
    (lanes : ∀ i : Fin 64, i < slen → z i = copyText start.byte src (offset + i)) :
    Triple (CopiedTo start.toMemory dst src n offset) (storeLanes dst z offset slen)
      fun _ => CopiedTo start.toMemory dst src n (offset + min slen 64) := by
  rw [storeLanes]
  simp only [zmmSz]
  apply triple_ite
  · intro whole
    apply written_store call.target allows_unaligned (by omega)
    · exact fun i _ => lanes i (by omega)
    · intro j member
      by_cases old : j < offset
      · exact .inl old
      · exact .inr ⟨by omega, by omega⟩
  · intro part
    have set : ∀ i < 64, (bzhiOnes slen : BitVec 64).getLsbD i = true ↔ i < slen := by
      intro i below
      rw [getLsbD_bzhiOnes below, decide_eq_true_iff, Nat.mod_eq_of_lt (by omega)]
    apply written_maskStore call.target set (by omega)
    · exact fun i active _ => lanes i active
    · intro j member
      by_cases old : j < offset
      · exact .inl old
      · exact .inr ⟨by omega, by omega, by omega⟩

/-- What is left behind the vector with the NUL in lane `nullIdx`. -/
private theorem nullFill_copies {z : Nat} (nul : z < n → Nul start.byte src z) :
    Triple (CopiedTo start.toMemory dst src n (min (z + 1) n))
      (do if z + 1 < n then let _ ← fillNullAvx512 (dst + (z + 1)) (n - (z + 1)))
      fun _ => CopiedTo start.toMemory dst src n n := by
  apply triple_ite
  · intro more
    rw [Nat.min_eq_left (Nat.le_of_lt more)]
    exact call.fill fillNullAvx512_fills (nul (by omega)) (by omega)
  · exact fun last => triple_pure fun m written => written.less (by omega)

private theorem finishZmm_copies {nullIdx : Nat} (inside : offset < n) (inVec : nullIdx < 64)
    (nul : offset + nullIdx < n → Nul start.byte src (offset + nullIdx))
    (lanes : ∀ i : Fin 64, i ≤ nullIdx → offset + i < n → z i = copyText start.byte src (offset + i)) :
    Triple (CopiedTo start.toMemory dst src n offset) (finishZmm dst n z offset nullIdx)
      fun _ => CopiedTo start.toMemory dst src n n := by
  rw [finishZmm]
  dsimp only
  have slen : (if nullIdx + 1 < n - offset then nullIdx + 1 else n - offset) =
      min (nullIdx + 1) (n - offset) := by
    split <;> omega
  have stored := storeLanes_copies call (z := z) offset (min (nullIdx + 1) (n - offset)) (by omega)
    fun i below => lanes i (by omega) (by omega)
  have reach : offset + min (min (nullIdx + 1) (n - offset)) 64 = min (offset + nullIdx + 1) n := by
    omega
  rw [reach] at stored
  rw [slen]
  exact stored.bind fun _ => nullFill_copies call nul

private theorem finishZmmFirst_copies {index : Nat} (inVec : index < 64)
    (nul : index < n → Nul start.byte src index)
    (lanes : ∀ i : Fin 64, i ≤ index → i < n → z i = copyText start.byte src i) :
    Triple (CopiedTo start.toMemory dst src n 0) (finishZmmFirst dst n z index)
      fun _ => CopiedTo start.toMemory dst src n n := by
  rw [finishZmmFirst]
  have slen : (if index + 1 < n then index + 1 else n) = min (index + 1) n := by
    split <;> omega
  rw [slen]
  have set : ∀ i < 64, (bzhiOnes (min (index + 1) n) : BitVec 64).getLsbD i = true ↔
      i < min (index + 1) n := by
    intro i below
    rw [getLsbD_bzhiOnes below, decide_eq_true_iff, Nat.mod_eq_of_lt (by omega)]
  have stored : Triple (CopiedTo start.toMemory dst src n 0)
      (maskStore 64 (bzhiOnes (min (index + 1) n)) (dst + 0) z)
      fun _ => CopiedTo start.toMemory dst src n (min (index + 1) n) := by
    apply written_maskStore call.target set (by omega)
    · intro i active _
      rw [Nat.zero_add]
      exact lanes i (by omega) (by omega)
    · exact fun j member => .inr ⟨by omega, by omega, by omega⟩
  exact stored.bind fun _ => nullFill_copies call nul

end Store

/-- A lane outside the mask of a load reads as a NUL. -/
private theorem marks_maskLoad (m : Memory) (mask : BitVec 64) (addr : Nat) :
    Marks (nullMaskZmm fun i : Fin 64 => if mask.getLsbD i then m.byte (addr + i) else 0)
      fun i => mask.getLsbD i = true → m.byte (addr + i) = 0 := by
  apply marksZeros_nullMaskZmm
  intro i
  split
  · rename_i set
    exact (imp_iff_right set).symm
  · rename_i clear
    exact iff_of_true rfl fun set => absurd set clear

section Loops
variable {start : PagedMemory} {dst src n offset : Nat} (call : StringCopy start dst src n)
include call

private theorem copyZmm_copies (inside : offset < n)
    (reached : Reached start.toMemory src n 64 offset) :
    Triple (CopiedTo start.toMemory dst src n offset) (copyZmm dst src n offset)
      (StepCopied start.toMemory dst src n 64 (offset + 64)) := by
  have aligned := reached.aligned
  have le := Nat.le_of_lt inside
  have clear := reached.clear_of_le le
  have rights := call.canRead_aligned clear inside aligned (by decide)
  refine (written_load rights (allows_of_aligned aligned)).bind fun z2 => ?_
  apply triple_fact
  rintro ⟨m, framed, rfl⟩
  have text (i : Fin 64) (below : offset + i < n)
      (before : ClearBelow (Nul start.byte src) (offset + i)) :
      m.lanes 64 (src + offset) i = copyText start.byte src (offset + i) := by
    rw [Memory.lanes_apply, Nat.add_assoc]
    exact call.text_eq framed below before
  apply triple_ite
  · intro some
    have first := call.vec_some framed marksZeros_nullMaskZmm clear le some
    have before := call.clear_found framed first
    have finished := finishZmm_copies call inside (tzcnt_lt some)
      (fun below => (call.first_start framed first below).1)
      fun i near below => text i below (before.mono (by omega))
    exact finished.bind fun _ => triple_pure fun m written => written
  · intro none
    have next := call.vec_none framed marksZeros_nullMaskZmm clear le (not_not.mp none)
    have stored := storeLanes_copies call offset (n - offset) (by omega)
      fun i below => text i (by omega) (next.mono (by omega))
    refine stored.bind fun _ => triple_pure fun m written => ⟨⟨?_, ?_, next⟩, written.less ?_⟩
    · omega
    · omega
    · omega

private theorem handleRemainingZmm_copies :
    Triple (At start.toMemory dst src n 64 offset) (handleRemainingZmm dst src n offset)
      fun _ => CopiedTo start.toMemory dst src n n := by
  have range := call.range
  refine loopM_triple (At start.toMemory dst src n 64) (fun offset => n - offset) ?_
    (by rw [sizeRange_eq] at range; rw [budget]; omega)
  simp only [zmmSz]
  intro offset
  apply triple_ite
  · intro inside
    have le := Nat.le_of_lt inside
    apply triple_at le
    intro reached
    have aligned := reached.aligned
    have clear := reached.clear_of_le le
    have rights := call.canRead_aligned clear inside aligned (by decide)
    have block : ∀ i < 64, (if n - offset ≥ 64 then BitVec.allOnes 64 else
        bzhiOnes (n - offset)).getLsbD i = true ↔ i < n - offset := by
      intro i below
      split
      · simp only [BitVec.getLsbD_allOnes, below, decide_true, true_iff]
        omega
      · rw [getLsbD_bzhiOnes below, decide_eq_true_iff, Nat.mod_eq_of_lt (by omega)]
    generalize (if n - offset ≥ 64 then BitVec.allOnes 64 else bzhiOnes (n - offset)) = mask at block ⊢
    refine (written_maskLoad fun i below _ => Memory.canRead_iff.mp rights i below).bind fun z1 => ?_
    apply triple_fact
    rintro ⟨m, framed, rfl⟩
    have now := call.clear_now framed clear le
    have marks : Marks (nullMaskZmm (fun i : Fin 64 => if mask.getLsbD i then m.byte (src + offset + i)
        else 0) &&& mask) fun i => i < min (n - offset) 64 ∧ Nul m.byte src (offset + i) := by
      intro i below
      have lane := marks_maskLoad m mask (src + offset) i below
      have place : src + offset + i = src + (offset + i) := Nat.add_assoc src offset i
      dsimp only at lane
      rw [place] at lane
      rw [BitVec.getLsbD_and, Bool.and_eq_true, lane, block i below]
      constructor
      · rintro ⟨nul, inMask⟩
        exact ⟨by omega, nul inMask⟩
      · rintro ⟨inMask, nul⟩
        exact ⟨fun _ => nul, by omega⟩
    have text (i : Fin 64) (below : offset + i < n)
        (before : ClearBelow (Nul start.byte src) (offset + i)) :
        (if mask.getLsbD i then m.byte (src + offset + i) else 0) =
          copyText start.byte src (offset + i) := by
      rw [if_pos ((block i i.isLt).mpr (by omega)), Nat.add_assoc]
      exact call.text_eq framed below before
    apply triple_ite
    · intro some
      obtain ⟨below, first⟩ := marks.finds.firstHit_within now some
      rw [Nat.add_comm] at first
      have before := call.clear_found framed first
      have finished := finishZmm_copies call inside (tzcnt_lt some)
        (fun below => (call.first_start framed first below).1)
        fun i near below => text i below (before.mono (by omega))
      exact finished.bind fun _ => triple_pure fun m written => written
    · intro none
      have clear := marks.finds.clear_within now (by omega) (not_not.mp none)
      have reach : offset + min (n - offset) 64 = min (offset + 64) n := by omega
      rw [reach] at clear
      have next := call.clear_start framed clear (Nat.min_le_right _ n)
      have reached' : Reached start.toMemory src n 64 (offset + 64) := ⟨by omega, by omega, next⟩
      apply triple_ite
      · intro whole
        have stored : Triple (CopiedTo start.toMemory dst src n offset)
            (vecStore 64 .unaligned (dst + offset) fun i : Fin 64 =>
              if mask.getLsbD i then m.byte (src + offset + i) else 0)
            fun _ => CopiedTo start.toMemory dst src n (min (offset + 64) n) := by
          apply written_store call.target allows_unaligned (by omega)
          · exact fun i counts => text i (by omega) (next.mono (by omega))
          · intro j member
            by_cases old : j < offset
            · exact .inl old
            · exact .inr ⟨by omega, by omega⟩
        exact stored.bind fun _ => triple_pure fun m written => ⟨⟨reached', written⟩, by omega⟩
      · intro part
        have stored : Triple (CopiedTo start.toMemory dst src n offset)
            (maskStore 64 mask (dst + offset) fun i : Fin 64 =>
              if mask.getLsbD i then m.byte (src + offset + i) else 0)
            fun _ => CopiedTo start.toMemory dst src n (min (offset + 64) n) := by
          apply written_maskStore call.target block (by omega)
          · exact fun i active counts => text i (by omega) (next.mono (by omega))
          · intro j member
            by_cases old : j < offset
            · exact .inl old
            · exact .inr ⟨by omega, by omega, by omega⟩
        exact stored.bind fun _ => triple_pure fun m written => ⟨⟨reached', written⟩, by omega⟩
  · exact fun ended => triple_pure fun m here => here.all (by omega)

end Loops

section First
variable {start : PagedMemory} {m : Memory} {dst src n : Nat} {z1 : Lanes 64}

/-- The first vector: what is asked for of it, and NULs behind that. -/
structure FirstLoaded (m : Memory) (src n : Nat) (z1 : Lanes 64) : Prop where
  bytes : ∀ i : Fin 64, i < n → z1 i = m.byte (src + i)
  rest : ∀ i : Fin 64, n ≤ i → z1 i = 0

theorem FirstLoaded.marks (loaded : FirstLoaded m src n z1) :
    Marks (nullMaskZmm z1) fun i => n ≤ i ∨ Nul m.byte src i := by
  apply marksZeros_nullMaskZmm
  intro i
  by_cases inside : i < n
  · rw [loaded.bytes i inside]
    exact (or_iff_right (Nat.not_le.mpr inside)).symm
  · exact iff_of_true (loaded.rest i (by omega)) (.inl (by omega))

private theorem loadFirst_loads (rights : ∀ i < 64, i < n → start.readable (src + i) = true) :
    Triple (CopiedTo start.toMemory dst src n 0) (loadFirst src n)
      fun z1 m => (∃ seen, Framed start.toMemory dst n seen ∧ FirstLoaded seen src n z1) ∧
        CopiedTo start.toMemory dst src n 0 m := by
  rw [loadFirst]
  simp only [zmmSz]
  apply triple_ite
  · intro small
    have set : ∀ i < 64, (bzhiOnes n : BitVec 64).getLsbD i = true ↔ i < n := by
      intro i below
      rw [getLsbD_bzhiOnes below, decide_eq_true_iff, Nat.mod_eq_of_lt (by omega)]
    refine Triple.imp (written_maskLoad fun i below active => rights i below ?_) ?_
    · exact (set i below).mp active
    · rintro _ m ⟨⟨seen, framed, rfl⟩, written⟩
      refine ⟨⟨seen, framed, fun i inside => ?_, fun i behind => ?_⟩, written⟩
      · exact if_pos ((set i i.isLt).mpr inside)
      · exact if_neg fun active => absurd ((set i i.isLt).mp active) (by omega)
  · intro large
    have whole : start.canRead src 64 = true :=
      Memory.canRead_iff.mpr fun i below => rights i below (by omega)
    apply (written_load whole allows_unaligned).imp
    rintro _ m ⟨⟨seen, framed, rfl⟩, written⟩
    exact ⟨⟨seen, framed, fun i _ => rfl, fun i behind => by omega⟩, written⟩

variable (call : StrncpyCall start dst src n)
include call

private theorem strncpyZmmFirst_copies
    (rights : ∀ i < 64, i < n → start.readable (src + i) = true) :
    Triple (CopiedTo start.toMemory dst src n 0) (strncpyZmmFirst dst src n)
      fun result m => result = dst ∧ CopiedTo start.toMemory dst src n n m := by
  rw [strncpyZmmFirst]
  simp only [zmmSz]
  refine (loadFirst_loads rights).bind fun z1 => ?_
  apply triple_fact
  rintro ⟨m, framed, loaded⟩
  have text (i : Fin 64) (below : i < n) (before : ClearBelow (Nul start.byte src) i) :
      z1 i = copyText start.byte src i :=
    (loaded.bytes i below).trans (call.copy.text_eq framed below before)
  have finds := loaded.marks.finds
  apply triple_ite
  · intro found
    have inVec := tzcnt_lt found
    obtain ⟨stop, before⟩ := finds.first found
    have now : ClearBelow (Nul m.byte src) (tzcnt (nullMaskZmm z1)) :=
      fun i less nul => before i less (.inr nul)
    have near : tzcnt (nullMaskZmm z1) ≤ n :=
      Nat.not_lt.mp fun behind => before n behind (.inl (Nat.le_refl n))
    have clear := call.copy.clear_start framed now near
    have finished := finishZmmFirst_copies call.copy (z := z1) inVec
      (fun below => (call.copy.first_start framed ⟨stop.resolve_left (by omega), now⟩ below).1)
      fun i le below => text i below (clear.mono le)
    exact finished.bind fun _ => triple_pure fun m written => ⟨rfl, written⟩
  · intro none
    have quiet := finds.none (not_not.mp none)
    have large : 64 ≤ n := by
      have last := quiet 63 (by decide)
      omega
    have clear := call.copy.clear_start framed (k := 64)
      (fun i below nul => quiet i below (.inr nul)) large
    apply triple_ite
    · intro _
      have stored : Triple (CopiedTo start.toMemory dst src n 0) (vecStore 64 .unaligned (dst + 0) z1)
          fun _ => CopiedTo start.toMemory dst src n 64 := by
        apply written_store call.target allows_unaligned (by omega)
        · intro i _
          rw [Nat.zero_add]
          exact text i (by omega) (clear.mono (by omega))
        · exact fun j member => .inr ⟨by omega, by omega⟩
      refine stored.bind fun _ => ?_
      have tail : Triple (At start.toMemory dst src n 64 (64 - src % 64))
          (strncpyTail (copyZmm dst src n) nullMaskZmm (handleRemainingZmm dst src n) dst src n 3
            (64 - src % 64))
          fun result m => result = dst ∧ CopiedTo start.toMemory dst src n n m := by
        apply strncpyTail_copies call marksZeros_nullMaskZmm (by decide)
        · exact fun k inside reached => copyZmm_copies call.copy inside reached
        · intro k inside reached
          exact (handleRemainingZmm_copies call.copy).from fun m written => at_of_copied reached written
      apply tail.from
      intro m written
      exact ⟨⟨by omega, by omega, clear.mono (by omega)⟩, written.less (by omega)⟩
    · exact fun small => absurd large small

theorem strncpyAvx512_copiesTo :
    Triple (CopiedTo start.toMemory dst src n 0) (strncpyAvx512 dst src n)
      fun result m => result = dst ∧ CopiedTo start.toMemory dst src n n m := by
  rw [strncpyAvx512]
  simp only [zmmSz, pageSz]
  apply triple_ite
  · exact fun none => triple_pure fun m written => ⟨rfl, written.less (by omega)⟩
  intro some
  have mapped := call.source 0 (by omega) clearBelow_zero
  rw [Nat.add_zero] at mapped
  have samePage (i : Nat) (inside : src % 4096 + i < 4096) : start.readable (src + i) = true := by
    rw [← mapped]
    exact start.byPage _ _ (by simp only [pageSz]; omega)
  apply triple_ite
  · intro pageEnd
    have rights : ∀ i < 64, (headMask (src % 64) : BitVec 64).getLsbD i = true →
        start.readable (src + i) = true := by
      intro i below active
      rw [getLsbD_headMask, decide_eq_true_iff] at active
      exact samePage i (by omega)
    refine (written_maskLoadOnto rights).bind fun z1 => ?_
    apply triple_fact
    rintro ⟨m, framed, rfl⟩
    have marks := marks_headZmm m src
    apply triple_ite
    · intro found
      obtain ⟨below, first⟩ := marks.first_within found
      have clear := call.copy.clear_found framed first
      refine (finishZmmFirst_copies call.copy (tzcnt_lt found) ?_ ?_).bind fun _ => ?_
      · exact fun inside => (call.copy.first_start framed first inside).1
      · intro i near inside
        have active : (headMask (src % 64) : BitVec 64).getLsbD i = true := by
          rw [getLsbD_headMask, decide_eq_true_iff]
          omega
        rw [if_pos active]
        exact call.copy.text_eq framed inside (clear.mono (by omega))
      · exact triple_pure fun m written => ⟨rfl, written⟩
    · intro none
      have now := marks.clear_within (by omega) (not_not.mp none)
      have clear := call.copy.clear_start framed (now.mono (Nat.min_le_left _ n)) (Nat.min_le_right _ n)
      apply strncpyZmmFirst_copies call
      intro i below inside
      by_cases head : src % 4096 + i < 4096
      · exact samePage i head
      · have across := call.copy.canRead_across (w := 64) (by omega) (by omega) (clear.mono (by omega))
        exact Memory.canRead_iff.mp across i below
  · intro inPage
    exact strncpyZmmFirst_copies call fun i below _ => samePage i (by omega)

end First

section Correct

theorem strncpyAvx512_pads (start : PagedMemory) (dst src n : Nat) (call : StrncpyCall start dst src n) :
    ∃ after, strncpyAvx512 dst src n start.toMemory = .ok (dst, after) ∧
      Padded start.toMemory after dst src n :=
  call.pads (strncpyAvx512_copiesTo call)

theorem strncpyAvx512_pads_lastWord :
    ∃ after, strncpyAvx512 4096 7000 2904 lastWord.toMemory = .ok (4096, after) ∧
      Padded lastWord.toMemory after 4096 7000 2904 :=
  strncpyAvx512_pads lastWord 4096 7000 2904 (lastWord_strncpyCall (by decide) (by decide))

end Correct

end AoclLibmem.Strings
