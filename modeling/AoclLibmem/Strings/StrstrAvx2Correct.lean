import AoclLibmem.Strings.StrstrAvx2
import AoclLibmem.Strings.ScanAvx2Correct
import AoclLibmem.Strings.StrcmpCorrect

/-! What `_strstr_avx2` returns on a fully mapped memory. It is right everywhere but in
one case: the arithmetic shift of the first mask copies its last lane. -/

namespace AoclLibmem.Strings

open Base Machine

section Strstr
variable {byte : Nat → UInt8} {haystack needle T L : Nat} {exit : Trap → Prop}

theorem marksEqual_avx2 : MarksEqual equalMaskAvx2 := fun _ _ i => getLsbD_movemask_cmpeq i

/-- `null_mask ^ (null_mask - 1)`: the lanes up to the first NUL. -/
theorem getLsbD_upToNull {null : BitVec 32} {i : Nat} (below : i < 32) :
    (if null ≠ 0#32 then null ^^^ (null - 1#32) else BitVec.allOnes 32).getLsbD i = true ↔
      (null ≠ 0#32 → i ≤ tzcnt null) := by
  by_cases zero : null = 0#32
  · rw [if_neg (not_not.mpr zero), BitVec.getLsbD_allOnes]
    simp [zero, below]
  · rw [if_pos zero, getLsbD_xor_sub_one zero below, decide_eq_true_eq]
    exact ⟨fun le _ => le, fun upTo => upTo zero⟩

section Block
variable {mask null : BitVec 32} {keys : Broadcast 32} {offset width : Nat} {ghost : Prop}

private theorem processFullSearchAvx2_ends (endsNeedle : IsLength byte needle L)
    (range : L < sizeRange) (fits : BlockEnd null offset width T)
    (candidates : Candidates (Occurs byte haystack needle L) mask offset width ghost) :
    Ends (processFullSearchAvx2 (PagedMemory.full byte).toMemory haystack needle L offset mask null)
      (Picks (BlockHit (Occurs byte haystack needle L) null offset width T ghost) (haystack + offset))
      exit := by
  have cut {i : Nat} : (null ≠ 0#32 → offset + i ≤ T) ↔ (null ≠ 0#32 → i ≤ tzcnt null) :=
    forall_congr' fun nonzero => by have last := (fits.closed nonzero).2; omega
  refine whileBits_ends (by decide) ?_ ?_
  · rintro i ⟨below, candidate, inFront, found⟩
    rw [BitVec.getLsbD_and, Bool.and_eq_true, getLsbD_upToNull below, candidates i below found]
    exact ⟨below, candidate, cut.mp inFront⟩
  · intro i below set clear
    rw [BitVec.getLsbD_and, Bool.and_eq_true, getLsbD_upToNull below] at set
    obtain ⟨value, returned, compares⟩ := strncmpAvx2_full byte (haystack + i + offset) needle range
    rw [returned, ok_bind]
    rw [Nat.add_assoc, Nat.add_comm i offset] at compares ⊢
    have verdict := compares_zero_iff endsNeedle.2 compares
    refine ends_ite.mpr ⟨fun same => ?_, fun differ hit => differ (verdict.mpr hit.2.2.2)⟩
    have found := verdict.mp same
    have answer : Picks _ (haystack + offset) (some (haystack + offset + i)) :=
      .found ⟨⟨below, (candidates i below found).mp set.1, cut.mpr set.2, found⟩, clear⟩
    rwa [Nat.add_assoc] at answer

private theorem searchBlockAvx2_ends (endsNeedle : IsLength byte needle L) (long : 2 ≤ L)
    (range : L < sizeRange) (fits : BlockEnd null offset width T)
    (candidates : Candidates (Occurs byte haystack needle L) mask offset width ghost)
    (loaded : broadcastNeedle 32 (PagedMemory.full byte).toMemory needle L = .ok keys)
    (filtering : Bool) :
    Ends (searchBlockAvx2 (PagedMemory.full byte).toMemory haystack needle L keys offset mask null
      filtering)
      (Picks (BlockHit (Occurs byte haystack needle L) null offset width T ghost) (haystack + offset))
      exit := by
  rw [broadcastNeedle_eq, Except.ok.injEq] at loaded
  subst loaded
  refine Ends.bind (ends_ite.mpr ⟨fun _ => applyFilterBy_ends marksEqual_avx2 long,
    fun _ => .refl⟩) ?_
  intro mask' thinned
  have filtered := candidates.filtered thinned.same
  apply Ends.iteNe
  · intro _
    exact processFullSearchAvx2_ends endsNeedle range fits filtered
  · intro zero
    refine .absent fun i hit => ?_
    have set := (filtered i hit.1 hit.2.2.2).mpr hit.2.1
    rw [zero, BitVec.getLsbD_zero] at set
    exact Bool.noConfusion set

end Block

/-- The masks of the first block. Before the end of a page the shift copies the last lane. -/
theorem firstBlockAvx2_eq (needle : Nat) (endsHaystack : IsLength byte haystack T) (positive : 1 ≤ L) :
    ∃ null mask, firstBlockAvx2 (PagedMemory.full byte).toMemory haystack (set1 (byte needle)) =
        .ok (null, mask) ∧
      BlockEnd null 0 (firstWidth haystack 32) T ∧
      Candidates (Occurs byte haystack needle L) mask 0 (firstWidth haystack 32)
        (byte (haystack + ymmSz - haystack % ymmSz - 1) = byte needle) := by
  have letter {i : Nat} (found : Occurs byte haystack needle L (0 + i)) :
      byte (haystack + i) = byte needle := by
    have here := found.first positive
    rwa [Nat.zero_add] at here
  simp only [firstBlockAvx2, firstWidth, pageSz, ymmSz]
  have below : haystack % 32 < 32 := Nat.mod_lt _ (by decide)
  have back : haystack % 32 ≤ haystack := Nat.mod_le _ _
  by_cases edge : 4096 - 32 < haystack % 4096
  · simp only [if_pos edge]
    rw [Memory.loadu_eq (Memory.canRead_iff.mpr fun _ _ => rfl), ok_bind]
    refine ⟨_, _, rfl, blockEnd_of_finds (by omega) endsHaystack ?_ (Nat.zero_le T), ?_⟩
    · have nulls := marksEqual_avx2.marks (a := setzero)
        (b := (PagedMemory.full byte).lanes 32 (haystack - haystack % 32))
        (fun i => byte (haystack - haystack % 32 + i) = 0) fun i => eq_comm
      refine (nulls.finds_sshiftRight below).congr fun i => ?_
      rw [← Nat.add_assoc, Nat.sub_add_cancel back, Nat.zero_add]
    · have marks := (marksEqual_avx2.marks (a := set1 (byte needle))
        (b := (PagedMemory.full byte).lanes 32 (haystack - haystack % 32))
        (fun i => byte (haystack - haystack % 32 + i) = byte needle)
        fun i => eq_comm).sshiftRight (haystack % 32)
      intro i inside found
      rw [marks i inside]
      dsimp only
      split
      · rw [← Nat.add_assoc, Nat.sub_add_cancel back]
        exact iff_of_true (letter found) (.inl (by omega))
      · have last : haystack - haystack % 32 + (32 - 1) = haystack + 32 - haystack % 32 - 1 := by omega
        rw [last]
        exact (or_iff_right (by omega)).symm
  · simp only [if_neg edge]
    rw [Memory.loadu_eq (Memory.canRead_iff.mpr fun _ _ => rfl), ok_bind]
    refine ⟨_, _, rfl, blockEnd_of_finds (Nat.le_refl 32) endsHaystack ?_ (Nat.zero_le T), ?_⟩
    · refine (marksEqual_avx2.marks _ fun i => ?_).finds.within
      rw [Nat.zero_add]
      rfl
    · intro i inside found
      refine iff_of_true ?_ (.inl inside)
      exact (marksEqual_avx2.marks (fun i => byte (haystack + i) = byte needle)
        (fun i => eq_comm) i inside).mpr (letter found)

theorem strstrAvx2Broadcasting_ends (endsHaystack : IsLength byte haystack T)
    (endsNeedle : IsLength byte needle L) (long : 2 ≤ L) (rangeH : T < sizeRange)
    (rangeN : L < sizeRange) :
    Ends (strstrAvx2Broadcasting (PagedMemory.full byte).toMemory haystack needle L)
      (fun result => Picks (fun i => i ≤ T ∧ Occurs byte haystack needle L i) haystack result ↔
        ¬ FalseMatch byte haystack needle T L ymmSz
          (byte (haystack + ymmSz - haystack % ymmSz - 1) = byte needle)) exit := by
  obtain ⟨null, mask, read, fits, candidates⟩ :=
    firstBlockAvx2_eq needle endsHaystack (by omega : 1 ≤ L)
  have loaded := broadcastNeedle_eq (n := 32) byte needle L
  rw [strstrAvx2Broadcasting, loaded, ok_bind, read, ok_bind]
  refine searchFrom_ends endsHaystack endsNeedle long fits
    (searchBlockAvx2_ends endsNeedle long rangeN fits candidates loaded _) fun start reached clear => ?_
  refine searchLoop_ends marksEqual_avx2 (by decide) endsHaystack rangeH (fun offset inFront => ?_)
    reached clear
  exact searchBlockAvx2_ends endsNeedle long rangeN
    (blockEnd_of_lanes marksEqual_avx2 endsHaystack inFront)
    (candidates_of_lanes marksEqual_avx2 (by omega)) loaded _

/-- On a fully mapped memory `_strstr_avx2` is right exactly when no match behind the
terminator is taken for one before it. -/
theorem strstrAvx2_searches_iff (byte : Nat → UInt8) (haystack needle T L : Nat)
    (endsHaystack : IsLength byte haystack T) (endsNeedle : IsLength byte needle L)
    (fitsHaystack : haystack + T < sizeRange) (fitsNeedle : needle + L < sizeRange) :
    (∃ result, strstrAvx2 (PagedMemory.full byte).toMemory haystack needle = .ok result ∧
      Searches byte haystack needle result) ↔
      ¬ FalseMatch byte haystack needle T L ymmSz
        (byte (haystack + ymmSz - haystack % ymmSz - 1) = byte needle) := by
  suffices run : Ends (strstrAvx2 (PagedMemory.full byte).toMemory haystack needle)
      (fun result => Searches byte haystack needle result ↔ ¬ FalseMatch byte haystack needle T L
        ymmSz (byte (haystack + ymmSz - haystack % ymmSz - 1) = byte needle)) fun _ => False by
    obtain ⟨result, returned, right⟩ := run.returns
    rw [← right, returned]
    simp
  have noFalse (short : L < 2) : ¬ FalseMatch byte haystack needle T L ymmSz
      (byte (haystack + ymmSz - haystack % ymmSz - 1) = byte needle) :=
    fun wrong => absurd wrong.2.1 (by omega)
  refine strstrBy_ends endsHaystack endsNeedle ?_ ?_ ?_ ?_ ?_
  · rintro rfl
    exact iff_of_true (searches_empty endsHaystack endsNeedle) (noFalse (by omega))
  · rintro rfl positive
    refine iff_of_true ?_ fun wrong => ?_
    · exact (searches_iff endsHaystack endsNeedle).mpr
        (picks_none_of_short endsHaystack endsNeedle positive)
    · have width : ymmSz - haystack % ymmSz ≤ 0 := wrong.2.2.1
      simp only [ymmSz] at width
      omega
  · rintro rfl
    refine (strchrAvx2_ends (scanNeeds_full byte haystack _) endsHaystack (by omega)).imp ?_
    intro result located
    rw [charOfInt_intOfChar] at located
    exact iff_of_true ((searches_of_locates endsHaystack endsNeedle).mpr located) (noFalse (by omega))
  · exact strlenAvx2_ends (scanNeeds_full byte needle _) endsNeedle (by omega)
  · intro long
    refine (strstrAvx2Broadcasting_ends endsHaystack endsNeedle long (by omega) (by omega)).imp ?_
    intro result right
    rw [searches_iff endsHaystack endsNeedle]
    exact right

end Strstr

/-- `ab` at 8; `a` in the last byte of page 0, NUL and `ab` behind it. -/
def splitText (addr : Nat) : UInt8 :=
  if addr = 8 ∨ addr = 4095 ∨ addr = 4097 then 97
  else if addr = 9 ∨ addr = 4098 then 98
  else 0

theorem strstrAvx2_searches_iff_inside :
    (∃ result, strstrAvx2 (PagedMemory.full splitText).toMemory 4097 8 = .ok result ∧
      Searches splitText 4097 8 result) ↔
      ¬ FalseMatch splitText 4097 8 2 2 ymmSz
        (splitText (4097 + ymmSz - 4097 % ymmSz - 1) = splitText 8) :=
  strstrAvx2_searches_iff splitText 4097 8 2 2 ⟨by decide, by unfold ClearBelow; decide⟩
    ⟨by decide, by unfold ClearBelow; decide⟩ (by rw [sizeRange_eq]; decide)
    (by rw [sizeRange_eq]; decide)

/-- The haystack `a` in the last byte of a page does not hold `ab`, but `ab` behind its
terminator is returned. -/
theorem strstrAvx2_finds_behind_terminator :
    IsLength splitText 4095 1 ∧ IsLength splitText 8 2 ∧
      strstrAvx2 (PagedMemory.full splitText).toMemory 4095 8 = .ok (some 4097) ∧
      ¬ Searches splitText 4095 8 (some 4097) := by
  have haystack : IsLength splitText 4095 1 := ⟨by decide, by unfold ClearBelow; decide⟩
  have needle : IsLength splitText 8 2 := ⟨by decide, by unfold ClearBelow; decide⟩
  refine ⟨haystack, needle, by decide +kernel, fun wrong => ?_⟩
  rw [searches_iff haystack needle] at wrong
  have right := picks_none_of_short haystack needle (by decide)
  exact Option.some_ne_none _ (wrong.unique right)

end AoclLibmem.Strings
