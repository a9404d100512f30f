import AoclLibmem.Strings.StrstrAvx512
import AoclLibmem.Strings.ScanAvx512Correct
import AoclLibmem.Strings.StrcmpCorrect

/-! What `_strstr_avx512` returns on a fully mapped memory. It is right everywhere but in
two cases, both of the sentinel `0xFF`: in its own first load, and in that of `strchr`. -/

namespace AoclLibmem.Strings

open Base Machine

section Strstr
variable {byte : Nat → UInt8} {haystack needle T L : Nat} {exit : Trap → Prop}

theorem marksEqual_avx512 : MarksEqual equalMaskAvx512 := fun _ _ i => getLsbD_cmpeqEpu8Mask i

section Block
variable {mask null : BitVec 64} {keys : Broadcast 64} {offset width : Nat} {ghost : Prop}

private theorem searchMatchesAvx512_ends (endsHaystack : IsLength byte haystack T)
    (endsNeedle : IsLength byte needle L) (positive : 1 ≤ L) (range : L < sizeRange)
    (fits : BlockEnd null offset width T)
    (candidates : Candidates (Occurs byte haystack needle L) mask offset width ghost) :
    Ends (searchMatchesAvx512 (PagedMemory.full byte).toMemory haystack needle L offset mask null)
      (Picks (BlockHit (Occurs byte haystack needle L) null offset width T ghost) (haystack + offset))
      exit := by
  refine whileBits_ends (by decide) ?_ ?_
  · rintro i ⟨below, candidate, _, found⟩
    exact ⟨below, (candidates i below found).mpr candidate⟩
  · intro i below set clear
    refine ends_ite.mpr ⟨fun cut => .absent fun j hit => ?_, fun room => ?_⟩
    · -- a later occurrence in front of the terminator would end before it
      have last := (fits.closed cut.1).2
      have inFront := hit.2.2.1 cut.1
      have inside := hit.2.2.2.fits endsNeedle.2 endsHaystack.1 inFront
      have later := clear.le_hit hit
      omega
    · obtain ⟨value, returned, compares⟩ :=
        strncmpAvx512_full byte (haystack + (offset + i)) needle range
      rw [returned, ok_bind]
      have verdict := compares_zero_iff endsNeedle.2 compares
      refine ends_ite.mpr ⟨fun same => ?_, fun differ hit => differ (verdict.mpr hit.2.2.2)⟩
      have found := verdict.mp same
      have inFront (nonzero : null ≠ 0#64) : offset + i ≤ T := by
        have last := (fits.closed nonzero).2
        have short : ¬ i + L > tzcnt null := fun long => room ⟨nonzero, long⟩
        omega
      have answer : Picks _ (haystack + offset) (some (haystack + offset + i)) :=
        .found ⟨⟨below, (candidates i below found).mp set, inFront, found⟩, clear⟩
      rwa [Nat.add_assoc] at answer

private theorem searchBlockAvx512_ends (endsHaystack : IsLength byte haystack T)
    (endsNeedle : IsLength byte needle L) (long : 2 ≤ L) (range : L < sizeRange)
    (fits : BlockEnd null offset width T)
    (candidates : Candidates (Occurs byte haystack needle L) mask offset width ghost)
    (loaded : broadcastNeedle 64 (PagedMemory.full byte).toMemory needle L = .ok keys)
    {entering : BitVec 64 → Bool} (skipped : ∀ left, ¬ entering left = true →
      ∀ i < 64, Occurs byte haystack needle L (offset + i) → ¬ left.getLsbD i = true) :
    Ends (searchBlockAvx512 (PagedMemory.full byte).toMemory haystack needle L keys offset mask null
      entering)
      (Picks (BlockHit (Occurs byte haystack needle L) null offset width T ghost) (haystack + offset))
      exit := by
  rw [broadcastNeedle_eq, Except.ok.injEq] at loaded
  subst loaded
  refine Ends.bind (ends_ite.mpr ⟨fun _ => applyFilterBy_ends marksEqual_avx512 long,
    fun _ => .refl⟩) ?_
  intro mask' thinned
  have filtered := candidates.filtered thinned.same
  refine ends_ite.mpr ⟨fun _ => ?_, fun skip => .absent fun i hit => ?_⟩
  · exact searchMatchesAvx512_ends endsHaystack endsNeedle (by omega) range fits filtered
  · exact skipped mask' skip i hit.1 hit.2.2.2 ((filtered i hit.1 hit.2.2.2).mpr hit.2.1)

end Block

/-- The first block. Before the end of a page, lanes that were not loaded hold the sentinel. -/
theorem loadAndCheckFirstBlock_eq (needle : Nat) (endsHaystack : IsLength byte haystack T)
    (positive : 1 ≤ L) :
    ∃ z1 null, loadAndCheckFirstBlock (PagedMemory.full byte).toMemory haystack (haystack % zmmSz) =
        .ok (z1, null, if null ≠ 0#64 then tzcnt null else zmmSz) ∧
      BlockEnd null 0 (firstWidth haystack 64) T ∧
      Candidates (Occurs byte haystack needle L) (equalMaskAvx512 (set1 (byte needle)) z1) 0
        (firstWidth haystack 64) (byte needle = 0xff) := by
  have letter {i : Nat} (found : Occurs byte haystack needle L (0 + i)) :
      byte (haystack + i) = byte needle := by
    have here := found.first positive
    rwa [Nat.zero_add] at here
  simp only [loadAndCheckFirstBlock, firstWidth, pageSz, zmmSz]
  by_cases edge : 4096 - 64 < haystack % 4096
  · simp only [if_pos edge]
    rw [Memory.maskLoadu_eq (fun _ _ _ => rfl), ok_bind]
    refine ⟨_, _, rfl, blockEnd_of_finds (by omega) endsHaystack ?_ (Nat.zero_le T), ?_⟩
    · refine (marks_of_lanes fun i => ?_).finds
      rw [BitVec.getLsbD_and, Bool.and_eq_true, marksEqual_avx512 _ _ i, beq_iff_eq, Nat.zero_add]
      simp only [getLsbD_headMask, decide_eq_true_eq, ← Nat.lt_sub_iff_add_lt']
      rw [and_comm]
      refine and_congr_right fun loaded => ?_
      rw [if_pos loaded]
      rfl
    · intro i inside found
      refine Iff.trans (Bool.eq_iff_iff.mp (marksEqual_avx512 _ _ ⟨i, inside⟩)) ?_
      rw [beq_iff_eq]
      simp only [getLsbD_headMask, decide_eq_true_eq, ← Nat.lt_sub_iff_add_lt', set1]
      split
      · exact iff_of_true (letter found).symm (.inl ‹_›)
      · exact (or_iff_right ‹_›).symm
  · simp only [if_neg edge]
    rw [Memory.loadu_eq (Memory.canRead_iff.mpr fun _ _ => rfl), ok_bind]
    refine ⟨_, _, rfl, blockEnd_of_finds (Nat.le_refl 64) endsHaystack ?_ (Nat.zero_le T), ?_⟩
    · refine (marksEqual_avx512.marks _ fun i => ?_).finds.within
      rw [Nat.zero_add]
      rfl
    · intro i inside found
      refine iff_of_true ?_ (.inl inside)
      exact (marksEqual_avx512.marks (fun i => byte (haystack + i) = byte needle)
        (fun i => eq_comm) i inside).mpr (letter found)

theorem strstrAvx512Broadcasting_ends (endsHaystack : IsLength byte haystack T)
    (endsNeedle : IsLength byte needle L) (long : 2 ≤ L) (rangeH : T < sizeRange)
    (rangeN : L < sizeRange) :
    Ends (strstrAvx512Broadcasting (PagedMemory.full byte).toMemory haystack needle L)
      (fun result => Picks (fun i => i ≤ T ∧ Occurs byte haystack needle L i) haystack result ↔
        ¬ FalseMatch byte haystack needle T L zmmSz (byte needle = 0xff)) exit := by
  obtain ⟨z1, null, read, fits, candidates⟩ :=
    loadAndCheckFirstBlock_eq needle endsHaystack (by omega : 1 ≤ L)
  have loaded := broadcastNeedle_eq (n := 64) byte needle L
  rw [strstrAvx512Broadcasting, loaded, ok_bind, read, ok_bind]
  refine searchFrom_ends endsHaystack endsNeedle long fits (searchBlockAvx512_ends endsHaystack
    endsNeedle long rangeN fits candidates loaded ?_) fun start reached clear => ?_
  · intro left none i _ _
    rw [decide_eq_true_eq, not_not] at none
    simp [none]
  refine searchLoop_ends marksEqual_avx512 (by decide) endsHaystack rangeH
    (fun offset inFront => ?_) reached clear
  refine searchBlockAvx512_ends endsHaystack endsNeedle long rangeN
    (blockEnd_of_lanes marksEqual_avx512 endsHaystack inFront)
    (candidates_of_lanes marksEqual_avx512 (by omega)) loaded ?_
  -- an occurrence starts with a byte of the needle, so its lane is no NUL
  intro left none i below found set
  rw [decide_eq_true_eq, not_not] at none
  have nulls := marksEqual_avx512.marks (a := (PagedMemory.full byte).lanes 64 (haystack + offset))
    (b := setzero) (fun i => byte (haystack + (offset + i)) = 0)
    fun i => by rw [Memory.lanes_apply, Nat.add_assoc]; rfl
  have letter : byte (haystack + (offset + i)) = byte needle := found.first (by omega)
  have quiet : ¬ byte (haystack + (offset + i)) = 0 := by
    rw [letter]
    exact endsNeedle.2 0 (by omega)
  have lane : (left &&& ~~~equalMaskAvx512 ((PagedMemory.full byte).lanes 64 (haystack + offset))
      setzero).getLsbD i = true := by
    rw [BitVec.getLsbD_and, set, BitVec.getLsbD_not, eq_false_of_ne_true (mt (nulls i below).mp quiet)]
    simp [below]
  rw [none, BitVec.getLsbD_zero] at lane
  exact Bool.noConfusion lane

/-- A one-byte needle is left to `strchr`, with its sentinel. -/
private theorem strstrAvx512_single (endsHaystack : IsLength byte haystack T)
    (endsNeedle : IsLength byte needle 1) (range : T < sizeRange) :
    Ends (strchrAvx512 (PagedMemory.full byte).toMemory haystack (intOfChar (byte needle)))
      (fun result => Searches byte haystack needle result ↔
        ¬ SentinelHides byte haystack (byte needle)) exit := by
  refine (strchrAvx512_ends (scanNeeds_full byte haystack _) endsHaystack range).imp ?_
  rintro result ⟨hidden, located⟩
  rw [charOfInt_intOfChar] at hidden located
  rw [searches_of_locates endsHaystack endsNeedle]
  by_cases hides : SentinelHides byte haystack (byte needle)
  · obtain ⟨i, wanted⟩ := hides.locates
    refine iff_of_false (fun right => ?_) (not_not.mpr hides)
    rw [hidden hides] at right
    exact Option.some_ne_none _ (right.unique wanted).symm
  · exact iff_of_true (located hides) hides

/-- On a fully mapped memory `_strstr_avx512` is right exactly when its sentinel makes no
match behind the terminator pass for one before it, and, with a one-byte needle, that of
`strchr` does not hide the match. -/
theorem strstrAvx512_searches_iff (byte : Nat → UInt8) (haystack needle T L : Nat)
    (endsHaystack : IsLength byte haystack T) (endsNeedle : IsLength byte needle L)
    (fitsHaystack : haystack + T < sizeRange) (fitsNeedle : needle + L < sizeRange) :
    (∃ result, strstrAvx512 (PagedMemory.full byte).toMemory haystack needle = .ok result ∧
      Searches byte haystack needle result) ↔
      ¬ FalseMatch byte haystack needle T L zmmSz (byte needle = 0xff) ∧
        ¬ (L = 1 ∧ SentinelHides byte haystack (byte needle)) := by
  suffices run : Ends (strstrAvx512 (PagedMemory.full byte).toMemory haystack needle)
      (fun result => Searches byte haystack needle result ↔
        ¬ FalseMatch byte haystack needle T L zmmSz (byte needle = 0xff) ∧
          ¬ (L = 1 ∧ SentinelHides byte haystack (byte needle))) fun _ => False by
    obtain ⟨result, returned, right⟩ := run.returns
    rw [← right, returned]
    simp
  have noFalse (short : L < 2) : ¬ FalseMatch byte haystack needle T L zmmSz (byte needle = 0xff) :=
    fun wrong => absurd wrong.2.1 (by omega)
  refine strstrBy_ends endsHaystack endsNeedle ?_ ?_ ?_ ?_ ?_
  · rintro rfl
    exact iff_of_true (searches_empty endsHaystack endsNeedle)
      ⟨noFalse (by omega), fun single => absurd single.1 (by omega)⟩
  · rintro rfl positive
    refine iff_of_true ?_ ⟨fun wrong => ?_, ?_⟩
    · exact (searches_iff endsHaystack endsNeedle).mpr
        (picks_none_of_short endsHaystack endsNeedle positive)
    · have width : zmmSz - haystack % zmmSz ≤ 0 := wrong.2.2.1
      simp only [zmmSz] at width
      omega
    · rintro ⟨_, _, _, i, first, inside, beyond⟩
      have before := endsHaystack.clear_le inside
      omega
  · rintro rfl
    refine (strstrAvx512_single endsHaystack endsNeedle (by omega)).imp fun result right => ?_
    rw [right]
    exact ⟨fun visible => ⟨noFalse (by omega), fun single => visible single.2⟩,
      fun fine hides => fine.2 ⟨rfl, hides⟩⟩
  · exact strlenAvx512_ends (scanNeeds_full byte needle _) endsNeedle (by omega)
  · intro long
    refine (strstrAvx512Broadcasting_ends endsHaystack endsNeedle long (by omega) (by omega)).imp ?_
    intro result right
    rw [searches_iff endsHaystack endsNeedle, right]
    exact (and_iff_left fun single => absurd single.1 (by omega)).symm

end Strstr

/-- `0xFF`, `b` at 8; `a` in the last byte of page 0, NUL, `0xFF` and `b` behind it. -/
def sentinelText (addr : Nat) : UInt8 :=
  if addr = 8 ∨ addr = 4097 then 0xff
  else if addr = 9 ∨ addr = 4098 then 98
  else if addr = 4095 then 97
  else 0

theorem strstrAvx512_searches_iff_inside :
    (∃ result, strstrAvx512 (PagedMemory.full sentinelText).toMemory 4097 8 = .ok result ∧
      Searches sentinelText 4097 8 result) ↔
      ¬ FalseMatch sentinelText 4097 8 2 2 zmmSz (sentinelText 8 = 0xff) ∧
        ¬ (2 = 1 ∧ SentinelHides sentinelText 4097 (sentinelText 8)) :=
  strstrAvx512_searches_iff sentinelText 4097 8 2 2 ⟨by decide, by unfold ClearBelow; decide⟩
    ⟨by decide, by unfold ClearBelow; decide⟩ (by rw [sizeRange_eq]; decide)
    (by rw [sizeRange_eq]; decide)

/-- The haystack `a` in the last byte of a page does not hold `0xFF b`, but what stands
behind its terminator is returned. -/
theorem strstrAvx512_finds_behind_terminator :
    IsLength sentinelText 4095 1 ∧ IsLength sentinelText 8 2 ∧
      strstrAvx512 (PagedMemory.full sentinelText).toMemory 4095 8 = .ok (some 4097) ∧
      ¬ Searches sentinelText 4095 8 (some 4097) := by
  have haystack : IsLength sentinelText 4095 1 := ⟨by decide, by unfold ClearBelow; decide⟩
  have needle : IsLength sentinelText 8 2 := ⟨by decide, by unfold ClearBelow; decide⟩
  refine ⟨haystack, needle, by decide +kernel, fun wrong => ?_⟩
  rw [searches_iff haystack needle] at wrong
  have right := picks_none_of_short haystack needle (by decide)
  exact Option.some_ne_none _ (wrong.unique right)

end AoclLibmem.Strings
