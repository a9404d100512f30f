import AoclLibmem.Strings.CandidateFilter
import AoclLibmem.Strings.Strcat

/-! `strstr` where no more is mapped than the pages of its two strings: each kernel runs as if
every page were mapped, so what it returns depends on the bytes only. -/

namespace AoclLibmem.Strings

open Base Machine

/-- What a caller of strstr provides: two strings, each in pages that are mapped. -/
structure StrstrCall (m : PagedMemory) (haystack needle T L : Nat) : Prop where
  ends : IsLength m.byte haystack T
  fits : haystack + T < sizeRange
  source : ∀ i ≤ T, m.readable (haystack + i) = true
  needleEnds : IsLength m.byte needle L
  needleFits : needle + L < sizeRange
  needleSource : ∀ i ≤ L, m.readable (needle + i) = true

/-- The first vector can make candidates of places behind its page and behind the terminator.
There the needle is compared with bytes that are no part of the haystack: they are mapped too. -/
def GhostsMapped (m : Memory) (haystack needle T vecSz : Nat) (ghost : Prop) : Prop :=
  pageSz - vecSz < haystack % pageSz → vecSz - haystack % vecSz ≤ T → ghost →
    ∀ p, T < p → p < vecSz → Needs m (haystack + p) needle none

section Call
variable {m : PagedMemory} {haystack needle T L p : Nat} (call : StrstrCall m haystack needle T L)
include call

/-- Every comparison with the needle is settled at its end. -/
theorem StrstrCall.decides (str : Nat) : Decides m.byte str needle L := by
  by_cases same : m.byte (str + L) = m.byte (needle + L)
  · exact .inr (same.trans call.needleEnds.1)
  · exact .inl same

/-- The needle is compared with a place up to the terminator. -/
theorem StrstrCall.needs (inside : p ≤ T) : Needs m.toMemory (haystack + p) needle none := by
  intro k clear _
  have ends : Decides m.byte (haystack + p) needle (T - p) := by
    refine .inr ?_
    rw [Nat.add_assoc, Nat.add_sub_of_le inside]
    exact call.ends.1
  have le := clear.le_hit ends
  have le' := clear.le_hit (call.decides (haystack + p))
  rw [BothReadable, Nat.add_assoc]
  exact ⟨call.source (p + k) (by omega), call.needleSource k le'⟩

theorem StrstrCall.mapsPage (inside : p ≤ T) : MapsPage m.toMemory (haystack + p) := by
  intro a same
  rw [← call.source p inside]
  exact m.byPage _ _ same

end Call

section Compared
variable {m : PagedMemory} {str1 str2 n : Nat}

/-- A comparison of strings that are mapped sees their bytes only. -/
private theorem strncmpAvx2_filled (needs : Needs m.toMemory str1 str2 none)
    (range : n < sizeRange) : strncmpAvx2 m.toMemory str1 str2 n =
      strncmpAvx2 (PagedMemory.full m.byte).toMemory str1 str2 n := by
  obtain ⟨value, returned, compares⟩ := strncmpAvx2_mapped needs range
  obtain ⟨other, returned', compares'⟩ := strncmpAvx2_full m.byte str1 str2 range
  rw [returned, returned', compares.unique compares']

private theorem strncmpAvx512_filled (needs : Needs m.toMemory str1 str2 none)
    (range : n < sizeRange) : strncmpAvx512 m.toMemory str1 str2 n =
      strncmpAvx512 (PagedMemory.full m.byte).toMemory str1 str2 n := by
  obtain ⟨value, returned, compares⟩ := strncmpAvx512_mapped needs range
  obtain ⟨other, returned', compares'⟩ := strncmpAvx512_full m.byte str1 str2 range
  rw [returned, returned', compares.unique compares']

theorem loadu_filled {addr : Nat} (rights : m.canRead addr n = true) :
    m.loadu n addr = (PagedMemory.full m.byte).loadu n addr := by
  have mapped : (PagedMemory.full m.byte).canRead addr n = true := Memory.canRead_iff.mpr fun _ _ => rfl
  rw [Memory.loadu_eq rights, Memory.loadu_eq mapped]
  rfl

end Compared

section Blocks
variable {m : PagedMemory} {n haystack needle T L offset : Nat} {mask null : BitVec n} {ghost : Prop}
variable {equal : Lanes n → Lanes n → BitVec n} {keys : Broadcast n}
variable {search search' : Nat → BitVec n → BitVec n → Exec (Option Nat)}

/-- The places the candidates of a block are compared at are mapped, as far as they are. -/
def Probed (m : Memory) (haystack needle offset : Nat) {w : Nat} (mask null : BitVec w) : Prop :=
  ∀ i < w, mask.getLsbD i = true → (null ≠ 0#w → i ≤ tzcnt null) →
    Needs m (haystack + (offset + i)) needle none

/-- Two searches of a block agree where its page is mapped and its candidates are probed. -/
def SearchesAlike (m : Memory) (haystack needle : Nat) {w : Nat}
    (search search' : Nat → BitVec w → BitVec w → Exec (Option Nat)) : Prop :=
  ∀ offset mask null, MapsPage m (haystack + offset) → Probed m haystack needle offset mask null →
    search offset mask null = search' offset mask null

/-- In a block that begins in front of the terminator, what the mask of NULs lets pass is. -/
theorem StrstrCall.probed (call : StrstrCall m haystack needle T L) (fits : BlockEnd null offset n T) :
    Probed m.toMemory haystack needle offset mask null := by
  intro i below _ cut
  apply call.needs
  by_cases zero : null = 0#n
  · have further := fits.further zero
    omega
  · have last := (fits.closed zero).2
    have upTo := cut zero
    omega

/-- In the first block, whose lanes behind the page end are candidates where `ghost` says so. -/
theorem StrstrCall.probed_first (call : StrstrCall m haystack needle T L)
    (fits : BlockEnd null 0 (firstWidth haystack n) T)
    (ghosts : GhostsMapped m.toMemory haystack needle T n ghost)
    (ghostly : ∀ i < n, mask.getLsbD i = true → firstWidth haystack n ≤ i →
      pageSz - n < haystack % pageSz ∧ ghost) :
    Probed m.toMemory haystack needle 0 mask null := by
  intro i below set cut
  rw [Nat.zero_add]
  by_cases inFront : i ≤ T
  · exact call.needs inFront
  · have zero : null = 0#n := by
      by_contra nonzero
      have last := (fits.closed nonzero).2
      have upTo := cut nonzero
      omega
    have reach := fits.further zero
    rw [Nat.zero_add] at reach
    obtain ⟨edge, ghost⟩ := ghostly i below set (by omega)
    rw [firstWidth, if_pos edge] at reach
    exact ghosts edge reach ghost i (by omega) below

/-- The search behind the filter agrees, as the filter lets nothing pass but candidates. -/
private theorem filtered_filled (lanes : MarksEqual equal) (long : 2 ≤ L)
    (page : MapsPage m.toMemory (haystack + offset))
    (probed : Probed m.toMemory haystack needle offset mask null) (filtering : Prop)
    [Decidable filtering] {next next' : BitVec n → Exec (Option Nat)}
    (agree : ∀ left, Probed m.toMemory haystack needle offset left null → next left = next' left) :
    ((if filtering then applyFilterBy equal m.toMemory haystack offset L
        (needleKeys n m.byte needle L) mask else pure mask) >>= next) =
      (if filtering then applyFilterBy equal (PagedMemory.full m.byte).toMemory haystack offset L
        (needleKeys n m.byte needle L) mask else pure mask) >>= next' := by
  have thinned : Ends (if filtering then applyFilterBy equal (PagedMemory.full m.byte).toMemory
      haystack offset L (needleKeys n m.byte needle L) mask else pure mask)
      (Thinned m.byte haystack needle L offset mask) fun _ => False :=
    ends_ite.mpr ⟨fun _ => applyFilterBy_ends lanes long, fun _ => .refl⟩
  obtain ⟨left, returned, thinned⟩ := thinned.returns
  rw [applyFilterBy_full page (by omega), returned, ok_bind, ok_bind]
  exact agree left fun i below set => probed i below (thinned.within i below set)

/-- A pass of the loop up to the terminator reads the page of its block and no other. -/
private theorem searchStep_filled (lanes : MarksEqual equal) (divides : n ∣ 4096)
    (call : StrstrCall m haystack needle T L)
    (alike : SearchesAlike m.toMemory haystack needle search search') (inFront : offset ≤ T)
    (aligned : (haystack + offset) % n = 0) :
    searchStep equal search m.toMemory haystack keys offset =
      searchStep equal search' (PagedMemory.full m.byte).toMemory haystack keys offset := by
  have rights := PagedMemory.canRead_of_aligned (call.source offset inFront) aligned divides
  have fits : BlockEnd (equal (m.lanes n (haystack + offset)) setzero) offset n T :=
    blockEnd_of_lanes lanes call.ends inFront
  rw [searchStep, searchStep, ← loadu_filled rights, Memory.loadu_eq rights, ok_bind, ok_bind]
  dsimp only
  rw [alike offset _ _ (call.mapsPage inFront) (call.probed fits)]

/-- The loop goes on behind a block without the terminator. -/
private theorem searchStep_next {next : Nat} (lanes : MarksEqual equal)
    (ends : IsLength m.byte haystack T) (inFront : offset ≤ T)
    (moved : searchStep equal search (PagedMemory.full m.byte).toMemory haystack keys offset =
      .ok (.next next)) : next = offset + n ∧ offset + n ≤ T := by
  have fits := blockEnd_of_lanes lanes ends inFront
  rw [searchStep, Memory.loadu_eq (Memory.canRead_iff.mpr fun _ _ => rfl), ok_bind] at moved
  dsimp only at moved
  generalize search _ _ _ = searched at moved
  cases searched with
  | error reason => cases moved
  | ok result =>
    cases result with
    | some place => cases moved
    | none =>
      rw [ok_bind] at moved
      dsimp only at moved
      split at moved
      · cases moved
      · rename_i none
        cases moved
        exact ⟨rfl, fits.further (not_not.mp none)⟩

private theorem searchLoop_filled (lanes : MarksEqual equal) (divides : n ∣ 4096)
    (call : StrstrCall m haystack needle T L)
    (alike : SearchesAlike m.toMemory haystack needle search search')
    {start : Nat} (inFront : start ≤ T) (aligned : (haystack + start) % n = 0) :
    iterate .diverged (searchStep equal search m.toMemory haystack keys) budget start =
      iterate .diverged (searchStep equal search' (PagedMemory.full m.byte).toMemory haystack keys)
        budget start := by
  have same (offset : Nat) (inv : offset ≤ T ∧ (haystack + offset) % n = 0) :
      searchStep equal search m.toMemory haystack keys offset =
        searchStep equal search' (PagedMemory.full m.byte).toMemory haystack keys offset :=
    searchStep_filled lanes divides call alike inv.1 inv.2
  refine iterate_congr (fun offset => offset ≤ T ∧ (haystack + offset) % n = 0) same ?_
    ⟨inFront, aligned⟩
  intro offset next inv moved
  rw [same offset inv] at moved
  obtain ⟨rfl, further⟩ := searchStep_next lanes call.ends inv.1 moved
  exact ⟨further, by rw [← Nat.add_assoc, Nat.add_mod_right, inv.2]⟩

/-- A search that agrees block by block, from the first boundary on. -/
private theorem searchFrom_filled (lanes : MarksEqual equal) (divides : n ∣ 4096)
    (call : StrstrCall m haystack needle T L)
    (alike : SearchesAlike m.toMemory haystack needle search search')
    (fits : BlockEnd null 0 (firstWidth haystack n) T) {first other : Exec (Option Nat)}
    (same : first = other) {len idx : Nat} :
    searchFrom first (searchStep equal search m.toMemory haystack keys) haystack len null idx =
      searchFrom other (searchStep equal search' (PagedMemory.full m.byte).toMemory haystack keys)
        haystack len null idx := by
  refine searchFrom_congr same fun zero => ?_
  have reach := fits.further zero
  have start := boundary_le haystack n
  refine searchLoop_filled lanes divides call alike (by omega) ?_
  have below := Nat.mod_lt haystack (Nat.pos_of_dvd_of_pos divides (by decide))
  have line : haystack + (n - haystack % n) = n * (haystack / n + 1) := by
    have whole := Nat.div_add_mod haystack n
    rw [Nat.mul_succ]
    omega
  rw [line, Nat.mul_mod_right]

private theorem broadcastNeedle_filled {n : Nat} (call : StrstrCall m haystack needle T L)
    (long : 2 ≤ L) :
    broadcastNeedle n m.toMemory needle L = .ok (needleKeys n m.byte needle L) := by
  have first : m.byteAt needle = .ok (m.byte needle) :=
    Memory.byteAt_eq (call.needleSource 0 (Nat.zero_le L))
  have last : m.readable (needle + L - 1) = true := by
    rw [Nat.add_sub_assoc (by omega)]
    exact call.needleSource (L - 1) (by omega)
  rw [broadcastNeedle, first, Memory.byteAt_eq (call.needleSource 1 (by omega)), Memory.byteAt_eq last]
  rfl

end Blocks

section Avx2
variable {m : PagedMemory} {haystack needle T L offset : Nat} {mask null : BitVec 32}

private theorem processFullSearchAvx2_filled (range : L < sizeRange)
    (probed : Probed m.toMemory haystack needle offset mask null) :
    processFullSearchAvx2 m.toMemory haystack needle L offset mask null =
      processFullSearchAvx2 (PagedMemory.full m.byte).toMemory haystack needle L offset mask null := by
  refine whileBits_congr fun i below set => ?_
  rw [BitVec.getLsbD_and, Bool.and_eq_true, getLsbD_upToNull below] at set
  have needs := probed i below set.1 set.2
  rw [Nat.add_comm offset, ← Nat.add_assoc] at needs
  rw [strncmpAvx2_filled needs range]

private theorem searchBlockAvx2_filled (long : 2 ≤ L) (range : L < sizeRange)
    (page : MapsPage m.toMemory (haystack + offset))
    (probed : Probed m.toMemory haystack needle offset mask null) (filtering : Bool) :
    searchBlockAvx2 m.toMemory haystack needle L (needleKeys 32 m.byte needle L) offset mask null
        filtering =
      searchBlockAvx2 (PagedMemory.full m.byte).toMemory haystack needle L
        (needleKeys 32 m.byte needle L) offset mask null filtering := by
  exact filtered_filled marksEqual_avx2 long page probed _ fun left probed =>
    ite_congr rfl (fun _ => processFullSearchAvx2_filled range probed) fun _ => rfl

private theorem firstBlockAvx2_filled (key : Lanes 32) (mapped : m.readable haystack = true) :
    firstBlockAvx2 m.toMemory haystack key =
      firstBlockAvx2 (PagedMemory.full m.byte).toMemory haystack key := by
  simp only [firstBlockAvx2, pageSz, ymmSz]
  refine ite_congr rfl (fun _ => ?_) fun inner => ?_
  · rw [loadu_filled (PagedMemory.canRead_of_page mapped (by omega) (by omega))]
  · rw [loadu_filled (PagedMemory.canRead_of_page mapped rfl (by omega))]

/-- Behind the page end there is a candidate only where the shift has copied the last lane. -/
private theorem firstBlockAvx2_ghost {byte : Nat → UInt8} {i : Nat}
    (read : firstBlockAvx2 (PagedMemory.full byte).toMemory haystack (set1 (byte needle)) =
      .ok (null, mask)) (inside : i < 32) (set : mask.getLsbD i = true)
    (behind : firstWidth haystack 32 ≤ i) :
    pageSz - ymmSz < haystack % pageSz ∧
      byte (haystack + ymmSz - haystack % ymmSz - 1) = byte needle := by
  simp only [firstBlockAvx2, firstWidth, pageSz, ymmSz] at read behind ⊢
  by_cases edge : 4096 - 32 < haystack % 4096
  · simp only [if_pos edge] at read behind
    rw [Memory.loadu_eq (Memory.canRead_iff.mpr fun _ _ => rfl), ok_bind] at read
    cases read
    have marks := (marksEqual_avx2.marks (a := set1 (byte needle))
      (b := (PagedMemory.full byte).lanes 32 (haystack - haystack % 32))
      (fun i => byte (haystack - haystack % 32 + i) = byte needle)
      fun i => eq_comm).sshiftRight (haystack % 32)
    have found := (marks i inside).mp set
    dsimp only at found
    rw [if_neg (by omega)] at found
    have back : haystack % 32 ≤ haystack := Nat.mod_le _ _
    have last : haystack - haystack % 32 + (32 - 1) = haystack + 32 - haystack % 32 - 1 := by omega
    rw [last] at found
    exact ⟨edge, found⟩
  · rw [if_neg edge] at behind
    omega

private theorem strstrAvx2Broadcasting_filled (call : StrstrCall m haystack needle T L)
    (long : 2 ≤ L) (ghosts : GhostsMapped m.toMemory haystack needle T ymmSz
      (m.byte (haystack + ymmSz - haystack % ymmSz - 1) = m.byte needle)) :
    strstrAvx2Broadcasting m.toMemory haystack needle L =
      strstrAvx2Broadcasting (PagedMemory.full m.byte).toMemory haystack needle L := by
  have range : L < sizeRange := by have fits := call.needleFits; omega
  have mapped : m.readable haystack = true := call.source 0 (Nat.zero_le T)
  obtain ⟨null, mask, read, fits, _⟩ := firstBlockAvx2_eq needle call.ends (by omega : 1 ≤ L)
  have probed : Probed m.toMemory haystack needle 0 mask null :=
    call.probed_first fits ghosts fun i => firstBlockAvx2_ghost read
  rw [strstrAvx2Broadcasting, strstrAvx2Broadcasting, broadcastNeedle_filled call long,
    broadcastNeedle_eq, ok_bind, ok_bind, firstBlockAvx2_filled _ mapped, read, ok_bind, ok_bind]
  refine searchFrom_filled marksEqual_avx2 (by decide) call (fun offset mask null page probed => ?_)
    fits ?_
  · exact searchBlockAvx2_filled long range page probed _
  · exact searchBlockAvx2_filled long range (call.mapsPage (Nat.zero_le T)) probed _

end Avx2

section Avx512
variable {m : PagedMemory} {haystack needle T L offset : Nat} {mask null : BitVec 64}

private theorem searchMatchesAvx512_filled (range : L < sizeRange)
    (probed : Probed m.toMemory haystack needle offset mask null) :
    searchMatchesAvx512 m.toMemory haystack needle L offset mask null =
      searchMatchesAvx512 (PagedMemory.full m.byte).toMemory haystack needle L offset mask null := by
  refine whileBits_congr fun i below set => ite_congr rfl (fun _ => rfl) fun room => ?_
  have needs := probed i below set fun nonzero => by
    have short : ¬ i + L > tzcnt null := fun long => room ⟨nonzero, long⟩
    omega
  rw [strncmpAvx512_filled needs range]

private theorem searchBlockAvx512_filled (long : 2 ≤ L) (range : L < sizeRange)
    (page : MapsPage m.toMemory (haystack + offset))
    (probed : Probed m.toMemory haystack needle offset mask null) (entering : BitVec 64 → Bool) :
    searchBlockAvx512 m.toMemory haystack needle L (needleKeys 64 m.byte needle L) offset mask null
        entering =
      searchBlockAvx512 (PagedMemory.full m.byte).toMemory haystack needle L
        (needleKeys 64 m.byte needle L) offset mask null entering := by
  exact filtered_filled marksEqual_avx512 long page probed _ fun left probed =>
    ite_congr rfl (fun _ => searchMatchesAvx512_filled range probed) fun _ => rfl

private theorem loadAndCheckFirstBlock_filled (mapped : m.readable haystack = true) :
    loadAndCheckFirstBlock m.toMemory haystack (haystack % zmmSz) =
      loadAndCheckFirstBlock (PagedMemory.full m.byte).toMemory haystack (haystack % zmmSz) := by
  simp only [loadAndCheckFirstBlock, pageSz, zmmSz]
  refine ite_congr rfl (fun edge => ?_) fun inner => ?_
  · -- the loaded lanes end with the page
    have inside : haystack % 4096 + (64 - haystack % 64) ≤ 4096 := by omega
    have rights := PagedMemory.canRead_of_page mapped rfl inside
    have active : ∀ i < 64, (headMask (haystack % 64) : BitVec 64).getLsbD i = true →
        m.readable (haystack + i) = true := by
      intro i _ set
      rw [getLsbD_headMask, decide_eq_true_eq] at set
      exact Memory.canRead_iff.mp rights i (by omega)
    rw [Memory.maskLoadu_eq active, Memory.maskLoadu_eq fun _ _ _ => rfl]
    rfl
  · rw [loadu_filled (PagedMemory.canRead_of_page mapped rfl (by omega))]

/-- Behind the page end there is a candidate only where the needle begins with the sentinel. -/
private theorem loadAndCheckFirstBlock_ghost {byte : Nat → UInt8} {i idx : Nat} {z1 : Lanes 64}
    (read : loadAndCheckFirstBlock (PagedMemory.full byte).toMemory haystack (haystack % zmmSz) =
      .ok (z1, null, idx)) (inside : i < 64)
    (set : (equalMaskAvx512 (set1 (byte needle)) z1).getLsbD i = true)
    (behind : firstWidth haystack 64 ≤ i) :
    pageSz - zmmSz < haystack % pageSz ∧ byte needle = 0xff := by
  simp only [loadAndCheckFirstBlock, firstWidth, pageSz, zmmSz] at read behind ⊢
  by_cases edge : 4096 - 64 < haystack % 4096
  · simp only [if_pos edge] at read behind
    rw [Memory.maskLoadu_eq (fun _ _ _ => rfl), ok_bind] at read
    cases read
    have lane := (marksEqual_avx512 _ _ ⟨i, inside⟩).symm.trans set
    rw [beq_iff_eq] at lane
    dsimp only at lane
    rw [if_neg (by rw [getLsbD_headMask, decide_eq_true_eq]; omega)] at lane
    exact ⟨edge, lane⟩
  · rw [if_neg edge] at behind
    omega

private theorem strstrAvx512Broadcasting_filled (call : StrstrCall m haystack needle T L)
    (long : 2 ≤ L)
    (ghosts : GhostsMapped m.toMemory haystack needle T zmmSz (m.byte needle = 0xff)) :
    strstrAvx512Broadcasting m.toMemory haystack needle L =
      strstrAvx512Broadcasting (PagedMemory.full m.byte).toMemory haystack needle L := by
  have range : L < sizeRange := by have fits := call.needleFits; omega
  have mapped : m.readable haystack = true := call.source 0 (Nat.zero_le T)
  obtain ⟨z1, null, read, fits, _⟩ := loadAndCheckFirstBlock_eq needle call.ends (by omega : 1 ≤ L)
  have probed : Probed m.toMemory haystack needle 0 (equalMaskAvx512 (set1 (m.byte needle)) z1) null :=
    call.probed_first fits ghosts fun i => loadAndCheckFirstBlock_ghost read
  rw [strstrAvx512Broadcasting, strstrAvx512Broadcasting, broadcastNeedle_filled call long,
    broadcastNeedle_eq, ok_bind, ok_bind, loadAndCheckFirstBlock_filled mapped, read, ok_bind, ok_bind]
  refine searchFrom_filled marksEqual_avx512 (by decide) call (fun offset mask null page probed => ?_)
    fits ?_
  · exact searchBlockAvx512_filled long range page probed _
  · exact searchBlockAvx512_filled long range (call.mapsPage (Nat.zero_le T)) probed _

end Avx512

section Calls
variable {m : PagedMemory} {haystack needle T L : Nat} (call : StrstrCall m haystack needle T L)
include call

theorem StrstrCall.range : T < sizeRange := by
  have fits := call.fits
  omega

theorem StrstrCall.scans (ch : UInt8) : ScanNeeds m.toMemory haystack (Stops m.byte haystack ch) :=
  scanNeeds_of_hit (.inr call.ends.1) call.source

theorem StrstrCall.needleScans : ScanNeeds m.toMemory needle fun i => m.byte (needle + i) = 0 :=
  scanNeeds_of_hit call.needleEnds.1 call.needleSource

/-- A run of the shared text on this memory and on the one with all pages. -/
theorem StrstrCall.strstrBy_filled {strchr strchr' : Nat → Int → Exec (Option Nat)}
    {strlen strlen' : Nat → Exec Nat} {broadcasting broadcasting' : Nat → Nat → Nat → Exec (Option Nat)}
    (single : ∀ c, strchr haystack c = strchr' haystack c)
    (length : strlen needle = .ok L) (length' : strlen' needle = .ok L)
    (long : 2 ≤ L → broadcasting haystack needle L = broadcasting' haystack needle L) :
    strstrBy strchr strlen broadcasting m.toMemory haystack needle =
      strstrBy strchr' strlen' broadcasting' (PagedMemory.full m.byte).toMemory haystack needle := by
  have same {addr : Nat} (mapped : m.readable addr = true) :
      m.byteAt addr = (PagedMemory.full m.byte).byteAt addr := Memory.byteAt_eq mapped
  have mapped : m.readable haystack = true := call.source 0 (Nat.zero_le T)
  have needleMapped : m.readable needle = true := call.needleSource 0 (Nat.zero_le L)
  rw [strstrBy, strstrBy, same needleMapped, same mapped]
  refine ite_congr rfl (fun _ => rfl) fun some => ite_congr rfl (fun _ => rfl) fun _ => ?_
  have positive : 1 ≤ L := by
    refine Nat.pos_of_ne_zero fun zero => some ?_
    have ends := call.needleEnds.1
    rwa [zero] at ends
  rw [same (call.needleSource 1 positive)]
  refine ite_congr rfl (fun _ => single _) fun more => ?_
  rw [length, length', ok_bind, ok_bind]
  refine long (Nat.lt_of_le_of_ne positive fun one => more ?_)
  have ends := call.needleEnds.1
  rwa [← one] at ends

theorem StrstrCall.strstrAvx2_filled
    (ghosts : GhostsMapped m.toMemory haystack needle T ymmSz
      (m.byte (haystack + ymmSz - haystack % ymmSz - 1) = m.byte needle)) :
    strstrAvx2 m.toMemory haystack needle =
      strstrAvx2 (PagedMemory.full m.byte).toMemory haystack needle := by
  refine call.strstrBy_filled (fun c => ?_) ?_ ?_ fun long =>
    strstrAvx2Broadcasting_filled call long ghosts
  · have run : Ends (strchrAvx2 m.toMemory haystack c) _ fun _ => False :=
      strchrAvx2_ends (call.scans _) call.ends call.range
    have run' : Ends (strchrAvx2 (PagedMemory.full m.byte).toMemory haystack c) _ fun _ => False :=
      strchrAvx2_ends (scanNeeds_full m.byte haystack _) call.ends call.range
    obtain ⟨result, returned, located⟩ := run.returns
    obtain ⟨result', returned', located'⟩ := run'.returns
    rw [returned, returned', located.unique located']
  · exact strlenAvx2_eq call.needleEnds (by have := call.needleFits; omega) call.needleSource
  · exact strlenAvx2_eq call.needleEnds
      (by have := call.needleFits; omega) fun _ _ => rfl

theorem StrstrCall.strstrAvx512_filled
    (ghosts : GhostsMapped m.toMemory haystack needle T zmmSz (m.byte needle = 0xff)) :
    strstrAvx512 m.toMemory haystack needle =
      strstrAvx512 (PagedMemory.full m.byte).toMemory haystack needle := by
  refine call.strstrBy_filled (fun c => ?_) ?_ ?_ fun long =>
    strstrAvx512Broadcasting_filled call long ghosts
  · have run : Ends (strchrAvx512 m.toMemory haystack c) _ fun _ => False :=
      strchrAvx512_ends (call.scans _) call.ends call.range
    have run' : Ends (strchrAvx512 (PagedMemory.full m.byte).toMemory haystack c) _ fun _ => False :=
      strchrAvx512_ends (scanNeeds_full m.byte haystack _) call.ends call.range
    obtain ⟨result, returned, hidden, located⟩ := run.returns
    obtain ⟨result', returned', hidden', located'⟩ := run'.returns
    rw [returned, returned']
    by_cases hides : SentinelHides m.byte haystack (charOfInt c)
    · rw [hidden hides, hidden' hides]
    · rw [(located hides).unique (located' hides)]
  · exact strlenAvx512_eq call.needleEnds (by have := call.needleFits; omega) call.needleSource
  · exact strlenAvx512_eq call.needleEnds
      (by have := call.needleFits; omega) fun _ _ => rfl

/-- A needle shorter than a page, less a vector, cannot lead out of the page behind. -/
theorem StrstrCall.ghosts_of_short {vecSz : Nat} (width : vecSz = ymmSz ∨ vecSz = zmmSz)
    (short : L + vecSz ≤ pageSz) (ghost : Prop) :
    GhostsMapped m.toMemory haystack needle T vecSz ghost := by
  intro edge reach _ p _ near k clear _
  have le := clear.le_hit (call.decides (haystack + p))
  refine ⟨?_, call.needleSource k le⟩
  rw [← call.source _ reach]
  apply m.byPage
  simp only [pageSz, ymmSz, zmmSz] at edge short width ⊢
  rcases width with rfl | rfl <;> omega

theorem StrstrCall.strstrAvx2_ends
    (ghosts : GhostsMapped m.toMemory haystack needle T ymmSz
      (m.byte (haystack + ymmSz - haystack % ymmSz - 1) = m.byte needle)) :
    Ends (strstrAvx2 m.toMemory haystack needle)
      (fun result => Searches m.byte haystack needle result ↔ ¬ FalseMatch m.byte haystack needle T L
        ymmSz (m.byte (haystack + ymmSz - haystack % ymmSz - 1) = m.byte needle)) fun _ => False := by
  have noFalse (short : L < 2) : ¬ FalseMatch m.byte haystack needle T L ymmSz
      (m.byte (haystack + ymmSz - haystack % ymmSz - 1) = m.byte needle) :=
    fun wrong => absurd wrong.2.1 (by omega)
  have needleRange : L < sizeRange := by
    have fits := call.needleFits
    omega
  obtain ⟨ends, _, source, needleEnds, _, needleSource⟩ := id call
  refine strstrBy_mapped ends needleEnds (source 0 (Nat.zero_le T)) needleSource ?_ ?_ ?_ ?_ ?_
  · rintro rfl
    exact iff_of_true (searches_empty ends needleEnds) (noFalse (by omega))
  · rintro rfl positive
    refine iff_of_true ((searches_iff ends needleEnds).mpr
      (picks_none_of_short ends needleEnds positive)) fun wrong => ?_
    have width : ymmSz - haystack % ymmSz ≤ 0 := wrong.2.2.1
    simp only [ymmSz] at width
    omega
  · rintro rfl
    refine (strchrAvx2_ends (call.scans _) ends call.range).imp fun result located => ?_
    rw [charOfInt_intOfChar] at located
    exact iff_of_true ((searches_of_locates ends needleEnds).mpr located) (noFalse (by omega))
  · exact strlenAvx2_ends call.needleScans needleEnds needleRange
  · intro long
    rw [strstrAvx2Broadcasting_filled call long ghosts]
    refine (strstrAvx2Broadcasting_ends ends needleEnds long call.range needleRange).imp
      fun result right => ?_
    rw [searches_iff ends needleEnds]
    exact right

theorem StrstrCall.strstrAvx512_ends
    (ghosts : GhostsMapped m.toMemory haystack needle T zmmSz (m.byte needle = 0xff)) :
    Ends (strstrAvx512 m.toMemory haystack needle)
      (fun result => ¬ FalseMatch m.byte haystack needle T L zmmSz (m.byte needle = 0xff) →
        ¬ (L = 1 ∧ SentinelHides m.byte haystack (m.byte needle)) →
          Searches m.byte haystack needle result) fun _ => False := by
  have needleRange : L < sizeRange := by
    have fits := call.needleFits
    omega
  obtain ⟨ends, _, source, needleEnds, _, needleSource⟩ := id call
  refine strstrBy_mapped ends needleEnds (source 0 (Nat.zero_le T)) needleSource ?_ ?_ ?_ ?_ ?_
  · rintro rfl _ _
    exact searches_empty ends needleEnds
  · rintro rfl positive _ _
    exact (searches_iff ends needleEnds).mpr (picks_none_of_short ends needleEnds positive)
  · rintro rfl
    refine (strchrAvx512_ends (call.scans _) ends call.range).imp ?_
    rintro result ⟨_, located⟩ _ visible
    rw [charOfInt_intOfChar] at located
    exact (searches_of_locates ends needleEnds).mpr (located fun hides => visible ⟨rfl, hides⟩)
  · exact strlenAvx512_ends call.needleScans needleEnds needleRange
  · intro long
    rw [strstrAvx512Broadcasting_filled call long ghosts]
    refine (strstrAvx512Broadcasting_ends ends needleEnds long call.range needleRange).imp
      fun result right fine _ => ?_
    rw [searches_iff ends needleEnds]
    exact right.mpr fine

end Calls

/-- Neither kernel ever faults, or returns anything else, for what is mapped around its strings; where
a needle is longer than 4032 bytes, its candidates behind the page end have to be mapped as well. -/
theorem strstr_ignores_pages (m : PagedMemory) (haystack needle T L : Nat)
    (call : StrstrCall m haystack needle T L)
    (tame : L + zmmSz ≤ pageSz ∨
      GhostsMapped m.toMemory haystack needle T ymmSz
          (m.byte (haystack + ymmSz - haystack % ymmSz - 1) = m.byte needle) ∧
        GhostsMapped m.toMemory haystack needle T zmmSz (m.byte needle = 0xff)) :
    (∃ result, strstrAvx2 m.toMemory haystack needle = .ok result ∧
        strstrAvx2 (PagedMemory.full m.byte).toMemory haystack needle = .ok result) ∧
      ∃ result, strstrAvx512 m.toMemory haystack needle = .ok result ∧
        strstrAvx512 (PagedMemory.full m.byte).toMemory haystack needle = .ok result := by
  have ghosts : GhostsMapped m.toMemory haystack needle T ymmSz
      (m.byte (haystack + ymmSz - haystack % ymmSz - 1) = m.byte needle) := by
    rcases tame with short | mapped
    · refine call.ghosts_of_short (.inl rfl) ?_ _
      simp only [zmmSz, pageSz, ymmSz] at short ⊢
      omega
    · exact mapped.1
  have ghosts512 : GhostsMapped m.toMemory haystack needle T zmmSz (m.byte needle = 0xff) := by
    rcases tame with short | mapped
    · exact call.ghosts_of_short (.inr rfl) short _
    · exact mapped.2
  obtain ⟨result, returned, _⟩ := (call.strstrAvx2_ends ghosts).returns
  obtain ⟨result512, returned512, _⟩ := (call.strstrAvx512_ends ghosts512).returns
  rw [← call.strstrAvx2_filled ghosts, ← call.strstrAvx512_filled ghosts512]
  exact ⟨⟨result, returned, returned⟩, result512, returned512, returned512⟩

theorem strstr_ignores_pages_lastWord :
    (∃ result, strstrAvx2 lastWord.toMemory 8184 8189 = .ok result ∧
        strstrAvx2 (PagedMemory.full lastWord.byte).toMemory 8184 8189 = .ok result) ∧
      ∃ result, strstrAvx512 lastWord.toMemory 8184 8189 = .ok result ∧
        strstrAvx512 (PagedMemory.full lastWord.byte).toMemory 8184 8189 = .ok result := by
  refine strstr_ignores_pages lastWord 8184 8189 7 2 ⟨lastWord_isLength rfl, ?_, fun i inside =>
    lastWord_mapped (by decide) (by omega), lastWord_isLength rfl, ?_, fun i inside =>
    lastWord_mapped (by decide) (by omega)⟩ (.inl (by decide))
  · rw [sizeRange_eq]
    decide
  · rw [sizeRange_eq]
    decide

end AoclLibmem.Strings
