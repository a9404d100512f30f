import AoclLibmem.Validator.References
import AoclLibmem.Calls.RowsCorrect

/-! The validator's functions answer as the contract says, so that every function of the library does
the same as the one it is compared with. -/

namespace AoclLibmem.Validator

open Base Machine Strings Calls Dispatch

theorem enough_budget {k : Nat} (range : k < sizeRange) : k - 0 < budget := by
  rw [sizeRange_eq] at range
  rw [budget]
  omega

section Reading
variable {m : Memory} {str str1 str2 mem1 mem2 size len k : Nat}

private theorem intOfChar_charOfInt {val : Int} (fits : -128 ≤ val ∧ val < 128) :
    intOfChar (charOfInt val) = val := by
  have low : -2 ^ (8 - 1) ≤ val := fits.1
  exact BitVec.toInt_ofInt_eq_self (by decide) low fits.2

theorem testMemchr_finds {val : Int} (fits : -128 ≤ val ∧ val < 128) (whole : m.canRead str len = true)
    (range : len < sizeRange) :
    ∃ result, testMemchr m str val len = .ok result ∧
      Search.FindsChar m.byte str len (charOfInt val) result := by
  have reads (n : Nat) (inside : n < len) : m.byteAt (str + n) = .ok (m.byte (str + n)) :=
    Memory.byteAt_eq (Memory.canRead_iff.mp whole n inside)
  have same (b : UInt8) : intOfChar b = val ↔ b = charOfInt val := by
    constructor
    · rintro rfl
      exact (charOfInt_intOfChar b).symm
    · rintro rfl
      exact intOfChar_charOfInt fits
  rcases clear_or_firstHit (Search.Matches m.byte str (charOfInt val)) len with
    clear | ⟨k, inside, first⟩
  · refine ⟨none, iterate_counts (fun n _ below => ?_) ?_ (Nat.zero_le len) (enough_budget range),
      .absent clear⟩
    · have other : intOfChar (m.byte (str + n)) ≠ val := fun hit => clear n below ((same _).mp hit)
      simp only [below, ↓reduceIte, reads n below, ok_bind, other]
      rfl
    · simp only [Nat.lt_irrefl, ↓reduceIte]
      rfl
  · refine ⟨some (str + k), iterate_counts (fun n _ below => ?_) ?_ (Nat.zero_le k)
      (enough_budget (Nat.lt_trans inside range)), .found first inside⟩
    · have other : intOfChar (m.byte (str + n)) ≠ val := fun hit => first.2 n below ((same _).mp hit)
      have room : n < len := Nat.lt_trans below inside
      simp only [room, ↓reduceIte, reads n room, ok_bind, other]
      rfl
    · have hit : intOfChar (m.byte (str + k)) = val := (same _).mpr first.1
      simp only [inside, ↓reduceIte, reads k inside, ok_bind, hit]
      rfl

theorem testMemcmp_orders (call : Compare.MemcmpCall m mem1 mem2 size) :
    Compare.OrdersExactly m mem1 mem2 size (testMemcmp m mem1 mem2 size) := by
  have reads1 (i : Nat) (inside : i < size) : m.byteAt (mem1 + i) = .ok (m.byte (mem1 + i)) :=
    Memory.byteAt_eq (Memory.canRead_iff.mp call.first i inside)
  have reads2 (i : Nat) (inside : i < size) : m.byteAt (mem2 + i) = .ok (m.byte (mem2 + i)) :=
    Memory.byteAt_eq (Memory.canRead_iff.mp call.second i inside)
  rcases clear_or_firstHit (Compare.Differs m.byte mem1 mem2) size with clear | ⟨k, inside, first⟩
  · refine ⟨0, iterate_counts (fun i _ below => ?_) ?_ (Nat.zero_le size) (enough_budget call.range),
      .same clear⟩
    · have equal := not_not.mp (clear i below)
      simp only [below, ↓reduceIte, reads1 i below, reads2 i below, ok_bind, equal, ne_eq,
        not_true_eq_false]
      rfl
    · simp only [Nat.lt_irrefl, ↓reduceIte]
      rfl
  · refine ⟨_, iterate_counts (fun i _ below => ?_) ?_ (Nat.zero_le k)
      (enough_budget (Nat.lt_trans inside call.range)), .differ first inside⟩
    · have equal := not_not.mp (first.2 i below)
      have room : i < size := Nat.lt_trans below inside
      simp only [room, ↓reduceIte, reads1 i room, reads2 i room, ok_bind, equal, ne_eq,
        not_true_eq_false]
      rfl
    · have differ : m.byte (mem1 + k) ≠ m.byte (mem2 + k) := first.1
      simp only [inside, ↓reduceIte, reads1 k inside, reads2 k inside, ok_bind, differ, ne_eq,
        not_false_eq_true]
      rfl

private theorem byteGap_eq (both : BothReadable m str1 str2 k) :
    byteGap m str1 str2 k = .ok ((m.byte (str1 + k)).toNat - (m.byte (str2 + k)).toNat) := by
  rw [byteGap, Memory.byteAt_eq both.1, ok_bind, Memory.byteAt_eq both.2]
  rfl

private theorem strcmpIndex_eq (first : FirstHit (Decides m.byte str1 str2) k)
    (range : k < sizeRange)
    (both : ∀ i ≤ k, BothReadable m str1 str2 i) : strcmpIndex m str1 str2 = .ok k := by
  refine iterate_counts (fun i _ below => ?_) ?_ (Nat.zero_le k) (enough_budget range)
  · obtain ⟨readable1, readable2⟩ := both i (Nat.le_of_lt below)
    obtain ⟨same, live⟩ := not_or.mp (first.2 i below)
    rw [not_not] at same
    rw [same] at live
    simp only [Memory.byteAt_eq readable1, Memory.byteAt_eq readable2, ok_bind, same, live, ↓reduceIte]
    rfl
  · obtain ⟨readable1, readable2⟩ := both k (Nat.le_refl k)
    simp only [Memory.byteAt_eq readable1, Memory.byteAt_eq readable2, ok_bind]
    rcases first.1 with differ | ends
    · simp only [differ, ↓reduceIte]
      split <;> rfl
    · simp only [ends, ↓reduceIte]
      rfl

theorem testStrcmp_compares (needs : Needs m str1 str2 none) (null : m.byte (str1 + len) = 0)
    (range : len < sizeRange) :
    ∃ value, testStrcmp m str1 str2 = .ok value ∧ Compares m.byte str1 str2 none value := by
  have settled : Decides m.byte str1 str2 len := .inr null
  obtain ⟨k, le, first⟩ := exists_firstHit settled
  have both (i : Nat) (inside : i ≤ k) : BothReadable m str1 str2 i := needs i (first.2.mono inside) rfl
  refine ⟨_, ?_, .differ first (by simp)⟩
  rw [testStrcmp, strcmpIndex_eq first (Nat.lt_of_le_of_lt le range) both, ok_bind]
  exact byteGap_eq (both k (Nat.le_refl k))

/-- The loop stops where the comparison is settled or at the last byte that counts. -/
private theorem stringCmpIndex_eq
    (first : FirstHit (fun i => Decides m.byte str1 str2 i ∨ size - 1 ≤ i) k)
    (positive : 0 < size) (range : size < sizeRange) (both : ∀ i ≤ k, BothReadable m str1 str2 i) :
    stringCmpIndex m str1 str2 size = .ok k := by
  have last : subSize size 1 = size - 1 := subSize_of_le positive range
  have within : k ≤ size - 1 := first.le_of_hit (.inr (Nat.le_refl _))
  refine iterate_counts (fun i _ below => ?_) ?_ (Nat.zero_le k) (enough_budget (by omega))
  · obtain ⟨readable1, readable2⟩ := both i (Nat.le_of_lt below)
    obtain ⟨unsettled, before⟩ := not_or.mp (first.2 i below)
    obtain ⟨same, live⟩ := not_or.mp unsettled
    rw [not_not] at same
    rw [same] at live
    have goes : m.byte (str2 + i) ≠ 0 ∧ m.byte (str2 + i) = m.byte (str2 + i) ∧ i < size - 1 :=
      ⟨live, rfl, Nat.not_le.mp before⟩
    simp only [Memory.byteAt_eq readable1, Memory.byteAt_eq readable2, ok_bind]
    rw [same, if_neg live, last, if_pos goes]
    rfl
  · obtain ⟨readable1, readable2⟩ := both k (Nat.le_refl k)
    simp only [Memory.byteAt_eq readable1, Memory.byteAt_eq readable2, ok_bind, last]
    have stops : ¬ (m.byte (str2 + k) ≠ 0 ∧ m.byte (str2 + k) = m.byte (str1 + k) ∧ k < size - 1) ∨
        m.byte (str1 + k) = 0 := by
      rcases first.1 with (differ | ends) | reached
      · exact .inl fun goes => differ goes.2.1.symm
      · exact .inr ends
      · exact .inl fun goes => absurd goes.2.2 (Nat.not_lt.mpr reached)
    rcases stops with stops | ends
    · rw [if_neg stops]
      split <;> rfl
    · simp only [ends, ↓reduceIte]
      rfl

theorem stringCmp_compares (needs : Needs m str1 str2 (some size)) (positive : 0 < size)
    (range : size < sizeRange) :
    ∃ value, stringCmp m str1 str2 size = .ok value ∧ Compares m.byte str1 str2 (some size) value := by
  obtain ⟨k, le, first⟩ : ∃ k ≤ size - 1,
      FirstHit (fun i => Decides m.byte str1 str2 i ∨ size - 1 ≤ i) k :=
    exists_firstHit (.inr (Nat.le_refl _))
  have clear : ClearBelow (Decides m.byte str1 str2) k := fun i below hit => first.2 i below (.inl hit)
  have both (i : Nat) (inside : i ≤ k) : BothReadable m str1 str2 i :=
    needs i (clear.mono inside) (sizeLe_false.mpr fun n bound => by cases bound; omega)
  have found : stringCmp m str1 str2 size =
      .ok ((m.byte (str1 + k)).toNat - (m.byte (str2 + k)).toNat) := by
    rw [stringCmp, stringCmpIndex_eq first positive range both, ok_bind]
    exact byteGap_eq (both k (Nat.le_refl k))
  refine ⟨_, found, ?_⟩
  by_cases settled : Decides m.byte str1 str2 k
  · exact .differ ⟨settled, clear⟩ fun n bound => by cases bound; omega
  · -- the last byte that counts is the same in both
    have last : k + 1 = size := by
      have final := first.1.resolve_left settled
      omega
    have same : m.byte (str1 + k) = m.byte (str2 + k) := not_not.mp (not_or.mp settled).1
    rw [same, Int.sub_self]
    refine .same rfl (last ▸ clear.extend fun j here => ?_)
    obtain rfl : j = 0 := by omega
    exact settled

theorem testStrchr_locates {c : Int} (ends : IsLength m.byte str len) (range : len < sizeRange)
    (mapped : ∀ i ≤ len, m.readable (str + i) = true) :
    ∃ result, testStrchr m str c = .ok result ∧ Locates m.byte str (charOfInt c) result := by
  obtain ⟨stop, le, first⟩ := exists_stop (charOfInt c) ends
  refine ⟨_, iterate_counts (fun i _ below => ?_) ?_ (Nat.zero_le stop)
    (enough_budget (Nat.lt_of_le_of_lt le range)), locates_of_stop first⟩
  · obtain ⟨other, live⟩ := not_or.mp (first.2 i below)
    simp only [Memory.byteAt_eq (mapped i (by omega)), ok_bind, other, live, ↓reduceIte, ne_eq,
      not_false_eq_true]
    rfl
  · simp only [Memory.byteAt_eq (mapped stop le), ok_bind]
    by_cases hit : m.byte (str + stop) = charOfInt c
    · simp only [hit, ↓reduceIte, ne_eq, not_true_eq_false]
      rfl
    · have null : m.byte (str + stop) = 0 := first.1.resolve_left hit
      rw [if_pos hit, if_pos null, if_neg hit]
      rfl

theorem endOf_eq (ends : IsLength m.byte str len) (range : len < sizeRange)
    (mapped : ∀ i ≤ len, m.readable (str + i) = true) : endOf m str = .ok len := by
  refine iterate_counts (fun i _ below => ?_) ?_ (Nat.zero_le len) (enough_budget range)
  · have live : m.byte (str + i) ≠ 0 := ends.2 i below
    simp only [Memory.byteAt_eq (mapped i (Nat.le_of_lt below)), ok_bind, live, ↓reduceIte, ne_eq,
      not_false_eq_true]
    rfl
  · have null : m.byte (str + len) = 0 := ends.1
    simp only [Memory.byteAt_eq (mapped len (Nat.le_refl len)), ok_bind, null, ↓reduceIte, ne_eq,
      not_true_eq_false]
    rfl

private theorem acceptsByte_eq {c : UInt8} (live : c ≠ 0) (ends : IsLength m.byte str len)
    (range : len < sizeRange) (mapped : ∀ i ≤ len, m.readable (str + i) = true) :
    ∃ found, acceptsByte m str c = .ok found ∧ (found = true ↔ Accepted m.byte str c) := by
  obtain ⟨stop, le, first⟩ := exists_stop c ends
  have passes (i : Nat) (below : i < stop) :
      m.byteAt (str + i) = .ok (m.byte (str + i)) ∧ m.byte (str + i) ≠ 0 ∧ m.byte (str + i) ≠ c := by
    obtain ⟨other, null⟩ := not_or.mp (first.2 i below)
    exact ⟨Memory.byteAt_eq (mapped i (by omega)), null, other⟩
  refine ⟨decide (m.byte (str + stop) = c), iterate_counts (fun i _ below => ?_) ?_ (Nat.zero_le stop)
    (enough_budget (Nat.lt_of_le_of_lt le range)), ?_⟩
  · obtain ⟨read, null, other⟩ := passes i below
    simp only [read, ok_bind, null, other, ↓reduceIte]
    rfl
  · simp only [Memory.byteAt_eq (mapped stop le), ok_bind]
    by_cases hit : m.byte (str + stop) = c
    · simp only [hit, live, ↓reduceIte, decide_true]
      rfl
    · rw [if_pos (first.1.resolve_left hit), decide_eq_false hit]
      rfl
  · rw [decide_eq_true_iff]
    constructor
    · intro hit
      refine ⟨stop, fun j le' => ?_, hit⟩
      rcases Nat.lt_or_eq_of_le le' with less | rfl
      · exact (passes j less).2.1
      · exact hit ▸ live
    · rintro ⟨i, nonzero, hit⟩
      have reach : stop ≤ i := first.le_of_hit (.inl hit)
      exact first.1.resolve_right (nonzero stop reach)

theorem testStrspn_spans {acceptLen : Nat} {start : PagedMemory}
    (call : SpanCall start str1 str2 len acceptLen) :
    ∃ count, testStrspn start.toMemory str1 str2 = .ok count ∧ IsSpan start.byte str1 str2 count := by
  obtain ⟨stop, le, first⟩ : ∃ stop ≤ len,
      FirstHit (fun i => Rejected start.byte str2 (start.byte (str1 + i))) stop :=
    exists_firstHit (.inl call.ends.1)
  refine ⟨stop, iterate_counts (fun i _ below => ?_) ?_ (Nat.zero_le stop)
    (enough_budget (Nat.lt_of_le_of_lt le call.range)), first⟩
  · obtain ⟨live, accepted⟩ := not_or.mp (first.2 i below)
    obtain ⟨found, returned, same⟩ :=
      acceptsByte_eq live call.acceptEnds call.acceptRange call.acceptSource
    simp only [Memory.byteAt_eq (call.source i (by omega)), ok_bind, live, ↓reduceIte, returned,
      same.mpr (not_not.mp accepted)]
    rfl
  · simp only [Memory.byteAt_eq (call.source stop le), ok_bind]
    by_cases null : start.byte (str1 + stop) = 0
    · rw [if_pos null]
      rfl
    · obtain ⟨found, returned, same⟩ :=
        acceptsByte_eq null call.acceptEnds call.acceptRange call.acceptSource
      have missing : found = false :=
        Bool.eq_false_iff.mpr fun yes => first.1.resolve_left null (same.mp yes)
      rw [if_neg null, returned, ok_bind, missing]
      rfl

section Strstr
variable {start : PagedMemory} {T L i : Nat} (call : StrstrCall start str1 str2 T L)
include call

/-- The needle stands where the two strings go together up to its end. -/
private theorem matchLength_eq (inside : i ≤ T) :
    ∃ j ≤ L, matchLength start.toMemory (str1 + i) str2 = .ok j ∧
      (start.byte (str2 + j) = 0 ↔ Occurs start.byte str1 str2 L i) := by
  have settled : Decides start.byte (str1 + i) str2 (T - i) := by
    refine .inr ?_
    rw [Nat.add_assoc, Nat.add_sub_of_le inside]
    exact call.ends.1
  obtain ⟨j, le, first⟩ := exists_firstHit settled
  have short : j ≤ L := by
    by_contra beyond
    obtain ⟨same, live⟩ := not_or.mp (first.2 L (Nat.not_le.mp beyond))
    exact live ((not_not.mp same).trans call.needleEnds.1)
  have read1 (k : Nat) (reach : k ≤ j) :
      start.byteAt (str1 + i + k) = .ok (start.byte (str1 + i + k)) := by
    refine Memory.byteAt_eq ?_
    rw [Nat.add_assoc]
    exact call.source (i + k) (by omega)
  have read2 (k : Nat) (reach : k ≤ j) : start.byteAt (str2 + k) = .ok (start.byte (str2 + k)) :=
    Memory.byteAt_eq (call.needleSource k (Nat.le_trans reach short))
  have range : j < sizeRange := by
    have fits := call.fits
    omega
  refine ⟨j, short, iterate_counts (fun k _ below => ?_) ?_ (Nat.zero_le j) (enough_budget range), ?_⟩
  · obtain ⟨same, live⟩ := not_or.mp (first.2 k below)
    rw [not_not] at same
    simp only [read1 k (Nat.le_of_lt below), read2 k (Nat.le_of_lt below), ok_bind]
    rw [if_neg live, if_pos ⟨same ▸ live, same⟩]
    rfl
  · simp only [read1 j (Nat.le_refl j), read2 j (Nat.le_refl j), ok_bind]
    by_cases null : start.byte (str1 + i + j) = 0
    · rw [if_pos null]
      rfl
    · rw [if_neg null, if_neg fun goes => first.1.resolve_right null goes.2]
      rfl
  · constructor
    · intro null k below
      have reach : L ≤ j := call.needleEnds.le_of_hit null
      have same := not_not.mp (not_or.mp (first.2 k (Nat.lt_of_lt_of_le below reach))).1
      rwa [Nat.add_assoc] at same
    · intro occurs
      have whole : j = L := by
        refine Nat.le_antisymm short (Nat.not_lt.mp fun before => ?_)
        have same : start.byte (str1 + (i + j)) = start.byte (str2 + j) := occurs j before
        rw [← Nat.add_assoc] at same
        have null := first.1.resolve_left fun differ => differ same
        exact call.needleEnds.2 j before (same.symm.trans null)
      rw [whole]
      exact call.needleEnds.1

private theorem strstrPass_end : strstrPass start.toMemory str1 str2 T = .ok (.done none) := by
  have null : start.byte (str1 + T) = 0 := call.ends.1
  rw [strstrPass, Memory.byteAt_eq (call.source T (Nat.le_refl T)), ok_bind, if_pos null]
  rfl

/-- A pass finds the needle where it stands, and goes on elsewhere. -/
private theorem strstrPass_ends (before : i < T) (positive : 0 < L) :
    Ends (strstrPass start.toMemory str1 str2 i) (Step.Holds
      (fun next => next = i + 1 ∧ ¬ Occurs start.byte str1 str2 L i)
      fun result => result = some (str1 + i) ∧ Occurs start.byte str1 str2 L i) fun _ => False := by
  have live : start.byte (str1 + i) ≠ 0 := call.ends.2 i before
  have mapped : start.readable str2 = true := call.needleSource 0 (Nat.zero_le L)
  rw [strstrPass, Memory.byteAt_eq (call.source i (Nat.le_of_lt before)), ok_bind, if_neg live,
    Memory.byteAt_eq mapped, ok_bind]
  refine Ends.ite (fun same => ?_) fun other => ?_
  · obtain ⟨j, short, returned, occurs⟩ := matchLength_eq call (Nat.le_of_lt before)
    rw [returned, ok_bind, Memory.byteAt_eq (call.needleSource j short), ok_bind]
    exact Ends.ite (fun null => ⟨rfl, occurs.mp null⟩) fun more =>
      ⟨rfl, fun hit => more (occurs.mpr hit)⟩
  · refine ⟨rfl, fun hit => other ?_⟩
    exact hit 0 positive

theorem testStrstr_searches :
    ∃ result, testStrstr start.toMemory str1 str2 = .ok result ∧
      Searches start.byte str1 str2 result := by
  have range : T < sizeRange := Nat.lt_of_le_of_lt (Nat.le_add_left T str1) call.fits
  have mapped : start.readable str2 = true := call.needleSource 0 (Nat.zero_le L)
  simp only [searches_iff call.ends call.needleEnds]
  rw [testStrstr, Memory.byteAt_eq mapped, ok_bind]
  by_cases empty : start.byte str2 = 0
  · rw [if_pos empty]
    obtain rfl : L = 0 := Nat.le_zero.mp (call.needleEnds.le_of_hit empty)
    have here : Occurs start.byte str1 str2 0 0 := fun j below => absurd below (Nat.not_lt_zero j)
    exact ⟨_, rfl, .found (i := 0) ⟨⟨Nat.zero_le T, here⟩, clearBelow_zero⟩⟩
  rw [if_neg empty]
  have positive : 0 < L := by
    refine Nat.pos_of_ne_zero ?_
    rintro rfl
    exact empty call.needleEnds.1
  have goes (i : Nat) (before : i < T) (other : ¬ Occurs start.byte str1 str2 L i) :
      strstrPass start.toMemory str1 str2 i = .ok (.next (i + 1)) := by
    obtain ⟨decision, returned, holds⟩ := (strstrPass_ends call before positive).returns
    cases decision with
    | next next => rw [returned, holds.1]
    | done result => exact absurd holds.2 other
  rcases clear_or_firstHit (Occurs start.byte str1 str2 L) T with clear | ⟨k, inside, first⟩
  · refine ⟨none, iterate_counts (fun i _ below => goes i below (clear i below)) (strstrPass_end call)
      (Nat.zero_le T) (enough_budget range), .absent ?_⟩
    rintro i ⟨within, occurs⟩
    rcases Nat.lt_or_eq_of_le within with below | rfl
    · exact clear i below occurs
    · exact empty ((occurs 0 positive).symm.trans call.ends.1)
  · have found : strstrPass start.toMemory str1 str2 k = .ok (.done (some (str1 + k))) := by
      obtain ⟨decision, returned, holds⟩ := (strstrPass_ends call inside positive).returns
      cases decision with
      | next next => exact absurd first.1 holds.2
      | done result => rw [returned, holds.1]
    refine ⟨some (str1 + k), iterate_counts (fun i _ below => ?_) found (Nat.zero_le k)
      (enough_budget (Nat.lt_trans inside range)), ?_⟩
    · exact goes i (Nat.lt_trans below inside) (first.2 i below)
    · exact .found ⟨⟨Nat.le_of_lt inside, first.1⟩, fun i below hit => first.2 i below hit.2⟩

end Strstr

end Reading

section Writing
variable {start : Memory} {dst src size k n : Nat} {text : Nat → UInt8} {done : Nat → Prop}

/-- A byte outside of what is written is the one of the start. -/
private theorem loadByte_written (mapped : start.readable (src + k) = true)
    (outside : ¬ (dst ≤ src + k ∧ src + k < dst + size)) :
    Triple (Written start dst size text done) (vecLoad 1 .unaligned (src + k))
      fun b m => b = (fun _ => start.byte (src + k)) ∧ Written start dst size text done m := by
  have rights : start.canRead (src + k) 1 = true := by
    refine Memory.canRead_iff.mpr fun i below => ?_
    obtain rfl : i = 0 := by omega
    exact mapped
  refine (written_load rights allows_unaligned).imp fun b m loaded => ⟨?_, loaded.2⟩
  obtain ⟨seen, framed, rfl⟩ := loaded.1
  funext i
  rw [Memory.lanes_apply, Fin.val_eq_zero i]
  exact framed.frame _ outside

theorem copyByte_written (target : start.canWrite dst size = true) (inside : k < size)
    (mapped : start.readable (src + k) = true) (outside : ¬ (dst ≤ src + k ∧ src + k < dst + size))
    (same : start.byte (src + k) = text k) :
    Triple (Written start dst size text (· < k)) (copyByte dst src k)
      fun b m => b = (fun _ => start.byte (src + k)) ∧ Written start dst size text (· < k + 1) m := by
  refine (loadByte_written mapped outside).bind fun b => triple_fact ?_
  rintro rfl
  have stores : Triple (Written start dst size text (· < k))
      (vecStore 1 .unaligned (dst + k) fun _ => start.byte (src + k))
      fun _ => Written start dst size text (· < k + 1) := by
    refine written_store target allows_unaligned inside (fun i _ => ?_) fun j below => ?_
    · rw [Fin.val_eq_zero i]
      exact same
    · rcases Nat.lt_or_eq_of_le (Nat.le_of_lt_succ below) with less | rfl
      · exact .inl less
      · exact .inr ⟨Nat.le_refl j, below⟩
  exact stores.bind fun _ => triple_pure fun m written => ⟨rfl, written⟩

theorem testMemcpy_copies (buffers : Copy.Buffers start dst src size) (range : size < sizeRange)
    (apart : dst + size ≤ src ∨ src + size ≤ dst) :
    Triple (fun m => m = start) (testMemcpy dst src size) fun result m => result = dst ∧
      Written start dst size (fun i => start.byte (src + i)) (· < size) m := by
  have target : start.canWrite dst size = true := Memory.canWrite_iff.mpr buffers.target
  refine Triple.from (loopM_triple
    (fun k m => k ≤ size ∧ Written start dst size (fun i => start.byte (src + i)) (· < k) m)
    (fun k => size - k) (fun k => triple_fact fun within => ?_) (enough_budget range)) ?_
  · refine triple_ite (fun inside => ?_) fun full => ?_
    · refine (copyByte_written target inside (buffers.source k inside) (by omega) rfl).bind fun _ => ?_
      exact triple_pure fun m copied => ⟨⟨inside, copied.2⟩, by omega⟩
    · obtain rfl : k = size := by omega
      exact triple_pure fun m written => ⟨rfl, written⟩
  · rintro _ rfl
    exact ⟨Nat.zero_le size, (Written.refl _ dst size _).mono fun j below => Nat.not_lt_zero j below⟩

section Strings
variable {start : PagedMemory} {dst src len dstLen copyLen : Nat}

theorem testStrcpy_copiesTo (call : StrcpyCall start dst src len) :
    Triple (CopiedTo start.toMemory dst src (len + 1) 0) (testStrcpy dst src) fun result m =>
      result = dst ∧ CopiedTo start.toMemory dst src (len + 1) (len + 1) m := by
  refine Triple.from (loopM_triple (fun k m => k ≤ len ∧ CopiedTo start.toMemory dst src (len + 1) k m)
    (fun k => len - k) (fun k => triple_fact fun within => ?_) (enough_budget call.range))
    fun m written => ⟨Nat.zero_le len, written⟩
  have clear : ClearBelow (Nul start.byte src) k := call.ends.2.mono within
  refine (copyByte_written call.copy.target (Nat.lt_succ_of_le within) (call.source k within)
    (call.copy.disjoint k (by omega) clear) (copyText_of_clear clear).symm).bind fun b => ?_
  apply triple_fact
  rintro rfl
  refine triple_ite (fun live => ?_) fun null => ?_
  · have more : k < len := by
      refine Nat.lt_of_le_of_ne within ?_
      rintro rfl
      exact live call.ends.1
    exact triple_pure fun m written => ⟨⟨more, written⟩, by omega⟩
  · obtain rfl : k = len := Nat.le_antisymm within (call.ends.le_of_hit (not_not.mp null))
    exact triple_pure fun m written => ⟨rfl, written⟩

section Append
variable (call : StrncatCall start dst src n dstLen copyLen)
variable (apart : copyLen < n → src + copyLen ≠ dst + dstLen)
include call apart

/-- The terminator of the source is not what is overwritten first. -/
private theorem appendLoop_written :
    Triple (fun m => m = start.toMemory) (appendLoop (dst + dstLen) src n) fun last m =>
      last = copyLen ∧ Written start.toMemory (dst + dstLen) (copyLen + 1)
        (appendText start.byte src copyLen) (· < copyLen) m := by
  refine Triple.from (loopM_triple (fun k m => k ≤ copyLen ∧
      Written start.toMemory (dst + dstLen) (copyLen + 1) (appendText start.byte src copyLen) (· < k) m)
    (fun k => copyLen - k) (fun k => triple_fact fun within => ?_) (enough_budget call.copyRange)) ?_
  swap
  · rintro _ rfl
    exact ⟨Nat.zero_le _, (Written.refl _ _ _ _).mono fun j below => Nat.not_lt_zero j below⟩
  refine triple_ite (fun inside => ?_) fun full => ?_
  · have outside : ¬ (dst + dstLen ≤ src + k ∧ src + k < dst + dstLen + (copyLen + 1)) := by
      have buffers := call.apart
      have behind : k = copyLen → src + copyLen ≠ dst + dstLen := fun last => apart (last ▸ inside)
      omega
    refine (loadByte_written (call.source k inside within) outside).bind fun b => triple_fact ?_
    rintro rfl
    refine triple_ite (fun live => ?_) fun null => ?_
    · have more : k < copyLen := by
        refine Nat.lt_of_le_of_ne within ?_
        rintro rfl
        exact live (call.bounded.ends inside)
      refine (copyByte_written call.canWrite (Nat.lt_succ_of_le within) (call.source k inside within)
        outside (if_pos more).symm).bind fun _ => ?_
      exact triple_pure fun m copied => ⟨⟨more, copied.2⟩, by omega⟩
    · have last : k = copyLen := by
        refine Nat.le_antisymm within (Nat.not_lt.mp fun before => ?_)
        exact call.bounded.clear k before (not_not.mp null)
      exact triple_pure fun m written => ⟨last, last ▸ written⟩
  · have last : k = copyLen := Nat.le_antisymm within (by have most := call.bounded.within; omega)
    exact triple_pure fun m written => ⟨last, last ▸ written⟩

private theorem appendAtMost_written :
    Triple (fun m => m = start.toMemory) (appendAtMost (dst + dstLen) src n) fun _ =>
      Written start.toMemory (dst + dstLen) (copyLen + 1) (appendText start.byte src copyLen)
        (· < copyLen + 1) := by
  refine (appendLoop_written call apart).bind fun last => triple_fact ?_
  rintro rfl
  exact (storeNul_written call.canWrite).bind fun _ => triple_pure fun m written => written

theorem testStrncat_appends :
    Triple (fun m => m = start.toMemory) (testStrncat dst src n) fun result m => result = dst ∧
      Written start.toMemory (dst + dstLen) (copyLen + 1) (appendText start.byte src copyLen)
        (· < copyLen + 1) m := by
  refine (readOnly_triple (endOf_eq call.dstEnds call.dstRange call.dstSource)).bind fun offset => ?_
  apply triple_fact
  rintro rfl
  exact (appendAtMost_written call apart).bind fun _ => triple_pure fun m written => ⟨rfl, written⟩

end Append

end Strings

end Writing

end AoclLibmem.Validator
