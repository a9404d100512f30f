import AoclLibmem.Strings.StrcmpAvx2Safety
import AoclLibmem.Strings.StrcmpAvx512Safety

/-! The AVX2 and AVX512 comparisons where nothing is read past a bound: `strcmp` on every
page map that holds the strings as far as they agree, `strncmp` on a memory without holes. -/

namespace AoclLibmem.Strings

open Base Machine

section Ends
variable {byte : Nat → UInt8} {str1 str2 : Nat}

/-- A run that stops for one reason only returns where that reason does not hold. -/
theorem compares_of_fine {run : Exec Int} {size : Option Nat} {overread : Prop}
    (ends : Ends run (fun value => Compares byte str1 str2 size value ∧ ¬ overread)
      (fun trap => trap = .fault ∧ overread))
    (fine : ¬ overread) : ∃ value, run = .ok value ∧ Compares byte str1 str2 size value := by
  have returns : Ends run (Compares byte str1 str2 size) fun _ => False :=
    ends.mono (fun _ good => good.1) fun _ stop => fine stop.2
  exact returns.returns

end Ends

/-- The offsets at which the top-level loop of the mis-aligned case begins a pass. -/
inductive PassAt (m : Memory) (size : Option Nat) (str1 str2 : Nat) : Nat → Prop where
  | first {offset : Nat} (differ : str1 % cachelineSz ≠ str2 % cachelineSz)
      (head : strcmpAvx2Head m size str1 str2 = .ok (.next offset)) : PassAt m size str1 str2 offset
  | again {offset next : Nat} (pass : PassAt m size str1 str2 offset)
      (step : strcmpAvx2MisStep m size str1 str2 offset = .ok (.next next)) :
      PassAt m size str1 str2 next

section Strcmp
variable {m : PagedMemory} {str1 str2 len : Nat}

/-- Every pass begins with one of the strings at a vector boundary, and behind equal bytes. -/
theorem PassAt.aligned {offset : Nat} (needs : Needs m.toMemory str1 str2 none)
    (pass : PassAt m.toMemory none str1 str2 offset) :
    ((str1 + offset) % 32 = 0 ∨ (str2 + offset) % 32 = 0) ∧
      ClearBelow (Decides m.byte str1 str2) offset := by
  induction pass with
  | @first offset differ head =>
    have run : Ends _ _ fun _ => False := strcmpAvx2Head_ends needs sizeLe_none
    obtain ⟨start, clear, _⟩ := run.of_ok head
    obtain ⟨_, _, line⟩ := lineOffset_bounds str1 str2
    simp only [ymmSz] at start
    refine ⟨?_, clear⟩
    rcases lineOffset_eq str1 str2 with left | right
    · omega
    · omega
  | @again offset next pass step ih =>
    have run := strcmpAvx2MisStep_ends needs (by simp) (by simp) ih.1 ih.2
    obtain ⟨reached, _, clear, _⟩ := run.of_ok step
    subst reached
    refine ⟨?_, clear⟩
    simp only [nextPass, unalignedAt, ymmSz]
    split <;> omega

/-- `_strcmp_avx2` reads no more than the pages that hold the strings as far as they agree,
and orders them; the branch of the mis-aligned loop with two unaligned loads is never taken. -/
theorem strcmpAvx2_orders (m : PagedMemory) (str1 str2 len : Nat) (null : m.byte (str1 + len) = 0)
    (range : len < sizeRange) (needs : Needs m.toMemory str1 str2 none) :
    (∃ value, strcmpAvx2 m.toMemory str1 str2 = .ok value ∧ Ordered m.byte str1 str2 none value) ∧
      ∀ offset, PassAt m.toMemory none str1 str2 offset →
        (str1 + offset) % ymmSz = 0 ∨ (str2 + offset) % ymmSz = 0 := by
  constructor
  · have run := strcmpAvx2Text_ends needs (budget_of_range range) (endsBelow_of_nul null) (by simp)
    obtain ⟨value, returned, compares⟩ := compares_of_fine run (by simp)
    exact ⟨value, returned, compares.ordered⟩
  · intro offset pass
    exact (pass.aligned needs).1

theorem strcmpAvx2_orders_words :
    (∃ value, strcmpAvx2 wordPage.toMemory 8184 4096 = .ok value ∧
        Ordered wordPage.byte 8184 4096 none value) ∧
      ∀ offset, PassAt wordPage.toMemory none 8184 4096 offset →
        (8184 + offset) % ymmSz = 0 ∨ (4096 + offset) % ymmSz = 0 :=
  strcmpAvx2_orders wordPage 8184 4096 7 rfl (by rw [sizeRange_eq]; decide) wordPage_needs

/-- `_strcmp_avx512` reads no more than the pages that hold the strings as far as they agree,
and orders them. -/
theorem strcmpAvx512_orders (m : PagedMemory) (str1 str2 len : Nat)
    (null : m.byte (str1 + len) = 0) (range : len < sizeRange)
    (needs : Needs m.toMemory str1 str2 none) :
    ∃ value, strcmpAvx512 m.toMemory str1 str2 = .ok value ∧
      Ordered m.byte str1 str2 none value := by
  have run := strcmpAvx512Text_ends needs (budget_of_range range) (endsBelow_of_nul null) (by simp)
  obtain ⟨value, returned, compares⟩ := compares_of_fine run (by simp)
  exact ⟨value, returned, compares.ordered⟩

theorem strcmpAvx512_orders_words :
    ∃ value, strcmpAvx512 wordPage.toMemory 8184 4096 = .ok value ∧
      Ordered wordPage.byte 8184 4096 none value :=
  strcmpAvx512_orders wordPage 8184 4096 7 rfl (by rw [sizeRange_eq]; decide) wordPage_needs

end Strcmp

section Strncmp
variable {byte other : Nat → UInt8} {str1 str2 n k : Nat} {value : Int}

/-- Both memories hold the same bytes where they count: below the bound, and up to the first
index that settles the comparison. -/
def SameInput (byte other : Nat → UInt8) (str1 str2 n : Nat) : Prop :=
  ∀ i < n, ClearBelow (Decides byte str1 str2) i →
    other (str1 + i) = byte (str1 + i) ∧ other (str2 + i) = byte (str2 + i)

theorem SameInput.decides (same : SameInput byte other str1 str2 n) (inside : k < n)
    (clear : ClearBelow (Decides byte str1 str2) k) :
    Decides other str1 str2 k ↔ Decides byte str1 str2 k := by
  obtain ⟨first, second⟩ := same k inside clear
  rw [Decides, Decides, first, second]

theorem SameInput.clear (same : SameInput byte other str1 str2 n) (inside : k ≤ n)
    (clear : ClearBelow (Decides byte str1 str2) k) : ClearBelow (Decides other str1 str2) k := by
  intro i below hit
  have before := clear.mono (Nat.le_of_lt below)
  exact clear i below ((same.decides (by omega) before).mp hit)

/-- The bytes that do not count have no part in the result. -/
theorem SameInput.compares (same : SameInput byte other str1 str2 n)
    (compares : Compares byte str1 str2 (some n) value) :
    Compares other str1 str2 (some n) value := by
  cases compares with
  | @differ k first inside =>
    have below : k < n := inside n rfl
    obtain ⟨equal1, equal2⟩ := same k below first.2
    rw [← equal1, ← equal2]
    exact .differ ⟨(same.decides below first.2).mpr first.1, same.clear (Nat.le_of_lt below) first.2⟩
      inside
  | @same bound equal clear =>
    cases equal
    exact .same rfl (same.clear (Nat.le_refl _) clear)

private theorem bothReadable_full (byte : Nat → UInt8) (str1 str2 k : Nat) :
    BothReadable (PagedMemory.full byte).toMemory str1 str2 k := ⟨rfl, rfl⟩

/-- Where every byte is mapped that the comparison of the whole strings looks at, there is no
unreadable block to run into. -/
private theorem not_overreads_of_needs {m : Memory} {str1 str2 : Nat}
    (needs : Needs m str1 str2 none)
    (n : Nat) : ¬ OverreadsAvx2 m str1 str2 n ∧ ¬ OverreadsAvx512 m str1 str2 n := by
  constructor
  · rintro ⟨_, _, overread⟩
    split at overread
    · obtain ⟨i, _, _, clear, missing⟩ := overread
      exact missing (needs _ clear rfl)
    · obtain ⟨entry, _, j, _, _, clear, missing⟩ := overread
      exact missing (needs _ clear rfl)
  · rintro ⟨_, _, _, i, _, _, clear, missing⟩
    exact missing (needs _ clear rfl)

private theorem needs_full (byte : Nat → UInt8) (str1 str2 : Nat) (size : Option Nat) :
    Needs (PagedMemory.full byte).toMemory str1 str2 size :=
  fun k _ _ => bothReadable_full byte str1 str2 k

section Mapped
variable {m : PagedMemory} {str1 str2 : Nat} (needs : Needs m.toMemory str1 str2 none)
include needs

/-- A bounded comparison never runs into a hole between strings that are mapped as such. -/
theorem strncmpAvx2_mapped (range : n < sizeRange) :
    ∃ value, strncmpAvx2 m.toMemory str1 str2 n = .ok value ∧
      Compares m.byte str1 str2 (some n) value := by
  unfold strncmpAvx2
  split
  · rename_i none
    exact ⟨0, rfl, .same rfl (none ▸ clearBelow_zero)⟩
  · rename_i some
    have run := strcmpAvx2Text_ends (fun k clear _ => needs k clear rfl)
      (Nat.lt_of_succ_lt (budget_of_range range)) endsBelow_bound
      fun n' bound => by cases bound; exact ⟨Nat.pos_of_ne_zero some, range⟩
    refine compares_of_fine run ?_
    rintro ⟨n', _, overreads⟩
    exact (not_overreads_of_needs needs n').1 overreads

theorem strncmpAvx512_mapped (range : n < sizeRange) :
    ∃ value, strncmpAvx512 m.toMemory str1 str2 n = .ok value ∧
      Compares m.byte str1 str2 (some n) value := by
  unfold strncmpAvx512
  split
  · rename_i none
    exact ⟨0, rfl, .same rfl (none ▸ clearBelow_zero)⟩
  · rename_i some
    have run := strcmpAvx512Text_ends (fun k clear _ => needs k clear rfl)
      (Nat.lt_of_succ_lt (budget_of_range range)) endsBelow_bound
      fun n' bound => by cases bound; exact ⟨Nat.pos_of_ne_zero some, range⟩
    refine compares_of_fine run ?_
    rintro ⟨n', _, overreads⟩
    exact (not_overreads_of_needs needs n').2 overreads

end Mapped

theorem strncmpAvx2_full (byte : Nat → UInt8) (str1 str2 : Nat) (range : n < sizeRange) :
    ∃ value, strncmpAvx2 (PagedMemory.full byte).toMemory str1 str2 n = .ok value ∧
      Compares byte str1 str2 (some n) value :=
  strncmpAvx2_mapped (needs_full byte str1 str2 none) range

theorem strncmpAvx512_full (byte : Nat → UInt8) (str1 str2 : Nat) (range : n < sizeRange) :
    ∃ value, strncmpAvx512 (PagedMemory.full byte).toMemory str1 str2 n = .ok value ∧
      Compares byte str1 str2 (some n) value :=
  strncmpAvx512_mapped (needs_full byte str1 str2 none) range

theorem SameInput.refl : SameInput byte byte str1 str2 n := fun _ _ _ => ⟨rfl, rfl⟩

/-- On a memory without holes both kernels return the one result that `strncmp` is promised to
have, and both return it for every other memory with the same bytes where they count. -/
theorem strncmp_orders (byte : Nat → UInt8) (str1 str2 n : Nat) (range : n < sizeRange) :
    ∃ value, strncmpAvx2 (PagedMemory.full byte).toMemory str1 str2 n = .ok value ∧
      strncmpAvx512 (PagedMemory.full byte).toMemory str1 str2 n = .ok value ∧
      Ordered byte str1 str2 (some n) value ∧
      ∀ other, SameInput byte other str1 str2 n →
        strncmpAvx2 (PagedMemory.full other).toMemory str1 str2 n = .ok value ∧
          strncmpAvx512 (PagedMemory.full other).toMemory str1 str2 n = .ok value := by
  obtain ⟨value, _, compares⟩ := strncmpAvx2_full byte str1 str2 range
  have same (other : Nat → UInt8) (same : SameInput byte other str1 str2 n) :
      strncmpAvx2 (PagedMemory.full other).toMemory str1 str2 n = .ok value ∧
        strncmpAvx512 (PagedMemory.full other).toMemory str1 str2 n = .ok value := by
    have expected := same.compares compares
    obtain ⟨value2, returned2, compares2⟩ := strncmpAvx2_full other str1 str2 range
    obtain ⟨value512, returned512, compares512⟩ := strncmpAvx512_full other str1 str2 range
    rw [returned2, returned512, compares2.unique expected, compares512.unique expected]
    exact ⟨rfl, rfl⟩
  obtain ⟨avx2, avx512⟩ := same byte .refl
  exact ⟨value, avx2, avx512, compares.ordered, same⟩

theorem strncmp_orders_max :
    ∃ value, strncmpAvx2 (PagedMemory.full fun _ => 97).toMemory 63 4000 18446744073709551615 =
        .ok value ∧
      strncmpAvx512 (PagedMemory.full fun _ => 97).toMemory 63 4000 18446744073709551615 =
        .ok value ∧
      Ordered (fun _ => 97) 63 4000 (some 18446744073709551615) value := by
  obtain ⟨value, avx2, avx512, ordered, _⟩ :=
    strncmp_orders (fun _ => 97) 63 4000 18446744073709551615 (by rw [sizeRange_eq]; decide)
  exact ⟨value, avx2, avx512, ordered⟩

end Strncmp

end AoclLibmem.Strings
