import AoclLibmem.Machine.BlockScan

/-! What `strcmp` and `strncmp` have to return, and the steps their kernels
share: the checks of the bound, the return of the byte difference. -/

namespace AoclLibmem.Strings

open Base Machine

/-- Byte `i` settles the comparison: the strings differ there, or both end. -/
def Decides (byte : Nat → UInt8) (str1 str2 : Nat) (i : Nat) : Prop :=
  byte (str1 + i) ≠ byte (str2 + i) ∨ byte (str1 + i) = 0

private theorem decides_comm (byte : Nat → UInt8) (str1 str2 : Nat) (i : Nat) :
    Decides byte str1 str2 i ↔ Decides byte str2 str1 i := by
  unfold Decides
  by_cases same : byte (str1 + i) = byte (str2 + i)
  · simp [same]
  · simp [same, Ne.symm same]

theorem decides_swap (byte : Nat → UInt8) (str1 str2 : Nat) :
    Decides byte str2 str1 = Decides byte str1 str2 :=
  funext fun i => propext (decides_comm byte str2 str1 i)

theorem decides_add (byte : Nat → UInt8) (str1 str2 : Nat) (offset i : Nat) :
    Decides byte (str1 + offset) (str2 + offset) i ↔ Decides byte str1 str2 (offset + i) := by
  simp only [Decides, Nat.add_assoc]

/-- The required result. With a bound, bytes at the bound and beyond do not count;
`none` is the unbounded comparison. -/
inductive Compares (byte : Nat → UInt8) (str1 str2 : Nat) (size : Option Nat) : Int → Prop where
  | differ {k : Nat} (first : FirstHit (Decides byte str1 str2) k) (inside : ∀ n ∈ size, k < n) :
      Compares byte str1 str2 size ((byte (str1 + k)).toNat - (byte (str2 + k)).toNat)
  | same {n : Nat} (bound : size = some n) (clear : ClearBelow (Decides byte str1 str2) n) :
      Compares byte str1 str2 size 0

theorem Compares.unique (first : Compares byte str1 str2 size value)
    (second : Compares byte str1 str2 size other) : value = other := by
  cases first with
  | differ hit inside =>
    cases second with
    | differ hit' _ => rw [hit.unique hit']
    | same bound clear =>
      have below := inside _ bound
      have le := clear.le_hit hit.1
      omega
  | same bound clear =>
    cases second with
    | differ hit inside =>
      have below := inside _ bound
      have le := clear.le_hit hit.1
      omega
    | same _ _ => rfl

/-- The strings hold the same bytes up to and including the first NUL, as far as the
bound goes. -/
def Agree (byte : Nat → UInt8) (str1 str2 : Nat) (size : Option Nat) : Prop :=
  ∀ i, (∀ n ∈ size, i < n) → (∀ j < i, byte (str1 + j) ≠ 0) → byte (str1 + i) = byte (str2 + i)

/-- What a caller is promised: 0 for strings that agree, and for others the difference of
the first differing bytes as unsigned chars. -/
structure Ordered (byte : Nat → UInt8) (str1 str2 : Nat) (size : Option Nat) (value : Int) :
    Prop where
  zero_iff : value = 0 ↔ Agree byte str1 str2 size
  differ : ¬ Agree byte str1 str2 size →
    ∃ k, FirstHit (fun i => byte (str1 + i) ≠ byte (str2 + i)) k ∧
      value = (byte (str1 + k)).toNat - (byte (str2 + k)).toNat

private theorem ordered_of_agree (agree : Agree byte str1 str2 size) :
    Ordered byte str1 str2 size 0 :=
  ⟨iff_of_true rfl agree, fun other => absurd agree other⟩

theorem Compares.ordered (compares : Compares byte str1 str2 size value) :
    Ordered byte str1 str2 size value := by
  cases compares with
  | @differ k first inside =>
    have before : ∀ j < k, byte (str1 + j) = byte (str2 + j) ∧ byte (str1 + j) ≠ 0 := by
      intro j less
      have quiet := not_or.mp (first.2 j less)
      exact ⟨not_not.mp quiet.1, quiet.2⟩
    by_cases same : byte (str1 + k) = byte (str2 + k)
    · have null : byte (str1 + k) = 0 := first.1.resolve_left fun other => other same
      rw [same, Int.sub_self]
      apply ordered_of_agree
      intro i _ going
      rcases Nat.lt_trichotomy i k with less | rfl | more
      · exact (before i less).1
      · exact same
      · exact absurd null (going k more)
    · have apart : ¬ Agree byte str1 str2 size := by
        intro agree
        exact same (agree k inside fun j less => (before j less).2)
      refine ⟨iff_of_false ?_ apart, fun _ => ?_⟩
      · intro zero
        apply same
        rw [← UInt8.toNat_inj]
        omega
      · exact ⟨k, ⟨same, fun j less other => other (before j less).1⟩, rfl⟩
  | @same n bound clear =>
    apply ordered_of_agree
    intro i inside _
    have quiet := not_or.mp (clear i (inside n bound))
    exact not_not.mp quiet.1

/-- `size <= k`, the check only the STRNCMP build makes. -/
def sizeLe (size : Option Nat) (k : Nat) : Bool := size.any fun n => n ≤ k

/-- `offset < size - span` with the subtraction in `size_t`; the build without a
bound has `1` in its place. -/
def sizeGuard (size : Option Nat) (offset span : Nat) : Bool :=
  size.all fun n => offset < subSize n span

@[simp] theorem sizeLe_none {k : Nat} : sizeLe none k = false := rfl

@[simp] theorem sizeLe_some {n k : Nat} : sizeLe (some n) k = true ↔ n ≤ k := by
  simp [sizeLe]

theorem sizeLe_iff {size : Option Nat} {k : Nat} :
    sizeLe size k = true ↔ ∃ n, size = some n ∧ n ≤ k := by
  cases size <;> simp

theorem sizeLe_mono {size : Option Nat} {k j : Nat} (reached : sizeLe size k = true) (le : k ≤ j) :
    sizeLe size j = true := by
  obtain ⟨n, bound, below⟩ := sizeLe_iff.mp reached
  exact sizeLe_iff.mpr ⟨n, bound, by omega⟩

theorem sizeLe_false {size : Option Nat} {k : Nat} : sizeLe size k = false ↔ ∀ n ∈ size, k < n := by
  cases size with
  | none => simp
  | some n =>
    rw [← Bool.not_eq_true, sizeLe_some]
    simp

private theorem sizeGuard_some {n offset span : Nat} :
    sizeGuard (some n) offset span = true ↔ offset < subSize n span := by
  rw [sizeGuard, Option.all_some, decide_eq_true_iff]

/-- Below the span the subtraction wraps and the guard holds. -/
theorem sizeGuard_of_lt {n offset span : Nat} (small : n < span) (range : span ≤ sizeRange)
    (near : offset + span < sizeRange) : sizeGuard (some n) offset span = true := by
  rw [sizeGuard_some, subSize_of_lt small range]
  omega

private theorem sizeGuard_of_le {n offset span : Nat} (large : span ≤ n) (range : n < sizeRange) :
    sizeGuard (some n) offset span = true ↔ offset + span < n := by
  rw [sizeGuard_some, subSize_of_le large range]
  omega

/-- An open guard in front of the bound has wrapped. -/
theorem lt_span_of_sizeGuard {n offset span reached : Nat} (range : n < sizeRange)
    (opened : sizeGuard (some n) offset span = true) (past : n ≤ reached)
    (within : reached ≤ offset + span) : n < span := by
  by_contra large
  have fits := (sizeGuard_of_le (Nat.not_lt.mp large) range).mp opened
  omega

def BothReadable (m : Memory) (str1 str2 offset : Nat) : Prop :=
  m.readable (str1 + offset) = true ∧ m.readable (str2 + offset) = true

theorem bothReadable_swap (m : Memory) (str1 str2 : Nat) :
    BothReadable m str2 str1 = BothReadable m str1 str2 :=
  funext fun _ => propext and_comm

/-- The bytes a comparison has to look at are readable: every byte up to the deciding
index that the bound does not cut off. -/
def Needs (m : Memory) (str1 str2 : Nat) (size : Option Nat) : Prop :=
  ∀ k, ClearBelow (Decides m.byte str1 str2) k → sizeLe size k = false → BothReadable m str1 str2 k

theorem Needs.swap {m : Memory} {size : Option Nat} {str1 str2 : Nat}
    (needs : Needs m str1 str2 size) : Needs m str2 str1 size := by
  intro k clear live
  rw [decides_swap] at clear
  exact (needs k clear live).symm

/-- The bytes of a bounded string are mapped: up to its first NUL or index `n - 1`. -/
def PrefixMapped (m : Memory) (str n : Nat) : Prop :=
  ∀ k < n, (∀ j < k, m.byte (str + j) ≠ 0) → m.readable (str + k) = true

theorem needs_of_prefixMapped {m : Memory} {str1 str2 n : Nat} (mapped1 : PrefixMapped m str1 n)
    (mapped2 : PrefixMapped m str2 n) : Needs m str1 str2 (some n) := by
  intro k clear live
  have below := sizeLe_false.mp live n rfl
  refine ⟨mapped1 k below fun j less zero => clear j less (.inr zero),
    mapped2 k below fun j less zero => ?_⟩
  by_cases same : m.byte (str1 + j) = m.byte (str2 + j)
  · exact clear j less (.inr (same.trans zero))
  · exact clear j less (.inl same)

def onePage : PagedMemory := .ofPages (fun _ => 97) fun page => page == 1

theorem onePage_mapped {str n : Nat} (low : 4096 ≤ str) (high : str + n ≤ 8192) :
    PrefixMapped onePage.toMemory str n := by
  intro k below _
  have page : (str + k) / 4096 = 1 := by omega
  simp [onePage, PagedMemory.ofPages, pageSz, page]

def wordPage : PagedMemory := .ofPages (fun a => if a % 8 = 7 then 0 else 97) fun page => page == 1

theorem wordPage_needs : Needs wordPage.toMemory 8184 4096 none := by
  intro k clear _
  have le : k ≤ 7 := clear.le_hit (.inr rfl)
  have page1 : (8184 + k) / 4096 = 1 := by omega
  have page2 : (4096 + k) / 4096 = 1 := by omega
  constructor <;> simp [wordPage, PagedMemory.ofPages, pageSz, page1, page2]

/-- The comparison comes to an end: it is decided or cut off below some horizon. -/
def EndsBelow (hit : Nat → Prop) (size : Option Nat) (horizon : Nat) : Prop :=
  ∀ offset, ClearBelow hit offset → sizeLe size offset = false → offset < horizon

theorem endsBelow_bound {hit : Nat → Prop} {n : Nat} : EndsBelow hit (some n) n :=
  fun _ _ live => sizeLe_false.mp live n rfl

/-- A comparison ends with the first string at the latest. -/
theorem endsBelow_of_nul {byte : Nat → UInt8} {str1 str2 len : Nat}
    (null : byte (str1 + len) = 0) :
    EndsBelow (Decides byte str1 str2) none (len + 1) := by
  intro offset clear _
  have le : offset ≤ len := clear.le_hit (.inr null)
  omega

theorem budget_of_range {len : Nat} (range : len < sizeRange) : len + 1 < budget := by
  rw [sizeRange_eq] at range
  unfold budget
  omega

/-- The label `return_val`: the difference of the bytes at `cmpIdx` as unsigned
chars, or 0 when the bound comes first. -/
def returnVal (m : Memory) (size : Option Nat) (str1 str2 : Nat) (cmpIdx : Nat) : Exec Int :=
  if sizeLe size cmpIdx then return 0
  else do
    let c1 ← m.byteAt (str1 + cmpIdx)
    let c2 ← m.byteAt (str2 + cmpIdx)
    return (c1.toNat : Int) - c2.toNat

theorem returnVal_ends {m : Memory} {size : Option Nat} {str1 str2 : Nat} {cmpIdx : Nat}
    {exit : Trap → Prop} (needs : Needs m str1 str2 size)
    (first : FirstHit (Decides m.byte str1 str2) cmpIdx) :
    Ends (returnVal m size str1 str2 cmpIdx) (Compares m.byte str1 str2 size) exit := by
  apply Ends.ite
  · intro reached
    obtain ⟨n, bound, le⟩ := sizeLe_iff.mp reached
    exact .same bound (first.2.mono le)
  · intro inside
    have live : sizeLe size cmpIdx = false := by simpa using inside
    have rights := needs cmpIdx first.2 live
    rw [Memory.byteAt_eq rights.1, Memory.byteAt_eq rights.2]
    exact .differ first (sizeLe_false.mp live)

theorem compares_of_sizeLe {size : Option Nat} {byte : Nat → UInt8} {str1 str2 : Nat} {k : Nat}
    (reached : sizeLe size k = true) (clear : ClearBelow (Decides byte str1 str2) k) :
    Compares byte str1 str2 size 0 := by
  obtain ⟨n, bound, le⟩ := sizeLe_iff.mp reached
  exact .same bound (clear.mono le)

/-- `offset1`, `offset2` are the positions in the 64-byte line (`2 * YMM_SZ`, `ZMM_SZ`);
the larger one rules. -/
def lineOffset (str1 str2 : Nat) : Nat :=
  let offset1 := str1 % cachelineSz
  let offset2 := str2 % cachelineSz
  if offset1 ≥ offset2 then offset1 else offset2

theorem lineOffset_bounds (str1 str2 : Nat) :
    str1 % 64 ≤ lineOffset str1 str2 ∧ str2 % 64 ≤ lineOffset str1 str2 ∧
      lineOffset str1 str2 < 64 := by
  simp only [lineOffset, cachelineSz]
  split <;> omega

theorem lineOffset_of_same {str1 str2 : Nat} (same : str1 % 64 = str2 % 64) :
    lineOffset str1 str2 = str1 % 64 := by
  simp only [lineOffset, same, ge_iff_le, Nat.le_refl, ↓reduceIte]

theorem lineOffset_eq (str1 str2 : Nat) :
    lineOffset str1 str2 = str1 % 64 ∨ lineOffset str1 str2 = str2 % 64 := by
  simp only [lineOffset]
  split
  · exact .inl rfl
  · exact .inr rfl

/-- The test for the end of a page speaks for both strings. -/
theorem or_mod_page_le {str1 str2 : Nat} (bound : (str1 ||| str2) % 4096 ≤ 4032) :
    str1 % 4096 ≤ 4032 ∧ str2 % 4096 ≤ 4032 := by
  have split : (str1 ||| str2) % 2 ^ 12 = str1 % 2 ^ 12 ||| str2 % 2 ^ 12 := Nat.or_mod_two_pow
  have left : str1 % 2 ^ 12 ≤ str1 % 2 ^ 12 ||| str2 % 2 ^ 12 := Nat.left_le_or
  have right : str2 % 2 ^ 12 ≤ str1 % 2 ^ 12 ||| str2 % 2 ^ 12 := Nat.right_le_or
  omega

/-- Both strings are readable from a needed byte to the end of a range in its page. -/
theorem Needs.rights {m : PagedMemory} {size : Option Nat} {str1 str2 k n : Nat}
    (needs : Needs m.toMemory str1 str2 size)
    (clear : ClearBelow (Decides m.byte str1 str2) k) (live : sizeLe size k = false)
    (page1 : (str1 + k) % 4096 + n ≤ 4096) (page2 : (str2 + k) % 4096 + n ≤ 4096) :
    m.canRead (str1 + k) n = true ∧ m.canRead (str2 + k) n = true :=
  ⟨PagedMemory.canRead_of_page (needs k clear live).1 rfl page1,
    PagedMemory.canRead_of_page (needs k clear live).2 rfl page2⟩

/-- Nothing at or past the bound, and past `start`, is reached with every byte before
it equal; `head` is how far the start of a kernel checks the bound. -/
def Settled (hit : Nat → Prop) (size : Option Nat) (head start : Nat) : Prop :=
  ∀ n ∈ size, head < n → ∀ p, n ≤ p → start ≤ p → ¬ ClearBelow hit p

private theorem settled_of_firstHit {hit : Nat → Prop} {size : Option Nat} {head start idx : Nat}
    (first : FirstHit hit idx) (inside : idx < head ∨ idx < start) :
    Settled hit size head start := by
  intro n _ bound p past from_start clear
  have le := first.clear_le clear
  omega

private theorem settled_of_sizeLe {hit : Nat → Prop} {size : Option Nat} {head start k : Nat}
    (reached : sizeLe size k = true) (inside : k ≤ head) : Settled hit size head start := by
  obtain ⟨n, bound, le⟩ := sizeLe_iff.mp reached
  intro n' same above
  rw [bound, Option.mem_some_iff] at same
  omega

/-- The two ways in which the start of a kernel returns: with the first deciding byte,
or at the bound. -/
theorem returnVal_settles {m : Memory} {size : Option Nat} {str1 str2 head start idx : Nat}
    {exit : Trap → Prop} (needs : Needs m str1 str2 size)
    (first : FirstHit (Decides m.byte str1 str2) idx) (inside : idx < head ∨ idx < start) :
    Ends (returnVal m size str1 str2 idx)
      (fun value => Compares m.byte str1 str2 size value ∧
        Settled (Decides m.byte str1 str2) size head start) exit :=
  (returnVal_ends needs first).imp fun _ compares => ⟨compares, settled_of_firstHit first inside⟩

theorem compares_settles {byte : Nat → UInt8} {size : Option Nat} {str1 str2 head start k : Nat}
    (reached : sizeLe size k = true) (inside : k ≤ head)
    (clear : ClearBelow (Decides byte str1 str2) k) :
    Compares byte str1 str2 size 0 ∧ Settled (Decides byte str1 str2) size head start :=
  ⟨compares_of_sizeLe reached clear, settled_of_sizeLe reached inside⟩

end AoclLibmem.Strings
