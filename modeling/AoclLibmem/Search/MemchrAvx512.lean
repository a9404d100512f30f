import AoclLibmem.Search.MemchrSpec

/-! `memchr_avx512.c`, in the default build and with `ALMEM_STRICT_BOUNDS`. Of four vectors
each mask adds the matches of its vector to those before. -/

namespace AoclLibmem.Search

open Base Machine Strings

section Kernel
variable (m : Memory) (ch : UInt8) (mem size : Nat)

/-- `_mm512_cmpeq_epu8_mask(z0, z1)` for the vector at an address. -/
def matchZmm (load : Nat → Exec (Lanes 64)) (addr : Nat) : Exec (BitVec 64) := do
  let z1 ← load addr
  return cmpeqEpu8Mask (set1 ch) z1

/-- The first of four vectors with a match, from masks that grow from vector to vector. -/
def pickZmm (match0 match1 match2 match3 : BitVec 64) (at1 at2 at3 at4 : Nat) : Option Nat :=
  if match3 ≠ 0#64 then
    if match0 ≠ 0#64 then some (at1 + tzcnt match0)
    else if match1 ≠ 0#64 then some (at2 + tzcnt match1)
    else if match2 ≠ 0#64 then some (at3 + tzcnt match2)
    else some (at4 + tzcnt match3)
  else none

def fourZmm (load : Nat → Exec (Lanes 64)) (at1 at2 at3 at4 : Nat) : Exec (Option Nat) := do
  let z1 ← load (mem + at1)
  let z2 ← load (mem + at2)
  let z3 ← load (mem + at3)
  let z4 ← load (mem + at4)
  let match0 := cmpeqEpu8Mask (set1 ch) z1
  let match1 := match0 ||| cmpeqEpu8Mask (set1 ch) z2
  let match2 := match1 ||| cmpeqEpu8Mask (set1 ch) z3
  let match3 := match2 ||| cmpeqEpu8Mask (set1 ch) z4
  return pickZmm match0 match1 match2 match3 at1 at2 at3 at4

/-- `size <= ZMM_SZ`: one vector where it stays in the page of its first byte, else, and always
with `ALMEM_STRICT_BOUNDS`, a masked one. -/
def memchrLeZmm (strict : Bool) : Exec (Option Nat) := do
  if strict = false ∧ mem % pageSz ≤ pageSz - zmmSz then
    let index := tzcnt (← matchZmm ch (m.loadu 64) mem)
    if size ≤ index then return none else return some index
  else
    let mask := bzhiOnes (size % 2 ^ 8)
    let found := (← matchZmm ch (m.maskLoadu setzero mask) mem) &&& mask
    return foundAt found 0

def memchrGtZmm : Exec (Option Nat) := do
  if size ≤ 2 * zmmSz then
    orScan (foundAt (← matchZmm ch (m.loadu 64) mem) 0) do
      let index := size - zmmSz
      return foundAt (← matchZmm ch (m.loadu 64) (mem + index)) index
  else fourLarge (fourZmm ch mem) m mem size

end Kernel

/-- `_memchr_avx512`; `strict` is `ALMEM_STRICT_BOUNDS`. -/
def memchrAvx512 (strict : Bool) (m : Memory) (mem : Nat) (val : Int) (size : Nat) :
    Exec (Option Nat) := do
  if size = 0 then return none
  else
    let ch := charOfInt val
    let index ← if size ≤ zmmSz then memchrLeZmm m ch mem size strict else memchrGtZmm m ch mem size
    return index.map (mem + ·)

section Four
variable {m : Memory} {ch : UInt8} {mem : Nat} {exit : Trap → Prop}

theorem marks_zmm (m : Memory) (ch : UInt8) (mem place : Nat) :
    Marks (cmpeqEpu8Mask (set1 ch) (m.lanes 64 (mem + place)))
      fun i => Matches m.byte mem ch (place + i) :=
  marks_of_lanes fun i => by
    rw [getLsbD_cmpeqEpu8Mask, beq_iff_eq, Memory.lanes_apply, set1, Matches, Nat.add_assoc]
    exact eq_comm

/-- What the masks take over from the vectors before does not change the choice. -/
private theorem pickZmm_eq {word1 word2 word3 word4 : BitVec 64} {at1 at2 at3 at4 : Nat} :
    pickZmm word1 (word1 ||| word2) (word1 ||| word2 ||| word3) (word1 ||| word2 ||| word3 ||| word4)
      at1 at2 at3 at4 =
      (foundAt word1 at1).or ((foundAt word2 at2).or ((foundAt word3 at3).or (foundAt word4 at4))) := by
  unfold pickZmm foundAt
  by_cases in1 : word1 = 0#64
  · by_cases in2 : word2 = 0#64
    · by_cases in3 : word3 = 0#64
      · by_cases in4 : word4 = 0#64
        · simp [in1, in2, in3, in4]
        · simp [in1, in2, in3, in4]
      · simp [in1, in2, in3, BitVec.or_eq_zero_iff]
    · simp [in1, in2, BitVec.or_eq_zero_iff]
  · simp [in1, BitVec.or_eq_zero_iff]

theorem fourZmm_reports : ReportsFour (Matches m.byte mem ch) m mem exit (fourZmm ch mem) := by
  intro load at1 at2 at3 reads clear near2 near3 inside1 inside2
  rw [fourZmm, reads at1 (by simp), reads at2 (by simp), reads at3 (by simp), reads (at3 + 64) (by simp)]
  simp only [ok_bind, ends_pure]
  rw [pickZmm_eq]
  refine reports_or (reports_block (marks_zmm m ch mem at1).finds clear (Nat.le_refl _)) (by omega) ?_
  intro clear1
  refine reports_or (reports_block (marks_zmm m ch mem at2).finds clear1 near2) (by omega) ?_
  intro clear2
  refine reports_or (reports_block (marks_zmm m ch mem at3).finds clear2 near3) (by omega) ?_
  intro clear3
  have last := reports_block (marks_zmm m ch mem (at3 + 64)).finds clear3 (Nat.le_refl _)
  rwa [Nat.add_assoc] at last

end Four

section Stages
variable {m : Memory} {ch : UInt8} {mem size : Nat} {exit : Trap → Prop}

theorem matchZmm_eq {load : Nat → Exec (Lanes 64)} {addr : Nat}
    (read : load addr = .ok (m.lanes 64 addr)) :
    matchZmm ch load addr = .ok (cmpeqEpu8Mask (set1 ch) (m.lanes 64 addr)) := by
  rw [matchZmm, read]
  rfl

theorem memchrGtZmm_ends (whole : m.canRead mem size = true) (range : size < sizeRange)
    (large : 64 < size) :
    Ends (memchrGtZmm m ch mem size) (Reports size (Matches m.byte mem ch)) exit := by
  simp only [memchrGtZmm, zmmSz]
  apply Ends.ite
  · intro le128
    have first := reports_block (marks_zmm m ch mem 0).finds clearBelow_zero (Nat.le_refl 0)
    have read : m.loadu 64 mem = .ok (m.lanes 64 mem) := loadu_inside whole (k := 0) (by omega)
    rw [matchZmm_eq read]
    refine orScan_ends first (by omega) fun clear => ?_
    have last := reports_block (marks_zmm m ch mem (size - 64)).finds clear (by omega)
    rw [Nat.sub_add_cancel (by omega)] at last
    rw [matchZmm_eq (loadu_inside whole (by omega))]
    exact last
  · exact fun from129 => fourLarge_ends fourZmm_reports (by decide) whole range (Nat.not_le.mp from129)

/-- The masked load leaves zeros in the other lanes: a search for 0 matches there too, and the
mask takes these matches away. -/
private theorem memchrMasked_ends (whole : m.canRead mem size = true) (small : size ≤ 64) :
    Ends (do
      let found := (← matchZmm ch (m.maskLoadu setzero (bzhiOnes (size % 2 ^ 8))) mem) &&&
        bzhiOnes (size % 2 ^ 8)
      return foundAt found 0) (Reports size (Matches m.byte mem ch)) exit := by
  have lanes (i : Nat) (below : i < 64) :
      (bzhiOnes (size % 2 ^ 8) : BitVec 64).getLsbD i = decide (i < size) := by
    rw [getLsbD_bzhiOnes below, decide_eq_decide]
    omega
  have active : ∀ i < 64, (bzhiOnes (size % 2 ^ 8) : BitVec 64).getLsbD i = true →
      m.readable (mem + i) = true := by
    intro i below set
    rw [lanes i below, decide_eq_true_eq] at set
    exact Memory.canRead_iff.mp whole i set
  rw [matchZmm, Memory.maskLoadu_eq active]
  simp only [ok_bind]
  have marks : Marks (cmpeqEpu8Mask (set1 ch)
      (fun i : Fin 64 => if (bzhiOnes (size % 2 ^ 8) : BitVec 64).getLsbD i then m.byte (mem + i)
        else setzero i) &&& bzhiOnes (size % 2 ^ 8))
      fun i => i < size ∧ Matches m.byte mem ch (0 + i) := by
    apply marks_of_lanes
    intro i
    rw [BitVec.getLsbD_and, getLsbD_cmpeqEpu8Mask, lanes i i.isLt, Bool.and_eq_true, beq_iff_eq,
      and_comm]
    simp only [decide_eq_true_eq]
    refine and_congr_right fun inside => ?_
    rw [if_pos inside, set1, Matches, Nat.zero_add]
    exact eq_comm
  have only := reports_foundAt marks.finds clearBelow_zero small
  rw [Nat.zero_add] at only
  exact only

end Stages

/-- The count of trailing zeros is compared with the size, also where there is no match. -/
private theorem index_ends {hit : Nat → Prop} {word : BitVec 64} {size : Nat} {exit : Trap → Prop}
    (finds : Finds word fun i => hit (0 + i)) (small : size ≤ 64) :
    Ends (if size ≤ tzcnt word then pure none else pure (some (tzcnt word))) (Reports size hit)
      exit := by
  have start : ClearBelow hit 0 := clearBelow_zero
  apply Ends.ite
  · intro outside
    by_cases zero : word = 0#64
    · exact .clear ((finds.clear start zero).mono (by omega))
    · exact .clear ((finds.firstHit start zero).2.mono (by omega))
  · intro inside
    have nonzero : word ≠ 0#64 := by
      intro zero
      have full := tzcnt_eq_width_iff.mpr zero
      omega
    exact reports_found (finds.firstHit start nonzero) (by omega)

section Small
variable {ch : UInt8} {mem size : Nat} {exit : Trap → Prop}

theorem memchrLeZmm_strict_ends {m : Memory} (whole : m.canRead mem size = true)
    (small : size ≤ 64) :
    Ends (memchrLeZmm m ch mem size true) (Reports size (Matches m.byte mem ch)) exit := by
  rw [memchrLeZmm, if_neg (by simp)]
  exact memchrMasked_ends whole small

theorem memchrLeZmm_default_ends {m : PagedMemory} (whole : m.canRead mem size = true)
    (small : size ≤ 64) (some : size ≠ 0) :
    Ends (memchrLeZmm m.toMemory ch mem size false) (Reports size (Matches m.byte mem ch)) exit := by
  have start : ClearBelow (Matches m.byte mem ch) 0 := clearBelow_zero
  have first : m.readable mem = true :=
    Memory.canRead_iff.mp whole 0 (Nat.pos_of_ne_zero some)
  simp only [memchrLeZmm, true_and, pageSz, zmmSz]
  refine ends_ite.mpr ⟨fun inner => ?_, fun edge => memchrMasked_ends whole small⟩
  rw [matchZmm_eq (Memory.loadu_eq (PagedMemory.canRead_of_page first rfl (by omega)))]
  exact index_ends (marks_zmm m.toMemory ch mem 0).finds small

end Small

/-- `_memchr_avx512` finds the first match in both builds: the default build in every memory
that maps the pages of the buffer, the strict one in every memory that maps its bytes. -/
theorem memchrAvx512_finds (mem : Nat) (val : Int) (size : Nat) (range : size < sizeRange) :
    (∀ m : PagedMemory, m.canRead mem size = true →
      ∃ result, memchrAvx512 false m.toMemory mem val size = .ok result ∧
        FindsChar m.byte mem size (charOfInt val) result) ∧
    ∀ m : Memory, m.canRead mem size = true →
      ∃ result, memchrAvx512 true m mem val size = .ok result ∧
        FindsChar m.byte mem size (charOfInt val) result := by
  by_cases none : size = 0
  · subst none
    constructor
    · intro m _
      exact ⟨_, rfl, .absent clearBelow_zero⟩
    · intro m _
      exact ⟨_, rfl, .absent clearBelow_zero⟩
  · constructor
    · intro m whole
      rw [memchrAvx512, if_neg none]
      by_cases small : size ≤ 64
      · simp only [zmmSz, if_pos small]
        exact returns_char (memchrLeZmm_default_ends whole small none)
      · simp only [zmmSz, if_neg small]
        exact returns_char (memchrGtZmm_ends whole range (Nat.not_le.mp small))
    · intro m whole
      rw [memchrAvx512, if_neg none]
      by_cases small : size ≤ 64
      · simp only [zmmSz, if_pos small]
        exact returns_char (memchrLeZmm_strict_ends whole small)
      · simp only [zmmSz, if_neg small]
        exact returns_char (memchrGtZmm_ends whole range (Nat.not_le.mp small))

theorem memchrAvx512_finds_pageEnd :
    (∃ result, memchrAvx512 false (onlyPages UInt8.ofNat 4090 70).toMemory 4090 0 70 = .ok result ∧
      FindsChar UInt8.ofNat 4090 70 (charOfInt 0) result) ∧
    ∃ result, memchrAvx512 true (onlyBuffer UInt8.ofNat 4090 70) 4090 0 70 = .ok result ∧
      FindsChar UInt8.ofNat 4090 70 (charOfInt 0) result := by
  obtain ⟨default, strict⟩ := memchrAvx512_finds 4090 0 70 (by rw [sizeRange_eq]; decide)
  constructor
  · exact default (onlyPages UInt8.ofNat 4090 70) onlyPages_canRead
  · exact strict (onlyBuffer UInt8.ofNat 4090 70) onlyBuffer_canRead

end AoclLibmem.Search
