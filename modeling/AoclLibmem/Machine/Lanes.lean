import AoclLibmem.Machine.Memory
import AoclLibmem.Base.BitScan

/-! The byte-lane intrinsics, with their documented lane-wise meaning. A vector
mask is a register whose lanes are `0xFF` or `0`; an AVX512 mask is a word. -/

namespace AoclLibmem.Machine

open Base

section Intrinsics
variable {n : Nat}

def ofLanes (p : Fin n → Bool) : BitVec n := (BitVec.ofBoolListLE (List.ofFn p)).setWidth n

def setzero : Lanes n := fun _ => 0

def set1 (b : UInt8) : Lanes n := fun _ => b

/-- The lane a vector comparison writes. -/
def full (p : Bool) : UInt8 := if p then 0xFF else 0

def cmpeqEpi8 (a b : Lanes n) : Lanes n := fun i => full (a i == b i)

def andSi (a b : Lanes n) : Lanes n := fun i => a i &&& b i

/-- `_mm*_andnot_si*`: the first operand is complemented. -/
def andnotSi (a b : Lanes n) : Lanes n := fun i => ~~~a i &&& b i

def orSi (a b : Lanes n) : Lanes n := fun i => a i ||| b i

def xorSi (a b : Lanes n) : Lanes n := fun i => a i ^^^ b i

def minEpu8 (a b : Lanes n) : Lanes n := fun i => if a i ≤ b i then a i else b i

/-- `_mm*_movemask_epi8`: the top bit of every lane. -/
def movemaskEpi8 (a : Lanes n) : BitVec n := ofLanes fun i => decide (0x80 ≤ a i)

def cmpeqEpu8Mask (a b : Lanes n) : BitVec n := ofLanes fun i => a i == b i

def cmpneqEpu8Mask (a b : Lanes n) : BitVec n := ofLanes fun i => a i != b i

/-- `_mm512_mask_cmpneq_epu8_mask`: bits outside `k` are zero. -/
def maskCmpneqEpu8Mask (k : BitVec n) (a b : Lanes n) : BitVec n := k &&& cmpneqEpu8Mask a b

/-- `_mm512_maskz_min_epu8`: lanes outside `k` are zero. -/
def maskzMinEpu8 (k : BitVec n) (a b : Lanes n) : Lanes n :=
  fun i => if k.getLsbD i then minEpu8 a b i else 0

/-- `_mm512_maskz_mov_epi8`: lanes outside `k` are zero. -/
def maskzMovEpi8 (k : BitVec n) (a : Lanes n) : Lanes n := fun i => if k.getLsbD i then a i else 0

def testnEpi8Mask (a b : Lanes n) : BitVec n := ofLanes fun i => a i &&& b i == 0

def testEpi8Mask (a b : Lanes n) : BitVec n := ofLanes fun i => a i &&& b i != 0

/-- `_mm512_mask_test_epi8_mask`: bits of `k` whose lanes have a common bit. -/
def maskTestEpi8Mask (k : BitVec n) (a b : Lanes n) : BitVec n :=
  k &&& ofLanes fun i => a i &&& b i != 0

/-- `_tzcnt_u32`, `_tzcnt_u64`: the operand size for zero. -/
def tzcnt (x : BitVec n) : Nat := x.ctz.toNat

/-- `_blsr_u32`, `_blsr_u64`. -/
def blsr (x : BitVec n) : BitVec n := x &&& (x - 1#n)

/-- `_bzhi_u64((uint64_t)-1, k)`, the index taken modulo 256. -/
def bzhiOnes (k : Nat) : BitVec n := ofLanes fun i => decide (i.val < k % 256)

/-- `_bzhi_u32`, `_bzhi_u64`: the bits from index `k` on are cleared. -/
def bzhi (x : BitVec n) (k : Nat) : BitVec n := x &&& bzhiOnes k

/-- `UINT64_MAX >> k` as a lane mask: all lanes but the last `k`. -/
def headMask (k : Nat) : BitVec n := BitVec.allOnes n >>> k

end Intrinsics

section Lanes
variable {n : Nat} {a b : Lanes n} {k : BitVec n}


theorem full_and (p q : Bool) : full p &&& full q = full (p && q) := by
  cases p <;> cases q <;> rfl

theorem full_or (p q : Bool) : full p ||| full q = full (p || q) := by
  cases p <;> cases q <;> rfl

theorem full_not_and (p q : Bool) : ~~~full p &&& full q = full (!p && q) := by
  cases p <;> cases q <;> rfl

theorem full_top (p : Bool) : decide (0x80 ≤ full p) = p := by
  cases p <;> rfl

theorem xor_eq_zero_iff (x y : UInt8) : x ^^^ y = 0 ↔ x = y := UInt8.xor_eq_zero_iff

theorem minEpu8_eq_zero (i : Fin n) : minEpu8 a b i = 0 ↔ a i = 0 ∨ b i = 0 := by
  unfold minEpu8
  split <;> rename_i le <;> simp only [UInt8.le_iff_toNat_le, ← UInt8.toNat_inj] at * <;>
    simp only [UInt8.toNat_zero] at * <;> omega

theorem getLsbD_ofLanes (p : Fin n → Bool) (i : Fin n) :
    (ofLanes p).getLsbD i = p i := by
  rw [ofLanes, BitVec.getLsbD_setWidth, BitVec.getLsbD_ofBoolListLE]
  simp [List.getD_eq_getElem?_getD]

theorem getLsbD_movemask_full {i : Fin n} {p : Bool} (lane : a i = full p) :
    (movemaskEpi8 a).getLsbD i = p := by
  simp only [movemaskEpi8, getLsbD_ofLanes, lane, full_top]

theorem movemaskEpi8_orSi : movemaskEpi8 (orSi a b) = movemaskEpi8 a ||| movemaskEpi8 b := by
  have top (x : UInt8) : decide (0x80 ≤ x) = x.toBitVec.msb := by
    rw [BitVec.msb_eq_decide]
    rfl
  apply BitVec.eq_of_getLsbD_eq
  intro i below
  have bit (c : Lanes n) : (movemaskEpi8 c).getLsbD i = decide (0x80 ≤ c ⟨i, below⟩) :=
    getLsbD_ofLanes _ ⟨i, below⟩
  rw [BitVec.getLsbD_or, bit, bit, bit, top, top, top, orSi, UInt8.toBitVec_or, BitVec.msb_or]

theorem getLsbD_movemask_cmpeq (i : Fin n) :
    (movemaskEpi8 (cmpeqEpi8 a b)).getLsbD i = (a i == b i) :=
  getLsbD_movemask_full rfl

theorem getLsbD_cmpeqEpu8Mask (i : Fin n) : (cmpeqEpu8Mask a b).getLsbD i = (a i == b i) :=
  getLsbD_ofLanes _ i

theorem getLsbD_cmpneqEpu8Mask (i : Fin n) : (cmpneqEpu8Mask a b).getLsbD i = (a i != b i) :=
  getLsbD_ofLanes _ i

theorem getLsbD_testnEpi8Mask (i : Fin n) :
    (testnEpi8Mask a b).getLsbD i = (a i &&& b i == 0) :=
  getLsbD_ofLanes _ i

theorem getLsbD_testEpi8Mask (i : Fin n) : (testEpi8Mask a b).getLsbD i = (a i &&& b i != 0) :=
  getLsbD_ofLanes _ i

/-- The lane is zero where the registers differ or both hold a zero. -/
theorem maskzMovEpi8_cmpeq_eq_zero (i : Fin n) :
    maskzMovEpi8 (cmpeqEpu8Mask a b) a i = 0 ↔ a i ≠ b i ∨ a i = 0 := by
  rw [maskzMovEpi8, getLsbD_cmpeqEpu8Mask]
  by_cases same : a i = b i
  · simp [same]
  · simp [same]

theorem getLsbD_maskTestEpi8Mask (i : Fin n) :
    (maskTestEpi8Mask k a b).getLsbD i = (k.getLsbD i && (a i &&& b i != 0)) := by
  rw [maskTestEpi8Mask, BitVec.getLsbD_and, getLsbD_ofLanes]

theorem getLsbD_maskCmpneqEpu8Mask (i : Fin n) :
    (maskCmpneqEpu8Mask k a b).getLsbD i = (k.getLsbD i && (a i != b i)) := by
  rw [maskCmpneqEpu8Mask, BitVec.getLsbD_and, getLsbD_cmpneqEpu8Mask]

theorem getLsbD_bzhiOnes {i k : Nat} (below : i < n) :
    (bzhiOnes k : BitVec n).getLsbD i = decide (i < k % 256) := by
  exact getLsbD_ofLanes (fun i : Fin n => decide (i.val < k % 256)) ⟨i, below⟩

theorem getLsbD_bzhi {x : BitVec n} {i k : Nat} (below : i < n) :
    (bzhi x k).getLsbD i = (x.getLsbD i && decide (i < k % 256)) := by
  rw [bzhi, BitVec.getLsbD_and, getLsbD_bzhiOnes below]

theorem getLsbD_headMask {i k : Nat} :
    (headMask k : BitVec n).getLsbD i = decide (k + i < n) := by
  simp [headMask]

end Lanes

/-- The word marks the lanes satisfying `hit`, and no others. -/
def Marks {n : Nat} (word : BitVec n) (hit : Nat → Prop) : Prop :=
  ∀ i < n, word.getLsbD i = true ↔ hit i

section Marks
variable {n : Nat} {word other : BitVec n} {hit : Nat → Prop}

theorem marks_of_lanes (lane : ∀ i : Fin n, word.getLsbD i = true ↔ hit i) : Marks word hit :=
  fun i below => lane ⟨i, below⟩

theorem Marks.none_iff (marks : Marks word hit) : word = 0#n ↔ ∀ i < n, ¬ hit i := by
  rw [eq_zero_iff_getLsbD]
  exact forall₂_congr fun i below => by rw [← marks i below, Bool.not_eq_true]

theorem tzcnt_lt (nonzero : word ≠ 0#n) : tzcnt word < n := ctz_lt_width nonzero

/-- The count of trailing zeros is the first marked lane. -/
theorem Marks.first (marks : Marks word hit) (nonzero : word ≠ 0#n) :
    hit (tzcnt word) ∧ ∀ i < tzcnt word, ¬ hit i := by
  refine ⟨(marks _ (ctz_lt_width nonzero)).mp (BitVec.getLsbD_true_ctz_of_ne_zero nonzero), ?_⟩
  intro i less found
  have inside : i < n := Nat.lt_trans less (ctz_lt_width nonzero)
  have clear := BitVec.getLsbD_false_of_lt_ctz less
  rw [(marks i inside).mpr found] at clear
  exact Bool.noConfusion clear

theorem Marks.congr {second : Nat → Prop} (marks : Marks word hit)
    (same : ∀ i < n, hit i ↔ second i) : Marks word second :=
  fun i below => (marks i below).trans (same i below)

/-- The word is zero when no lane is a hit, else its lowest bit is the first hit.
The bits above it are free. -/
structure Finds {n : Nat} (word : BitVec n) (hit : Nat → Prop) : Prop where
  none : word = 0#n → ∀ i < n, ¬ hit i
  first : word ≠ 0#n → hit (tzcnt word) ∧ ∀ i < tzcnt word, ¬ hit i

theorem Marks.finds (marks : Marks word hit) : Finds word hit :=
  ⟨fun zero => marks.none_iff.mp zero, fun nonzero => marks.first nonzero⟩

theorem Finds.congr {second : Nat → Prop} (finds : Finds word hit) (same : ∀ i, hit i ↔ second i) :
    Finds word second := by
  rwa [← show hit = second from funext fun i => propext (same i)]

theorem Marks.blsr (marks : Marks word hit) :
    Marks (blsr word) (fun i => hit i ∧ i ≠ tzcnt word) := by
  intro i below
  rw [Machine.blsr, getLsbD_and_sub_one below, Bool.and_eq_true, marks i below, decide_eq_true_eq,
    tzcnt]

theorem Marks.bzhi (marks : Marks word hit) {k : Nat} (small : k < 256) :
    Marks (bzhi word k) (fun i => i < k ∧ hit i) := by
  intro i below
  rw [getLsbD_bzhi below, Nat.mod_eq_of_lt small, Bool.and_eq_true, marks i below,
    decide_eq_true_eq, and_comm]

theorem Marks.ushiftRight (marks : Marks word hit) (k : Nat) :
    Marks (word >>> k) (fun i => k + i < n ∧ hit (k + i)) := by
  intro i below
  rw [BitVec.getLsbD_ushiftRight]
  by_cases inside : k + i < n
  · rw [marks _ inside]
    exact (and_iff_right inside).symm
  · simp [BitVec.getLsbD_of_ge _ _ (Nat.not_lt.mp inside), inside]

/-- The arithmetic shift fills with the last lane. -/
theorem Marks.sshiftRight (marks : Marks word hit) (k : Nat) :
    Marks (word.sshiftRight k) (fun i => if k + i < n then hit (k + i) else hit (n - 1)) := by
  intro i below
  rw [BitVec.getLsbD_sshiftRight, decide_eq_false (Nat.not_le.mpr below), Bool.not_false,
    Bool.true_and]
  dsimp only
  split
  · exact marks _ ‹_›
  · rw [BitVec.msb_eq_getLsbD_last]
    exact marks _ (by omega)

/-- The copies of the last lane stand above it, so the first hit is still found. -/
theorem Marks.finds_sshiftRight (marks : Marks word hit) {k : Nat} (less : k < n) :
    Finds (word.sshiftRight k) (fun i => i < n - k ∧ hit (k + i)) := by
  have shifted := marks.sshiftRight k
  refine ⟨fun zero i below found => ?_, fun nonzero => ?_⟩
  · refine shifted.none_iff.mp zero i below ?_
    rw [if_pos (by omega)]
    exact found.2
  · obtain ⟨found, before⟩ := shifted.first nonzero
    have inside : k + tzcnt (word.sshiftRight k) < n := by
      by_contra outside
      rw [if_neg outside] at found
      refine before (n - 1 - k) (by omega) ?_
      rwa [if_pos (by omega), show k + (n - 1 - k) = n - 1 by omega]
    rw [if_pos inside] at found
    refine ⟨⟨by omega, found⟩, fun i lower here => before i lower ?_⟩
    rw [if_pos (by omega)]
    exact here.2

end Marks

end AoclLibmem.Machine
