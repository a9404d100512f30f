import AoclLibmem.Machine.Lanes
import AoclLibmem.Base.FirstHit

/-! The first lane in which two registers differ, in the ways the comparison kernels find
it: from the mask of equal lanes by a carry, from the mask of unequal ones, from an xor. -/

namespace AoclLibmem.Machine

open Base

section Kernel
variable {n : Nat}

/-- The value of `_mm*_movemask_epi8` for `n` equal lanes: `(uint16_t)-1`, `(int32_t)-1`. -/
def allLanes (n : Nat) : BitVec 32 := (BitVec.allOnes n).setWidth 32

/-- `_mm*_movemask_epi8(_mm*_cmpeq_epi8(a, b)) + 1` and the count of its trailing zeros, for
vectors of 32 bytes. -/
def unequalYmm (a b : Lanes 32) : Option Nat :=
  let ret := movemaskEpi8 (cmpeqEpi8 a b) + 1#32
  if ret ≠ 0#32 then some (tzcnt ret) else none

/-- `0xffff - _mm_movemask_epi8(_mm_cmpeq_epi8(a, b))`. -/
def unequalXmm (a b : Lanes 16) : Option Nat :=
  let ret := 0xffff#32 - (movemaskEpi8 (cmpeqEpi8 a b)).setWidth 32
  if ret ≠ 0#32 then some (tzcnt ret) else none

/-- `_mm512_cmpneq_epu8_mask`. -/
def unequalZmm (a b : Lanes 64) : Option Nat :=
  let mask := cmpneqEpu8Mask a b
  if mask ≠ 0#64 then some (tzcnt mask) else none

/-- Two pairs of vectors under one test: `_tzcnt_u32(ret1 + 1)` plus the place of the first
pair, or `_tzcnt_u32(ret + 1)` plus that of the second. -/
def unequalPair (a b c d : Lanes n) (place1 place2 : Nat) : Option Nat :=
  let y0 := cmpeqEpi8 a b
  let y1 := cmpeqEpi8 c d
  let ret := (movemaskEpi8 (andSi y0 y1)).setWidth 32
  if ret ≠ allLanes n then
    let ret1 := (movemaskEpi8 y0).setWidth 32
    if ret1 ≠ allLanes n then some (tzcnt (ret1 + 1#32) + place1)
    else some (tzcnt (ret + 1#32) + place2)
  else none

/-- A little-endian scalar of `n` bytes. -/
def scalar (a : Lanes n) : BitVec (8 * n) :=
  ofLanes fun k => (a ⟨k / 8, by have below := k.isLt; omega⟩).toBitVec.getLsbD (k % 8)

/-- The xor of two scalars in a register of `w` bits. -/
def scalarXor (w : Nat) (a b : Lanes n) : BitVec w := (scalar a ^^^ scalar b).setWidth w

end Kernel

/-- The first hit among `n` lanes, if there is one. -/
inductive Reports (n : Nat) (hit : Nat → Prop) : Option Nat → Prop where
  | clear (all : ∀ i < n, ¬ hit i) : Reports n hit none
  | first {lane : Nat} (below : lane < n) (found : hit lane) (before : ∀ i < lane, ¬ hit i) :
      Reports n hit (some lane)

def Unlike {n : Nat} (a b : Lanes n) (i : Nat) : Prop := ∃ below : i < n, a ⟨i, below⟩ ≠ b ⟨i, below⟩

section Reports
variable {n w : Nat} {hit second : Nat → Prop} {report : Option Nat}

theorem Reports.congr (reports : Reports n hit report) (same : ∀ i < n, hit i ↔ second i) :
    Reports n second report := by
  cases reports with
  | clear all => exact .clear fun i below found => all i below ((same i below).mpr found)
  | first below found before =>
    exact .first below ((same _ below).mp found) fun i less here =>
      before i less ((same i (by omega)).mpr here)

theorem Reports.of_none (reports : Reports n hit none) : ∀ i < n, ¬ hit i := by
  cases reports
  assumption

theorem Reports.of_some {lane : Nat} (reports : Reports n hit (some lane)) :
    lane < n ∧ hit lane ∧ ∀ i < lane, ¬ hit i := by
  cases reports with
  | first below found before => exact ⟨below, found, before⟩

private theorem reports_of_finds {word : BitVec w} (finds : Finds word hit)
    (inside : ∀ i, hit i → i < n)
    (narrow : n ≤ w) : Reports n hit (if word ≠ 0#w then some (tzcnt word) else none) := by
  split
  · rename_i nonzero
    obtain ⟨found, before⟩ := finds.first nonzero
    exact .first (inside _ found) found before
  · rename_i zero
    exact .clear fun i below => finds.none (not_not.mp zero) i (by omega)

end Reports

section Carry
variable {w k : Nat} {x : BitVec w}

/-- The carry of `x + 1` stops at the lowest clear bit. -/
theorem tzcnt_add_one (inside : k < w) (clear : x.getLsbD k = false)
    (below : ∀ j < k, x.getLsbD j = true) : tzcnt (x + 1#w) = k := by
  refine ctz_eq_of_lowest ?_ fun j less => ?_
  · rw [getLsbD_add_one inside, clear, decide_eq_true below]
    rfl
  · rw [getLsbD_add_one (by omega), below j less,
      decide_eq_true fun i lower => below i (by omega)]
    rfl

theorem add_one_eq_zero : x + 1#w = 0#w ↔ ∀ j < w, x.getLsbD j = true := by
  constructor
  · intro zero j inside
    induction j using Nat.strong_induction_on with
    | _ j ih =>
      have bit := getLsbD_add_one (x := x) inside
      rw [zero, BitVec.getLsbD_zero, decide_eq_true fun i less => ih i less (by omega)] at bit
      simpa using bit
  · intro all
    rw [eq_zero_iff_getLsbD]
    intro i inside
    rw [getLsbD_add_one inside, all i inside, decide_eq_true fun j less => all j (by omega)]
    rfl

end Carry

section EqualMask
variable {n : Nat} {same : Nat → Prop} {x : BitVec 32}

/-- The word marks the equal lanes among the first `n`. -/
def MarksEqual (x : BitVec 32) (n : Nat) (same : Nat → Prop) : Prop :=
  ∀ i, x.getLsbD i = true ↔ i < n ∧ same i

theorem getLsbD_allLanes {i : Nat} (narrow : n ≤ 32) : (allLanes n).getLsbD i = decide (i < n) := by
  rw [allLanes, BitVec.getLsbD_setWidth, BitVec.getLsbD_allOnes]
  by_cases below : i < n
  · simp [below, show i < 32 by omega]
  · simp [below]

theorem MarksEqual.all_iff (marks : MarksEqual x n same) (narrow : n ≤ 32) :
    x = allLanes n ↔ ∀ i < n, same i := by
  constructor
  · intro equal i below
    have bit := marks i
    rw [equal, getLsbD_allLanes narrow, decide_eq_true below] at bit
    exact (bit.mp rfl).2
  · intro all
    refine BitVec.eq_of_getLsbD_eq fun i _ => ?_
    rw [Bool.eq_iff_iff, marks i, getLsbD_allLanes narrow, decide_eq_true_iff]
    exact and_iff_left_of_imp (all i)

/-- Adding one to the mask carries to the first unequal lane. -/
theorem MarksEqual.reports (marks : MarksEqual x n same) (narrow : n ≤ 32) (unequal : x ≠ allLanes n) :
    Reports n (fun i => ¬ same i) (some (tzcnt (x + 1#32))) := by
  rw [ne_eq, marks.all_iff narrow] at unequal
  rcases clear_or_firstHit (fun i => ¬ same i) n with clear | ⟨k, below, hit, before⟩
  · exact absurd (fun i below => not_not.mp (clear i below)) unequal
  · have off : x.getLsbD k = false := by
      rw [← Bool.not_eq_true, marks k]
      exact fun on => hit on.2
    have carry := tzcnt_add_one (by omega) off fun j less =>
      (marks j).mpr ⟨by omega, not_not.mp (before j less)⟩
    rw [carry]
    exact .first below hit before

theorem marksEqual_movemask {a : Lanes n} {p : Fin n → Bool} (lanes : ∀ i, a i = full (p i))
    (narrow : n ≤ 32) :
    MarksEqual ((movemaskEpi8 a).setWidth 32) n fun i => ∃ below, p ⟨i, below⟩ = true := by
  intro i
  rw [BitVec.getLsbD_setWidth, Bool.and_eq_true, decide_eq_true_iff]
  by_cases below : i < n
  · have bit := getLsbD_movemask_full (lanes ⟨i, below⟩)
    rw [bit]
    exact ⟨fun on => ⟨below, below, on.2⟩, fun ⟨_, _, on⟩ => ⟨by omega, on⟩⟩
  · rw [BitVec.getLsbD_of_ge _ _ (Nat.not_lt.mp below)]
    simp [below]

end EqualMask

section Unequal
variable {n : Nat} {a b c d : Lanes n}

theorem unlike_fin {i : Fin n} : Unlike a b i ↔ a i ≠ b i :=
  ⟨fun differ => differ.2, fun differ => ⟨i.isLt, differ⟩⟩

theorem unequalYmm_reports (a b : Lanes 32) : Reports 32 (Unlike a b) (unequalYmm a b) := by
  have marks := marksEqual_movemask (a := cmpeqEpi8 a b) (fun _ => rfl) (Nat.le_refl 32)
  rw [BitVec.setWidth_eq] at marks
  rw [unequalYmm]
  split
  · rename_i nonzero
    refine (marks.reports (Nat.le_refl 32) fun all => nonzero ?_).congr fun i below => ?_
    · exact add_one_eq_zero.mpr fun j inside =>
        (marks j).mpr ⟨inside, (marks.all_iff (Nat.le_refl 32)).mp all j inside⟩
    · simp [Unlike, below]
  · rename_i zero
    refine .clear ?_
    rintro i below ⟨_, differ⟩
    obtain ⟨_, _, equal⟩ := (marks i).mp (add_one_eq_zero.mp (not_not.mp zero) i below)
    exact differ (by simpa using equal)

theorem unequalZmm_reports (a b : Lanes 64) : Reports 64 (Unlike a b) (unequalZmm a b) := by
  have marks : Marks (cmpneqEpu8Mask a b) (Unlike a b) := by
    refine marks_of_lanes fun i => ?_
    rw [getLsbD_cmpneqEpu8Mask, bne_iff_ne, unlike_fin]
  exact reports_of_finds marks.finds (fun i differ => differ.1) (Nat.le_refl 64)

/-- Below 16 bits the subtraction complements the mask. -/
private theorem sub_mask_eq (x : BitVec 16) : 0xffff#32 - x.setWidth 32 = (~~~x).setWidth 32 := by
  have bound := x.isLt
  apply BitVec.eq_of_toNat_eq
  rw [BitVec.toNat_sub, BitVec.toNat_setWidth, BitVec.toNat_setWidth, BitVec.toNat_not]
  simp only [BitVec.toNat_ofNat]
  omega

theorem unequalXmm_reports (a b : Lanes 16) : Reports 16 (Unlike a b) (unequalXmm a b) := by
  have marks : Marks ((~~~movemaskEpi8 (cmpeqEpi8 a b)).setWidth 32) (Unlike a b) := by
    intro i below
    rw [BitVec.getLsbD_setWidth, decide_eq_true below, Bool.true_and, BitVec.getLsbD_not]
    by_cases lane : i < 16
    · have bit := getLsbD_movemask_cmpeq (a := a) (b := b) ⟨i, lane⟩
      rw [decide_eq_true lane, Bool.true_and, bit, Bool.not_eq_true', beq_eq_false_iff_ne]
      exact (unlike_fin (i := ⟨i, lane⟩)).symm
    · simp [Unlike, lane]
  rw [unequalXmm, sub_mask_eq]
  exact reports_of_finds marks.finds (fun i differ => differ.1) (by decide)

/-- The first pair is asked first, so what the second reports comes after a clear block. -/
theorem unequalPair_reports (narrow : n ≤ 32) (place1 place2 : Nat) :
    (unequalPair a b c d place1 place2 = none → (∀ i < n, ¬ Unlike a b i) ∧ ∀ i < n, ¬ Unlike c d i) ∧
    ∀ k, unequalPair a b c d place1 place2 = some k →
      (∃ lane, k = lane + place1 ∧ Reports n (Unlike a b) (some lane)) ∨
        ∃ lane, k = lane + place2 ∧ (∀ i < n, ¬ Unlike a b i) ∧ Reports n (Unlike c d) (some lane) := by
  have lanes : ∀ i, andSi (cmpeqEpi8 a b) (cmpeqEpi8 c d) i = full (a i == b i && c i == d i) :=
    fun i => full_and _ _
  have both := marksEqual_movemask lanes narrow
  have first := marksEqual_movemask (a := cmpeqEpi8 a b) (fun _ => rfl) narrow
  have differ1 : ∀ i < n, (¬ ∃ below : i < n, (a ⟨i, below⟩ == b ⟨i, below⟩) = true) ↔ Unlike a b i := by
    intro i below
    simp [Unlike, below]
  rw [unequalPair]
  dsimp only
  split
  · rename_i unequal
    refine ⟨fun none => ?_, fun k found => ?_⟩
    · split at none <;> exact absurd none (by simp)
    · split at found
      · rename_i unequal1
        obtain rfl := Option.some.inj found
        exact .inl ⟨_, rfl, (first.reports narrow unequal1).congr differ1⟩
      · rename_i equal1
        obtain rfl := Option.some.inj found
        have clear : ∀ i < n, ¬ Unlike a b i := by
          intro i below
          rw [← differ1 i below, not_not]
          exact (first.all_iff narrow).mp (not_not.mp equal1) i below
        refine .inr ⟨_, rfl, clear, (both.reports narrow unequal).congr fun i below => ?_⟩
        have equal : a ⟨i, below⟩ = b ⟨i, below⟩ := by
          by_contra differ
          exact clear i below ⟨below, differ⟩
        simp [Unlike, below, equal]
  · rename_i all
    have equal := (both.all_iff narrow).mp (not_not.mp all)
    refine ⟨fun _ => ⟨fun i below differ => ?_, fun i below differ => ?_⟩, fun k found => ?_⟩
    · obtain ⟨_, lane⟩ := equal i below
      rw [Bool.and_eq_true, beq_iff_eq] at lane
      exact differ.2 lane.1
    · obtain ⟨_, lane⟩ := equal i below
      rw [Bool.and_eq_true, beq_iff_eq, beq_iff_eq] at lane
      exact differ.2 lane.2
    · exact absurd found (by simp)

end Unequal

section Scalar
variable {n w : Nat} {a b : Lanes n}

private theorem getLsbD_scalarXor {k : Nat} (wide : 8 * n ≤ w) :
    (scalarXor w a b).getLsbD k = true ↔
    ∃ below : k / 8 < n,
      (a ⟨k / 8, below⟩).toBitVec.getLsbD (k % 8) ≠ (b ⟨k / 8, below⟩).toBitVec.getLsbD (k % 8) := by
  rw [scalarXor, BitVec.getLsbD_setWidth, BitVec.getLsbD_xor]
  by_cases inside : k < 8 * n
  · have lane (v : Lanes n) := getLsbD_ofLanes (n := 8 * n)
      (fun k => (v ⟨k / 8, by have below := k.isLt; omega⟩).toBitVec.getLsbD (k % 8)) ⟨k, inside⟩
    have below : k / 8 < n := by omega
    rw [scalar, scalar, lane, lane]
    simp [below, show k < w by omega]
  · have outside : ¬ k / 8 < n := by omega
    rw [BitVec.getLsbD_of_ge _ _ (Nat.not_lt.mp inside), BitVec.getLsbD_of_ge _ _ (Nat.not_lt.mp inside)]
    simp [outside]

private theorem scalarXor_byte (wide : 8 * n ≤ w) {i : Nat} (below : i < n)
    (zero : ∀ j < 8, (scalarXor w a b).getLsbD (8 * i + j) = false) : a ⟨i, below⟩ = b ⟨i, below⟩ := by
  rw [← UInt8.toBitVec_inj]
  refine BitVec.eq_of_getLsbD_eq fun j inside => ?_
  by_contra differ
  have bit := zero j inside
  have byte : (8 * i + j) / 8 = i := by omega
  have place : (8 * i + j) % 8 = j := by omega
  rw [← Bool.not_eq_true, getLsbD_scalarXor wide] at bit
  refine bit ⟨by omega, ?_⟩
  simpa only [byte, place] using differ

/-- The lowest set bit of the xor lies in the first byte that differs. -/
theorem scalarXor_reports (wide : 8 * n ≤ w) : Reports n (Unlike a b)
    (if scalarXor w a b ≠ 0#w then some (tzcnt (scalarXor w a b) / 8) else none) := by
  split
  · rename_i nonzero
    have lowest := BitVec.getLsbD_true_ctz_of_ne_zero nonzero
    obtain ⟨below, differ⟩ := (getLsbD_scalarXor wide).mp lowest
    refine .first below ⟨below, fun equal => differ ?_⟩ fun i less found => ?_
    · exact congrArg (fun byte : UInt8 => byte.toBitVec.getLsbD _) equal
    · refine found.2 (scalarXor_byte wide found.1 fun j inside => ?_)
      have lower : 8 * i + j < (scalarXor w a b).ctz.toNat := by
        rw [tzcnt] at less
        omega
      exact BitVec.getLsbD_false_of_lt_ctz lower
  · rename_i zero
    refine .clear ?_
    rintro i below ⟨_, differ⟩
    refine differ (scalarXor_byte wide below fun j inside => ?_)
    rw [not_not.mp zero, BitVec.getLsbD_zero]

theorem tzcnt_eq_width_iff {x : BitVec w} : tzcnt x = w ↔ x = 0#w := by
  constructor
  · intro full
    by_contra nonzero
    have less := tzcnt_lt nonzero
    omega
  · rintro rfl
    have zero : (0#w).reverse = 0#w := BitVec.reverse_eq_zero_iff.mpr rfl
    rw [tzcnt, BitVec.ctz_eq_reverse_clz, zero, BitVec.clz_eq_iff_eq_zero.mpr rfl,
      BitVec.natCast_eq_ofNat, BitVec.toNat_ofNat, Nat.mod_eq_of_lt Nat.lt_two_pow_self]

end Scalar

end AoclLibmem.Machine
