import AoclLibmem.Fill.Progress

/-! `memset_erms_impls.h` and `tunable/erms/memset_erms.c`. The functions for wider units
spread the value over the unit by shifts, without cutting it to its lowest byte first. -/

namespace AoclLibmem.Fill

open Base Machine

def lanesOf (n : Nat) {w : Nat} (x : BitVec w) : Lanes n :=
  fun i => UInt8.ofBitVec (x.extractLsb' (8 * i) 8)

def uchar (val : BitVec 32) : UInt8 := UInt8.ofBitVec (val.setWidth 8)

section Kernel
variable (mem size : Nat)

def ermsStosb (val : BitVec 32) : Kernel Nat := do
  repStos 1 (lanesOf 1 val) mem (StringUnit.b.count size)
  return mem

def ermsStosw (val : BitVec 16) : Kernel Nat := do
  let val := val ||| val <<< 8
  repStos 2 (lanesOf 2 val) mem (StringUnit.w.count size)
  return mem

def ermsStosq (val : BitVec 64) : Kernel Nat := do
  let val := val ||| val <<< 8
  let val := val ||| val <<< 16
  let val := val ||| val <<< 32
  repStos 8 (lanesOf 8 val) mem (StringUnit.q.count size)
  return mem

variable (val : BitVec 32)

/-! The calls convert the `int` to the type of the parameter. -/

def memsetErmsBAligned : Kernel Nat := ermsStosb mem size val

def memsetErmsWAligned : Kernel Nat := ermsStosw mem size (val.setWidth 16)

/-- `__memset_erms_d_aligned`: by words too. -/
def memsetErmsDAligned : Kernel Nat := ermsStosw mem size (val.setWidth 16)

def memsetErmsQAligned : Kernel Nat := ermsStosq mem size (val.signExtend 64)

end Kernel

section Spread
variable {w : Nat} {x y : BitVec w}

/-- `y` has a bit wherever one of the `count` bits at the same place of the byte or of those
before it is set in `x`. -/
def Spreads (x y : BitVec w) (count : Nat) : Prop :=
  ∀ j < w, y.getLsbD j = true ↔ ∃ k < count, 8 * k ≤ j ∧ x.getLsbD (j - 8 * k) = true

theorem spreads_one (x : BitVec w) : Spreads x x 1 := by
  intro j _
  constructor
  · exact fun set => ⟨0, by decide, Nat.zero_le j, set⟩
  · rintro ⟨k, less, _, set⟩
    obtain rfl := Nat.lt_one_iff.mp less
    exact set

/-- One shift and or doubles the reach. -/
theorem Spreads.double {count : Nat} (spreads : Spreads x y count) :
    Spreads x (y ||| y <<< (8 * count)) (2 * count) := by
  intro j below
  rw [BitVec.getLsbD_or, BitVec.getLsbD_shiftLeft, Bool.or_eq_true, spreads j below]
  simp only [below, decide_true, Bool.true_and, Bool.and_eq_true, Bool.not_eq_true',
    decide_eq_false_iff_not, Nat.not_lt]
  constructor
  · rintro (⟨k, less, low, set⟩ | ⟨shifted, set⟩)
    · exact ⟨k, by omega, low, set⟩
    · obtain ⟨k, less, low, set⟩ := (spreads _ (by omega)).mp set
      have place : j - 8 * count - 8 * k = j - 8 * (count + k) := by omega
      exact ⟨count + k, by omega, by omega, place ▸ set⟩
  · rintro ⟨k, less, low, set⟩
    by_cases near : k < count
    · exact .inl ⟨k, near, low, set⟩
    · have place : j - 8 * count - 8 * (k - count) = j - 8 * k := by omega
      refine .inr ⟨by omega, (spreads _ (by omega)).mpr ⟨k - count, by omega, by omega, ?_⟩⟩
      rwa [place]

theorem Spreads.setWidth {count v : Nat} (spreads : Spreads x y count) (narrow : v ≤ w) :
    Spreads (x.setWidth v) (y.setWidth v) count := by
  intro j below
  rw [BitVec.getLsbD_setWidth, decide_eq_true below, Bool.true_and, spreads j (by omega)]
  refine exists_congr fun k => and_congr_right fun _ => and_congr_right fun _ => ?_
  rw [BitVec.getLsbD_setWidth, decide_eq_true (by omega : j - 8 * k < v), Bool.true_and]

/-- Every set bit is set in the lowest byte too. -/
def ClearAbove (x : BitVec w) : Prop := ∀ j < w, x.getLsbD j = true → x.getLsbD (j % 8) = true

instance (x : BitVec w) : Decidable (ClearAbove x) := inferInstanceAs (Decidable (∀ _, _))

/-- Spread over its whole width, a value has equal bytes exactly when its own bytes add
nothing to the lowest one. -/
theorem Spreads.bytes_iff {n : Nat} (width : w = 8 * n) (spreads : Spreads x y n) :
    (∀ i < n, ∀ b < 8, y.getLsbD (8 * i + b) = x.getLsbD b) ↔ ClearAbove x := by
  constructor
  · intro uniform j below set
    have lane : j / 8 < n := by omega
    have whole := uniform (j / 8) lane (j % 8) (Nat.mod_lt j (by decide))
    rw [Nat.div_add_mod] at whole
    rw [← whole]
    exact (spreads j below).mpr ⟨0, by omega, Nat.zero_le j, set⟩
  · intro clear i lane b below
    rw [Bool.eq_iff_iff, spreads _ (by omega)]
    constructor
    · rintro ⟨k, _, low, set⟩
      have lowest := clear _ (by omega) set
      have place : (8 * i + b - 8 * k) % 8 = b := by omega
      rwa [place] at lowest
    · intro set
      have place : 8 * i + b - 8 * i = b := by omega
      exact ⟨i, lane, by omega, by rwa [place]⟩

theorem Spreads.lanes_iff {n : Nat} (width : w = 8 * n) (spreads : Spreads x y n) {value : BitVec 8}
    (lowest : ∀ b < 8, x.getLsbD b = value.getLsbD b) :
    (∀ i, lanesOf n y i = UInt8.ofBitVec value) ↔ ClearAbove x := by
  rw [← spreads.bytes_iff width, Fin.forall_iff]
  refine forall_congr' fun i => forall_congr' fun lane => ?_
  rw [lanesOf, UInt8.ofBitVec.injEq, BitVec.eq_of_getLsbD_eq_iff]
  refine forall_congr' fun b => forall_congr' fun below => ?_
  rw [BitVec.getLsbD_extractLsb', lowest b below]
  simp [below]

end Spread

section Correct
variable {start : Memory} {mem size : Nat} {val : BitVec 32}

/-- memset's contract: the bytes are set, no other byte changes, and `mem` is returned. -/
def Fills (start : Memory) (run : Kernel Nat) (mem size : Nat) (value : UInt8) : Prop :=
  ∃ after, run start = .ok (mem, after) ∧ Filled start after mem size value

/-- `rep stos` of a unit fills with a byte when the unit is made of it, or nothing is stored. -/
theorem repStos_fills_iff (buffer : Buffer start mem size) {n count : Nat} (positive : 0 < n)
    (covers : count * n = size) (v : Lanes n) (value : UInt8) :
    Fills start (do repStos n v mem count; return mem) mem size value ↔
      size = 0 ∨ ∀ i, v i = value := by
  have stores : Triple (Progress start mem (fun i => v ⟨i % n, Nat.mod_lt i positive⟩) ∅)
      (repStos n v (mem + 0) count) _ := repStos_triple buffer (by omega) fun j i => by
    have lane : (0 + j * n + i) % n = i := by
      rw [Nat.zero_add, Nat.add_comm, Nat.add_mul_mod_self_right, Nat.mod_eq_of_lt i.isLt]
    exact congrArg v (Fin.ext lane.symm)
  obtain ⟨_, after, returned, progress⟩ := stores start (.refl start mem _)
  have run : (do repStos n v mem count; return mem : Kernel Nat) start = .ok (mem, after) := by
    rw [Nat.add_zero] at returned
    rw [bind_returned returned]
    rfl
  have stored : ∀ i < size, after.byte (mem + i) = v ⟨i % n, Nat.mod_lt i positive⟩ := by
    refine fun i below => progress.painted.painted i (.inr ⟨Nat.zero_le i, ?_⟩)
    rwa [Nat.zero_add, covers]
  constructor
  · rintro ⟨other, ends, filled⟩
    rw [run] at ends
    obtain ⟨_, rfl⟩ := Prod.mk.inj (Except.ok.inj ends)
    refine or_iff_not_imp_left.mpr fun some i => ?_
    have below : i < size := by
      have units : 0 < count :=
        Nat.pos_of_ne_zero fun none => some (by rw [← covers, none, Nat.zero_mul])
      have first : 1 * n ≤ count * n := Nat.mul_le_mul_right n units
      have lane := i.isLt
      omega
    have same : (⟨i % n, Nat.mod_lt i positive⟩ : Fin n) = i := Fin.ext (Nat.mod_eq_of_lt i.isLt)
    rw [← filled.1 i below, stored i below, same]
  · intro equal
    refine ⟨after, run, fun i below => ?_, fun a outside => ?_⟩
    · rcases equal with none | all
      · omega
      · rw [stored i below, all]
    · refine progress.painted.frame a fun i member same => outside ?_
      simp only [Set.mem_union, Set.mem_Ico, Set.mem_empty_iff_false, false_or] at member
      omega

theorem ermsStosw_fills_iff (buffer : Buffer start mem size) (positive : size < 2 ^ 63)
    (whole : size % 2 = 0) : Fills start (ermsStosw mem size (val.setWidth 16)) mem size (uchar val) ↔
      size = 0 ∨ ClearAbove (val.setWidth 16) := by
  have units : StringUnit.w.count size * 2 = size := StringUnit.count_mul positive whole
  have lowest : ∀ b < 8, (val.setWidth 16).getLsbD b = (val.setWidth 8).getLsbD b := by
    intro b below
    rw [BitVec.getLsbD_setWidth, BitVec.getLsbD_setWidth, decide_eq_true below,
      decide_eq_true (by omega : b < 16)]
  refine (repStos_fills_iff buffer (by decide) units _ (uchar val)).trans (or_congr_right ?_)
  exact (spreads_one (val.setWidth 16)).double.lanes_iff rfl lowest

theorem ermsStosq_fills_iff (buffer : Buffer start mem size) (positive : size < 2 ^ 63)
    (whole : size % 8 = 0) : Fills start (ermsStosq mem size (val.signExtend 64)) mem size (uchar val) ↔
      size = 0 ∨ ClearAbove (val.signExtend 64) := by
  have units : StringUnit.q.count size * 8 = size := StringUnit.count_mul positive whole
  have lowest : ∀ b < 8, (val.signExtend 64).getLsbD b = (val.setWidth 8).getLsbD b := by
    intro b below
    rw [BitVec.getLsbD_signExtend, BitVec.getLsbD_setWidth, decide_eq_true below,
      decide_eq_true (by omega : b < 64), if_pos (by omega)]
  refine (repStos_fills_iff buffer (by decide) units _ (uchar val)).trans (or_congr_right ?_)
  exact (spreads_one (val.signExtend 64)).double.double.double.lanes_iff rfl lowest

/-- The byte variant fills for every value. The word and double word variants do when bits 8
to 15 of the value add nothing to its lowest byte, the quad word variant when no bit of the
sign-extended value does; no value matters to an empty fill. -/
theorem memsetErms_fills_iff (start : Memory) (mem size : Nat) (val : BitVec 32)
    (buffer : Buffer start mem size) (positive : size < 2 ^ 63) :
    Fills start (memsetErmsBAligned mem size val) mem size (uchar val) ∧
    (size % 2 = 0 → (Fills start (memsetErmsWAligned mem size val) mem size (uchar val) ↔
      size = 0 ∨ ClearAbove (val.setWidth 16))) ∧
    (size % 4 = 0 → (Fills start (memsetErmsDAligned mem size val) mem size (uchar val) ↔
      size = 0 ∨ ClearAbove (val.setWidth 16))) ∧
    (size % 8 = 0 → (Fills start (memsetErmsQAligned mem size val) mem size (uchar val) ↔
      size = 0 ∨ ClearAbove (val.signExtend 64))) := by
  refine ⟨?_, fun whole => ?_, fun whole => ?_, fun whole => ?_⟩
  · refine (repStos_fills_iff buffer (by decide) (Nat.mul_one size) _ _).mpr (.inr fun i => ?_)
    rw [lanesOf, uchar, Fin.val_eq_zero i]
    rfl
  · exact ermsStosw_fills_iff buffer positive whole
  · exact ermsStosw_fills_iff buffer positive (by omega)
  · exact ermsStosq_fills_iff buffer positive whole

theorem memsetErms_fills_iff_page :
    Fills (PagedMemory.full UInt8.ofNat).toMemory (memsetErmsQAligned 4096 64 0x55#32) 4096 64
      (uchar 0x55#32) :=
  ((memsetErms_fills_iff (PagedMemory.full UInt8.ofNat).toMemory 4096 64 0x55#32 (fun _ _ => rfl)
    (by decide)).2.2.2 (by decide)).mpr (.inr (by decide))

/-- With 0x0100 the second byte of a word becomes 1. -/
theorem memsetErmsWAligned_leaks :
    ¬ Fills (PagedMemory.full UInt8.ofNat).toMemory (memsetErmsWAligned 4096 2 0x100#32) 4096 2
      (uchar 0x100#32) := by
  intro filled
  have buffer : Buffer (PagedMemory.full UInt8.ofNat).toMemory 4096 2 := fun _ _ => rfl
  exact absurd ((ermsStosw_fills_iff buffer (by decide) (by decide)).mp filled) (by decide)

end Correct

end AoclLibmem.Fill
