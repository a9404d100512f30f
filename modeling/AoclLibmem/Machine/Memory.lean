import AoclLibmem.Base.Outcome
import Mathlib.Algebra.Group.Nat.Defs
import Mathlib.Data.Fin.Basic

/-! Byte-addressed memory with per-byte access rights, and the loads of the
vector and scalar instructions. An address is a natural number: no buffer or
string wraps the address space. -/

namespace AoclLibmem.Machine

open Base

/-- Sizes of `almem_defs.h` and `zen_cpu_info.h`, in bytes. -/
abbrev pageSz : Nat := 4096
abbrev cachelineSz : Nat := 64
abbrev wordSz : Nat := 2
abbrev dwordSz : Nat := 4
abbrev qwordSz : Nat := 8
abbrev xmmSz : Nat := 16
abbrev ymmSz : Nat := 32
abbrev zmmSz : Nat := 64
abbrev cacheLineOffset : Nat := 32
abbrev avx2Vec4Offset : Nat := 64
abbrev avx2Vec4Sz : Nat := 128
abbrev avx512Vec4Sz : Nat := 256

/-- The number of `size_t` values. -/
@[irreducible] def sizeRange : Nat := 2 ^ 64

theorem sizeRange_eq : sizeRange = 18446744073709551616 := by
  unfold sizeRange
  rfl

/-- `a - b` in `size_t`: unsigned, wrapping below zero. -/
def subSize (a b : Nat) : Nat := (a + sizeRange - b) % sizeRange

theorem subSize_of_le {a b : Nat} (le : b ≤ a) (range : a < sizeRange) : subSize a b = a - b := by
  have shift : a + sizeRange - b = a - b + sizeRange := by omega
  rw [subSize, shift, Nat.add_mod_right, Nat.mod_eq_of_lt (by omega)]

/-- `rem_vecs` of the 512-bit kernels: what is left in vectors, rounded up. -/
theorem remVecs_covers {offset size remVecs : Nat} (inside : offset ≤ size)
    (few : size ≤ offset + 256) (range : size < sizeRange)
    (counted : (subSize size offset % 2 ^ 16 / 2 ^ 6 +
      (if subSize size offset % 2 ^ 16 % 2 ^ 6 ≠ 0 then 1 else 0)) % 2 ^ 8 = remVecs) :
    remVecs ≤ 4 ∧ size - offset ≤ remVecs * 64 := by
  have left : subSize size offset % 2 ^ 16 = size - offset := by
    rw [subSize_of_le inside range]
    exact Nat.mod_eq_of_lt (by omega)
  rw [left] at counted
  split at counted <;> omega

theorem subSize_of_lt {a b : Nat} (less : a < b) (range : b ≤ sizeRange) :
    subSize a b = a + sizeRange - b :=
  Nat.mod_eq_of_lt (by omega)

/-- `a + b` in `size_t`. -/
def addSize (a b : Nat) : Nat := (a + b) % sizeRange

theorem addSize_of_lt {a b : Nat} (less : a + b < sizeRange) : addSize a b = a + b :=
  Nat.mod_eq_of_lt less

/-- A run stops at an access without the rights or the alignment it needs. The
second reason only says that the model's loop budget was too small. -/
inductive Trap where
  | fault
  | diverged
deriving DecidableEq, Repr

abbrev Exec := Except Trap

/-- More passes than any loop over a `size_t` counter that moves at every pass. -/
def budget : Nat := 2 ^ 64 + 1

structure Memory where
  byte : Nat → UInt8
  readable : Nat → Bool
  writable : Nat → Bool

/-- A register of `n` byte lanes; lane 0 is the byte at the lowest address. -/
abbrev Lanes (n : Nat) := Fin n → UInt8

def Memory.lanes (m : Memory) (n : Nat) (addr : Nat) : Lanes n := fun i => m.byte (addr + i)

def Memory.canRead (m : Memory) (addr n : Nat) : Bool :=
  decide (∀ i < n, m.readable (addr + i) = true)

def Memory.canWrite (m : Memory) (addr n : Nat) : Bool :=
  decide (∀ i < n, m.writable (addr + i) = true)

@[simp] theorem Memory.lanes_apply (m : Memory) (n : Nat) (addr : Nat) (i : Fin n) :
    m.lanes n addr i = m.byte (addr + i) := rfl

@[simp] theorem Memory.canRead_iff {m : Memory} {addr n : Nat} :
    m.canRead addr n = true ↔ ∀ i < n, m.readable (addr + i) = true := by
  simp [Memory.canRead]

@[simp] theorem Memory.canWrite_iff {m : Memory} {addr n : Nat} :
    m.canWrite addr n = true ↔ ∀ i < n, m.writable (addr + i) = true := by
  simp [Memory.canWrite]

theorem Memory.canRead_sub {m : Memory} {addr size k n : Nat}
    (whole : m.canRead addr size = true) (inside : k + n ≤ size) :
    m.canRead (addr + k) n = true := by
  rw [Memory.canRead_iff] at whole ⊢
  intro i below
  rw [Nat.add_assoc]
  exact whole (k + i) (by omega)

/-- `_mm*_loadu_si*` and plain scalar loads of `n` bytes. -/
def Memory.loadu (m : Memory) (n : Nat) (addr : Nat) : Exec (Lanes n) :=
  if m.canRead addr n then pure (m.lanes n addr) else throw .fault

/-- `_mm*_load_si*`: as `loadu`, and the address must be a multiple of the vector. -/
def Memory.load (m : Memory) (n : Nat) (addr : Nat) : Exec (Lanes n) :=
  if addr % n = 0 then m.loadu n addr else throw .fault

/-- `_mm512_mask_loadu_epi8`: lanes outside the mask keep `fill` and are not accessed. -/
def Memory.maskLoadu (m : Memory) {n : Nat} (fill : Lanes n) (mask : BitVec n) (addr : Nat) :
    Exec (Lanes n) :=
  if ∀ i : Fin n, mask.getLsbD i = true → m.readable (addr + i) = true then
    pure fun i => if mask.getLsbD i then m.byte (addr + i) else fill i
  else throw .fault

def Memory.byteAt (m : Memory) (addr : Nat) : Exec UInt8 :=
  if m.readable addr then pure (m.byte addr) else throw .fault

section Loads
variable {m : Memory} {n : Nat} {addr : Nat} {post : Lanes n → Prop} {exit : Trap → Prop}

theorem Memory.loadu_eq (rights : m.canRead addr n = true) :
    m.loadu n addr = .ok (m.lanes n addr) := by
  simp only [Memory.loadu, rights, ↓reduceIte]
  rfl

theorem Memory.load_eq (aligned : addr % n = 0) (rights : m.canRead addr n = true) :
    m.load n addr = .ok (m.lanes n addr) := by
  simp only [Memory.load, aligned, ↓reduceIte, Memory.loadu_eq rights]

theorem Memory.maskLoadu_eq {fill : Lanes n} {mask : BitVec n}
    (rights : ∀ i < n, mask.getLsbD i = true → m.readable (addr + i) = true) :
    m.maskLoadu fill mask addr =
      .ok fun i => if mask.getLsbD i then m.byte (addr + i) else fill i := by
  have active : ∀ i : Fin n, mask.getLsbD i = true → m.readable (addr + i) = true :=
    fun i set => rights i i.isLt set
  unfold Memory.maskLoadu
  rw [if_pos active]
  rfl

theorem Memory.byteAt_eq (rights : m.readable addr = true) : m.byteAt addr = .ok (m.byte addr) := by
  simp only [Memory.byteAt, rights, ↓reduceIte]
  rfl

/-- A load of `n` bytes that succeeds exactly at the addresses in `ready`. -/
structure Memory.Reads (m : Memory) (n : Nat) (load : Nat → Exec (Lanes n))
    (ready : Nat → Prop) : Prop where
  reads : ∀ addr, ready addr → load addr = .ok (m.lanes n addr)
  faults : ∀ addr, ¬ ready addr → load addr = .error .fault

theorem Memory.reads_loadu (m : Memory) (n : Nat) :
    m.Reads n (m.loadu n) (fun addr => m.canRead addr n = true) where
  reads _ rights := Memory.loadu_eq rights
  faults addr missing := by
    simp only [Memory.loadu, missing, Bool.false_eq_true, ↓reduceIte]
    rfl

def Memory.AlignedRead (m : Memory) (n addr : Nat) : Prop :=
  addr % n = 0 ∧ m.canRead addr n = true

theorem Memory.reads_load (m : Memory) (n : Nat) : m.Reads n (m.load n) (m.AlignedRead n) where
  reads _ ready := Memory.load_eq ready.1 ready.2
  faults addr missing := by
    unfold Memory.load
    split
    · rename_i aligned
      exact (m.reads_loadu n).faults addr fun rights => missing ⟨aligned, rights⟩
    · rfl

end Loads

/-- A memory whose read rights are granted page by page. -/
structure PagedMemory extends Memory where
  byPage : ∀ a b, a / pageSz = b / pageSz → readable a = readable b

def PagedMemory.ofPages (byte : Nat → UInt8) (mapped : Nat → Bool) : PagedMemory where
  byte := byte
  readable addr := mapped (addr / pageSz)
  writable addr := mapped (addr / pageSz)
  byPage a b same := by rw [same]

def PagedMemory.full (byte : Nat → UInt8) : PagedMemory := .ofPages byte fun _ => true

@[simp] theorem PagedMemory.full_byte (byte : Nat → UInt8) :
    (PagedMemory.full byte).byte = byte := rfl

section Pages
variable {m : PagedMemory} {addr other n : Nat}

/-- A range inside the page of a readable byte is readable. -/
theorem PagedMemory.canRead_of_page (rights : m.readable other = true)
    (same : other / 4096 = addr / 4096) (inside : addr % 4096 + n ≤ 4096) :
    m.canRead addr n = true := by
  rw [Memory.canRead_iff]
  intro i below
  rw [← rights]
  refine m.byPage _ _ ?_
  simp only [pageSz]
  omega

theorem inside_of_line (inside : addr % 64 + n ≤ 64) : addr % 4096 + n ≤ 4096 := by
  omega

/-- A vector at a multiple of its size stays in the page of its first byte. -/
theorem PagedMemory.canRead_of_aligned (rights : m.readable addr = true) (aligned : addr % n = 0)
    (divides : n ∣ 4096) : m.canRead addr n = true := by
  refine PagedMemory.canRead_of_page rights rfl ?_
  obtain ⟨k, pages⟩ := divides
  have multiple : n ∣ addr % 4096 := by
    rw [pages, Nat.dvd_mod_iff (Nat.dvd_mul_right n k)]
    exact Nat.dvd_of_mod_eq_zero aligned
  obtain ⟨j, position⟩ := multiple
  have below : n * j < n * k := by rw [← position, ← pages]; exact Nat.mod_lt _ (by omega)
  have less : j + 1 ≤ k := Nat.lt_of_mul_lt_mul_left below
  calc addr % 4096 + n = n * (j + 1) := by rw [position, Nat.mul_add, Nat.mul_one]
    _ ≤ n * k := Nat.mul_le_mul_left n less
    _ = 4096 := pages.symm

theorem PagedMemory.alignedRead_iff (aligned : addr % n = 0) (divides : n ∣ 4096) :
    m.AlignedRead n addr ↔ m.readable addr = true := by
  constructor
  · rintro ⟨_, rights⟩
    exact Memory.canRead_iff.mp rights 0 (Nat.pos_of_dvd_of_pos divides (by omega))
  · intro rights
    exact ⟨aligned, PagedMemory.canRead_of_aligned rights aligned divides⟩

end Pages

end AoclLibmem.Machine
