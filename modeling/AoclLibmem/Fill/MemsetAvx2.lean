import AoclLibmem.Fill.TunableMemset

/-! `isa/avx2/optimized/memset_avx2.c`. Its `memset_le_2ymm` is the text of the tunable file. -/

namespace AoclLibmem.Fill

open Base Machine Copy

def memsetAvx2 (l3PerCcx mem : Nat) (val : BitVec 32) (size : Nat) : Kernel Nat := do
  if size ≤ 2 * ymmSz then memsetLe2Ymm mem val (size % 2 ^ 8)
  else
    let y0 : Lanes ymmSz := set1 (uchar val)
    setAll ymmSz .unaligned mem y0 (upwards ymmSz 2 0)
    if size ≤ 4 * ymmSz then
      setAll ymmSz .unaligned mem y0 (upwards ymmSz 2 (size % 2 ^ 16 - 2 * ymmSz))
      return mem
    else
      setAll ymmSz .unaligned mem y0 (upwards ymmSz 2 (2 * ymmSz))
      let last4 : Kernel Nat := do
        setAll ymmSz .unaligned mem y0 (upwards ymmSz 4 (size - 4 * ymmSz))
        return mem
      if size > 8 * ymmSz then
        let offset := 4 * ymmSz - mem % ymmSz
        let offset ← (if size ≤ l3PerCcx then
            setWhile ymmSz 4 .aligned mem y0 (size - 4 * ymmSz) offset
          else setWhile ymmSz 4 .stream mem y0 (size - 4 * ymmSz) offset)
        if size = offset then return mem else last4
      else last4

section Correct
variable {start : Memory} {l3PerCcx mem size : Nat} {val : BitVec 32} {done : Set Nat}

private theorem last4Ymm_complete (buffer : Buffer start mem size) (large : 128 ≤ size)
    (before : ∀ i, i ∈ done → i < size) (near : ∀ i < size - 128, i ∈ done) :
    Triple (Progress start mem (fun _ => uchar val) done)
      (do
        setAll ymmSz .unaligned mem (set1 (uchar val)) (upwards ymmSz 4 (size - 4 * ymmSz))
        return mem)
      (Complete start mem size (uchar val)) := by
  simp only [ymmSz]
  refine (setRow_triple buffer (fun _ => rfl) allows_unaligned (by omega)).bind fun _ =>
    complete_return fun i => ?_
  simp only [Set.mem_union, Set.mem_Ico]
  constructor
  · rintro (old | new)
    · exact before i old
    · omega
  · intro below
    rcases Nat.lt_or_ge i (size - 128) with low | high
    · exact .inl (near i low)
    · exact .inr (by omega)

theorem memsetAvx2_complete (buffer : Buffer start mem size) (range : size < sizeRange) :
    Triple (Progress start mem (fun _ => uchar val) ∅) (memsetAvx2 l3PerCcx mem val size)
      (Complete start mem size (uchar val)) := by
  refine triple_ite (fun to64 => ?_) fun from65 => ?_
  · simp only [ymmSz] at to64
    rw [Nat.mod_eq_of_lt (by omega)]
    exact memsetLe2Ymm_complete buffer to64
  simp only [ymmSz] at from65 ⊢
  refine (setRow_triple buffer (fun _ => rfl) allows_unaligned (by omega)).bind fun _ => ?_
  refine triple_ite (fun to128 => ?_) fun from129 => ?_
  · rw [Nat.mod_eq_of_lt (by omega)]
    refine (setRow_triple buffer (fun _ => rfl) allows_unaligned (by omega)).bind fun _ =>
      complete_return fun i => ?_
    simp only [Set.mem_union, Set.mem_Ico, Set.mem_empty_iff_false, false_or]
    omega
  refine (setRow_triple buffer (fun _ => rfl) allows_unaligned (by omega)).bind fun _ => ?_
  refine triple_ite (fun from257 => ?_) fun to256 => ?_
  · -- either loop goes on from the last boundary among the first four vectors
    have boundary : (mem + (4 * 32 - mem % 32)) % 32 = 0 := by omega
    have loop (type : Access) : Triple
        (Progress start mem (fun _ => uchar val)
          (∅ ∪ Set.Ico 0 (0 + 2 * 32) ∪ Set.Ico (2 * 32) (2 * 32 + 2 * 32)))
        (setWhile 32 4 type mem (set1 (uchar val)) (size - 4 * 32) (4 * 32 - mem % 32)) _ :=
      setWhile_triple 4 buffer (fun _ => rfl) (by decide) (by omega) range (allows_of_aligned boundary)
    refine (triple_ite (fun _ => loop .aligned) fun _ => loop .stream).bind fun last =>
      triple_fact fun stop => triple_ite (fun reached => complete_return fun i => ?_) fun _ => ?_
    · simp only [Set.mem_union, Set.mem_Ico, Set.mem_empty_iff_false, false_or]
      omega
    · refine last4Ymm_complete buffer (by omega) (fun i => ?_) fun i low => ?_
      · simp only [Set.mem_union, Set.mem_Ico, Set.mem_empty_iff_false, false_or]
        omega
      · simp only [Set.mem_union, Set.mem_Ico, Set.mem_empty_iff_false, false_or]
        omega
  · refine last4Ymm_complete buffer (by omega) (fun i => ?_) fun i low => ?_
    · simp only [Set.mem_union, Set.mem_Ico, Set.mem_empty_iff_false, false_or]
      omega
    · simp only [Set.mem_union, Set.mem_Ico, Set.mem_empty_iff_false, false_or]
      omega

/-- For every L3 size exactly the buffer is filled. An aligned or streaming store at an address
that is no multiple of 32 would stop the run. -/
theorem memsetAvx2_fills (start : Memory) (l3PerCcx mem size : Nat) (val : BitVec 32)
    (buffer : Buffer start mem size) (range : size < sizeRange) :
    Fills start (memsetAvx2 l3PerCcx mem val size) mem size (uchar val) :=
  runs_of_complete (memsetAvx2_complete buffer range)

theorem memsetAvx2_fills_odd :
    Fills (PagedMemory.full UInt8.ofNat).toMemory (memsetAvx2 256 4097 0x155#32 300) 4097 300
      (uchar 0x155#32) :=
  memsetAvx2_fills (PagedMemory.full UInt8.ofNat).toMemory 256 4097 300 0x155#32 (fun _ _ => rfl)
    (by rw [sizeRange_eq]; decide)

end Correct

end AoclLibmem.Fill
