import AoclLibmem.Copy.CopyThreshold
import AoclLibmem.Fill.TunableMemset

/-! Whether the thresholds are only a performance choice: what the functions of `tunable/threshold`
for memmove, mempcpy and memset do under two settings. -/

namespace AoclLibmem.Tunable

open Base Machine Dispatch Copy Fill

section Memset
variable (thresholds : Thresholds) (avx512 : Bool) (mem : Nat) (val : BitVec 32) (size : Nat)

def InRepstore : Prop :=
  size > thresholds.repstoreStartThreshold ∧ size < thresholds.repstoreStopThreshold

instance : Decidable (InRepstore thresholds size) := inferInstanceAs (Decidable (_ ∧ _))

def memsetThreshold : Kernel Nat :=
  byThreshold thresholds avx512 (InRepstore thresholds size) size (memsetErmsBAligned mem size val)
    (fun
      | .avx512 => memsetAvx512Nt mem val size
      | .avx2 => memsetAvx2Nt mem val size)
    (fun
      | .avx512 => memsetAvx512Unaligned mem val size
      | .avx2 => memsetAvx2Unaligned mem val size)

end Memset

section Correct
variable {start : Memory} {thresholds : Thresholds} {avx512 : Bool} {mem size : Nat} {val : BitVec 32}

theorem memsetErmsBAligned_complete (buffer : Buffer start mem size) :
    Triple (Fill.Progress start mem (fun _ => uchar val) ∅) (memsetErmsBAligned mem size val)
      (Fill.Complete start mem size (uchar val)) := by
  have stores : Triple (Fill.Progress start mem (fun _ => uchar val) ∅)
      (repStos 1 (lanesOf 1 val) (mem + 0) size) _ :=
    repStos_triple buffer (by omega) fun _ i => by rw [lanesOf, Fin.val_eq_zero i]; rfl
  exact stores.bind fun _ => Fill.complete_return fun i => by simp

theorem memsetThreshold_complete (buffer : Buffer start mem size) (range : size < sizeRange) :
    Triple (Fill.Progress start mem (fun _ => uchar val) ∅)
      (memsetThreshold thresholds avx512 mem val size) (Fill.Complete start mem size (uchar val)) := by
  refine byThreshold_triple (fun _ => memsetErmsBAligned_complete buffer) (fun isa => ?_) fun isa => ?_
  · cases isa <;> exact memsetNtStore_complete buffer range
  · cases isa <;> exact memsetUnaligned_complete buffer range

end Correct

section Settings

/-- The user's settings that the threshold functions read. -/
structure Setting where
  thresholds : Thresholds
  avx512 : Bool

/-- Both runs return `result` and leave the same bytes, as the standard says. -/
def SameOutcome (start : Memory) (run other : Kernel Nat) (result : Nat) (standard : Memory → Prop) :
    Prop :=
  ∃ after last, run start = .ok (result, after) ∧ other start = .ok (result, last) ∧
    after.byte = last.byte ∧ standard after

variable {start : Memory} {dst src size : Nat}

/-- A move shows the settings where one of them sends it to the string instruction and that loses
the `dst` to be returned. -/
theorem memmoveThreshold_same_iff (one other : Setting) (buffers : Copy.Buffers start dst src size)
    (positive : size < 2 ^ 63) :
    SameOutcome start (memmoveThreshold one.thresholds one.avx512 dst src size)
        (memmoveThreshold other.thresholds other.avx512 dst src size) dst
        (fun after => Copied start after dst src size) ↔
      (InRepmov one.thresholds size ∨ InRepmov other.thresholds size → KeepsRax .b dst src size) := by
  have moves (setting : Setting) : Triple (Copy.Progress start dst src ∅)
      (memmoveThreshold setting.thresholds setting.avx512 dst src size) _ :=
    memmoveThreshold_triple buffers positive
  obtain ⟨result, after, returned, ⟨keeps, copied⟩, _⟩ := moves one start (.refl start dst src)
  obtain ⟨result', last, returned', ⟨keeps', copied'⟩, _⟩ := moves other start (.refl start dst src)
  rw [or_imp, ← keeps, ← keeps']
  constructor
  · rintro ⟨_, _, same, same', _⟩
    rw [returned] at same
    rw [returned'] at same'
    exact ⟨congrArg Prod.fst (Except.ok.inj same), congrArg Prod.fst (Except.ok.inj same')⟩
  · rintro ⟨rfl, rfl⟩
    exact ⟨after, last, returned, returned', copied_unique copied copied', copied⟩

/-- For any two settings, whatever the order of their thresholds: mempcpy between disjoint buffers
and memset with any value never show them; memmove, with any overlap, does not unless it goes up by
`rep movsb`. -/
theorem threshold_settings_agree_iff (start : Memory) (one other : Setting) :
    (∀ dst src size, Copy.Buffers start dst src size → size < 2 ^ 63 →
      (SameOutcome start (memmoveThreshold one.thresholds one.avx512 dst src size)
        (memmoveThreshold other.thresholds other.avx512 dst src size) dst
        (fun after => Copied start after dst src size) ↔
          (InRepmov one.thresholds size ∨ InRepmov other.thresholds size →
            dst < src ∨ size = 1))) ∧
    (∀ dst src size, Copy.Buffers start dst src size → size < 2 ^ 63 →
      dst + size ≤ src ∨ src + size ≤ dst →
      SameOutcome start (mempcpyThreshold one.thresholds one.avx512 dst src size)
        (mempcpyThreshold other.thresholds other.avx512 dst src size) (dst + size)
        fun after => Copied start after dst src size) ∧
    (∀ mem val size, Fill.Buffer start mem size → size < 2 ^ 63 →
      SameOutcome start (memsetThreshold one.thresholds one.avx512 mem val size)
        (memsetThreshold other.thresholds other.avx512 mem val size) mem
        fun after => Filled start after mem size (uchar val)) := by
  refine ⟨fun dst src size buffers positive => ?_, fun dst src size buffers positive apart => ?_,
    fun mem val size buffer positive => ?_⟩
  · rw [memmoveThreshold_same_iff one other buffers positive]
    exact imp_congr_right fun _ => forall_prop_of_true rfl
  · obtain ⟨after, returned, copied⟩ := runs_of_returns (mempcpyThreshold_triple buffers positive apart)
    obtain ⟨last, returned', copied'⟩ := runs_of_returns (mempcpyThreshold_triple buffers positive apart)
    exact ⟨after, last, returned, returned', copied_unique copied copied', copied⟩
  · have range : size < sizeRange := by rw [sizeRange_eq]; omega
    obtain ⟨after, returned, filled⟩ := runs_of_complete (memsetThreshold_complete buffer range)
    obtain ⟨last, returned', filled'⟩ := runs_of_complete (memsetThreshold_complete buffer range)
    exact ⟨after, last, returned, returned', filled_unique filled filled', filled⟩

/-- An overlapping move down by `rep movsb` and by streaming AVX512 stores. -/
theorem threshold_settings_agree_iff_down :
    SameOutcome (PagedMemory.full UInt8.ofNat).toMemory
        (memmoveThreshold ⟨0, 5000, 0, 0, 0, 0⟩ false 4096 4100 4000)
        (memmoveThreshold ⟨0, 0, 0, 0, 0, 5000⟩ true 4096 4100 4000) 4096
        (fun after => Copied (PagedMemory.full UInt8.ofNat).toMemory after 4096 4100 4000) ↔
      (InRepmov ⟨0, 5000, 0, 0, 0, 0⟩ 4000 ∨ InRepmov ⟨0, 0, 0, 0, 0, 5000⟩ 4000 →
        4096 < 4100 ∨ 4000 = 1) :=
  (threshold_settings_agree_iff (PagedMemory.full UInt8.ofNat).toMemory ⟨⟨0, 5000, 0, 0, 0, 0⟩, false⟩
    ⟨⟨0, 0, 0, 0, 0, 5000⟩, true⟩).1 4096 4100 4000 ⟨fun _ _ => rfl, fun _ _ => rfl⟩ (by decide)

theorem threshold_settings_differ :
    ¬ SameOutcome (PagedMemory.full UInt8.ofNat).toMemory
      (memmoveThreshold ⟨0, 5000, 0, 0, 0, 0⟩ false 4100 4096 4000)
      (memmoveThreshold ⟨0, 0, 0, 0, 0, 5000⟩ true 4100 4096 4000) 4100
      fun after => Copied (PagedMemory.full UInt8.ofNat).toMemory after 4100 4096 4000 := by
  have buffers : Copy.Buffers (PagedMemory.full UInt8.ofNat).toMemory 4100 4096 4000 :=
    ⟨fun _ _ => rfl, fun _ _ => rfl⟩
  have iff := memmoveThreshold_same_iff ⟨⟨0, 5000, 0, 0, 0, 0⟩, false⟩ ⟨⟨0, 0, 0, 0, 0, 5000⟩, true⟩
    buffers (by decide)
  exact fun same => absurd (iff.mp same (.inl (by decide)) rfl) (by decide)

end Settings

end AoclLibmem.Tunable
