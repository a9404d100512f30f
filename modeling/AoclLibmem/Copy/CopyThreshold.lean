import AoclLibmem.Copy.StringMoves
import AoclLibmem.Copy.TunableMemmove
import AoclLibmem.Dispatch.EnvParser

/-! `tunable/threshold`: the copy functions that choose a kernel by the size, and memcpy's
contract for them and for the `rep movs` variants. -/

namespace AoclLibmem.Copy

open Base Machine Dispatch

section Kernel
variable (thresholds : Thresholds) (avx512 : Bool)

def InRepmov (size : Nat) : Prop :=
  size > thresholds.repmovStartThreshold ∧ size < thresholds.repmovStopThreshold

def InNt (size : Nat) : Prop :=
  size > thresholds.ntStartThreshold ∧ size < thresholds.ntStopThreshold

instance (size : Nat) : Decidable (InRepmov thresholds size) := inferInstanceAs (Decidable (_ ∧ _))

instance (size : Nat) : Decidable (InNt thresholds size) := inferInstanceAs (Decidable (_ ∧ _))

/-- The text of the threshold files: the string instruction in its interval, streaming stores
in theirs, else unaligned vectors; the last two by instruction set. -/
def byThreshold (inRep : Prop) [Decidable inRep] (size : Nat) (rep : Kernel Nat)
    (ntStore unaligned : VecIsa → Kernel Nat) : Kernel Nat :=
  let isa := if avx512 then VecIsa.avx512 else .avx2
  if inRep then rep else if InNt thresholds size then ntStore isa else unaligned isa

variable (dst src size : Nat)

def memcpyThreshold : Kernel Nat :=
  byThreshold thresholds avx512 (InRepmov thresholds size) size (memcpyErmsBAligned dst src size)
    (fun
      | .avx512 => memcpyAvx512NtStore dst src size
      | .avx2 => memcpyAvx2NtStore dst src size)
    (fun
      | .avx512 => memcpyAvx512Unaligned dst src size
      | .avx2 => memcpyAvx2Unaligned dst src size)

def mempcpyThreshold : Kernel Nat :=
  byThreshold thresholds avx512 (InRepmov thresholds size) size (mempcpyErmsBAligned dst src size)
    (fun
      | .avx512 => mempcpyAvx512NtStore dst src size
      | .avx2 => mempcpyAvx2NtStore dst src size)
    (fun
      | .avx512 => mempcpyAvx512Unaligned dst src size
      | .avx2 => mempcpyAvx2Unaligned dst src size)

def memmoveThreshold : Kernel Nat :=
  byThreshold thresholds avx512 (InRepmov thresholds size) size (memmoveErmsBAligned dst src size)
    (fun
      | .avx512 => memmoveAvx512NtStore dst src size
      | .avx2 => memmoveAvx2NtStore dst src size)
    (fun
      | .avx512 => memmoveAvx512Unaligned dst src size
      | .avx2 => memmoveAvx2Unaligned dst src size)

end Kernel

section Choice
variable {start : Memory} {thresholds : Thresholds} {avx512 : Bool} {inRep : Prop} [Decidable inRep]
variable {size : Nat} {rep : Kernel Nat} {ntStore unaligned : VecIsa → Kernel Nat}

theorem byThreshold_triple {before : Memory → Prop} {post : Nat → Memory → Prop}
    (string : inRep → Triple before rep post) (stream : ∀ isa, Triple before (ntStore isa) post)
    (vector : ∀ isa, Triple before (unaligned isa) post) :
    Triple before (byThreshold thresholds avx512 inRep size rep ntStore unaligned) post :=
  triple_ite string fun _ => triple_ite (fun _ => stream _) fun _ => vector _

end Choice

section Copies
variable {start : Memory} {thresholds : Thresholds} {avx512 : Bool} {dst src size : Nat}

/-- Only the string instruction's way back may lose the `dst` to be returned. -/
theorem memmoveThreshold_triple (buffers : Buffers start dst src size) (positive : size < 2 ^ 63) :
    Triple (Progress start dst src ∅) (memmoveThreshold thresholds avx512 dst src size)
      fun result m => ((result = dst ↔ (InRepmov thresholds size → KeepsRax .b dst src size)) ∧
        Copied start m dst src size) ∧ m.readable = start.readable ∧ m.writable = start.writable := by
  have range : size < sizeRange := by rw [sizeRange_eq]; omega
  refine triple_ite (fun inside => ?_) fun outside => ?_
  · refine (memmoveErmsAligned_triple buffers (StringUnit.covers_b size)).imp fun _ _ done => ?_
    exact ⟨⟨done.1.1.trans ⟨fun keeps _ => keeps, fun keeps => keeps inside⟩, done.1.2⟩, done.2⟩
  · have returns {run : Kernel Nat}
        (complete : Triple (Progress start dst src ∅) run (Complete start dst src size)) :=
      complete.imp fun result _ done =>
        show ((result = dst ↔ (InRepmov thresholds size → KeepsRax .b dst src size)) ∧ _) ∧ _ from
          ⟨⟨iff_of_true done.1.1 fun inside => absurd inside outside, done.1.2⟩, done.2⟩
    refine triple_ite (fun _ => returns ?_) fun _ => returns ?_
    · cases avx512 <;> exact memmoveNtStore_complete buffers range
    · cases avx512 <;> exact memmoveUnaligned_complete buffers range

theorem memmoveThreshold_complete (buffers : Buffers start dst src size) (positive : size < 2 ^ 63)
    (keeps : InRepmov thresholds size → KeepsRax .b dst src size) :
    Triple (Progress start dst src ∅) (memmoveThreshold thresholds avx512 dst src size)
      (Complete start dst src size) :=
  (memmoveThreshold_triple buffers positive).imp fun _ _ done =>
    ⟨⟨done.1.1.mpr keeps, done.1.2⟩, done.2⟩

theorem mempcpyThreshold_triple (buffers : Buffers start dst src size) (positive : size < 2 ^ 63)
    (apart : dst + size ≤ src ∨ src + size ≤ dst) :
    Triple (Progress start dst src ∅) (mempcpyThreshold thresholds avx512 dst src size)
      fun result m => result = dst + size ∧ Copied start m dst src size := by
  have range : size < sizeRange := by rw [sizeRange_eq]; omega
  refine byThreshold_triple (fun _ => ?_) (fun isa => ?_) fun isa => ?_
  · exact (ermsMovs_triple buffers (StringUnit.covers_b size) (by omega)).imp fun _ _ done => done.1
  · cases isa <;> exact returns_of_complete (memcpyNtStore_complete buffers range apart)
  · cases isa <;> exact returns_of_complete (memcpyUnaligned_complete buffers range apart)

end Copies

section Contract
variable {start : Memory} {thresholds : Thresholds} {avx512 : Bool} {dst src size : Nat}

/-- memcpy's contract: the bytes are copied, no other byte changes, and `dst` is returned. -/
def ObeysMemcpy (start : Memory) (run : Kernel Nat) (dst src size : Nat) : Prop :=
  ∃ after, run start = .ok (dst, after) ∧ Copied start after dst src size

def memcpyErmsAligned : StringUnit → Nat → Nat → Nat → Kernel Nat
  | .b => memcpyErmsBAligned
  | .w => memcpyErmsWAligned
  | .d => memcpyErmsDAligned
  | .q => memcpyErmsQAligned

private theorem obeysMemcpy_of_complete {run : Kernel Nat}
    (complete : Triple (Progress start dst src ∅) run (Complete start dst src size)) :
    ObeysMemcpy start run dst src size :=
  runs_of_complete complete

/-- A copy that returns the end obeys the contract only when there is nothing to copy. -/
theorem obeysMemcpy_iff_of_end {run : Kernel Nat}
    (ends : Triple (Progress start dst src ∅) run fun result m =>
      result = dst + size ∧ Copied start m dst src size) :
    ObeysMemcpy start run dst src size ↔ size = 0 := by
  obtain ⟨after, returned, copied⟩ := runs_of_returns ends
  constructor
  · rintro ⟨other, obeyed, _⟩
    rw [returned] at obeyed
    have same : dst + size = dst := congrArg Prod.fst (Except.ok.inj obeyed)
    omega
  · rintro rfl
    exact ⟨after, returned, copied⟩

theorem memcpyErmsAligned_triple (buffers : Buffers start dst src size) (positive : size < 2 ^ 63)
    (apart : dst + size ≤ src ∨ src + size ≤ dst) {unit : StringUnit} (whole : size % unit.bytes = 0) :
    Triple (Progress start dst src ∅) (memcpyErmsAligned unit dst src size) fun result m =>
      result = dst + size ∧ Copied start m dst src size := by
  have clear : dst ≤ src ∨ src + size ≤ dst := by omega
  have covers := StringUnit.count_mul positive whole
  cases unit <;> exact (ermsMovs_triple buffers covers clear).imp fun _ _ done => done.1

/-- The string variants return the end of the destination, so they obey the contract on no
size but 0; the threshold variant does except between the string thresholds. -/
theorem memcpyTunable_obeys_iff (start : Memory) (thresholds : Thresholds) (avx512 : Bool)
    (dst src size : Nat) (buffers : Buffers start dst src size) (positive : size < 2 ^ 63)
    (apart : dst + size ≤ src ∨ src + size ≤ dst) :
    (∀ unit : StringUnit, size % unit.bytes = 0 →
      (ObeysMemcpy start (memcpyErmsAligned unit dst src size) dst src size ↔ size = 0)) ∧
    (ObeysMemcpy start (memcpyThreshold thresholds avx512 dst src size) dst src size ↔
      ¬ InRepmov thresholds size) := by
  refine ⟨fun unit whole => ?_, ?_⟩
  · exact obeysMemcpy_iff_of_end (memcpyErmsAligned_triple buffers positive apart whole)
  · have range : size < sizeRange := by rw [sizeRange_eq]; omega
    by_cases inside : InRepmov thresholds size
    · refine iff_of_false ?_ (not_not_intro inside)
      have string : memcpyThreshold thresholds avx512 dst src size = memcpyErmsAligned .b dst src size :=
        if_pos inside
      rw [string, obeysMemcpy_iff_of_end
        (memcpyErmsAligned_triple buffers positive apart (StringUnit.whole_b size))]
      exact Nat.ne_of_gt (Nat.zero_lt_of_lt inside.1)
    · refine iff_of_true (obeysMemcpy_of_complete ?_) inside
      refine byThreshold_triple (fun string => absurd string inside) (fun isa => ?_) fun isa => ?_
      · cases isa <;> exact memcpyNtStore_complete buffers range apart
      · cases isa <;> exact memcpyUnaligned_complete buffers range apart

theorem memcpyTunable_obeys_iff_pages :
    (ObeysMemcpy (PagedMemory.full UInt8.ofNat).toMemory
        (memcpyThreshold ⟨2048, 524288, 0, 0, 0, 0⟩ true 4096 8192 4096) 4096 8192 4096 ↔
      ¬ InRepmov ⟨2048, 524288, 0, 0, 0, 0⟩ 4096) :=
  (memcpyTunable_obeys_iff _ ⟨2048, 524288, 0, 0, 0, 0⟩ true 4096 8192 4096
    ⟨fun _ _ => rfl, fun _ _ => rfl⟩ (by decide) (.inl (by decide))).2

theorem memcpyErmsBAligned_returns_end :
    ¬ ObeysMemcpy (PagedMemory.full UInt8.ofNat).toMemory (memcpyErmsBAligned 4096 8192 100)
      4096 8192 100 := by
  have buffers : Buffers (PagedMemory.full UInt8.ofNat).toMemory 4096 8192 100 :=
    ⟨fun _ _ => rfl, fun _ _ => rfl⟩
  have ends := memcpyErmsAligned_triple buffers (by decide) (.inl (by decide)) (StringUnit.whole_b 100)
  exact fun obeys => absurd ((obeysMemcpy_iff_of_end ends).mp obeys) (by decide)

end Contract

end AoclLibmem.Copy
