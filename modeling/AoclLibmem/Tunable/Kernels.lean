import AoclLibmem.Tunable.ThresholdChoice
import AoclLibmem.Copy.TunableVariants
import AoclLibmem.Compare.TunableMapped
import AoclLibmem.Fill.MemsetRights

/-! The rest of `tunable/`: the aliases among its memset and memcmp kernels, its string instructions
by unit, and `__memcmp_threshold`. -/

namespace AoclLibmem.Tunable

open Base Machine Dispatch Copy Fill Compare

section Kernels

def mempcpyErmsWAligned := ermsMovsLastByte .w
def mempcpyErmsDAligned := ermsMovsLastByte .d
def mempcpyErmsQAligned := ermsMovsLastByte .q

def mempcpyErmsAligned : StringUnit → Nat → Nat → Nat → Kernel Nat
  | .b => mempcpyErmsBAligned
  | .w => mempcpyErmsWAligned
  | .d => mempcpyErmsDAligned
  | .q => mempcpyErmsQAligned

def memsetErmsAligned : StringUnit → Nat → Nat → BitVec 32 → Kernel Nat
  | .b => memsetErmsBAligned
  | .w => memsetErmsWAligned
  | .d => memsetErmsDAligned
  | .q => memsetErmsQAligned

/-- A load changes nothing of a fill: `aligned_load` and `nt_load` are aliases of `unaligned`, and
`aligned` is one of `aligned_store`. -/
def memsetVariant : VecIsa → Variant → Nat → BitVec 32 → Nat → Kernel Nat
  | .avx2, .unaligned | .avx2, .alignedLoad | .avx2, .ntLoad => memsetAvx2Unaligned
  | .avx2, .aligned | .avx2, .alignedStore => memsetAvx2AlignedStore
  | .avx2, .nt => memsetAvx2Nt
  | .avx2, .ntStore => memsetAvx2NtStore
  | .avx512, .unaligned | .avx512, .alignedLoad | .avx512, .ntLoad => memsetAvx512Unaligned
  | .avx512, .aligned | .avx512, .alignedStore => memsetAvx512AlignedStore
  | .avx512, .nt => memsetAvx512Nt
  | .avx512, .ntStore => memsetAvx512NtStore

variable (m : Memory) (rcxHigh : BitVec 32) (mem1 mem2 size : Nat)

def memcmpVariant : VecIsa → Variant → Exec Int
  | .avx2, .aligned => memcmpAvx2Aligned m mem1 mem2 size
  | .avx2, .nt => memcmpAvx2Nt m mem1 mem2 size
  | .avx2, _ => memcmpAvx2Unaligned m mem1 mem2 size
  | .avx512, .aligned => memcmpAvx512Aligned m mem1 mem2 size
  | .avx512, .nt => memcmpAvx512Nt m mem1 mem2 size
  | .avx512, _ => memcmpAvx512Unaligned m mem1 mem2 size

def memcmpErmsAligned (clangWorkaround : Bool) : StringUnit → Exec Int
  | .b => memcmpErmsBAligned m rcxHigh mem1 mem2 size
  | .w => memcmpErmsWAligned m rcxHigh mem1 mem2 size
  | .d => memcmpErmsDAligned m rcxHigh mem1 mem2 size clangWorkaround
  | .q => memcmpErmsQAligned m rcxHigh mem1 mem2 size

def unitCompared (clangWorkaround : Bool) : StringUnit → StringUnit
  | .d => if clangWorkaround then .w else .d
  | unit => unit

/-- `__memcmp_threshold`: it has no streaming loads. -/
def memcmpThreshold (thresholds : Thresholds) (avx512 : Bool) : Exec Int :=
  if InRepmov thresholds size then memcmpErmsBAligned m rcxHigh mem1 mem2 size
  else if avx512 then memcmpAvx512Unaligned m mem1 mem2 size
  else memcmpAvx2Unaligned m mem1 mem2 size

end Kernels

section Copies
variable {start : Memory} {thresholds : Thresholds} {avx512 : Bool} {dst src size : Nat}

/-- All bytes are copied and the end is returned; the rights are those of the start. -/
def CompleteToEnd (start : Memory) (dst src size last : Nat) (m : Memory) : Prop :=
  (last = dst + size ∧ Copied start m dst src size) ∧
    m.readable = start.readable ∧ m.writable = start.writable

theorem mempcpyErmsAligned_toEnd (buffers : Copy.Buffers start dst src size) (positive : size < 2 ^ 63)
    (apart : dst + size ≤ src ∨ src + size ≤ dst) {unit : StringUnit} (whole : size % unit.bytes = 0) :
    Triple (Copy.Progress start dst src ∅) (mempcpyErmsAligned unit dst src size)
      (CompleteToEnd start dst src size) := by
  have clear : dst ≤ src ∨ src + size ≤ dst := by omega
  have covers := StringUnit.count_mul positive whole
  cases unit <;> exact ermsMovs_triple buffers covers clear

theorem toEnd_of_complete {run : Kernel Nat}
    (complete : Triple (Copy.Progress start dst src ∅) run (Copy.Complete start dst src size)) :
    Triple (Copy.Progress start dst src ∅) (do let _ ← run; return dst + size)
      (CompleteToEnd start dst src size) :=
  complete.bind fun _ => triple_pure fun _ done => ⟨⟨rfl, done.1.2⟩, done.2⟩

theorem mempcpyVariant_toEnd (buffers : Copy.Buffers start dst src size) (range : size < sizeRange)
    (apart : dst + size ≤ src ∨ src + size ≤ dst) {isa : VecIsa} {variant : Variant}
    (aligned : variant.NeedsAligned → dst % isa.vecSz = 0 ∧ src % isa.vecSz = 0) :
    Triple (Copy.Progress start dst src ∅) (mempcpyVariant isa variant dst src size)
      (CompleteToEnd start dst src size) := by
  rw [mempcpyVariant_eq]
  exact toEnd_of_complete (memcpyVariant_complete buffers range apart aligned)

theorem mempcpyThreshold_toEnd (buffers : Copy.Buffers start dst src size) (positive : size < 2 ^ 63)
    (apart : dst + size ≤ src ∨ src + size ≤ dst) :
    Triple (Copy.Progress start dst src ∅) (mempcpyThreshold thresholds avx512 dst src size)
      (CompleteToEnd start dst src size) := by
  have range : size < sizeRange := by rw [sizeRange_eq]; omega
  refine byThreshold_triple (fun _ => ?_) (fun isa => ?_) fun isa => ?_
  · exact mempcpyErmsAligned_toEnd buffers positive apart (StringUnit.whole_b size)
  · cases isa <;> exact toEnd_of_complete (memcpyNtStore_complete buffers range apart)
  · cases isa <;> exact toEnd_of_complete (memcpyUnaligned_complete buffers range apart)

/-- A `rep movs` for memcpy returns the end, which is the start when there is nothing to copy. -/
theorem memcpyErmsAligned_nothing (buffers : Copy.Buffers start dst src 0) (unit : StringUnit) :
    Triple (Copy.Progress start dst src ∅) (memcpyErmsAligned unit dst src 0)
      (Copy.Complete start dst src 0) := by
  have moved : Triple (Copy.Progress start dst src ∅) (ermsMovs unit dst src 0) _ :=
    ermsMovs_triple buffers (StringUnit.count_mul (by decide) (Nat.zero_mod _)) (Nat.le_total dst src)
  have complete : Triple (Copy.Progress start dst src ∅) (ermsMovs unit dst src 0)
      (Copy.Complete start dst src 0) := moved.imp fun _ _ done => done
  cases unit <;> exact complete

theorem memcpyThreshold_complete (buffers : Copy.Buffers start dst src size) (range : size < sizeRange)
    (apart : dst + size ≤ src ∨ src + size ≤ dst) (outside : ¬ InRepmov thresholds size) :
    Triple (Copy.Progress start dst src ∅) (memcpyThreshold thresholds avx512 dst src size)
      (Copy.Complete start dst src size) := by
  refine byThreshold_triple (fun inside => absurd inside outside) (fun isa => ?_) fun isa => ?_
  · cases isa <;> exact memcpyNtStore_complete buffers range apart
  · cases isa <;> exact memcpyUnaligned_complete buffers range apart

end Copies

section Fills
variable {start : Memory} {thresholds : Thresholds} {avx512 : Bool} {mem size : Nat} {val : BitVec 32}

theorem memsetVariant_complete (buffer : Fill.Buffer start mem size) (range : size < sizeRange)
    (isa : VecIsa) (variant : Variant) :
    Triple (Fill.Progress start mem (fun _ => uchar val) ∅) (memsetVariant isa variant mem val size)
      (Fill.Complete start mem size (uchar val)) := by
  cases variant with
  | unaligned | alignedLoad | ntLoad => cases isa <;> exact memsetUnaligned_complete buffer range
  | aligned | alignedStore => cases isa <;> exact memsetAlignedStore_complete buffer range
  | nt | ntStore => cases isa <;> exact memsetNtStore_complete buffer range

theorem memsetVariant_keeps (isa : VecIsa) (variant : Variant) :
    Keeps Memory.rights (memsetVariant isa variant mem val size) := by
  cases variant with
  | unaligned | alignedLoad | ntLoad => cases isa <;> exact memsetUnaligned_keeps _ mem val size
  | aligned | alignedStore => cases isa <;> exact memsetAlignedStore_keeps _ mem val size
  | nt | ntStore => cases isa <;> exact memsetNtStore_keeps _ mem val size

/-- The values that `rep stos` by units fills with their lowest byte. -/
def Fillable (val : BitVec 32) : StringUnit → Prop
  | .b => True
  | .w | .d => ClearAbove (val.setWidth 16)
  | .q => ClearAbove (val.signExtend 64)

theorem memsetErmsAligned_fills (buffer : Fill.Buffer start mem size) (positive : size < 2 ^ 63)
    {unit : StringUnit} (whole : size % unit.bytes = 0) (fillable : size = 0 ∨ Fillable val unit) :
    Fills start (memsetErmsAligned unit mem size val) mem size (uchar val) := by
  cases unit with
  | b => exact Fill.runs_of_complete (memsetErmsBAligned_complete buffer)
  | w => exact (ermsStosw_fills_iff buffer positive whole).mpr fillable
  | d =>
    have words : size % 2 = 0 := by
      have dwords : size % 4 = 0 := whole
      omega
    exact (ermsStosw_fills_iff buffer positive words).mpr fillable
  | q => exact (ermsStosq_fills_iff buffer positive whole).mpr fillable

theorem memsetErmsAligned_keeps (unit : StringUnit) :
    Keeps Memory.rights (memsetErmsAligned unit mem size val) := by
  cases unit <;> exact repStos_return_keeps mem _

theorem memsetThreshold_keeps : Keeps Memory.rights (memsetThreshold thresholds avx512 mem val size) := by
  refine keeps_ite (repStos_return_keeps mem _) (keeps_ite ?_ ?_)
  · cases avx512 <;> exact memsetNtStore_keeps _ mem val size
  · cases avx512 <;> exact memsetUnaligned_keeps _ mem val size

end Fills

section Comparisons
variable {m : Memory} {mem1 mem2 size : Nat} (call : MemcmpCall m mem1 mem2 size)
include call

/-- The AVX2 kernels keep the index of the difference in an `int`. -/
theorem memcmpVariant_orders {isa : VecIsa} {variant : Variant}
    (aligned : variant.NeedsAligned → mem1 % isa.vecSz = 0 ∧ mem2 % isa.vecSz = 0)
    (near : isa = .avx2 → ∀ k < size, FirstHit (Differs m.byte mem1 mem2) k → k < 2 ^ 31) :
    OrdersExactly m mem1 mem2 size (memcmpVariant m mem1 mem2 size isa variant) := by
  cases isa with
  | avx2 =>
    have orders {type : Access} (allowed : type = .unaligned ∨ (mem1 % 32 = 0 ∧ mem2 % 32 = 0)) :=
      call.orders_avx2Body allowed (near rfl)
    cases variant with
    | aligned => exact orders (.inr (aligned (.inl rfl)))
    | nt => exact orders (.inr (aligned (.inr rfl)))
    | unaligned | alignedLoad | alignedStore | ntLoad | ntStore => exact orders (.inl rfl)
  | avx512 =>
    cases variant with
    | aligned => exact call.orders_avx512Body (.inr (aligned (.inl rfl)))
    | nt => exact call.orders_avx512Body (.inr (aligned (.inr rfl)))
    | unaligned | alignedLoad | alignedStore | ntLoad | ntStore =>
      exact call.orders_avx512Body (.inl rfl)

theorem memcmpErmsAligned_signs {unit : StringUnit} {rcxHigh : BitVec 32} {clangWorkaround : Bool}
    (whole : size % unit.bytes = 0)
    (served : Served m.byte mem1 mem2 size (unitCompared clangWorkaround unit) rcxHigh) :
    OrdersSign m mem1 mem2 size
      (memcmpErmsAligned m rcxHigh mem1 mem2 size clangWorkaround unit) := by
  cases unit with
  | b | w | q => exact call.signs_ermsCmps whole served
  | d =>
    cases clangWorkaround with
    | false => exact call.signs_ermsCmps whole served
    | true =>
      have words : size % StringUnit.w.bytes = 0 := by
        have dwords : size % 4 = 0 := whole
        simp only [StringUnit.bytes, StringUnit.shift]
        omega
      exact call.signs_ermsCmps words served

theorem memcmpThreshold_signs {thresholds : Thresholds} {avx512 : Bool} {rcxHigh : BitVec 32}
    (served : InRepmov thresholds size → Served m.byte mem1 mem2 size .b rcxHigh)
    (near : ¬ InRepmov thresholds size → avx512 = false →
      ∀ k < size, FirstHit (Differs m.byte mem1 mem2) k → k < 2 ^ 31) :
    OrdersSign m mem1 mem2 size (memcmpThreshold m rcxHigh mem1 mem2 size thresholds avx512) := by
  unfold memcmpThreshold
  split
  · next inside => exact call.signs_ermsCmps (StringUnit.whole_b size) (served inside)
  · next outside =>
    cases avx512 with
    | true => exact ordersSign_of_exactly (call.orders_avx512Body (.inl rfl))
    | false => exact ordersSign_of_exactly (call.orders_avx2Body (.inl rfl) (near outside rfl))

end Comparisons

end AoclLibmem.Tunable
