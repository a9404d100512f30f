import AoclLibmem.Copy.TunableMemmove
import AoclLibmem.Copy.LegalAccess

/-! The contract of the tunable vector copies. In a memory with rights to the two buffers only, an
access elsewhere stops the run, and so does an aligned or streaming one off its boundary. -/

namespace AoclLibmem.Copy

open Base Machine

theorem mempcpyVariant_eq (isa : VecIsa) (variant : Variant) (dst src size : Nat) :
    mempcpyVariant isa variant dst src size = do
      let _ ← memcpyVariant isa variant dst src size
      return dst + size := by
  cases isa <;> cases variant <;> rfl

/-- Between disjoint buffers every memcpy and mempcpy variant copies, `aligned` and `nt` between
vector-aligned ones. -/
theorem tunableMemcpy_copies (isa : VecIsa) (variant : Variant) (dst src size : Nat)
    (range : size < sizeRange) (apart : dst + size ≤ src ∨ src + size ≤ dst)
    (aligned : variant.NeedsAligned → dst % isa.vecSz = 0 ∧ src % isa.vecSz = 0) :
    LegalCopy (memcpyVariant isa variant dst src size) dst dst src size ∧
      LegalCopy (mempcpyVariant isa variant dst src size) (dst + size) dst src size := by
  have legal : LegalCopy (memcpyVariant isa variant dst src size) dst dst src size := by
    apply legalCopy_of_complete
    intro start buffers
    exact memcpyVariant_complete buffers range apart aligned
  rw [mempcpyVariant_eq]
  exact ⟨legal, mempcpy_legal legal⟩

theorem tunableMemcpy_copies_nt :
    LegalCopy (memcpyAvx512Nt 8192 4096 1000) 8192 8192 4096 1000 ∧
      LegalCopy (mempcpyAvx512Nt 8192 4096 1000) 9192 8192 4096 1000 :=
  tunableMemcpy_copies .avx512 .nt 8192 4096 1000 (by rw [sizeRange_eq]; decide) (.inr (by decide))
    fun _ => ⟨rfl, rfl⟩

/-- Whatever the overlap, every memmove variant moves, `aligned` and `nt` between vector-aligned
buffers. -/
theorem tunableMemmove_moves (isa : VecIsa) (variant : Variant) (dst src size : Nat)
    (range : size < sizeRange)
    (aligned : variant.NeedsAligned → dst % isa.vecSz = 0 ∧ src % isa.vecSz = 0) :
    LegalCopy (memmoveVariant isa variant dst src size) dst dst src size := by
  apply legalCopy_of_complete
  intro start buffers
  exact memmoveVariant_complete buffers range aligned

theorem tunableMemmove_moves_aligned :
    LegalCopy (memmoveAvx2Aligned 4128 4096 1000) 4128 4128 4096 1000 :=
  tunableMemmove_moves .avx2 .aligned 4128 4096 1000 (by rw [sizeRange_eq]; decide)
    fun _ => ⟨rfl, rfl⟩

end AoclLibmem.Copy
