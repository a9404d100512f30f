import AoclLibmem.Copy.MemcpyZen4
import AoclLibmem.Copy.MemcpyAvx512
import AoclLibmem.Copy.MemcpyAvx512Erms

/-! The accesses of the 512-bit copy family. An access without the rights it needs stops a
run, and so does an aligned or streaming one at an address that is no multiple of its vector.
So a run that returns although only the two buffers can be accessed has made no other. -/

namespace AoclLibmem.Copy

open Base Machine

section Kernel
variable (l2PerCore l1dPerCore ntStartThreshold dst src size : Nat)

def mempcpyAvx512 : Kernel Nat := do
  let ret := dst + size
  let _ ← memcpyAvx512 l2PerCore ntStartThreshold dst src size .memcpy
  return ret

def mempcpyZen5 : Kernel Nat := do
  let ret := dst + size
  let _ ← memcpyAvx512Erms l1dPerCore ntStartThreshold dst src size .memcpy
  return ret

end Kernel

/-- Whatever the bytes, the run loads from `src[0..size)` only, stores to `dst[0..size)` only,
and returns `value` when the copy is done. -/
def LegalCopy (run : Kernel Nat) (value dst src size : Nat) : Prop :=
  ∀ start : Memory, ∃ after, run (confined start dst src size) = .ok (value, after) ∧
    Copied start after dst src size

section Legal
variable {l2PerCore l1dPerCore ntStartThreshold dst src size : Nat} {build : Build}

/-- A copy that is complete with the rights to the two buffers needs no others. -/
theorem legalCopy_of_complete {run : Kernel Nat}
    (complete : ∀ start : Memory, Buffers start dst src size →
      Triple (Progress start dst src ∅) run (Complete start dst src size)) :
    LegalCopy run dst dst src size := by
  intro start
  obtain ⟨after, returned, copied⟩ := runs_of_complete (complete _ (confined_buffers start dst src size))
  exact ⟨after, returned, copied⟩

theorem memcpyAvx512_legal (range : size < sizeRange)
    (admits : build = .memmove ∨ dst + size ≤ src ∨ src + size ≤ dst) :
    LegalCopy (memcpyAvx512 l2PerCore ntStartThreshold dst src size build) dst dst src size := by
  apply legalCopy_of_complete
  intro start buffers
  exact memcpyAvx512_complete buffers range admits

theorem memcpyAvx512Erms_legal (range : size < sizeRange)
    (admits : build = .memmove ∨ dst + size ≤ src ∨ src + size ≤ dst) :
    LegalCopy (memcpyAvx512Erms l1dPerCore ntStartThreshold dst src size build) dst dst src size := by
  apply legalCopy_of_complete
  intro start buffers
  exact memcpyAvx512Erms_complete buffers range admits

theorem memcpyZen4Impl_legal (range : size < sizeRange)
    (admits : build = .memmove ∨ dst + size ≤ src ∨ src + size ≤ dst) :
    LegalCopy (memcpyZen4Impl l2PerCore ntStartThreshold dst src size build) dst dst src size := by
  apply legalCopy_of_complete
  intro start buffers
  exact memcpyZen4Impl_complete buffers range admits

/-- A mempcpy build makes the accesses of the memcpy build and returns another address. -/
theorem mempcpy_legal {run : Kernel Nat} {value : Nat} (legal : LegalCopy run dst dst src size) :
    LegalCopy (do let _ ← run; return value) value dst src size := by
  intro start
  obtain ⟨after, returned, copied⟩ := legal start
  refine ⟨after, ?_, copied⟩
  rw [bind_returned returned]
  rfl

end Legal

/-- For all addresses, sizes, cache sizes and thresholds: the memmove builds make no illegal
access whatever the overlap, the memcpy and mempcpy builds none on disjoint buffers. -/
theorem copyAvx512_legal (l2PerCore l1dPerCore ntStartThreshold dst src size : Nat)
    (range : size < sizeRange) :
    (LegalCopy (memcpyAvx512 l2PerCore ntStartThreshold dst src size .memmove) dst dst src size ∧
      LegalCopy (memcpyAvx512Erms l1dPerCore ntStartThreshold dst src size .memmove) dst dst src size ∧
      LegalCopy (memcpyZen4Impl l2PerCore ntStartThreshold dst src size .memmove) dst dst src size) ∧
    ((dst + size ≤ src ∨ src + size ≤ dst) →
      (LegalCopy (memcpyAvx512 l2PerCore ntStartThreshold dst src size .memcpy) dst dst src size ∧
        LegalCopy (memcpyAvx512Erms l1dPerCore ntStartThreshold dst src size .memcpy) dst dst src size ∧
        LegalCopy (memcpyZen4Impl l2PerCore ntStartThreshold dst src size .memcpy) dst dst src size) ∧
      LegalCopy (mempcpyAvx512 l2PerCore ntStartThreshold dst src size) (dst + size) dst src size ∧
        LegalCopy (mempcpyZen5 l1dPerCore ntStartThreshold dst src size) (dst + size) dst src size ∧
        LegalCopy (mempcpyZen4 l2PerCore ntStartThreshold dst src size) (dst + size) dst src size) := by
  refine ⟨⟨memcpyAvx512_legal range (.inl rfl), memcpyAvx512Erms_legal range (.inl rfl),
    memcpyZen4Impl_legal range (.inl rfl)⟩, fun apart => ?_⟩
  have avx512 : LegalCopy (memcpyAvx512 l2PerCore ntStartThreshold dst src size .memcpy) dst dst src
      size := memcpyAvx512_legal range (.inr apart)
  have erms : LegalCopy (memcpyAvx512Erms l1dPerCore ntStartThreshold dst src size .memcpy) dst dst
      src size := memcpyAvx512Erms_legal range (.inr apart)
  have zen4 : LegalCopy (memcpyZen4Impl l2PerCore ntStartThreshold dst src size .memcpy) dst dst src
      size := memcpyZen4Impl_legal range (.inr apart)
  exact ⟨⟨avx512, erms, zen4⟩, mempcpy_legal avx512, mempcpy_legal erms, mempcpy_legal zen4⟩

theorem copyAvx512_legal_both :
    LegalCopy (memcpyAvx512 65536 4096 128 64 1000 .memmove) 128 128 64 1000 ∧
      LegalCopy (mempcpyZen5 32768 4096 4096 64 1000) 5096 4096 64 1000 :=
  ⟨(copyAvx512_legal 65536 32768 4096 128 64 1000 (by rw [sizeRange_eq]; decide)).1.1,
    ((copyAvx512_legal 65536 32768 4096 4096 64 1000 (by rw [sizeRange_eq]; decide)).2
      (.inr (by decide))).2.2.1⟩

/-- Between disjoint buffers the memcpy builds and `__mempcpy_zen5` copy, for all cache sizes and
thresholds, and all of them leave the same bytes. -/
theorem memcpyAvx512_builds_agree (start : Memory)
    (l2PerCore l1dPerCore ntStartThreshold dst src size : Nat)
    (buffers : Buffers start dst src size) (range : size < sizeRange)
    (apart : dst + size ≤ src ∨ src + size ≤ dst) :
    ∃ after erms zen5 : Memory,
      (memcpyAvx512 l2PerCore ntStartThreshold dst src size .memcpy start = .ok (dst, after) ∧
        Copied start after dst src size) ∧
      (memcpyAvx512Erms l1dPerCore ntStartThreshold dst src size .memcpy start = .ok (dst, erms) ∧
        Copied start erms dst src size) ∧
      (mempcpyZen5 l1dPerCore ntStartThreshold dst src size start = .ok (dst + size, zen5) ∧
        Copied start zen5 dst src size) ∧
      after.byte = erms.byte ∧ erms.byte = zen5.byte := by
  have complete512 : Triple (Progress start dst src ∅)
      (memcpyAvx512 l2PerCore ntStartThreshold dst src size .memcpy) (Complete start dst src size) :=
    memcpyAvx512_complete buffers range (.inr apart)
  have complete : Triple (Progress start dst src ∅)
      (memcpyAvx512Erms l1dPerCore ntStartThreshold dst src size .memcpy)
      (Complete start dst src size) :=
    memcpyAvx512Erms_complete buffers range (.inr apart)
  obtain ⟨after, returned, copied⟩ := runs_of_complete complete512
  obtain ⟨erms, returned1, copied1⟩ := runs_of_complete complete
  obtain ⟨zen5, returned2, copied2⟩ := runs_of_returns (returns_of_complete complete)
  exact ⟨after, erms, zen5, ⟨returned, copied⟩, ⟨returned1, copied1⟩, ⟨returned2, copied2⟩,
    copied_unique copied copied1, copied_unique copied1 copied2⟩

theorem memcpyAvx512_builds_agree_pages :
    ∃ after erms zen5 : Memory,
      (memcpyAvx512 65536 4096 4096 8192 1000 .memcpy (PagedMemory.full UInt8.ofNat).toMemory =
          .ok (4096, after) ∧
        Copied (PagedMemory.full UInt8.ofNat).toMemory after 4096 8192 1000) ∧
      (memcpyAvx512Erms 32768 4096 4096 8192 1000 .memcpy (PagedMemory.full UInt8.ofNat).toMemory =
          .ok (4096, erms) ∧
        Copied (PagedMemory.full UInt8.ofNat).toMemory erms 4096 8192 1000) ∧
      (mempcpyZen5 32768 4096 4096 8192 1000 (PagedMemory.full UInt8.ofNat).toMemory =
          .ok (5096, zen5) ∧
        Copied (PagedMemory.full UInt8.ofNat).toMemory zen5 4096 8192 1000) ∧
      after.byte = erms.byte ∧ erms.byte = zen5.byte :=
  memcpyAvx512_builds_agree _ 65536 32768 4096 4096 8192 1000 ⟨fun _ _ => rfl, fun _ _ => rfl⟩
    (by rw [sizeRange_eq]; decide) (.inl (by decide))

end AoclLibmem.Copy
