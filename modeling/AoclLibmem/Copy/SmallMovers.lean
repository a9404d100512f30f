import AoclLibmem.Copy.TunableMovers
import AoclLibmem.Copy.LegalAccess

/-! The small movers that `memmove` and the 512-bit copies rest on, each on its own. They admit any
overlap: in every size class both pieces are loaded before the first of them is stored. -/

namespace AoclLibmem.Copy

open Base Machine

/-- With the rights to the two buffers the run moves `src[0..size)` to `dst[0..size)` and returns
`dst`, and it needs no other rights. -/
def MovesExactly (run : Kernel Nat) (dst src size : Nat) : Prop :=
  (∀ start : Memory, Buffers start dst src size →
    ∃ after, run start = .ok (dst, after) ∧ Copied start after dst src size) ∧
  LegalCopy run dst dst src size

section Movers
variable {dst src size : Nat}

theorem movesExactly_of_complete {run : Kernel Nat}
    (complete : ∀ start : Memory, Buffers start dst src size →
      Triple (Progress start dst src ∅) run (Complete start dst src size)) :
    MovesExactly run dst src size :=
  ⟨fun start buffers => runs_of_complete (complete start buffers), legalCopy_of_complete complete⟩

private theorem loadStoreLe2YmmVecOverlap_exact (short : size ≤ 2 * ymmSz) :
    MovesExactly (loadStoreLe2YmmVecOverlap dst src size) dst src size := by
  apply movesExactly_of_complete
  intro start buffers
  exact (loadStoreLe2YmmVecOverlap_moves buffers short (by omega) intact_empty).complete

private theorem loadStoreBle2ZmmVecOverlap_exact (short : size ≤ 2 * zmmSz) :
    MovesExactly (loadStoreBle2ZmmVecOverlap dst src size) dst src size := by
  apply movesExactly_of_complete
  intro start buffers
  exact loadStoreBle2Zmm_complete buffers short (tailHeadScalar_moves buffers)

private theorem loadStoreBleZmmVecHeadTail_exact (short : size < zmmSz) :
    MovesExactly (loadStoreBleZmmVecHeadTail dst src size) dst src size := by
  apply movesExactly_of_complete
  intro start buffers
  exact (loadStoreBleZmmVecHeadTail_moves buffers short (by omega) intact_empty).complete

/-- Each mover is exact on the sizes it is called for, whatever the two addresses are. -/
theorem smallMovers_exact (dst src size : Nat) :
    (size ≤ 2 * ymmSz → MovesExactly (loadStoreLe2YmmVecOverlap dst src size) dst src size) ∧
      (size ≤ 2 * zmmSz → MovesExactly (loadStoreBle2ZmmVecOverlap dst src size) dst src size) ∧
      (size < zmmSz → MovesExactly (loadStoreBleZmmVecHeadTail dst src size) dst src size) :=
  ⟨loadStoreLe2YmmVecOverlap_exact, loadStoreBle2ZmmVecOverlap_exact,
    loadStoreBleZmmVecHeadTail_exact⟩

theorem smallMovers_exact_overlapping :
    MovesExactly (loadStoreLe2YmmVecOverlap 4099 4096 7) 4099 4096 7 ∧
      MovesExactly (loadStoreBle2ZmmVecOverlap 4096 4125 100) 4096 4125 100 ∧
      MovesExactly (loadStoreBleZmmVecHeadTail 4097 4096 63) 4097 4096 63 :=
  ⟨(smallMovers_exact 4099 4096 7).1 (by decide), (smallMovers_exact 4096 4125 100).2.1 (by decide),
    (smallMovers_exact 4097 4096 63).2.2 (by decide)⟩

end Movers

end AoclLibmem.Copy
