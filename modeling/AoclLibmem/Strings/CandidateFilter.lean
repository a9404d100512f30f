import AoclLibmem.Strings.StrstrAvx2Correct
import AoclLibmem.Strings.StrstrAvx512Correct

/-! The candidate filters of the two `strstr` kernels, on their own: they read nothing outside the
page of the block, and lose no occurrence of the needle. -/

namespace AoclLibmem.Strings

open Base Machine

def MapsPage (m : Memory) (addr : Nat) : Prop :=
  ∀ a, a / pageSz = addr / pageSz → m.readable a = true

/-- The filter thins the candidates out, to the same ones in every memory with these bytes in which
the page of `haystack + offset` is mapped, whether any other is or not. -/
def FiltersInPage {n : Nat} (filter : Memory → Exec (BitVec n)) (byte : Nat → UInt8)
    (haystack needle len offset : Nat) (mask : BitVec n) : Prop :=
  ∃ left, Thinned byte haystack needle len offset mask left ∧
    ∀ m : Memory, m.byte = byte → MapsPage m (haystack + offset) → filter m = .ok left

section Page
variable {m : Memory} {n addr k : Nat} {equal : Lanes n → Lanes n → BitVec n} {key : Lanes n}
variable {haystack needle len offset : Nat} {keys : Broadcast n} {mask : BitVec n}

theorem MapsPage.canRead (page : MapsPage m addr) (inside : addr % pageSz + k + n ≤ pageSz) :
    m.canRead (addr + k) n = true := by
  rw [Memory.canRead_iff]
  intro i below
  apply page
  simp only [pageSz] at inside ⊢
  omega

/-- A filter sees the bytes of its vector only. -/
private theorem filterAt_full (rights : m.canRead addr n = true) :
    filterAt equal m key addr mask =
      filterAt equal (PagedMemory.full m.byte).toMemory key addr mask := by
  have mapped : (PagedMemory.full m.byte).canRead addr n = true :=
    Memory.canRead_iff.mpr fun _ _ => rfl
  rw [filterAt, filterAt, Memory.loadu_eq rights, Memory.loadu_eq mapped]
  rfl

/-- Each filter is applied only where its vector ends before the page does. -/
theorem applyFilterBy_full (page : MapsPage m (haystack + offset)) (some : 1 ≤ len) :
    applyFilterBy equal m haystack offset len keys mask =
      applyFilterBy equal (PagedMemory.full m.byte).toMemory haystack offset len keys mask := by
  have below := Nat.mod_lt (haystack + offset) (by decide : 0 < pageSz)
  unfold applyFilterBy
  dsimp only
  refine ite_congr rfl (fun _ => rfl) fun _ => ?_
  have second : (if pageSz - (haystack + offset) % pageSz > 1 + n then
        filterAt equal m keys.second (haystack + offset + 1) mask else pure mask) =
      if pageSz - (haystack + offset) % pageSz > 1 + n then
        filterAt equal (PagedMemory.full m.byte).toMemory keys.second (haystack + offset + 1) mask
      else pure mask :=
    ite_congr rfl (fun room => filterAt_full (page.canRead (by omega))) fun _ => rfl
  rw [second]
  refine congrArg (_ >>= ·) (funext fun left => ?_)
  refine ite_congr rfl (fun room => ?_) fun _ => rfl
  rw [Nat.add_sub_assoc some]
  exact filterAt_full (page.canRead (by omega))

/-- What holds of the shared text, for either comparison. -/
private theorem applyFilterBy_inPage (lanes : MarksEqual equal) (long : 2 ≤ len)
    (byte : Nat → UInt8) : FiltersInPage
      (fun m => applyFilterBy equal m haystack offset len (needleKeys n byte needle len) mask)
      byte haystack needle len offset mask := by
  have ends : Ends (applyFilterBy equal (PagedMemory.full byte).toMemory haystack offset len
      (needleKeys n byte needle len) mask) (Thinned byte haystack needle len offset mask)
      fun _ => False := applyFilterBy_ends lanes long
  obtain ⟨left, returned, thinned⟩ := ends.returns
  refine ⟨left, thinned, ?_⟩
  rintro m rfl page
  rw [← returned]
  exact applyFilterBy_full page (by omega)

end Page

/-- For every contents of the memory, needle of two bytes and more, and mask: neither filter drops
a candidate at which the whole needle occurs, or adds one, and neither reads outside the page. -/
theorem applyFilter_thins (byte : Nat → UInt8) (haystack offset needle len : Nat) (long : 2 ≤ len)
    (mask : BitVec 32) (maskZmm : BitVec 64) :
    FiltersInPage
        (fun m => applyFilterAvx2 m haystack offset len (needleKeys 32 byte needle len) mask)
        byte haystack needle len offset mask ∧
      FiltersInPage
        (fun m => applyFilter m haystack offset len (needleKeys 64 byte needle len) maskZmm)
        byte haystack needle len offset maskZmm :=
  ⟨applyFilterBy_inPage marksEqual_avx2 long byte, applyFilterBy_inPage marksEqual_avx512 long byte⟩

theorem applyFilter_thins_pageEnd :
    FiltersInPage
        (fun m => applyFilterAvx2 m 8100 0 3 (needleKeys 32 UInt8.ofNat 8104 3) 0xffff#32)
        UInt8.ofNat 8100 8104 3 0 0xffff#32 ∧
      FiltersInPage
        (fun m => applyFilter m 8100 0 3 (needleKeys 64 UInt8.ofNat 8104 3) 0xffff#64)
        UInt8.ofNat 8100 8104 3 0 0xffff#64 :=
  applyFilter_thins UInt8.ofNat 8100 0 8104 3 (by decide) 0xffff#32 0xffff#64

end AoclLibmem.Strings
