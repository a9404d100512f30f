import AoclLibmem.Fill.MemsetAvx2
import AoclLibmem.Fill.MemsetZmm

/-! The dispatched memsets change no access rights, whatever they are called with. -/

namespace AoclLibmem.Fill

open Base Machine Copy

section Parts
variable {n : Nat} {type : Access} {mem size : Nat} {v : Lanes n} {z0 : Lanes zmmSz}

theorem setAll_keeps (places : List Nat) : Keeps Memory.rights (setAll n type mem v places) := by
  induction places with
  | nil => exact keeps_pure ()
  | cons k places ih => exact vecStore_keeps.bind fun _ => ih

theorem setWhile_keeps (count bound offset : Nat) :
    Keeps Memory.rights (setWhile n count type mem v bound offset) :=
  keeps_loopM (fun _ => keeps_ite ((setAll_keeps _).bind fun _ => keeps_pure _) (keeps_pure _)) _ _

theorem setAll_return_keeps (places : List Nat) :
    Keeps Memory.rights (do setAll n type mem v places; return mem) :=
  (setAll_keeps places).bind fun _ => keeps_pure mem

theorem setDoWhile_keeps (count bound offset : Nat) :
    Keeps Memory.rights (setDoWhile mem n count type v bound offset) :=
  (setAll_keeps _).bind fun _ => setWhile_keeps count bound _

private theorem setBleZmm_keeps : Keeps Memory.rights (setBleZmm mem size z0) :=
  maskStore_keeps.bind fun _ => keeps_pure mem

theorem setRemVecs_keeps (offset : Nat) : Keeps Memory.rights (setRemVecs mem size z0 offset) :=
  keeps_ite (setAll_return_keeps _) (keeps_pure mem)

private theorem memsetLe2Ymm_keeps (val : BitVec 32) :
    Keeps Memory.rights (memsetLe2Ymm mem val size) := by
  refine keeps_ite (setAll_return_keeps _) (keeps_ite (setAll_return_keeps _) ?_)
  refine keeps_ite (setAll_return_keeps _) (keeps_ite ?_ (keeps_ite ?_ (keeps_pure mem)))
  · exact keeps_ite (setAll_return_keeps _) (setAll_return_keeps _)
  · exact vecStore_keeps.bind fun _ => keeps_pure mem

end Parts

section Kernels
variable (mem : Nat) (val : BitVec 32) (size : Nat)

theorem memsetAvx2_keeps (l3PerCcx : Nat) :
    Keeps Memory.rights (memsetAvx2 l3PerCcx mem val size) := by
  refine keeps_ite (memsetLe2Ymm_keeps val) ?_
  refine (setAll_keeps _).bind fun _ => keeps_ite (setAll_return_keeps _) ?_
  refine (setAll_keeps _).bind fun _ => keeps_ite ?_ (setAll_return_keeps _)
  refine (keeps_ite (setWhile_keeps _ _ _) (setWhile_keeps _ _ _)).bind fun _ => ?_
  exact keeps_ite (keeps_pure mem) (setAll_return_keeps _)

theorem memsetAvx512Erms_keeps (repstoreStart repstoreStop : Nat) :
    Keeps Memory.rights (memsetAvx512Erms repstoreStart repstoreStop mem val size) := by
  have rest (type : Access) (bound offset : Nat) : Keeps Memory.rights (do
      let offset ← setDoWhile mem zmmSz 4 type (set1 (uchar val)) bound offset
      if offset = size then return mem else setRemVecs mem size (set1 (uchar val)) offset) :=
    (setDoWhile_keeps 4 bound offset).bind fun _ => keeps_ite (keeps_pure mem) (setRemVecs_keeps _)
  refine keeps_ite setBleZmm_keeps (keeps_ite (setAll_return_keeps _) ?_)
  refine keeps_ite (setAll_return_keeps _) (keeps_ite (setAll_return_keeps _) ?_)
  refine (setAll_keeps _).bind fun _ => keeps_ite ?_ (setRemVecs_keeps _)
  refine keeps_ite (rest .aligned _ _) (keeps_ite ?_ (rest .stream _ _))
  refine Keeps.bind ?_ fun _ => keeps_pure mem
  exact (repStos_keeps _).bind fun _ => keeps_pure _

theorem memsetZen4_keeps (l2PerCore : Nat) :
    Keeps Memory.rights (memsetZen4 l2PerCore mem val size) := by
  refine keeps_ite setBleZmm_keeps (keeps_ite ?_ ?_)
  · refine vecStore_keeps.bind fun _ => keeps_ite (setAll_return_keeps _) ?_
    exact vecStore_keeps.bind fun _ => keeps_pure mem
  refine (setAll_keeps _).bind fun _ => keeps_ite ?_ (setRemVecs_keeps _)
  refine (keeps_ite (setDoWhile_keeps _ _ _) (setDoWhile_keeps _ _ _)).bind fun _ => ?_
  exact keeps_ite (keeps_pure mem) (setRemVecs_keeps _)

theorem memsetAvx512_keeps : Keeps Memory.rights (memsetAvx512 mem val size) := by
  refine keeps_ite ?_ ?_
  · exact keeps_ite (maskStore_keeps.bind fun _ => keeps_pure mem) (keeps_pure mem)
  refine (setAll_keeps _).bind fun _ => keeps_ite (keeps_pure mem) ?_
  refine (setAll_keeps _).bind fun _ => keeps_ite (keeps_pure mem) ?_
  refine (setAll_keeps _).bind fun _ => keeps_ite (keeps_pure mem) ?_
  exact (setWhile_keeps _ _ _).bind fun _ => keeps_pure mem

end Kernels

section Tunable
variable (isa : VecIsa) (mem : Nat) (val : BitVec 32) (size : Nat)

theorem memsetLe2Vec_keeps : Keeps Memory.rights (memsetLe2Vec isa mem val size) := by
  cases isa with
  | avx2 => exact memsetLe2Ymm_keeps val
  | avx512 =>
    refine keeps_ite (keeps_ite ?_ (keeps_pure mem)) (setAll_return_keeps _)
    exact maskStore_keeps.bind fun _ => keeps_pure mem

theorem memsetUnaligned_keeps : Keeps Memory.rights (memsetUnaligned isa mem val size) := by
  refine keeps_ite (memsetLe2Vec_keeps isa mem val size) (keeps_ite (setAll_return_keeps _) ?_)
  refine (setAll_keeps _).bind fun _ => Keeps.bind ?_ fun _ => keeps_pure mem
  exact keeps_loopM (fun _ => keeps_ite ((setAll_keeps _).bind fun _ => keeps_pure _) (keeps_pure _)) _ _

private theorem setBlocks_keeps {n : Nat} {v : Lanes n} (type : Access) (left offset : Nat) :
    Keeps Memory.rights (setBlocks mem n type v left offset) := by
  refine Keeps.bind ?_ fun _ => Keeps.bind ?_ fun _ => ?_
  · exact keeps_loopM
      (fun _ => keeps_ite ((setAll_keeps _).bind fun _ => keeps_pure _) (keeps_pure _)) _ _
  · exact keeps_ite ((setAll_keeps _).bind fun _ => keeps_pure _) (keeps_pure _)
  · exact keeps_ite (vecStore_keeps.bind fun _ => vecStore_keeps) vecStore_keeps

theorem memsetAlignedStore_keeps : Keeps Memory.rights (memsetAlignedStore isa mem val size) := by
  refine keeps_ite (memsetLe2Vec_keeps isa mem val size) (vecStore_keeps.bind fun _ => ?_)
  exact (setBlocks_keeps mem _ _ _).bind fun _ => keeps_pure mem

theorem memsetNtStore_keeps : Keeps Memory.rights (memsetNtStore isa mem val size) := by
  refine keeps_ite (memsetLe2Vec_keeps isa mem val size) (vecStore_keeps.bind fun _ => ?_)
  exact (setBlocks_keeps mem _ _ _).bind fun _ => keeps_pure mem

theorem repStos_return_keeps {n : Nat} {v : Lanes n} (count : Nat) :
    Keeps Memory.rights (do repStos n v mem count; return mem) :=
  (repStos_keeps count).bind fun _ => keeps_pure mem

end Tunable

end AoclLibmem.Fill
