import AoclLibmem.Compare.TunableMemcmpAvx512
import AoclLibmem.Compare.MemcmpErms
import AoclLibmem.Compare.MemcmpMapped

/-! The `memcmp` kernels of `tunable/` where more is mapped than their two buffers. -/

namespace AoclLibmem.Compare

open Base Machine

section Kernels
variable {m wide : Memory} (grants : Grants m wide) (mem1 mem2 size : Nat)
include grants

theorem Grants.loadAs (type : Access) (n addr : Nat) :
    Widened (loadAs m type n addr) (loadAs wide type n addr) :=
  widened_ite (grants.loadu n addr) (Widened.refl _)

theorem Grants.testEnds {n : Nat} (unequal : Lanes n → Lanes n → Option Nat) :
    Widened (testEnds m mem1 mem2 size unequal) (testEnds wide mem1 mem2 size unequal) :=
  widened_orGo (grants.block mem1 mem2 _ _ _)
    (widened_orGo (grants.block mem1 mem2 _ _ _) (Widened.refl _))

theorem Grants.memcmpLe2Ymm :
    Widened (memcmpLe2Ymm m mem1 mem2 size) (memcmpLe2Ymm wide mem1 mem2 size) := by
  have ends {n : Nat} (unequal : Lanes n → Lanes n → Option Nat) :=
    grants.testEnds mem1 mem2 size unequal
  refine widened_ite (Widened.refl _) (widened_ite ?_ ?_)
  · exact widened_ite (widened_ite (ends _) (ends _)) (ends _)
  · refine widened_ite (grants.byteDiff _) (widened_ite (ends _) ?_)
    exact widened_ite (ends _) (Widened.refl _)

theorem Grants.memcmpAvx2Body (type : Access) :
    Widened (memcmpAvx2Body m mem1 mem2 size type) (memcmpAvx2Body wide mem1 mem2 size type) := by
  have two (type : Access) (place1 place2 : Nat) :
      Widened (Compare.testTwo m mem1 mem2 (Compare.loadAs m type ymmSz) unequalYmm intIndex place1 place2)
        (Compare.testTwo wide mem1 mem2 (Compare.loadAs wide type ymmSz) unequalYmm intIndex place1
          place2) :=
    grants.testTwo (grants.loadAs type ymmSz) unequalYmm intIndex place1 place2
  refine widened_ite (grants.memcmpLe2Ymm mem1 mem2 size) (widened_ite ?_ ?_)
  · exact widened_orGo (two type _ _) (widened_orGo (two .unaligned _ _) (Widened.refl _))
  · refine widened_vec4Loop (fun offset => widened_elseTest (two type _ _) (two type _ _))
      (fun offset => widened_ite (Widened.refl _) ?_) 0
    exact grants.tail4Ymm mem1 mem2 _ (grants.loadAs .unaligned ymmSz)

theorem Grants.memcmpLe2Zmm :
    Widened (memcmpLe2Zmm m mem1 mem2 size) (memcmpLe2Zmm wide mem1 mem2 size) := by
  have ends {n : Nat} (unequal : Lanes n → Lanes n → Option Nat) :=
    grants.testEnds mem1 mem2 size unequal
  refine widened_ite (Widened.refl _) (widened_ite (grants.byteDiff _) (widened_ite (ends _) ?_))
  exact widened_ite (ends _) (widened_ite (ends _) (widened_ite (ends _) (widened_ite (ends _) (ends _))))

theorem Grants.memcmpAvx512Body (type : Access) :
    Widened (memcmpAvx512Body m mem1 mem2 size type) (memcmpAvx512Body wide mem1 mem2 size type) := by
  refine widened_ite (grants.memcmpLe2Zmm mem1 mem2 size) (widened_ite ?_ ?_)
  · exact widened_orGo (grants.testTwo (grants.loadAs type zmmSz) _ _ _ _)
      (widened_orGo (grants.testTwo (grants.loadu zmmSz) _ _ _ _) (Widened.refl _))
  · exact widened_vec4Loop (grants.testEach4 mem1 mem2 (grants.loadAs type zmmSz) unequalCarryZmm)
      (fun offset => widened_ite (Widened.refl _) (grants.remVecsZmm mem1 mem2 _ unequalCarryZmm 4)) 0

theorem Grants.repzCmps (n count : Nat) (rsi rdi : Nat) :
    Widened (repzCmps m n rsi rdi count) (repzCmps wide n rsi rdi count) := by
  induction count generalizing rsi rdi with
  | zero => exact Widened.refl _
  | succ count ih =>
    refine (grants.loadu n rsi).bind fun unit1 => (grants.loadu n rdi).bind fun unit2 => ?_
    exact widened_ite (ih _ _) (Widened.refl _)

theorem Grants.ermsCmps (unit : StringUnit) (rcxHigh : BitVec 32) :
    Widened (ermsCmps m unit rcxHigh mem1 mem2 size) (ermsCmps wide unit rcxHigh mem1 mem2 size) := by
  refine (grants.repzCmps _ _ _ _).bind fun out => ?_
  exact (grants.byteFrom _ _).bind fun al => (grants.byteFrom _ _).bind fun dl => Widened.refl _

end Kernels

section Mapped
variable {m : Memory} {mem1 mem2 size : Nat} (call : MemcmpCall m mem1 mem2 size)

theorem ordersSign_of_exactly {run : Exec Int} (orders : OrdersExactly m mem1 mem2 size run) :
    OrdersSign m mem1 mem2 size run := by
  obtain ⟨value, returned, right⟩ := orders
  exact ⟨value, value, returned, right, rfl⟩

include call

theorem MemcmpCall.orders_avx2Body {type : Access}
    (allowed : type = .unaligned ∨ (mem1 % 32 = 0 ∧ mem2 % 32 = 0))
    (near : ∀ k < size, FirstHit (Differs m.byte mem1 mem2) k → k < 2 ^ 31) :
    OrdersExactly m mem1 mem2 size (memcmpAvx2Body m mem1 mem2 size type) :=
  ((ordersExactly_iff (memcmpAvx2Body_ends call.buffers allowed)).mpr near).widen
    (call.grants.memcmpAvx2Body mem1 mem2 size type)

theorem MemcmpCall.orders_avx512Body {type : Access}
    (allowed : type = .unaligned ∨ (mem1 % 64 = 0 ∧ mem2 % 64 = 0)) :
    OrdersExactly m mem1 mem2 size (memcmpAvx512Body m mem1 mem2 size type) :=
  (ordersExactly_of_ends (memcmpAvx512Body_ends call.buffers allowed)).widen
    (call.grants.memcmpAvx512Body mem1 mem2 size type)

/-- A string instruction that serves the buffers by themselves gives the sign. -/
theorem MemcmpCall.signs_ermsCmps {unit : StringUnit} {rcxHigh : BitVec 32}
    (whole : size % unit.bytes = 0) (served : Served m.byte mem1 mem2 size unit rcxHigh) :
    OrdersSign m mem1 mem2 size (ermsCmps m unit rcxHigh mem1 mem2 size) := by
  obtain ⟨value, exact, returned, orders, sign⟩ :=
    (ermsCmps_orders_iff call.buffers whole).mpr served
  exact ⟨value, exact, call.grants.ermsCmps mem1 mem2 size unit rcxHigh value returned, orders, sign⟩

end Mapped

end AoclLibmem.Compare
