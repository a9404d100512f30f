import AoclLibmem.Compare.MemcmpAvx2
import AoclLibmem.Compare.MemcmpAvx512
import AoclLibmem.Base.Widening

/-! The vector `memcmp` kernels where more is mapped than their two buffers: what they return
while nothing else can be read, they return in every such memory. -/

namespace AoclLibmem.Compare

open Base Machine

/-- The same bytes, and no right to read that is missing in `wide`. -/
structure Grants (m wide : Memory) : Prop where
  byte : wide.byte = m.byte
  readable : ∀ a, m.readable a = true → wide.readable a = true

section Loads
variable {m wide : Memory} {n addr : Nat} (grants : Grants m wide)
include grants

theorem Grants.lanes (n addr : Nat) : wide.lanes n addr = m.lanes n addr := by
  funext i
  rw [Memory.lanes_apply, Memory.lanes_apply, grants.byte]

theorem Grants.loadu (n addr : Nat) : Widened (m.loadu n addr) (wide.loadu n addr) := by
  rw [Memory.loadu, Memory.loadu, grants.lanes]
  refine widened_guard (fun rights => ?_) (Widened.refl _)
  rw [Memory.canRead_iff] at rights ⊢
  exact fun i below => grants.readable _ (rights i below)

theorem Grants.maskLoadu (fill : Lanes n) (mask : BitVec n) (addr : Nat) :
    Widened (m.maskLoadu fill mask addr) (wide.maskLoadu fill mask addr) := by
  rw [Memory.maskLoadu, Memory.maskLoadu, grants.byte]
  exact widened_guard (fun rights i set => grants.readable _ (rights i set)) (Widened.refl _)

theorem Grants.byteAt (addr : Nat) : Widened (m.byteAt addr) (wide.byteAt addr) := by
  rw [Memory.byteAt, Memory.byteAt, grants.byte]
  exact widened_guard (fun rights => grants.readable _ rights) (Widened.refl _)

end Loads

section Tests
variable {m wide : Memory} {n mem1 mem2 size : Nat} (grants : Grants m wide)
include grants

theorem Grants.byteFrom (base : Nat) (index : Int) :
    Widened (byteFrom m base index) (byteFrom wide base index) :=
  widened_guard id (grants.byteAt _)

theorem Grants.byteDiff (index : Int) :
    Widened (byteDiff m mem1 mem2 index) (byteDiff wide mem1 mem2 index) :=
  (grants.byteFrom mem1 index).bind fun _ => (grants.byteFrom mem2 index).bind fun _ => Widened.refl _

theorem Grants.leaveAt (index : Option Int) :
    Widened (leaveAt m mem1 mem2 index) (leaveAt wide mem1 mem2 index) := by
  cases index with
  | none => exact Widened.refl _
  | some index => exact (grants.byteDiff index).bind fun _ => Widened.refl _

theorem Grants.testBlock {load load' : Nat → Exec (Lanes n)}
    (loads : ∀ addr, Widened (load addr) (load' addr)) (unequal : Lanes n → Lanes n → Option Nat)
    (index : Nat → Int) (place : Nat) :
    Widened (testBlock m mem1 mem2 load unequal index place)
      (testBlock wide mem1 mem2 load' unequal index place) :=
  (loads _).bind fun _ => (loads _).bind fun _ => grants.leaveAt _

theorem Grants.testTwo {load load' : Nat → Exec (Lanes n)}
    (loads : ∀ addr, Widened (load addr) (load' addr)) (unequal : Lanes n → Lanes n → Option Nat)
    (index : Nat → Int) (place1 place2 : Nat) :
    Widened (testTwo m mem1 mem2 load unequal index place1 place2)
      (testTwo wide mem1 mem2 load' unequal index place1 place2) := by
  refine (loads _).bind fun y0 => (loads _).bind fun y1 => (loads _).bind fun y4 =>
    (loads _).bind fun y5 => ?_
  cases unequal y0 y4 with
  | some lane => exact grants.leaveAt _
  | none => exact grants.leaveAt _

theorem Grants.testMerged (n place1 place2 : Nat) :
    Widened (testMerged m mem1 mem2 n place1 place2) (testMerged wide mem1 mem2 n place1 place2) :=
  (grants.loadu _ _).bind fun _ => (grants.loadu _ _).bind fun _ => (grants.loadu _ _).bind fun _ =>
    (grants.loadu _ _).bind fun _ => grants.leaveAt _

omit grants in
theorem widened_orGo {test test' : Exec (Option Int)} {rest rest' : Exec Int}
    (first : Widened test test') (further : Widened rest rest') :
    Widened (orGo test rest) (orGo test' rest') := by
  refine first.bind fun result => ?_
  cases result with
  | some value => exact Widened.refl _
  | none => exact further

omit grants in
theorem widened_elseTest {test test' other other' : Exec (Option Int)}
    (first : Widened test test') (further : Widened other other') :
    Widened (elseTest test other) (elseTest test' other') := by
  refine first.bind fun result => ?_
  cases result with
  | some value => exact Widened.refl _
  | none => exact further

end Tests

section Loops
variable {guard : Nat → Bool} {test test' : Nat → Exec (Option Int)} {rest rest' : Nat → Exec Int}

theorem widened_vec4Loop {stride : Nat} (tests : ∀ offset, Widened (test offset) (test' offset))
    (further : ∀ offset, Widened (rest offset) (rest' offset)) (start : Nat) :
    Widened (vec4Loop stride guard test rest start) (vec4Loop stride guard test' rest' start) := by
  rw [vec4Loop, vec4Loop]
  refine widened_iterate (fun offset => widened_ite ((tests offset).bind fun result => ?_) ?_) _ _
  · cases result with
    | some value => exact Widened.refl _
    | none => exact Widened.refl _
  · exact (further offset).bind fun _ => Widened.refl _

end Loops

section Kernels
variable {m wide : Memory} (grants : Grants m wide) (mem1 mem2 size : Nat)
include grants

theorem Grants.block {n : Nat} (unequal : Lanes n → Lanes n → Option Nat) (index : Nat → Int)
    (place : Nat) : Widened (Compare.testBlock m mem1 mem2 (m.loadu n) unequal index place)
      (Compare.testBlock wide mem1 mem2 (wide.loadu n) unequal index place) :=
  grants.testBlock (grants.loadu n) unequal index place

theorem Grants.memcmpLtYmm :
    Widened (memcmpLtYmm m mem1 mem2 size) (memcmpLtYmm wide mem1 mem2 size) := by
  have block {n w : Nat} (place : Nat) {rest rest' : Exec Int} (further : Widened rest rest') :=
    widened_orGo (grants.block mem1 mem2 (n := n) (unequalScalar w) Nat.cast place) further
  refine widened_ite (widened_ite ?_ ?_) (widened_ite ?_ (widened_ite ?_ (widened_ite ?_ ?_)))
  · exact widened_orGo (grants.testMerged _ _ _) (Widened.refl _)
  · exact block 0 (block _ (Widened.refl _))
  · exact block 0 (block _ (Widened.refl _))
  · exact block 0 (widened_ite (grants.byteDiff _) (Widened.refl _))
  · exact grants.byteDiff _
  · exact Widened.refl _

theorem Grants.testMerged4 (offset : Nat) :
    Widened (testMerged4 m mem1 mem2 offset) (testMerged4 wide mem1 mem2 offset) :=
  widened_elseTest (grants.testMerged _ _ _) (grants.testMerged _ _ _)

theorem Grants.tail4Ymm {load load' : Nat → Exec (Lanes ymmSz)}
    (loads : ∀ addr, Widened (load addr) (load' addr)) :
    Widened (tail4Ymm m mem1 mem2 size load) (tail4Ymm wide mem1 mem2 size load') :=
  widened_orGo (grants.testTwo loads _ _ _ _)
    (widened_orGo (grants.testTwo loads _ _ _ _) (Widened.refl _))

theorem Grants.memcmpAvx2 : Widened (memcmpAvx2 m mem1 mem2 size) (memcmpAvx2 wide mem1 mem2 size) := by
  have merged (place1 place2 : Nat) {rest rest' : Exec Int} (further : Widened rest rest') :
      Widened (orGo (Compare.testMerged m mem1 mem2 ymmSz place1 place2) rest)
        (orGo (Compare.testMerged wide mem1 mem2 ymmSz place1 place2) rest') :=
    widened_orGo (grants.testMerged ymmSz place1 place2) further
  have tail := grants.tail4Ymm mem1 mem2 size (grants.loadu ymmSz)
  refine widened_ite (grants.memcmpLtYmm mem1 mem2 _) (widened_ite ?_ ?_)
  · exact merged _ _ (Widened.refl _)
  refine merged _ _ (widened_ite ?_ ?_)
  · exact merged _ _ (Widened.refl _)
  refine merged _ _ (widened_ite ?_ tail)
  exact widened_vec4Loop (grants.testMerged4 mem1 mem2) (fun _ => widened_ite (Widened.refl _) tail) _

theorem Grants.remVecs (k : Nat) :
    Widened (remVecs m mem1 mem2 size k) (remVecs wide mem1 mem2 size k) := by
  induction k with
  | zero => exact Widened.refl _
  | succ k ih => exact widened_orGo (grants.block mem1 mem2 _ _ _) ih

theorem Grants.memcmpZen4 : Widened (memcmpZen4 m mem1 mem2 size) (memcmpZen4 wide mem1 mem2 size) := by
  have two (place1 place2 : Nat) {rest rest' : Exec Int} (further : Widened rest rest') :
      Widened (orGo (Compare.testTwo m mem1 mem2 (m.loadu zmmSz) unequalZmm Nat.cast place1 place2) rest)
        (orGo (Compare.testTwo wide mem1 mem2 (wide.loadu zmmSz) unequalZmm Nat.cast place1 place2)
          rest') :=
    widened_orGo (grants.testTwo (grants.loadu zmmSz) unequalZmm Nat.cast place1 place2) further
  refine widened_ite ?_ (widened_ite ?_ (widened_ite ?_ ?_))
  · exact widened_orGo (grants.testBlock (grants.maskLoadu _ _) _ _ _) (Widened.refl _)
  · exact widened_orGo (grants.block mem1 mem2 _ _ _)
      (widened_orGo (grants.block mem1 mem2 _ _ _) (Widened.refl _))
  · exact two _ _ (two _ _ (Widened.refl _))
  · refine widened_vec4Loop (grants.testMerged4 mem1 mem2) (fun offset => ?_) 0
    exact widened_ite (Widened.refl _) (widened_ite (grants.remVecs mem1 mem2 size _) (Widened.refl _))

theorem Grants.testEach4 {load load' : Nat → Exec (Lanes zmmSz)}
    (loads : ∀ addr, Widened (load addr) (load' addr))
    (unequal : Lanes zmmSz → Lanes zmmSz → Option Nat) (offset : Nat) :
    Widened (testEach4 m mem1 mem2 load unequal offset) (testEach4 wide mem1 mem2 load' unequal offset) :=
  widened_elseTest (grants.testBlock loads _ _ _) <| widened_elseTest (grants.testBlock loads _ _ _) <|
    widened_elseTest (grants.testBlock loads _ _ _) (grants.testBlock loads _ _ _)

theorem Grants.leaveInLast (place : Nat) :
    Widened (leaveInLast m mem1 mem2 place) (leaveInLast wide mem1 mem2 place) :=
  (grants.loadu _ _).bind fun _ => (grants.loadu _ _).bind fun _ => grants.leaveAt _

theorem Grants.testXor4 (offset : Nat) :
    Widened (testXor4 m mem1 mem2 offset) (testXor4 wide mem1 mem2 offset) := by
  refine (grants.loadu _ _).bind fun z0 => (grants.loadu _ _).bind fun z4 =>
    (grants.loadu _ _).bind fun z1 => (grants.loadu _ _).bind fun z5 =>
    (grants.loadu _ _).bind fun z2 => (grants.loadu _ _).bind fun z6 =>
    (grants.loadu _ _).bind fun z3 => (grants.loadu _ _).bind fun z7 => ?_
  refine widened_ite ?_ (Widened.refl _)
  exact widened_elseTest (grants.block mem1 mem2 _ _ _) <|
    widened_elseTest (grants.block mem1 mem2 _ _ _) <|
    widened_elseTest (grants.block mem1 mem2 _ _ _) (grants.leaveInLast mem1 mem2 _)

theorem Grants.remVecsZmm (unequal : Lanes zmmSz → Lanes zmmSz → Option Nat) (k : Nat) :
    Widened (remVecsZmm m mem1 mem2 size unequal k) (remVecsZmm wide mem1 mem2 size unequal k) := by
  induction k with
  | zero => exact Widened.refl _
  | succ k ih => exact widened_orGo (grants.block mem1 mem2 _ _ _) ih

theorem Grants.memcmpAvx512 (l1dPerCore : Nat) :
    Widened (memcmpAvx512 m mem1 mem2 size l1dPerCore)
      (memcmpAvx512 wide mem1 mem2 size l1dPerCore) := by
  have block (place : Nat) {rest rest' : Exec Int} (further : Widened rest rest') :=
    widened_orGo (grants.block mem1 mem2 (n := zmmSz) unequalZmm Nat.cast place) further
  refine widened_ite (Widened.refl _) (widened_ite ?_ (block _ (widened_ite ?_ (widened_ite ?_ ?_))))
  · exact widened_orGo (grants.testBlock (grants.maskLoadu _ _) _ _ _) (Widened.refl _)
  · exact block _ (Widened.refl _)
  · exact block _ (widened_orGo (grants.testTwo (grants.loadu _) _ _ _ _) (Widened.refl _))
  · have further (k : Nat) := grants.remVecsZmm mem1 mem2 size unequalZmm k
    refine widened_ite
      (widened_vec4Loop (grants.testEach4 mem1 mem2 (grants.loadu zmmSz) unequalZmm) (fun offset => ?_) _)
      (widened_vec4Loop (grants.testXor4 mem1 mem2) (fun offset => ?_) _)
    · exact widened_ite (Widened.refl _) (widened_ite (further _) (Widened.refl _))
    · exact widened_ite (Widened.refl _) (widened_ite (further _) (Widened.refl _))

end Kernels

/-- What a caller of memcmp provides: two buffers that can be read. -/
structure MemcmpCall (m : Memory) (mem1 mem2 size : Nat) : Prop where
  range : size < sizeRange
  first : m.canRead mem1 size = true
  second : m.canRead mem2 size = true

section Mapped
variable {m : Memory} {mem1 mem2 size : Nat} (call : MemcmpCall m mem1 mem2 size)
include call

theorem MemcmpCall.grants : Grants (twoBuffers m.byte mem1 mem2 size) m where
  byte := rfl
  readable a inside := by
    have first := Memory.canRead_iff.mp call.first
    have second := Memory.canRead_iff.mp call.second
    rcases of_decide_eq_true inside with ⟨low, high⟩ | ⟨low, high⟩
    · have place : mem1 + (a - mem1) = a := by omega
      rw [← place]
      exact first _ (by omega)
    · have place : mem2 + (a - mem2) = a := by omega
      rw [← place]
      exact second _ (by omega)

theorem MemcmpCall.buffers : Buffers (twoBuffers m.byte mem1 mem2 size) mem1 mem2 size where
  range := call.range
  only _ := decide_eq_true_iff

omit call in
theorem OrdersExactly.widen {run wider : Exec Int}
    (orders : OrdersExactly (twoBuffers m.byte mem1 mem2 size) mem1 mem2 size run)
    (widened : Widened run wider) : OrdersExactly m mem1 mem2 size wider := by
  obtain ⟨value, returned, right⟩ := orders
  exact ⟨value, widened value returned, right⟩

theorem MemcmpCall.orders_avx2
    (fits : ∀ k < size, FirstHit (Differs m.byte mem1 mem2) k → FitsTail size k) :
    OrdersExactly m mem1 mem2 size (memcmpAvx2 m mem1 mem2 size) :=
  ((ordersExactly_iff (memcmpAvx2_ends call.buffers)).mpr fits).widen
    (call.grants.memcmpAvx2 mem1 mem2 size)

theorem MemcmpCall.orders_zen4
    (fits : ∀ k < size, FirstHit (Differs m.byte mem1 mem2) k → FitsRemainder size k) :
    OrdersExactly m mem1 mem2 size (memcmpZen4 m mem1 mem2 size) :=
  ((ordersExactly_iff (memcmpZen4_ends call.buffers)).mpr fits).widen
    (call.grants.memcmpZen4 mem1 mem2 size)

theorem MemcmpCall.orders_avx512 (l1dPerCore : Nat) :
    OrdersExactly m mem1 mem2 size (memcmpAvx512 m mem1 mem2 size l1dPerCore) :=
  (ordersExactly_of_ends (memcmpAvx512_ends call.buffers l1dPerCore)).widen
    (call.grants.memcmpAvx512 mem1 mem2 size l1dPerCore)

end Mapped

end AoclLibmem.Compare
