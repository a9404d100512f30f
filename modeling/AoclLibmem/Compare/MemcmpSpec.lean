import AoclLibmem.Machine.Lanes
import AoclLibmem.Base.FirstHit

/-! What `memcmp` has to return, and the byte differences its kernels return. -/

namespace AoclLibmem.Compare

open Base Machine

def Differs (byte : Nat → UInt8) (mem1 mem2 i : Nat) : Prop := byte (mem1 + i) ≠ byte (mem2 + i)

instance (byte : Nat → UInt8) (mem1 mem2 i : Nat) : Decidable (Differs byte mem1 mem2 i) :=
  inferInstanceAs (Decidable (_ ≠ _))

def gap (c1 c2 : UInt8) : Int := (c1.toNat : Int) - c2.toNat

theorem gap_eq_zero {c1 c2 : UInt8} : gap c1 c2 = 0 ↔ c1 = c2 := by
  rw [gap, ← UInt8.toNat_inj]
  omega

/-- The required result: the difference at the first index where the buffers differ. -/
inductive Orders (byte : Nat → UInt8) (mem1 mem2 size : Nat) : Int → Prop where
  | differ {k : Nat} (first : FirstHit (Differs byte mem1 mem2) k) (inside : k < size) :
      Orders byte mem1 mem2 size (gap (byte (mem1 + k)) (byte (mem2 + k)))
  | same (clear : ClearBelow (Differs byte mem1 mem2) size) : Orders byte mem1 mem2 size 0

/-- The readable bytes are those of the two buffers and no others. -/
structure Buffers (m : Memory) (mem1 mem2 size : Nat) : Prop where
  range : size < sizeRange
  only : ∀ a, m.readable a = true ↔
    (mem1 ≤ a ∧ a < mem1 + size) ∨ (mem2 ≤ a ∧ a < mem2 + size)

def twoBuffers (byte : Nat → UInt8) (mem1 mem2 size : Nat) : Memory where
  byte := byte
  readable a := decide ((mem1 ≤ a ∧ a < mem1 + size) ∨ (mem2 ≤ a ∧ a < mem2 + size))
  writable _ := false

theorem twoBuffers_buffers {byte : Nat → UInt8} {mem1 mem2 size : Nat} (range : size < 2 ^ 64) :
    Buffers (twoBuffers byte mem1 mem2 size) mem1 mem2 size where
  range := by rw [sizeRange_eq]; exact range
  only _ := decide_eq_true_iff

/-- The byte at a signed distance; nothing is mapped below address 0. -/
def byteFrom (m : Memory) (base : Nat) (distance : Int) : Exec UInt8 :=
  if 0 ≤ base + distance then m.byteAt (base + distance).toNat else throw .fault

/-- `*(uint8_t *)(mem1 + index) - *(uint8_t *)(mem2 + index)`. -/
def byteDiff (m : Memory) (mem1 mem2 : Nat) (index : Int) : Exec Int := do
  let c1 ← byteFrom m mem1 index
  let c2 ← byteFrom m mem2 index
  return gap c1 c2

section Result
variable {byte : Nat → UInt8} {mem1 mem2 size : Nat} {value : Int}

theorem FirstHit.gap_ne_zero {k : Nat} (first : FirstHit (Differs byte mem1 mem2) k) :
    gap (byte (mem1 + k)) (byte (mem2 + k)) ≠ 0 :=
  fun zero => first.1 (gap_eq_zero.mp zero)

theorem Orders.clear (orders : Orders byte mem1 mem2 size value) (zero : value = 0) :
    ClearBelow (Differs byte mem1 mem2) size := by
  cases orders with
  | differ first inside => exact absurd zero (FirstHit.gap_ne_zero first)
  | same clear => exact clear

theorem Orders.at_first {k : Nat} (orders : Orders byte mem1 mem2 size value)
    (first : FirstHit (Differs byte mem1 mem2) k) (inside : k < size) :
    value = gap (byte (mem1 + k)) (byte (mem2 + k)) := by
  cases orders with
  | differ hit _ => rw [hit.unique first]
  | same clear => exact absurd first.1 (clear k inside)

theorem Orders.unique {other : Int} (first : Orders byte mem1 mem2 size value)
    (second : Orders byte mem1 mem2 size other) : value = other := by
  cases second with
  | differ hit inside => exact first.at_first hit inside
  | same clear =>
    cases first with
    | differ hit inside => exact absurd hit.1 (clear _ inside)
    | same _ => rfl

end Result

section Rights
variable {m : Memory} {mem1 mem2 size : Nat}

theorem Buffers.canRead (buffers : Buffers m mem1 mem2 size) {k n : Nat} (inside : k + n ≤ size) :
    m.canRead (mem1 + k) n = true ∧ m.canRead (mem2 + k) n = true := by
  rw [Memory.canRead_iff, Memory.canRead_iff]
  constructor <;> intro i below <;> rw [buffers.only] <;> omega

/-- Outside its index range the buffers are not both readable: what lies behind the
one lies further behind the other. -/
theorem Buffers.inside_of_both (buffers : Buffers m mem1 mem2 size) {a b : Nat}
    (same : a + mem2 = b + mem1) (first : m.readable a = true) (second : m.readable b = true) :
    mem1 ≤ a ∧ a < mem1 + size := by
  rw [buffers.only] at first second
  omega

private theorem byteFrom_eq {base k : Nat} (rights : m.readable (base + k) = true) :
    byteFrom m base k = .ok (m.byte (base + k)) := by
  rw [byteFrom, if_pos (by omega)]
  exact Memory.byteAt_eq rights

private theorem byteFrom_ok {base : Nat} {distance : Int} {c : UInt8}
    (returned : byteFrom m base distance = .ok c) :
    ∃ a : Nat, (a : Int) = base + distance ∧ m.readable a = true := by
  unfold byteFrom at returned
  split at returned
  · rename_i above
    refine ⟨(base + distance).toNat, Int.toNat_of_nonneg above, ?_⟩
    by_contra missing
    rw [Memory.byteAt, if_neg missing] at returned
    exact absurd returned (by simp [throw, throwThe, MonadExceptOf.throw])
  · exact absurd returned (by simp [throw, throwThe, MonadExceptOf.throw])

theorem Buffers.byteDiff_eq (buffers : Buffers m mem1 mem2 size) {k : Nat} (inside : k < size) :
    byteDiff m mem1 mem2 k = .ok (gap (m.byte (mem1 + k)) (m.byte (mem2 + k))) := by
  have first : m.readable (mem1 + k) = true := (buffers.only _).mpr (by omega)
  have second : m.readable (mem2 + k) = true := (buffers.only _).mpr (by omega)
  rw [byteDiff, byteFrom_eq first, ok_bind, byteFrom_eq second]
  rfl

theorem Buffers.byteDiff_behind (buffers : Buffers m mem1 mem2 size) {distance : Int}
    (behind : distance < 0) (value : Int) : byteDiff m mem1 mem2 distance ≠ .ok value := by
  intro returned
  rw [byteDiff] at returned
  cases first : byteFrom m mem1 distance with
  | error reason => simp [first, bind, Except.bind] at returned
  | ok c1 =>
    cases second : byteFrom m mem2 distance with
    | error reason => simp [first, second, bind, Except.bind] at returned
    | ok c2 =>
      obtain ⟨a, place1, readable1⟩ := byteFrom_ok first
      obtain ⟨b, place2, readable2⟩ := byteFrom_ok second
      have inside := buffers.inside_of_both (by omega) readable1 readable2
      omega

end Rights

end AoclLibmem.Compare
