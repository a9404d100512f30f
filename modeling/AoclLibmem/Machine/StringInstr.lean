import AoclLibmem.Machine.Kernel

/-! The string instructions under `rep`, for units of `n` bytes, and the shift that turns a
length into their count. -/

namespace AoclLibmem.Machine

open Base

def sar (shift value : Nat) : Nat := ((BitVec.ofNat 64 value).sshiftRight shift).toNat

/-- `n` bytes in front of an address, around zero. -/
def wrapSub (addr n : Nat) : Nat := if n ≤ addr then addr - n else addr + sizeRange - n

/-- `cld; rep movs`: unit after unit, upwards; the final RDI. -/
def repMovs (n : Nat) (dst src : Nat) : Nat → Kernel Nat
  | 0 => pure dst
  | count + 1 => do
    let unit ← vecLoad n .unaligned src
    vecStore n .unaligned dst unit
    repMovs n (dst + n) (src + n) count

/-- `std; rep movs; cld`: unit after unit, downwards from the given addresses. -/
def repMovsBack (n : Nat) (dst src : Nat) : Nat → Kernel Unit
  | 0 => pure ()
  | count + 1 => do
    let unit ← vecLoad n .unaligned src
    vecStore n .unaligned dst unit
    repMovsBack n (dst - n) (src - n) count

/-- `cld; rep stos`: the same unit over and over, upwards. -/
def repStos (n : Nat) (value : Lanes n) (dst : Nat) : Nat → Kernel Unit
  | 0 => pure ()
  | count + 1 => do
    vecStore n .unaligned dst value
    repStos n value (dst + n) count

inductive StringUnit where
  | b
  | w
  | d
  | q
deriving DecidableEq, Repr

def StringUnit.shift : StringUnit → Nat
  | .b => 0
  | .w => 1
  | .d => 2
  | .q => 3

abbrev StringUnit.bytes (unit : StringUnit) : Nat := 2 ^ unit.shift

/-- RCX as the code sets it from a length: shifted, except for bytes. -/
def StringUnit.count (unit : StringUnit) (len : Nat) : Nat :=
  match unit with
  | .b => len
  | .w => sar 1 len
  | .d => sar 2 len
  | .q => sar 3 len

theorem sar_eq {shift value : Nat} (positive : value < 2 ^ 63) :
    sar shift value = value / 2 ^ shift := by
  have clear : (BitVec.ofNat 64 value).msb = false := by
    rw [BitVec.msb_eq_false_iff_two_mul_lt, BitVec.toNat_ofNat]
    omega
  rw [sar, BitVec.sshiftRight_eq_of_msb_false clear, BitVec.toNat_ushiftRight, BitVec.toNat_ofNat,
    Nat.shiftRight_eq_div_pow, Nat.mod_eq_of_lt (by omega)]

theorem StringUnit.whole_b (len : Nat) : len % StringUnit.b.bytes = 0 := Nat.mod_one len

theorem StringUnit.count_eq {unit : StringUnit} {len : Nat} (positive : len < 2 ^ 63) :
    unit.count len = len / unit.bytes := by
  cases unit with
  | b => exact (Nat.div_one len).symm
  | w => exact sar_eq positive
  | d => exact sar_eq positive
  | q => exact sar_eq positive

/-- A length of whole units is covered by its count. -/
theorem StringUnit.count_mul {unit : StringUnit} {len : Nat} (positive : len < 2 ^ 63)
    (whole : len % unit.bytes = 0) : unit.count len * unit.bytes = len := by
  rw [StringUnit.count_eq positive, Nat.div_mul_cancel (Nat.dvd_of_mod_eq_zero whole)]

theorem StringUnit.covers_b (len : Nat) : StringUnit.b.count len * StringUnit.b.bytes = len :=
  Nat.mul_one len

theorem wrapSub_one_eq_iff {addr len : Nat} : wrapSub (addr + len) 1 = addr ↔ len = 1 := by
  rw [wrapSub, sizeRange_eq]
  split <;> omega

/-- Without a unit to move the addresses are not used, and in front of one they do not wrap. -/
theorem repMovsBack_wrapSub {n count len dst src : Nat} (covers : count * n = len) :
    repMovsBack n (wrapSub (dst + len) n) (wrapSub (src + len) n) count =
      repMovsBack n (dst + len - n) (src + len - n) count := by
  cases count with
  | zero => rfl
  | succ count =>
    have room : n ≤ len := by
      rw [← covers, Nat.succ_mul]
      exact Nat.le_add_left n _
    have inside (addr : Nat) : wrapSub (addr + len) n = addr + len - n :=
      if_pos (Nat.le_trans room (Nat.le_add_left len addr))
    rw [inside, inside]

/-- Who may read and who may write where. -/
def Memory.rights (m : Memory) : (Nat → Bool) × (Nat → Bool) := (m.readable, m.writable)

theorem Memory.eq_of_rights {m other : Memory} (bytes : m.byte = other.byte)
    (rights : m.rights = other.rights) : m = other := by
  obtain ⟨_, _, _⟩ := m
  obtain ⟨_, _, _⟩ := other
  cases bytes
  cases rights
  rfl

section Stores
variable {n : Nat} {type : Access} {addr : Nat} {v : Lanes n}

theorem vecStore_keeps : Keeps Memory.rights (vecStore n type addr v) := by
  intro m _ after returned
  unfold vecStore at returned
  split at returned
  · cases returned
    rfl
  · cases returned

theorem maskStore_keeps {mask : BitVec n} : Keeps Memory.rights (maskStore n mask addr v) := by
  intro m _ after returned
  unfold maskStore at returned
  split at returned
  · cases returned
    rfl
  · cases returned

theorem repStos_keeps (count : Nat) : Keeps Memory.rights (repStos n v addr count) := by
  induction count generalizing addr with
  | zero => exact keeps_pure ()
  | succ count ih => exact vecStore_keeps.bind fun _ => ih

end Stores

end AoclLibmem.Machine
