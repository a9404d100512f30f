import AoclLibmem.Machine.Lanes
import AoclLibmem.Base.Stateful

/-! Code that loads and stores: the vector and scalar moves of the copy kernels. An
access that lacks its rights, or its alignment, stops the run. -/

namespace AoclLibmem.Machine

open Base

abbrev Kernel := StateT Memory Exec

/-- The kinds of load and store of the `*_LOAD_*` and `*_STORE_*` tables. -/
inductive Access where
  | aligned
  | unaligned
  | stream
deriving DecidableEq, Repr

/-- Only the unaligned kind takes an address that is no multiple of the vector. -/
def Access.Allows (type : Access) (n addr : Nat) : Prop := type = .unaligned ∨ addr % n = 0

instance (type : Access) (n addr : Nat) : Decidable (type.Allows n addr) :=
  inferInstanceAs (Decidable (type = .unaligned ∨ addr % n = 0))

def Memory.write (m : Memory) {n : Nat} (addr : Nat) (v : Lanes n) : Memory :=
  { m with
    byte := fun a =>
      if inside : addr ≤ a ∧ a - addr < n then v ⟨a - addr, inside.2⟩ else m.byte a }

def Memory.maskWrite (m : Memory) {n : Nat} (mask : BitVec n) (addr : Nat) (v : Lanes n) : Memory :=
  { m with
    byte := fun a =>
      if inside : (addr ≤ a ∧ a - addr < n) ∧ mask.getLsbD (a - addr) = true then
        v ⟨a - addr, inside.1.2⟩
      else m.byte a }

/-- `_mm*_load_si*`, `_mm*_loadu_si*`, `_mm*_stream_load_si*`, and a scalar load of `n` bytes. -/
def vecLoad (n : Nat) (type : Access) (addr : Nat) : Kernel (Lanes n) := fun m =>
  if type.Allows n addr ∧ m.canRead addr n = true then .ok (m.lanes n addr, m) else .error .fault

/-- `_mm*_store_si*`, `_mm*_storeu_si*`, `_mm*_stream_si*`, and a scalar store of `n` bytes. -/
def vecStore (n : Nat) (type : Access) (addr : Nat) (v : Lanes n) : Kernel Unit := fun m =>
  if type.Allows n addr ∧ m.canWrite addr n = true then .ok ((), m.write addr v) else .error .fault

/-- `_mm512_mask_loadu_epi8` onto zero. -/
def maskLoad (n : Nat) (mask : BitVec n) (addr : Nat) : Kernel (Lanes n) := fun m => do
  let v ← m.maskLoadu setzero mask addr
  return (v, m)

/-- `_mm512_mask_loadu_epi8`: lanes outside the mask are not accessed and keep `fill`. -/
def maskLoadOnto {n : Nat} (fill : Lanes n) (mask : BitVec n) (addr : Nat) : Kernel (Lanes n) :=
  fun m => do
    let v ← m.maskLoadu fill mask addr
    return (v, m)

/-- `_mm512_mask_storeu_epi8`: lanes outside the mask are not accessed. -/
def maskStore (n : Nat) (mask : BitVec n) (addr : Nat) (v : Lanes n) : Kernel Unit := fun m =>
  if ∀ i : Fin n, mask.getLsbD i = true → m.writable (addr + i) = true then
    .ok ((), m.maskWrite mask addr v)
  else .error .fault

def readOnly {α : Type} (run : Memory → Exec α) : Kernel α := fun m => do
  let value ← run m
  return (value, m)

theorem readOnly_triple {α : Type} {run : Memory → Exec α} {m : Memory} {value : α}
    (returns : run m = .ok value) :
    Triple (fun state => state = m) (readOnly run) fun result state => result = value ∧ state = m := by
  rintro _ rfl
  refine ⟨value, _, ?_, rfl, rfl⟩
  rw [readOnly, returns]
  rfl

theorem allows_unaligned {n addr : Nat} : Access.unaligned.Allows n addr := .inl rfl

theorem allows_of_aligned {type : Access} {n addr : Nat} (aligned : addr % n = 0) :
    type.Allows n addr := .inr aligned

theorem Access.Allows.add_mul {type : Access} {n addr : Nat} (allows : type.Allows n addr) (j : Nat) :
    type.Allows n (addr + j * n) :=
  allows.imp_right fun aligned => by rw [Nat.add_mul_mod_self_right, aligned]

theorem Access.Allows.sub_mul {type : Access} {n addr k j : Nat} (allows : type.Allows n (addr + k))
    (room : j * n ≤ k) : type.Allows n (addr + (k - j * n)) := by
  refine allows.imp_right fun aligned => ?_
  rw [← Nat.add_mul_mod_self_right _ j n, Nat.add_assoc, Nat.sub_add_cancel room]
  exact aligned

end AoclLibmem.Machine
