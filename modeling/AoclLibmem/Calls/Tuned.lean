import AoclLibmem.Calls.System
import AoclLibmem.Tunable.Kernels

/-! The entries of the tunable table as callers know them: which calls the functions of `tunable/`
answer as the contract says. -/

namespace AoclLibmem.Calls

open Base Machine Dispatch Copy Fill Compare Tunable

/-- The directories of `tunable/`: a vector instruction set, string instructions of one unit, or the
choice by size. -/
inductive Tuning where
  | vector (isa : VecIsa) (variant : Variant)
  | erms (unit : StringUnit)
  | threshold
deriving DecidableEq

/-- What the asm of the comparisons was compiled to: with the workaround for `rep cmpsd` or without,
and what each call finds in the upper half of RCX. -/
structure CmpsAsm where
  clangWorkaround : Bool
  rcxHigh : Call → BitVec 32

namespace Tuning
variable (asm : CmpsAsm) (thresholds : Thresholds) (avx512 : Bool)

def code (tuning : Tuning) : Call → Kernel Reply
  | .memcpy dst src size => pointing <|
      match tuning with
      | .vector isa variant => memcpyVariant isa variant dst src size
      | .erms unit => memcpyErmsAligned unit dst src size
      | .threshold => memcpyThreshold thresholds avx512 dst src size
  | .mempcpy dst src size => pointing <|
      match tuning with
      | .vector isa variant => mempcpyVariant isa variant dst src size
      | .erms unit => mempcpyErmsAligned unit dst src size
      | .threshold => mempcpyThreshold thresholds avx512 dst src size
  | .memmove dst src size => pointing <|
      match tuning with
      | .vector isa variant => memmoveVariant isa variant dst src size
      | .erms unit => memmoveErmsAligned unit dst src size
      | .threshold => memmoveThreshold thresholds avx512 dst src size
  | .memset mem val size => pointing <|
      match tuning with
      | .vector isa variant => memsetVariant isa variant mem val size
      | .erms unit => memsetErmsAligned unit mem size val
      | .threshold => memsetThreshold thresholds avx512 mem val size
  | .memcmp mem1 mem2 size =>
      let high := asm.rcxHigh (.memcmp mem1 mem2 size)
      telling .order fun m =>
        match tuning with
        | .vector isa variant => memcmpVariant m mem1 mem2 size isa variant
        | .erms unit => memcmpErmsAligned m high mem1 mem2 size asm.clangWorkaround unit
        | .threshold => memcmpThreshold m high mem1 mem2 size thresholds avx512
  | _ => throw .fault

/-- The buffers between which it moves: an aligned access stops off its boundary, and a string
instruction leaves out what is no whole unit. -/
def Moves (tuning : Tuning) (dst src size : Nat) : Prop :=
  match tuning with
  | .vector isa variant => variant.NeedsAligned → dst % isa.vecSz = 0 ∧ src % isa.vecSz = 0
  | .erms unit => size < 2 ^ 63 ∧ size % unit.bytes = 0
  | .threshold => size < 2 ^ 63

/-- The first difference has an index that fits an `int`. -/
def NearDifference (m : Memory) (mem1 mem2 size : Nat) : Prop :=
  ∀ k < size, FirstHit (Differs m.byte mem1 mem2) k → k < 2 ^ 31

def Fine (tuning : Tuning) (m : Memory) : Call → Prop
  | .memcpy dst src size =>
      -- a `rep movs` returns the end
      match tuning with
      | .vector _ _ => tuning.Moves dst src size
      | .erms _ => size = 0
      | .threshold => ¬ InRepmov thresholds size
  | .mempcpy dst src size => tuning.Moves dst src size
  | .memmove dst src size =>
      tuning.Moves dst src size ∧
        -- on its way back a `rep movsb` loses the `dst` to be returned
        match tuning with
        | .vector _ _ => True
        | .erms unit => KeepsRax unit dst src size
        | .threshold => InRepmov thresholds size → KeepsRax .b dst src size
  | .memset _ val size =>
      match tuning with
      | .vector _ _ | .threshold => True
      | .erms unit => size < 2 ^ 63 ∧ size % unit.bytes = 0 ∧ (size = 0 ∨ Fillable val unit)
  | .memcmp mem1 mem2 size =>
      let high := asm.rcxHigh (.memcmp mem1 mem2 size)
      match tuning with
      | .vector isa variant =>
          (variant.NeedsAligned → mem1 % isa.vecSz = 0 ∧ mem2 % isa.vecSz = 0) ∧
            (isa = .avx2 → NearDifference m mem1 mem2 size)
      | .erms unit => size % unit.bytes = 0 ∧
          Served m.byte mem1 mem2 size (unitCompared asm.clangWorkaround unit) high
      | .threshold =>
          (InRepmov thresholds size → Served m.byte mem1 mem2 size .b high) ∧
            (¬ InRepmov thresholds size → avx512 = false → NearDifference m mem1 mem2 size)
  | _ => False

end Tuning

section Served
variable {start : Memory} {dst src size : Nat}

private theorem mempcpy_served_toEnd {run : Kernel Nat}
    (toEnd : Triple (Copy.Progress start dst src ∅) run (CompleteToEnd start dst src size)) :
    contract.Served start (.mempcpy dst src size) (pointing run) := by
  obtain ⟨_, after, returned, ⟨rfl, copied⟩, readable, writable⟩ := toEnd start (.refl start dst src)
  exact ⟨_, after, pointing_returned returned, Prod.ext readable writable, rfl, copied⟩

private theorem memmove_served {run : Kernel Nat}
    (complete : Triple (Copy.Progress start dst src ∅) run (Copy.Complete start dst src size)) :
    contract.Served start (.memmove dst src size) (pointing run) := memcpy_served complete

private theorem memset_served_fills {run : Kernel Nat} {val : BitVec 32}
    (fills : Fills start run dst size (uchar val)) (keeps : Keeps Memory.rights run) :
    contract.Served start (.memset dst val size) (pointing run) := by
  obtain ⟨after, returned, filled⟩ := fills
  exact ⟨_, after, pointing_returned returned, keeps start _ after returned, rfl, filled⟩

private theorem memcmp_served_sign {run : Memory → Exec Int}
    (signs : OrdersSign start dst src size (run start)) :
    (contract.seen Reply.seen).Served start (.memcmp dst src size)
      (Reply.seen <$> telling .order run) := by
  obtain ⟨value, exact, returned, orders, sign⟩ := signs
  refine ⟨.order value.sign, start, ?_, .order exact, congrArg ReplyOf.order sign.symm, rfl, rfl, exact,
    rfl, orders⟩
  calc (Reply.seen <$> telling .order run) start
      = (telling .order run start >>= fun out => pure (out.1.seen, out.2)) := rfl
    _ = .ok (.order value.sign, start) := by rw [telling_returned returned, ok_bind]; rfl

end Served

section Met
variable (asm : CmpsAsm) (thresholds : Thresholds) (avx512 : Bool) (tuning : Tuning)

/-- A comparison by a string instruction has the right sign, and everything else is exact. -/
theorem Tuning.met :
    ((contract.only (tuning.Fine asm thresholds avx512)).seen Reply.seen).MetBy
      fun call => Reply.seen <$> tuning.code asm thresholds avx512 call := by
  rintro _ call ⟨⟨start, rfl, legal⟩, fine⟩
  cases call with
  | memcpy dst src size =>
    obtain ⟨buffers, range, apart⟩ := legal
    refine (memcpy_served ?_).seen
    cases tuning with
    | vector isa variant => exact memcpyVariant_complete buffers range apart fine
    | erms unit =>
      obtain rfl : size = 0 := fine
      exact memcpyErmsAligned_nothing buffers unit
    | threshold => exact memcpyThreshold_complete buffers range apart fine
  | mempcpy dst src size =>
    obtain ⟨buffers, range, apart⟩ := legal
    refine (mempcpy_served_toEnd ?_).seen
    cases tuning with
    | vector isa variant => exact mempcpyVariant_toEnd buffers range apart fine
    | erms unit => exact mempcpyErmsAligned_toEnd buffers fine.1 apart fine.2
    | threshold => exact mempcpyThreshold_toEnd buffers fine apart
  | memmove dst src size =>
    obtain ⟨buffers, range⟩ := legal
    refine (memmove_served ?_).seen
    cases tuning with
    | vector isa variant => exact memmoveVariant_complete buffers range fine.1
    | erms unit =>
      obtain ⟨⟨positive, whole⟩, keeps⟩ := fine
      exact memmoveErmsAligned_complete buffers (StringUnit.count_mul positive whole) keeps
    | threshold => exact memmoveThreshold_complete buffers fine.1 fine.2
  | memset mem val size =>
    obtain ⟨buffer, range⟩ := legal
    cases tuning with
    | vector isa variant =>
      exact (memset_served (memsetVariant_complete buffer range isa variant)
        (memsetVariant_keeps isa variant)).seen
    | erms unit =>
      obtain ⟨positive, whole, fillable⟩ := fine
      exact (memset_served_fills (memsetErmsAligned_fills buffer positive whole fillable)
        (memsetErmsAligned_keeps unit)).seen
    | threshold =>
      exact (memset_served (memsetThreshold_complete buffer range) memsetThreshold_keeps).seen
  | memcmp mem1 mem2 size =>
    cases tuning with
    | vector isa variant =>
      refine Interface.Served.seen (telling_served ?_ fun _ _ tells => tells)
      exact memcmpVariant_orders legal fine.1 fine.2
    | erms unit => exact memcmp_served_sign (memcmpErmsAligned_signs legal fine.1 fine.2)
    | threshold => exact memcmp_served_sign (memcmpThreshold_signs legal fine.1 fine.2)
  | _ => exact absurd fine id

end Met

end AoclLibmem.Calls
