import AoclLibmem.Machine.StringInstr

/-! Asm statements made of string instructions: the registers they use, the direction flag,
and what `rep movs` does under either of its values. -/

namespace AoclLibmem.Machine

open Base

/-- The registers of a string instruction, with one more that a statement uses. -/
structure StringRegs where
  rdi : Nat
  rsi : Nat
  rcx : Nat
  rax : Nat
  df : Bool
deriving DecidableEq, Repr

/-- A pointer goes down while the direction flag is set. -/
def StringRegs.advance (regs : StringRegs) (n addr : Nat) : Nat :=
  if regs.df then addr - n else addr + n

inductive StringInstr where
  | cld
  | std
  | sarRcx (shift : Nat)
  | movqRdiRax
  | repMovs (unit : StringUnit)
deriving DecidableEq, Repr

def movs (n : Nat) (regs : StringRegs) : Kernel StringRegs := do
  let unit ← vecLoad n .unaligned regs.rsi
  vecStore n .unaligned regs.rdi unit
  return { regs with rdi := regs.advance n regs.rdi, rsi := regs.advance n regs.rsi }

def rep (instr : StringRegs → Kernel StringRegs) : Nat → StringRegs → Kernel StringRegs
  | 0, regs => pure { regs with rcx := 0 }
  | count + 1, regs => do
    let further ← instr regs
    rep instr count further

def StringInstr.run : StringInstr → StringRegs → Kernel StringRegs
  | .cld, regs => pure { regs with df := false }
  | .std, regs => pure { regs with df := true }
  | .sarRcx shift, regs => pure { regs with rcx := sar shift regs.rcx }
  | .movqRdiRax, regs => pure { regs with rax := regs.rdi }
  | .repMovs unit, regs => rep (movs unit.bytes) regs.rcx regs

def runAsm : List StringInstr → StringRegs → Kernel StringRegs
  | [], regs => pure regs
  | instr :: rest, regs => do
    let further ← instr.run regs
    runAsm rest further

section Rep
variable {n count : Nat} {regs : StringRegs}

theorem rep_movs_clear (clear : regs.df = false) :
    rep (movs n) count regs = do
      let last ← repMovs n regs.rdi regs.rsi count
      return { regs with rdi := last, rsi := regs.rsi + count * n, rcx := 0 } := by
  induction count generalizing regs with
  | zero => simp [rep, repMovs]
  | succ count ih =>
    have next (addr : Nat) : addr + n + count * n = addr + (count + 1) * n := by
      rw [Nat.succ_mul, Nat.add_assoc, Nat.add_comm n]
    simp [rep, movs, repMovs, bind_assoc, StringRegs.advance, clear, ih, next]

theorem rep_movs_set (set : regs.df = true) :
    rep (movs n) count regs = do
      repMovsBack n regs.rdi regs.rsi count
      return { regs with rdi := regs.rdi - count * n, rsi := regs.rsi - count * n, rcx := 0 } := by
  induction count generalizing regs with
  | zero => simp [rep, repMovsBack]
  | succ count ih =>
    have next (addr : Nat) : addr - n - count * n = addr - (count + 1) * n := by
      rw [Nat.succ_mul, Nat.sub_sub, Nat.add_comm n]
    simp [rep, movs, repMovsBack, bind_assoc, StringRegs.advance, set, ih, next]

end Rep

end AoclLibmem.Machine
