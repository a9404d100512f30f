import AoclLibmem.Copy.StringMoves
import AoclLibmem.Machine.StringAsm

/-! `tunable/erms/memmove_erms.c` down to the instructions of its asm statements, with the
direction flag that they set and clear. -/

namespace AoclLibmem.Copy

open Base Machine

section Kernel

/-- The asm statements of `__erms_movsb`, `__erms_movsw`, ... -/
def movsText : StringUnit → List StringInstr
  | .b => [.cld, .repMovs .b]
  | .w => [.sarRcx 1, .cld, .repMovs .w]
  | .d => [.sarRcx 2, .cld, .repMovs .d]
  | .q => [.sarRcx 3, .cld, .repMovs .q]

/-- The asm statements of `__erms_movsb_back`, `__erms_movsw_back`, ... -/
def movsBackText : StringUnit → List StringInstr
  | .b => [.movqRdiRax, .std, .repMovs .b, .cld]
  | .w => [.sarRcx 1, .std, .repMovs .w, .cld]
  | .d => [.sarRcx 2, .std, .repMovs .d, .cld]
  | .q => [.sarRcx 3, .std, .repMovs .q, .cld]

variable (unit : StringUnit) (dst src len : Nat) (regs : StringRegs)

def ermsMovsAsm : Kernel (Nat × StringRegs) := do
  let last ← runAsm (movsText unit) { regs with rdi := dst, rsi := src, rcx := len }
  return (last.rdi, last)

/-- `__erms_movsb_back`, `__erms_movsw_back`, ..., inlined: `dst` waits in RAX to be returned, as the
statement names neither an output nor a clobber. -/
def ermsMovsBackAsm : Kernel (Nat × StringRegs) := do
  let last ← runAsm (movsBackText unit) { regs with
    rdi := wrapSub (dst + len) unit.bytes, rsi := wrapSub (src + len) unit.bytes, rcx := len, rax := dst }
  return (last.rax, last)

/-- The text of the four functions; RAX is returned. -/
def memmoveErmsAlignedAsm : Kernel (Nat × StringRegs) :=
  if src > dst then do
    let out ← ermsMovsAsm unit dst src len { regs with rax := dst }
    return (out.2.rax, out.2)
  else ermsMovsBackAsm unit dst src len regs

def memmoveErmsBAlignedAsm := memmoveErmsAlignedAsm .b
def memmoveErmsWAlignedAsm := memmoveErmsAlignedAsm .w
def memmoveErmsDAlignedAsm := memmoveErmsAlignedAsm .d
def memmoveErmsQAlignedAsm := memmoveErmsAlignedAsm .q

def memmoveErmsAsm : StringUnit → Nat → Nat → Nat → StringRegs → Kernel (Nat × StringRegs)
  | .b => memmoveErmsBAlignedAsm
  | .w => memmoveErmsWAlignedAsm
  | .d => memmoveErmsDAlignedAsm
  | .q => memmoveErmsQAlignedAsm

end Kernel

section Refine
variable {unit : StringUnit} {dst src len : Nat} {regs : StringRegs}
variable {pre : Memory → Prop} {post : Nat → Memory → Prop}

/-- The statement moves what the model without registers moves. -/
private theorem ermsMovsAsm_eq : ermsMovsAsm unit dst src len regs = do
    let last ← ermsMovs unit dst src len
    return (last, ⟨last, src + unit.count len * unit.bytes, 0, regs.rax, false⟩) := by
  cases unit <;>
    simp [ermsMovsAsm, movsText, runAsm, StringInstr.run, rep_movs_clear, ermsMovs, StringUnit.count]

private theorem ermsMovsBackAsm_eq : ermsMovsBackAsm unit dst src len regs = do
    let value ← ermsMovsBack unit dst src len
    return (value, ⟨wrapSub (dst + len) unit.bytes - unit.count len * unit.bytes,
      wrapSub (src + len) unit.bytes - unit.count len * unit.bytes, 0,
      if unit = .b then wrapSub (dst + len) unit.bytes else dst, false⟩) := by
  cases unit <;>
    simp [ermsMovsBackAsm, movsBackText, runAsm, StringInstr.run, rep_movs_set, ermsMovsBack,
      StringUnit.count]

/-- A statement does what its model does and leaves the direction flag clear; upwards it leaves RAX
alone. -/
private theorem ermsMovsAsm_triple (moves : Triple pre (ermsMovs unit dst src len) post) :
    Triple pre (ermsMovsAsm unit dst src len regs)
      fun out m => (out.2.rax = regs.rax ∧ out.2.df = false) ∧ post out.1 m := by
  rw [ermsMovsAsm_eq]
  exact moves.bind fun _ => triple_pure fun _ holds => ⟨⟨rfl, rfl⟩, holds⟩

private theorem ermsMovsBackAsm_triple (moves : Triple pre (ermsMovsBack unit dst src len) post) :
    Triple pre (ermsMovsBackAsm unit dst src len regs)
      fun out m => out.2.df = false ∧ post out.1 m := by
  rw [ermsMovsBackAsm_eq]
  exact moves.bind fun _ => triple_pure fun _ holds => ⟨rfl, holds⟩

end Refine

section Correct
variable {start : Memory} {unit : StringUnit} {dst src size : Nat} {regs : StringRegs}

theorem memmoveErmsAlignedAsm_triple (buffers : Buffers start dst src size)
    (covers : unit.count size * unit.bytes = size) :
    Triple (Progress start dst src ∅) (memmoveErmsAlignedAsm unit dst src size regs) fun out m =>
      (out.1 = dst ↔ KeepsRax unit dst src size) ∧ out.2.df = false ∧ Copied start m dst src size := by
  refine triple_ite (fun down => ?_) fun notDown => ?_
  · have forward := ermsMovs_triple buffers covers (.inl (Nat.le_of_lt down))
    refine (ermsMovsAsm_triple forward).bind fun out => triple_pure fun _ done => ?_
    exact ⟨iff_of_true done.1.1 fun _ => .inl down, done.1.2, done.2.1.2⟩
  · have up : src ≤ dst := Nat.le_of_not_lt notDown
    have backward := ermsMovsBack_triple buffers covers up
    refine (ermsMovsBackAsm_triple backward).imp fun out _ done => ⟨?_, done.1, done.2.1.2⟩
    rw [done.2.1.1]
    exact back_eq_iff up

/-- memmove's contract under any registers: the bytes are moved, no other byte changes, `dst` is
returned and the direction flag is clear. -/
def MovesClear (start : Memory) (run : Kernel (Nat × StringRegs)) (dst src size : Nat) : Prop :=
  ∃ last after, run start = .ok ((dst, last), after) ∧ last.df = false ∧ Copied start after dst src size

/-- Whatever the overlap and the registers at entry, all but the returned pointer is always right;
that is `dst` except where the byte variant has gone downwards over a size other than one. Each unit
is loaded before it is stored, so this asks for no alignment. -/
theorem memmoveErms_moves_iff (unit : StringUnit) (start : Memory) (dst src size : Nat)
    (regs : StringRegs) (buffers : Buffers start dst src size) (positive : size < 2 ^ 63)
    (whole : size % unit.bytes = 0) :
    (∃ result last after, memmoveErmsAsm unit dst src size regs start = .ok ((result, last), after) ∧
      last.df = false ∧ Copied start after dst src size) ∧
    (MovesClear start (memmoveErmsAsm unit dst src size regs) dst src size ↔
      KeepsRax unit dst src size) := by
  have moved : Triple _ (memmoveErmsAlignedAsm unit dst src size regs) _ :=
    memmoveErmsAlignedAsm_triple buffers (StringUnit.count_mul positive whole)
  have text : memmoveErmsAsm unit dst src size regs = memmoveErmsAlignedAsm unit dst src size regs := by
    cases unit <;> rfl
  obtain ⟨⟨result, last⟩, after, returned, kept, clear, copied⟩ := moved start (.refl start dst src)
  rw [text]
  refine ⟨⟨result, last, after, returned, clear, copied⟩, ?_⟩
  rw [← kept]
  constructor
  · rintro ⟨_, _, obeyed, _⟩
    rw [returned] at obeyed
    exact congrArg (·.1.1) (Except.ok.inj obeyed)
  · rintro rfl
    exact ⟨last, after, returned, clear, copied⟩

theorem memmoveErms_moves_iff_words :
    MovesClear (PagedMemory.full UInt8.ofNat).toMemory
        (memmoveErmsAsm .w 4098 4096 16 ⟨1, 2, 3, 4, true⟩) 4098 4096 16 ↔
      KeepsRax .w 4098 4096 16 :=
  (memmoveErms_moves_iff .w _ 4098 4096 16 ⟨1, 2, 3, 4, true⟩ ⟨fun _ _ => rfl, fun _ _ => rfl⟩
    (by decide) rfl).2

/-- Sixteen bytes up by eight: RAX holds the address of the last one. -/
theorem memmoveErmsBAligned_returns_last :
    ¬ MovesClear (PagedMemory.full UInt8.ofNat).toMemory
      (memmoveErmsBAlignedAsm 4104 4096 16 ⟨1, 2, 3, 4, false⟩) 4104 4096 16 := by
  have buffers : Buffers (PagedMemory.full UInt8.ofNat).toMemory 4104 4096 16 :=
    ⟨fun _ _ => rfl, fun _ _ => rfl⟩
  have moved : Triple _ (memmoveErmsBAlignedAsm 4104 4096 16 ⟨1, 2, 3, 4, false⟩) _ :=
    memmoveErmsAlignedAsm_triple buffers (StringUnit.covers_b 16)
  obtain ⟨_, _, returned, kept, _⟩ := moved _ (.refl _ 4104 4096)
  rintro ⟨_, _, obeyed, _⟩
  rw [returned] at obeyed
  have same := congrArg (·.1.1) (Except.ok.inj obeyed)
  exact absurd (kept.mp same rfl) (by decide)

end Correct

end AoclLibmem.Copy
