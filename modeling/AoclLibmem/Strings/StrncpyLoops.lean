import AoclLibmem.Strings.CopySpec

/-! The loops of the strncpy kernels, for vectors of any width: over single vectors, by a
step that ends the copy or goes on, and over four vectors without a NUL. -/

namespace AoclLibmem.Strings

open Base Machine

/-- `offset + 4 * w <= size`, the sum in `size_t`. -/
def quadFits (w size offset : Nat) : Bool := (offset + 4 * w) % sizeRange ≤ size

/-- At most `count` single vectors; the offset behind them, or none when the copy is done. -/
def strncpyVecs (step : Nat → Kernel Bool) (w size : Nat) : Nat → Nat → Kernel (Option Nat)
  | 0, offset => pure (some offset)
  | count + 1, offset =>
    if offset ≥ size then pure (some offset)
    else do
      if ← step offset then pure none else strncpyVecs step w size count (offset + w)

def strncpyVec4s {w : Nat} (nulls : Lanes w → BitVec w) (dst src size offset : Nat) : Kernel Nat :=
  loopM .diverged (fun offset =>
    if quadFits w size offset then do
      let y1 ← vecLoad w .aligned (src + offset)
      let y2 ← vecLoad w .aligned (src + offset + w)
      let y3 ← vecLoad w .aligned (src + offset + 2 * w)
      let y4 ← vecLoad w .aligned (src + offset + 3 * w)
      let ret := nulls (minEpu8 (minEpu8 y1 y2) (minEpu8 y3 y4))
      if ret ≠ 0#w then return .done offset
      else do
        vecStore w .unaligned (dst + offset) y1
        vecStore w .unaligned (dst + offset + w) y2
        vecStore w .unaligned (dst + offset + 2 * w) y3
        vecStore w .unaligned (dst + offset + 3 * w) y4
        return .next (offset + 4 * w)
    else return .done offset) budget offset

/-- What follows the first vector: `count` vectors, those up to a multiple of four vectors, the
loop, and what remains behind it. -/
def strncpyTail {w : Nat} (step : Nat → Kernel Bool) (nulls : Lanes w → BitVec w)
    (remaining : Nat → Kernel Unit) (dst src size count offset : Nat) : Kernel Nat := do
  match ← strncpyVecs step w size count offset with
  | none => return dst
  | some offset =>
    let cntVec := 4 - (src + offset) % (4 * w) / w
    match ← strncpyVecs step w size cntVec offset with
    | none => return dst
    | some offset =>
      let offset ← strncpyVec4s nulls dst src size offset
      if offset < size then do
        remaining offset
        return dst
      else return dst

/-- An offset at which a vector of the source begins, and no NUL before it. The last vector may
reach beyond `n`. -/
structure Reached (start : Memory) (src n w k : Nat) : Prop where
  near : k < n + w
  aligned : (src + k) % w = 0
  clear : ClearBelow (Nul start.byte src) (min k n)

def At (start : Memory) (dst src n w k : Nat) (m : Memory) : Prop :=
  Reached start src n w k ∧ CopiedTo start dst src n (min k n) m

def StepCopied (start : Memory) (dst src n w further : Nat) : Bool → Memory → Prop
  | true => CopiedTo start dst src n n
  | false => At start dst src n w further

/-- The copy is done, or goes on behind the last byte or at `further`. -/
def VecsCopied (start : Memory) (dst src n w further : Nat) : Option Nat → Memory → Prop
  | none => CopiedTo start dst src n n
  | some k => fun m => (n ≤ k ∨ k = further) ∧ At start dst src n w k m

section Loops
variable {start : PagedMemory} {m : Memory} {dst src n offset w : Nat} {nulls : Lanes w → BitVec w}

theorem Reached.clear_of_le (reached : Reached start.toMemory src n w offset) (inside : offset ≤ n) :
    ClearBelow (Nul start.byte src) offset :=
  reached.clear.mono (by omega)

theorem at_of_copied (reached : Reached start.toMemory src n w offset)
    (written : CopiedTo start.toMemory dst src n offset m) : At start.toMemory dst src n w offset m :=
  ⟨reached, written.less (Nat.min_le_left _ _)⟩

/-- A vector begins before `n`: its step may assume what is copied up to it. -/
theorem triple_at {α : Type} {run : Kernel α} {post : α → Memory → Prop} (inside : offset ≤ n)
    (steps : Reached start.toMemory src n w offset →
      Triple (CopiedTo start.toMemory dst src n offset) run post) :
    Triple (At start.toMemory dst src n w offset) run post := by
  apply triple_fact
  intro reached
  exact (steps reached).from fun m written => written.less (by omega)

theorem At.all (here : At start.toMemory dst src n w offset m) (behind : n ≤ offset) :
    CopiedTo start.toMemory dst src n n m :=
  here.2.less (by omega)

private theorem strncpyVecs_copies {step : Nat → Kernel Bool} {count : Nat}
    (copies : ∀ k < n, Reached start.toMemory src n w k →
      Triple (CopiedTo start.toMemory dst src n k) (step k)
        (StepCopied start.toMemory dst src n w (k + w))) :
    Triple (At start.toMemory dst src n w offset) (strncpyVecs step w n count offset)
      (VecsCopied start.toMemory dst src n w (offset + count * w)) := by
  induction count generalizing offset with
  | zero =>
    rw [Nat.zero_mul, Nat.add_zero]
    exact triple_pure fun m here => ⟨.inr rfl, here⟩
  | succ count ih =>
    apply triple_ite
    · exact fun ended => triple_pure fun m here => ⟨.inl ended, here⟩
    · intro more
      have steps := triple_at (by omega) (copies offset (by omega))
      refine steps.bind fun done => ?_
      cases done with
      | true => exact triple_pure fun m written => written
      | false =>
        have place : offset + (count + 1) * w = offset + w + count * w := by
          rw [Nat.succ_mul]
          omega
        rw [place]
        exact ih

variable (call : StrncpyCall start dst src n)
include call

/-- Source and destination both lie in the address space, so an offset and `n` sum up in it. -/
theorem StrncpyCall.offset_range (clear : ClearBelow (Nul start.byte src) offset)
    (inside : offset ≤ n) : offset + n ≤ sizeRange ∨ offset = 0 := by
  rcases Nat.eq_zero_or_pos offset with zero | some
  · exact .inr zero
  · have needed {k : Nat} (less : k < offset) : ClearBelow (Nul start.byte src) k :=
      clear.mono (by omega)
    have first := call.disjoint 0 (by omega) (needed some)
    have last := call.srcBelow (offset - 1) (by omega) (needed (by omega))
    have below := call.dstBelow
    by_cases before : src < dst
    · by_cases reaches : dst < src + offset
      · exact absurd ⟨by omega, by omega⟩ (call.disjoint (dst - src) (by omega) (needed (by omega)))
      · omega
    · omega

theorem StrncpyCall.quadFits_iff (short : 4 * w ≤ 4096)
    (reached : Reached start.toMemory src n w offset) :
    quadFits w n offset = true ↔ offset + 4 * w ≤ n := by
  have sum := call.offset_range reached.clear (Nat.min_le_right _ _)
  have near := reached.near
  have range := call.range
  rw [sizeRange_eq] at sum range
  rw [quadFits, decide_eq_true_iff, sizeRange_eq]
  omega

private theorem strncpyVec4s_copies (zeros : MarksZeros nulls) (divides : 4 * w ∣ 4096)
    (line : n ≤ offset ∨ (src + offset) % (4 * w) = 0) :
    Triple (At start.toMemory dst src n w offset) (strncpyVec4s nulls dst src n offset)
      (At start.toMemory dst src n w) := by
  have some : 0 < w := Nat.pos_of_mul_pos_left (Nat.pos_of_dvd_of_pos divides (by decide))
  have short : 4 * w ≤ 4096 := Nat.le_of_dvd (by decide) divides
  have range := call.range
  have loop : Triple (fun m => (n ≤ offset ∨ (src + offset) % (4 * w) = 0) ∧
        At start.toMemory dst src n w offset m) (strncpyVec4s nulls dst src n offset)
      (At start.toMemory dst src n w) := by
    refine loopM_triple (fun offset m => (n ≤ offset ∨ (src + offset) % (4 * w) = 0) ∧
      At start.toMemory dst src n w offset m)
      (fun offset => n - offset) ?_ (by rw [sizeRange_eq] at range; rw [budget]; omega)
    clear line
    intro offset
    apply triple_fact
    intro line
    apply triple_fact
    intro reached
    apply triple_ite
    · intro fits
      rw [call.quadFits_iff short reached] at fits
      have aligned := line.resolve_left (by omega)
      have before := reached.clear_of_le (by omega)
      rw [Nat.min_eq_left (by omega)]
      apply written_load4 aligned (call.copy.canRead_aligned before (by omega) aligned divides)
      intro m framed
      apply triple_ite
      · exact fun found => triple_pure fun m written => at_of_copied reached written
      · intro none
        have now := call.copy.clear_now framed before (by omega)
        have clear := call.copy.clear_start framed
          ((nullFour m src offset).clear zeros now (not_not.mp none)) fits
        have next (c : Nat) (here : (src + offset) % c = 0) (whole : c ∣ 4 * w) :
            (src + (offset + 4 * w)) % c = 0 := by
          obtain ⟨q, size⟩ := whole
          rw [← Nat.add_assoc, size, Nat.add_mul_mod_self_left]
          exact here
        have reached' : Reached start.toMemory src n w (offset + 4 * w) :=
          ⟨by omega, next w reached.aligned (Nat.dvd_mul_left w 4), clear.mono (Nat.min_le_left _ _)⟩
        apply call.copy.store4 framed fits fun i less => clear.mono (by omega)
        refine triple_pure fun m written => ⟨⟨.inr ?_, at_of_copied reached' written⟩, by omega⟩
        exact next (4 * w) aligned (Nat.dvd_refl _)
    · exact fun _ => triple_pure fun m written => ⟨reached, written⟩
  exact loop.from fun m here => ⟨line, here⟩

theorem strncpyTail_copies {step : Nat → Kernel Bool} {remaining : Nat → Kernel Unit} {count : Nat}
    (zeros : MarksZeros nulls) (divides : 4 * w ∣ 4096)
    (copies : ∀ k < n, Reached start.toMemory src n w k →
      Triple (CopiedTo start.toMemory dst src n k) (step k)
        (StepCopied start.toMemory dst src n w (k + w)))
    (rest : ∀ k < n, Reached start.toMemory src n w k →
      Triple (CopiedTo start.toMemory dst src n k) (remaining k)
        fun _ => CopiedTo start.toMemory dst src n n) :
    Triple (At start.toMemory dst src n w offset)
      (strncpyTail step nulls remaining dst src n count offset)
      fun result m => result = dst ∧ CopiedTo start.toMemory dst src n n m := by
  have some : 0 < w := Nat.pos_of_mul_pos_left (Nat.pos_of_dvd_of_pos divides (by decide))
  refine (strncpyVecs_copies copies).bind fun result => ?_
  cases result with
  | none => exact triple_pure fun m written => ⟨rfl, written⟩
  | some offset =>
    apply triple_fact
    intro _
    apply triple_fact
    intro reached
    have here : Triple (At start.toMemory dst src n w offset)
        (strncpyVecs step w n (4 - (src + offset) % (4 * w) / w) offset)
        (VecsCopied start.toMemory dst src n w (offset + (4 - (src + offset) % (4 * w) / w) * w)) :=
      strncpyVecs_copies copies
    refine (here.from fun m written => ⟨reached, written⟩).bind fun result => ?_
    cases result with
    | none => exact triple_pure fun m written => ⟨rfl, written⟩
    | some further =>
      apply triple_fact
      intro counted
      have line : n ≤ further ∨ (src + further) % (4 * w) = 0 := by
        refine counted.imp_right fun all => ?_
        rw [all, ← Nat.add_assoc]
        exact lines_aligned some reached.aligned
      refine (strncpyVec4s_copies call zeros divides line).bind fun last => ?_
      apply triple_ite
      · intro more
        refine (triple_at (by omega) (rest last more)).bind fun _ => ?_
        exact triple_pure fun m written => ⟨rfl, written⟩
      · exact fun ended => triple_pure fun m here => ⟨rfl, here.all (by omega)⟩

end Loops

end AoclLibmem.Strings
