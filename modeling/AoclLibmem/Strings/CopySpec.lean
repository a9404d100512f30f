import AoclLibmem.Strings.CompareSpec
import AoclLibmem.Strings.SearchSpec
import AoclLibmem.Copy.Progress
import AoclLibmem.Machine.Written

/-! What `strcpy` and `strncpy` have to write, and what their loads tell of the source while
the destination fills up: no byte of the source up to its end is ever overwritten. -/

namespace AoclLibmem.Strings

open Base Machine Copy

def Nul (byte : Nat → UInt8) (src k : Nat) : Prop := byte (src + k) = 0

/-- What a caller of strncpy provides. The bytes of the source are those up to its first NUL,
or `n`; they are mapped and none of them lies in the destination. -/
structure StrncpyCall (m : PagedMemory) (dst src n : Nat) : Prop where
  range : n < sizeRange
  source : PrefixMapped m.toMemory src n
  target : m.canWrite dst n = true
  disjoint : ∀ k < n, ClearBelow (Nul m.byte src) k → ¬ (dst ≤ src + k ∧ src + k < dst + n)
  dstBelow : dst + n ≤ sizeRange
  srcBelow : ∀ k < n, ClearBelow (Nul m.byte src) k → src + k < sizeRange

/-- What a caller of strcpy provides: a terminated source, and room for it elsewhere. -/
structure StrcpyCall (m : PagedMemory) (dst src len : Nat) : Prop where
  ends : IsLength m.byte src len
  range : len < sizeRange
  source : ∀ i ≤ len, m.readable (src + i) = true
  target : ∀ i ≤ len, m.writable (dst + i) = true
  disjoint : dst + len < src ∨ src + len < dst

/-- What both rely on, for `n` bytes to write. -/
structure StringCopy (m : PagedMemory) (dst src n : Nat) : Prop where
  range : n ≤ sizeRange
  source : PrefixMapped m.toMemory src n
  target : m.canWrite dst n = true
  disjoint : ∀ k < n, ClearBelow (Nul m.byte src) k → ¬ (dst ≤ src + k ∧ src + k < dst + n)

/-- What strncpy has to leave: the source up to its first NUL, and NULs behind it. -/
structure Padded (before after : Memory) (dst src n : Nat) : Prop where
  copied : ∀ i < n, ClearBelow (Nul before.byte src) i → after.byte (dst + i) = before.byte (src + i)
  padded : ∀ i < n, ∀ j < i, Nul before.byte src j → after.byte (dst + i) = 0
  frame : ∀ a, ¬ (dst ≤ a ∧ a < dst + n) → after.byte a = before.byte a

def copyText (byte : Nat → UInt8) (src i : Nat) : UInt8 :=
  if ∀ j < i, byte (src + j) ≠ 0 then byte (src + i) else 0

/-- The first `k` of the `n` bytes are written. -/
abbrev CopiedTo (start : Memory) (dst src n k : Nat) : Memory → Prop :=
  Written start dst n (copyText start.byte src) (· < k)

theorem StrncpyCall.copy {m : PagedMemory} {dst src n : Nat} (call : StrncpyCall m dst src n) :
    StringCopy m dst src n :=
  ⟨Nat.le_of_lt call.range, call.source, call.target, call.disjoint⟩

theorem StrcpyCall.copy {m : PagedMemory} {dst src len : Nat} (call : StrcpyCall m dst src len) :
    StringCopy m dst src (len + 1) where
  range := call.range
  source k inside _ := call.source k (by omega)
  target := Memory.canWrite_iff.mpr fun i below => call.target i (by omega)
  disjoint k inside _ := by
    have apart := call.disjoint
    omega

theorem lastWord_strcpyCall {src len : Nat} (ends : src + len = 8191) (behind : 4096 + len < src) :
    StrcpyCall lastWord 4096 src len where
  ends := lastWord_isLength ends
  range := by rw [sizeRange_eq]; omega
  source i inside := lastWord_mapped (by omega) (by omega)
  target i inside := by
    have page1 : (4096 + i) / 4096 = 1 := by omega
    simp [lastWord, PagedMemory.ofPages, pageSz, page1]
  disjoint := by omega

theorem lastWord_strncpyCall {src n : Nat} (behind : 4096 + n ≤ src) (inside : src ≤ 8191) :
    StrncpyCall lastWord 4096 src n where
  range := by rw [sizeRange_eq]; omega
  source k _ clear := by
    have ends : IsLength lastWord.byte src (8191 - src) := lastWord_isLength (by omega)
    have le : k ≤ 8191 - src := ClearBelow.le_hit clear ends.1
    exact lastWord_mapped (by omega) (by omega)
  target := by
    refine Memory.canWrite_iff.mpr fun i below => ?_
    have page1 : (4096 + i) / 4096 = 1 := by omega
    simp [lastWord, PagedMemory.ofPages, pageSz, page1]
  disjoint k _ clear := by omega
  dstBelow := by rw [sizeRange_eq]; omega
  srcBelow k inside _ := by rw [sizeRange_eq]; omega

section Text
variable {byte : Nat → UInt8} {src i z : Nat}

theorem copyText_of_clear (clear : ClearBelow (Nul byte src) i) : copyText byte src i = byte (src + i) :=
  if_pos clear

theorem copyText_behind (nul : Nul byte src z) (behind : z ≤ i) : copyText byte src i = 0 := by
  unfold copyText
  split
  · rename_i clear
    rcases Nat.lt_or_eq_of_le behind with less | rfl
    · exact absurd nul (clear z less)
    · exact nul
  · rfl

end Text

theorem lines_aligned {w a : Nat} (some : 0 < w) (aligned : a % w = 0) :
    (a + (4 - a % (4 * w) / w) * w) % (4 * w) = 0 := by
  obtain ⟨q, rfl⟩ := Nat.dvd_of_mod_eq_zero aligned
  have whole : (q + (4 - q % 4)) % 4 = 0 := by omega
  rw [Nat.mul_comm 4 w, Nat.mul_mod_mul_left, Nat.mul_div_cancel_left _ some, Nat.mul_comm _ w,
    ← Nat.mul_add, Nat.mul_mod_mul_left, whole, Nat.mul_zero]

/-- The mask of a vector of the source. -/
theorem marks_source {w : Nat} {nulls : Lanes w → BitVec w} (zeros : MarksZeros nulls) (m : Memory)
    (src offset : Nat) :
    Marks (nulls (m.lanes w (src + offset))) fun i => Nul m.byte src (offset + i) := by
  apply zeros
  intro i
  rw [Memory.lanes_apply, Nat.add_assoc]
  exact Iff.rfl

section Spec
variable {start : PagedMemory} {m : Memory} {dst src n k z : Nat}

theorem copiedTo_start (start : Memory) (dst src n : Nat) : CopiedTo start dst src n 0 start :=
  (Written.refl start dst n _).mono fun _ below => absurd below (Nat.not_lt_zero _)

theorem CopiedTo.less {start : Memory} (written : CopiedTo start dst src n k m) (le : z ≤ k) :
    CopiedTo start dst src n z m :=
  written.mono fun _ below => Nat.lt_of_lt_of_le below le

theorem CopiedTo.padded (all : CopiedTo start.toMemory dst src n n m) :
    Padded start.toMemory m dst src n where
  copied i inside clear := (all.text i inside).trans (copyText_of_clear clear)
  padded i inside _ behind nul := (all.text i inside).trans (copyText_behind nul (Nat.le_of_lt behind))
  frame := all.frame

/-- A run that writes all `n` bytes pads them as strncpy has to. -/
theorem StrncpyCall.pads (call : StrncpyCall start dst src n) {run : Kernel Nat}
    (copies : Triple (CopiedTo start.toMemory dst src n 0) run
      fun result m => result = dst ∧ CopiedTo start.toMemory dst src n n m) :
    ∃ after, run start.toMemory = .ok (dst, after) ∧ Padded start.toMemory after dst src n := by
  obtain ⟨_, after, returned, rfl, all⟩ := copies start.toMemory (copiedTo_start _ _ _ _)
  exact ⟨after, returned, all.padded⟩

theorem CopiedTo.copied (all : CopiedTo start.toMemory dst src n n m)
    (clear : ∀ k < n, ClearBelow (Nul start.byte src) k) : Copied start.toMemory m dst src n :=
  ⟨fun i inside => (all.text i inside).trans (copyText_of_clear (clear i inside)), all.frame⟩

variable (call : StringCopy start dst src n)
include call

section Framed
variable (framed : Framed start.toMemory dst n m)
include framed

theorem StringCopy.byte_eq (inside : k < n) (clear : ClearBelow (Nul start.byte src) k) :
    m.byte (src + k) = start.byte (src + k) :=
  framed.frame _ (call.disjoint k inside clear)

theorem StringCopy.text_eq (inside : k < n) (clear : ClearBelow (Nul start.byte src) k) :
    m.byte (src + k) = copyText start.byte src k :=
  (call.byte_eq framed inside clear).trans (copyText_of_clear clear).symm

theorem StringCopy.clear_now (clear : ClearBelow (Nul start.byte src) k) (inside : k ≤ n) :
    ClearBelow (Nul m.byte src) k := by
  intro j less nul
  have same := call.byte_eq framed (by omega) (clear.mono (Nat.le_of_lt less))
  exact clear j less (same.symm.trans nul)

theorem StringCopy.clear_start (clear : ClearBelow (Nul m.byte src) k) (inside : k ≤ n) :
    ClearBelow (Nul start.byte src) k := by
  intro j
  induction j using Nat.strong_induction_on with
  | _ j ih =>
    intro less nul
    have before : ClearBelow (Nul start.byte src) j := fun i lower => ih i lower (by omega)
    exact clear j less ((call.byte_eq framed (by omega) before).trans nul)

theorem StringCopy.first_start (first : FirstHit (Nul m.byte src) z) (inside : z < n) :
    FirstHit (Nul start.byte src) z := by
  have clear := call.clear_start framed first.2 (Nat.le_of_lt inside)
  exact ⟨(call.byte_eq framed inside clear).symm.trans first.1, clear⟩

theorem StringCopy.clear_found (first : FirstHit (Nul m.byte src) z) :
    ClearBelow (Nul start.byte src) (min z n) :=
  call.clear_start framed (first.2.mono (Nat.min_le_left z n)) (Nat.min_le_right z n)

/-- A vector of the source from `k` on holds no NUL, or its first one is the string's, as far
as they lie below `n`. -/
theorem StringCopy.vec_none {w : Nat} {nulls : Lanes w → BitVec w} (zeros : MarksZeros nulls)
    (clear : ClearBelow (Nul start.byte src) k) (inside : k ≤ n)
    (none : nulls (m.lanes w (src + k)) = 0#w) : ClearBelow (Nul start.byte src) (min (k + w) n) := by
  have now := (marks_source zeros m src k).finds.clear (call.clear_now framed clear inside) none
  exact call.clear_start framed (now.mono (Nat.min_le_left _ n)) (Nat.min_le_right _ n)

theorem StringCopy.vec_some {w : Nat} {nulls : Lanes w → BitVec w} (zeros : MarksZeros nulls)
    (clear : ClearBelow (Nul start.byte src) k) (inside : k ≤ n)
    (some : nulls (m.lanes w (src + k)) ≠ 0#w) :
    FirstHit (Nul m.byte src) (k + tzcnt (nulls (m.lanes w (src + k)))) := by
  rw [Nat.add_comm]
  exact (marks_source zeros m src k).finds.firstHit (call.clear_now framed clear inside) some

/-- A vector stored where it belongs, of which the lanes below index `t` count. -/
theorem StringCopy.store {w j t : Nat} (before : j ≤ k) (inside : j + w ≤ n) (reach : t ≤ j + w)
    (clear : ∀ i < t, ClearBelow (Nul start.byte src) i) :
    Triple (CopiedTo start.toMemory dst src n k)
      (vecStore w .unaligned (dst + j) (m.lanes w (src + j)))
      fun _ => CopiedTo start.toMemory dst src n t := by
  apply written_store call.target allows_unaligned inside
  · intro i counts
    rw [Memory.lanes_apply, Nat.add_assoc]
    exact call.text_eq framed (by omega) (clear _ counts)
  · intro i counts
    by_cases old : i < k
    · exact .inl old
    · exact .inr ⟨by omega, by omega⟩

theorem StringCopy.storeNul {w j : Nat} (before : j ≤ k) (inside : j + w ≤ n)
    (first : FirstHit (Nul start.byte src) z) (below : z < j + w) :
    Triple (CopiedTo start.toMemory dst src n k)
      (vecStore w .unaligned (dst + j) (m.lanes w (src + j)))
      fun _ => CopiedTo start.toMemory dst src n (z + 1) :=
  call.store framed before inside below fun _ less => first.2.mono (Nat.le_of_lt_succ less)

theorem StringCopy.store4 {α : Type} {w offset : Nat} {rest : Kernel α} {goal : α → Memory → Prop}
    (inside : offset + 4 * w ≤ n) (clear : ∀ i < offset + 4 * w, ClearBelow (Nul start.byte src) i)
    (after : Triple (CopiedTo start.toMemory dst src n (offset + 4 * w)) rest goal) :
    Triple (CopiedTo start.toMemory dst src n offset) (do
      vecStore w .unaligned (dst + offset) (m.lanes w (src + offset))
      vecStore w .unaligned (dst + offset + w) (m.lanes w (src + offset + w))
      vecStore w .unaligned (dst + offset + 2 * w) (m.lanes w (src + offset + 2 * w))
      vecStore w .unaligned (dst + offset + 3 * w) (m.lanes w (src + offset + 3 * w))
      rest) goal := by
  have store (j t : Nat) (next : j + w = t) (room : t ≤ 4 * w) :
      Triple (CopiedTo start.toMemory dst src n (offset + j))
        (vecStore w .unaligned (dst + offset + j) (m.lanes w (src + offset + j)))
        fun _ => CopiedTo start.toMemory dst src n (offset + t) := by
    rw [Nat.add_assoc, Nat.add_assoc src]
    exact call.store framed (Nat.le_refl _) (by omega) (by omega) fun i less => clear i (by omega)
  refine (store 0 w (Nat.zero_add w) (by omega)).bind fun _ => ?_
  refine (store w (2 * w) (by omega) (by omega)).bind fun _ => ?_
  refine (store (2 * w) (3 * w) (by omega) (by omega)).bind fun _ => ?_
  exact (store (3 * w) (4 * w) (by omega) (by omega)).bind fun _ => after

end Framed

/-- A part of the source that begins behind no NUL is readable up to the first one. -/
theorem StringCopy.canRead {offset len : Nat}
    (clear : ∀ k, k + 1 < offset + len → ¬ Nul start.byte src k) (inside : offset + len ≤ n) :
    start.canRead (src + offset) len = true := by
  rw [Memory.canRead_iff]
  intro i below
  rw [Nat.add_assoc]
  exact call.source (offset + i) (by omega) fun j less => clear j (by omega)

theorem StringCopy.canRead_aligned {w offset : Nat} (clear : ClearBelow (Nul start.byte src) offset)
    (inside : offset < n) (aligned : (src + offset) % w = 0) (divides : w ∣ 4096) :
    start.canRead (src + offset) w = true :=
  PagedMemory.canRead_of_aligned (call.source offset inside clear) aligned divides

/-- Behind the last byte of its page the source goes on in the next one. -/
theorem StringCopy.canRead_across {w : Nat} (more : 4096 - src % 4096 < n) (short : w ≤ 4096)
    (clear : ClearBelow (Nul start.byte src) (4096 - src % 4096)) : start.canRead src w = true := by
  have mapped : start.readable (src + 0) = true := call.source 0 (by omega) clearBelow_zero
  have next := call.source (4096 - src % 4096) more clear
  refine Memory.canRead_iff.mpr fun i below => ?_
  by_cases first : i < 4096 - src % 4096
  · rw [← mapped]
    exact start.byPage _ _ (by simp only [pageSz]; omega)
  · rw [← next]
    exact start.byPage _ _ (by simp only [pageSz]; omega)

end Spec

end AoclLibmem.Strings
