import AoclLibmem.Strings.CopySpec
import AoclLibmem.Fill.MemsetErms

/-! The fill with NULs behind the end of a copied string. Its long form is the same for both
vector sizes: the first and the last vectors unaligned, and between them aligned ones. -/

namespace AoclLibmem.Strings

open Base Machine

section Kernel

def zeroEnds (n mem size : Nat) : Kernel Nat := do
  vecStore n .unaligned mem setzero
  vecStore n .unaligned (mem + size - n) setzero
  return mem

def zeroVecs (w : Nat) (type : Access) (mem : Nat) : Nat → Kernel Unit
  | 0 => pure ()
  | count + 1 => do
    vecStore w type mem setzero
    zeroVecs w type (mem + w) count

/-- The sizes from two vectors on. -/
def fillVecs (w mem size : Nat) : Kernel Nat :=
  if size ≤ 4 * w then do
    zeroVecs w .unaligned mem 2
    zeroVecs w .unaligned (mem + size - 2 * w) 2
    return mem
  else do
    zeroVecs w .unaligned mem 4
    zeroVecs w .unaligned (mem + size - 4 * w) 4
    if size ≤ 8 * w then return mem
    else
      let offset := 4 * w - mem % w
      let size := size - 4 * w
      loopM .diverged (fun offset =>
        if offset < size then do
          zeroVecs w .aligned (mem + offset) 4
          return .next (offset + 4 * w)
        else return .done ()) budget offset
      return mem

def fillNullAvx2 (mem size : Nat) : Kernel Nat :=
  if size ≤ 2 * ymmSz then
    if size ≥ ymmSz then zeroEnds ymmSz mem size
    else if size ≥ xmmSz then zeroEnds xmmSz mem size
    else if size ≥ qwordSz then zeroEnds qwordSz mem size
    else if size ≥ dwordSz then zeroEnds dwordSz mem size
    else if size ≥ wordSz then zeroEnds wordSz mem size
    else if size > 0 then do
      vecStore 1 .unaligned mem setzero
      return mem
    else return mem
  else fillVecs ymmSz mem size

def fillNullAvx512 (mem size : Nat) : Kernel Nat :=
  if size < 2 * zmmSz then Fill.ermsStosb mem size 0 else fillVecs zmmSz mem size

end Kernel

/-- The range from `k` on has been added to what is done, and its start returned. -/
def RangeDone (start : Memory) (dst size : Nat) (text : Nat → UInt8) (done : Nat → Prop) (k len : Nat)
    (result : Nat) (m : Memory) : Prop :=
  result = dst + k ∧ Written start dst size text (fun j => done j ∨ k ≤ j ∧ j < k + len) m

/-- The run puts NULs in the range it is given, wherever in the window that is. -/
def FillsNull (fill : Nat → Nat → Kernel Nat) : Prop :=
  ∀ {start : Memory} {dst size k len : Nat} {text : Nat → UInt8} {done : Nat → Prop},
    start.canWrite dst size = true → size ≤ sizeRange → k + len ≤ size →
    (∀ j, k ≤ j → j < k + len → text j = 0) →
    Triple (Written start dst size text done) (fill (dst + k) len)
      (RangeDone start dst size text done k len)

/-- Two ranges that meet cover the whole one. -/
theorem range_covered {done : Nat → Prop} {k len b c d : Nat} (meets : c ≤ b) (reach : k + len ≤ d)
    (j : Nat) (member : done j ∨ k ≤ j ∧ j < k + len) : (done j ∨ k ≤ j ∧ j < b) ∨ c ≤ j ∧ j < d := by
  rcases member with old | ⟨low, high⟩
  · exact .inl (.inl old)
  · by_cases first : j < b
    · exact .inl (.inr ⟨low, first⟩)
    · exact .inr ⟨by omega, by omega⟩

section Fill
variable {start : Memory} {dst size k len w : Nat} {text : Nat → UInt8} {done : Nat → Prop}
variable (target : start.canWrite dst size = true)
include target

private theorem zeroEnds_written (room : w ≤ len) (covers : len ≤ 2 * w) (inside : k + len ≤ size)
    (zero : ∀ j, k ≤ j → j < k + len → text j = 0) :
    Triple (Written start dst size text done) (zeroEnds w (dst + k) len)
      (RangeDone start dst size text done k len) := by
  have place : dst + k + len - w = dst + (k + len - w) := by omega
  rw [zeroEnds, place]
  have head : ∀ i : Fin w, (setzero : Lanes w) i = text (k + i) :=
    fun i => (zero _ (by omega) (by omega)).symm
  have tail : ∀ i : Fin w, (setzero : Lanes w) i = text (k + len - w + i) :=
    fun i => (zero _ (by omega) (by omega)).symm
  refine (written_add target allows_unaligned (by omega) head).bind fun _ => ?_
  refine (written_add target allows_unaligned (by omega) tail).bind fun _ => ?_
  exact triple_pure fun m written => ⟨rfl, written.mono (range_covered (by omega) (by omega))⟩

private theorem zeroVecs_written {type : Access} {count : Nat} (allows : type.Allows w (dst + k))
    (inside : k + count * w ≤ size) (zero : ∀ j, k ≤ j → j < k + count * w → text j = 0) :
    Triple (Written start dst size text done) (zeroVecs w type (dst + k) count)
      fun _ => Written start dst size text fun j => done j ∨ k ≤ j ∧ j < k + count * w := by
  induction count generalizing k done with
  | zero => exact triple_pure fun m written => written.mono fun j member => member.elim id (by omega)
  | succ count ih =>
    rw [Nat.succ_mul] at inside zero ⊢
    have lanes : ∀ i : Fin w, (setzero : Lanes w) i = text (k + i) :=
      fun i => (zero _ (by omega) (by omega)).symm
    refine (written_add target allows (by omega) lanes).bind fun _ => ?_
    have further := allows.add_mul 1
    rw [Nat.one_mul, Nat.add_assoc] at further
    rw [Nat.add_assoc]
    apply (ih further (by omega) fun j low high => zero j (by omega) (by omega)).imp
    intro _ m written
    exact written.mono (range_covered (by omega) (by omega))

omit target in
/-- The loop of the long fills, between the first and the last four vectors: it ends before
the last four begin, or in them. -/
private theorem fillLoop_written (four : Nat → Kernel Unit) {first : Nat} (range : size ≤ sizeRange)
    (some : 0 < w) (aligned : (dst + k + first) % w = 0) (short : first ≤ 4 * w)
    (large : 4 * w ≤ len) (inside : k + len ≤ size)
    (fours : ∀ k' old, (dst + k') % w = 0 → k ≤ k' → k' + 4 * w ≤ k + len →
      Triple (Written start dst size text old) (four (dst + k'))
        fun _ => Written start dst size text fun j => old j ∨ k' ≤ j ∧ j < k' + 4 * w) :
    Triple (Written start dst size text fun j =>
        (done j ∨ k ≤ j ∧ j < k + first) ∨ k + len - 4 * w ≤ j ∧ j < k + len)
      (loopM .diverged (fun offset =>
        if offset < len - 4 * w then do
          four (dst + k + offset)
          return .next (offset + 4 * w)
        else return .done ()) budget first)
      fun _ => Written start dst size text fun j => done j ∨ k ≤ j ∧ j < k + len := by
  have loop : Triple (fun m => (dst + k + first) % w = 0 ∧ Written start dst size text (fun j =>
        (done j ∨ k ≤ j ∧ j < k + first) ∨ k + len - 4 * w ≤ j ∧ j < k + len) m)
      (loopM .diverged (fun offset =>
        if offset < len - 4 * w then do
          four (dst + k + offset)
          return .next (offset + 4 * w)
        else return .done ()) budget first)
      fun _ => Written start dst size text fun j => done j ∨ k ≤ j ∧ j < k + len := by
    refine loopM_triple (fun offset m => (dst + k + offset) % w = 0 ∧
      Written start dst size text (fun j => (done j ∨ k ≤ j ∧ j < k + offset) ∨
        k + len - 4 * w ≤ j ∧ j < k + len) m) (fun offset => len - 4 * w - offset) ?_
      (by rw [sizeRange_eq] at range; rw [budget]; omega)
    intro offset
    apply triple_fact
    intro aligned
    apply triple_ite
    · intro more
      rw [Nat.add_assoc] at aligned ⊢
      refine (fours (k + offset) _ aligned (by omega) (by omega)).bind fun _ => ?_
      refine triple_pure fun m written => ⟨⟨?_, written.mono ?_⟩, by omega⟩
      · have place : dst + k + (offset + 4 * w) = dst + (k + offset) + 4 * w := by omega
        rw [place, Nat.add_mul_mod_self_right]
        exact aligned
      · rintro j ((old | ⟨low, high⟩) | last)
        · exact .inl (.inl (.inl old))
        · by_cases before : j < k + offset
          · exact .inl (.inl (.inr ⟨low, before⟩))
          · exact .inr ⟨by omega, by omega⟩
        · exact .inl (.inr last)
    · intro ended
      exact triple_pure fun m written => written.mono (range_covered (by omega) (by omega))
  exact loop.from fun m written => ⟨aligned, written⟩

private theorem fillVecs_written (some : 0 < w) (range : size ≤ sizeRange) (large : 2 * w ≤ len)
    (inside : k + len ≤ size) (zero : ∀ j, k ≤ j → j < k + len → text j = 0) :
    Triple (Written start dst size text done) (fillVecs w (dst + k) len)
      (RangeDone start dst size text done k len) := by
  have vecs {type : Access} {old : Nat → Prop} (k' count : Nat) (allows : type.Allows w (dst + k'))
      (low : k ≤ k') (high : k' + count * w ≤ k + len) :
      Triple (Written start dst size text old) (zeroVecs w type (dst + k') count)
        fun _ => Written start dst size text fun j => old j ∨ k' ≤ j ∧ j < k' + count * w := by
    apply zeroVecs_written target allows (by omega)
    exact fun j below above => zero j (by omega) (by omega)
  rw [fillVecs]
  apply triple_ite
  · intro to4
    have place : dst + k + len - 2 * w = dst + (k + len - 2 * w) := by omega
    rw [place]
    refine (vecs k 2 allows_unaligned (by omega) (by omega)).bind fun _ => ?_
    refine (vecs (k + len - 2 * w) 2 allows_unaligned (by omega) (by omega)).bind fun _ => ?_
    exact triple_pure fun m written => ⟨rfl, written.mono (range_covered (by omega) (by omega))⟩
  intro more
  have place : dst + k + len - 4 * w = dst + (k + len - 4 * w) := by omega
  rw [place]
  refine (vecs k 4 allows_unaligned (by omega) (by omega)).bind fun _ => ?_
  refine (vecs (k + len - 4 * w) 4 allows_unaligned (by omega) (by omega)).bind fun _ => ?_
  apply triple_ite
  · intro to8
    exact triple_pure fun m written => ⟨rfl, written.mono (range_covered (by omega) (by omega))⟩
  · intro long
    have less := Nat.mod_lt (dst + k) some
    have aligned : (dst + k + (4 * w - (dst + k) % w)) % w = 0 := by
      have line : dst + k + (4 * w - (dst + k) % w) = w * ((dst + k) / w) + 4 * w := by
        have whole := Nat.div_add_mod (dst + k) w
        omega
      rw [line, Nat.add_mul_mod_self_right, Nat.mul_mod_right]
    refine Triple.bind (Triple.from (fillLoop_written (fun mem => zeroVecs w .aligned mem 4) range
      some aligned (by omega) (by omega) inside ?_) ?_) fun _ =>
        triple_pure fun m written => ⟨rfl, written⟩
    · exact fun k' old aligned low high => vecs k' 4 (allows_of_aligned aligned) low high
    · intro m written
      apply written.mono
      rintro j ((old | ⟨low, high⟩) | ⟨low, high⟩)
      · exact .inl (.inl old)
      · exact .inl (.inr ⟨low, by omega⟩)
      · exact .inr ⟨by omega, by omega⟩

end Fill

theorem fillNullAvx2_fills : FillsNull fillNullAvx2 := by
  intro start dst size k len text done target range inside zero
  by_cases long : len ≤ 2 * ymmSz
  · have ends (w : Nat) (room : w ≤ len) (covers : len ≤ 2 * w) :
        Triple (Written start dst size text done) (zeroEnds w (dst + k) len)
          (RangeDone start dst size text done k len) :=
      zeroEnds_written target room covers inside zero
    rw [fillNullAvx2, if_pos long]
    simp only [ymmSz, xmmSz, qwordSz, dwordSz, wordSz] at long ⊢
    apply triple_ite
    · exact fun from32 => ends 32 from32 (by omega)
    intro to31
    apply triple_ite
    · exact fun from16 => ends 16 from16 (by omega)
    intro to15
    apply triple_ite
    · exact fun from8 => ends 8 from8 (by omega)
    intro to7
    apply triple_ite
    · exact fun from4 => ends 4 from4 (by omega)
    intro to3
    apply triple_ite
    · exact fun from2 => ends 2 from2 (by omega)
    intro to1
    apply triple_ite
    · intro some
      have one : len = 1 := by omega
      rw [one]
      have byte : ∀ i : Fin 1, (setzero : Lanes 1) i = text (k + i) :=
        fun i => (zero _ (by omega) (by omega)).symm
      refine (written_add target allows_unaligned (by omega) byte).bind fun _ => ?_
      exact triple_pure fun m written => ⟨rfl, written⟩
    · intro none
      refine triple_pure fun m written => ⟨rfl, written.mono fun j member => ?_⟩
      exact member.elim id (by omega)
  · rw [fillNullAvx2, if_neg long]
    exact fillVecs_written target (by decide) range (by omega) inside zero

theorem fillNullAvx512_fills : FillsNull fillNullAvx512 := by
  intro start dst size k len text done target range inside zero
  apply triple_ite
  · intro small
    have stores : Triple (Written start dst size text done)
        (repStos 1 (Fill.lanesOf 1 (0 : BitVec 32)) (dst + k) len)
        fun _ => Written start dst size text fun j => done j ∨ k ≤ j ∧ j < k + len := by
      apply written_repStos target inside
      · intro j low high
        rw [zero j low high]
        rfl
      · exact fun j member => member
    exact stores.bind fun _ => triple_pure fun m written => ⟨rfl, written⟩
  · exact fun large => fillVecs_written target (by decide) range (by omega) inside zero

/-- A fill of a range of its own, in which everything is to be NUL. -/
theorem FillsNull.fills {fill : Nat → Nat → Kernel Nat} (nulls : FillsNull fill) {start : Memory}
    {mem size : Nat} (buffer : Fill.Buffer start mem size) (range : size < sizeRange) :
    Fill.Fills start (fill mem size) mem size 0 := by
  have rights : start.canWrite mem size = true := Memory.canWrite_iff.mpr buffer
  have filled : Triple (Written start mem size (fun _ => 0) fun _ => False) (fill (mem + 0) size)
      (RangeDone start mem size (fun _ => 0) (fun _ => False) 0 size) :=
    nulls rights (Nat.le_of_lt range) (by omega) fun _ _ _ => rfl
  obtain ⟨_, after, returned, rfl, written⟩ := filled start (Written.refl start mem size _)
  refine ⟨after, returned, fun i below => ?_, written.frame⟩
  exact written.text i (.inr ⟨Nat.zero_le i, by omega⟩)

/-- For every address and size the padding routines fill just their range and return it. With the
right to write there and no other they still do, and an aligned store at an address that is no
multiple of its vector would stop the run. -/
theorem fillNull_fills (start : Memory) (mem size : Nat) (buffer : Fill.Buffer start mem size)
    (range : size < sizeRange) :
    Fill.Fills start (fillNullAvx2 mem size) mem size 0 ∧
      Fill.Fills start (fillNullAvx512 mem size) mem size 0 :=
  ⟨fillNullAvx2_fills.fills buffer range, fillNullAvx512_fills.fills buffer range⟩

theorem fillNull_fills_odd :
    Fill.Fills (PagedMemory.full UInt8.ofNat).toMemory (fillNullAvx2 4097 700) 4097 700 0 ∧
      Fill.Fills (PagedMemory.full UInt8.ofNat).toMemory (fillNullAvx512 4097 700) 4097 700 0 :=
  fillNull_fills (PagedMemory.full UInt8.ofNat).toMemory 4097 700 (fun _ _ => rfl)
    (by rw [sizeRange_eq]; decide)

section Source
variable {start : PagedMemory} {dst src n : Nat} (call : StringCopy start dst src n)
include call

theorem StringCopy.fill {z : Nat} {fill : Nat → Nat → Kernel Nat} (fills : FillsNull fill)
    (nul : Nul start.byte src z) (more : z + 1 ≤ n) :
    Triple (CopiedTo start.toMemory dst src n (z + 1))
      (do let _ ← fill (dst + (z + 1)) (n - (z + 1)))
      fun _ => CopiedTo start.toMemory dst src n n := by
  refine Triple.bind (fills call.target call.range (by omega) ?_) fun _ => ?_
  · intro j low _
    exact copyText_behind nul (by omega)
  · exact triple_pure fun m done => done.2.mono fun j member => by omega

end Source

end AoclLibmem.Strings
