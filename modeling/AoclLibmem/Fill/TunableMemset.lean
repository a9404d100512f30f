import AoclLibmem.Fill.MemsetErms
import AoclLibmem.Copy.TunableMemcpy

/-! `tunable/avx2/memset_avx2.c` and `tunable/avx512/memset_avx512.c`: the variants with
unaligned, aligned and streaming stores. -/

namespace AoclLibmem.Fill

open Base Machine Copy

def setAll (n : Nat) (type : Access) (mem : Nat) (v : Lanes n) : List Nat → Kernel Unit
  | [] => pure ()
  | k :: places => do
    vecStore n type (mem + k) v
    setAll n type mem v places

def setWhile (n count : Nat) (type : Access) (mem : Nat) (v : Lanes n) (bound offset : Nat) :
    Kernel Nat :=
  loopM .diverged (fun offset =>
    if offset < bound then do
      setAll n type mem v (upwards n count offset)
      return .next (offset + count * n)
    else return .done offset) budget offset

section Small
variable (mem : Nat) (val : BitVec 32) (size : Nat)

def setHeadTail (n : Nat) (v : Lanes n) : Kernel Unit := setAll n .unaligned mem v [0, size - n]

def memsetLe2Ymm : Kernel Nat := do
  if size ≥ ymmSz then setHeadTail mem size ymmSz (set1 (uchar val))
  else if size ≥ xmmSz then setHeadTail mem size xmmSz (set1 (uchar val))
  else if size > qwordSz then setHeadTail mem size qwordSz (set1 (uchar val))
  else if size ≥ wordSz then
    let low : BitVec 32 := (val.setWidth 8).setWidth 32
    let shftVal := low <<< 8 ||| low
    if size ≥ dwordSz then
      setHeadTail mem size dwordSz (lanesOf dwordSz (shftVal ||| shftVal <<< 16))
    else setHeadTail mem size wordSz (lanesOf wordSz (shftVal.setWidth 16))
  else if size = 1 then vecStore 1 .unaligned mem (set1 (uchar val))
  return mem

def memsetLe2Zmm : Kernel Nat := do
  if size ≤ zmmSz then
    if size ≠ 0 then maskStore zmmSz (headMask (zmmSz - size)) mem (set1 (uchar val))
  else setHeadTail mem size zmmSz (set1 (uchar val))
  return mem

end Small

section Kernel
variable (isa : VecIsa) (mem : Nat) (val : BitVec 32) (size : Nat)

def memsetLe2Vec : Kernel Nat :=
  match isa with
  | .avx2 => memsetLe2Ymm mem val size
  | .avx512 => memsetLe2Zmm mem val size

/-- The limits of the unaligned variants: `<` in the AVX2 file, `<=` in the other. -/
def Within (isa : VecIsa) (size count : Nat) : Prop :=
  match isa with
  | .avx2 => size < count * ymmSz
  | .avx512 => size ≤ count * zmmSz

instance (isa : VecIsa) (size count : Nat) : Decidable (Within isa size count) :=
  match isa with
  | .avx2 => inferInstanceAs (Decidable (size < count * ymmSz))
  | .avx512 => inferInstanceAs (Decidable (size ≤ count * zmmSz))

/-- `__memset_avx2_unaligned`, `__memset_avx512_unaligned`. -/
def memsetUnaligned : Kernel Nat := do
  let v : Lanes isa.vecSz := set1 (uchar val)
  if Within isa size 2 then memsetLe2Vec isa mem val size
  else if Within isa size 4 then
    setAll isa.vecSz .unaligned mem v
      (upwards isa.vecSz 2 0 ++ upwards isa.vecSz 2 (size - 2 * isa.vecSz))
    return mem
  else
    setAll isa.vecSz .unaligned mem v
      (upwards isa.vecSz 4 0 ++ upwards isa.vecSz 4 (size - 4 * isa.vecSz))
    let _ ← loopM Trap.diverged (fun offset => (
      if offset < size - 4 * isa.vecSz then do
        setAll isa.vecSz .unaligned mem v (upwards isa.vecSz 4 offset)
        return .next (offset + 4 * isa.vecSz)
      else return .done offset : Kernel (Step Nat Nat))) budget (4 * isa.vecSz)
    return mem

/-- The loop by four vectors that counts the size down: what is left, and the offset. -/
def setLoop (n : Nat) (type : Access) (v : Lanes n) (left offset : Nat) : Kernel (Nat × Nat) :=
  loopM .diverged (fun at_ =>
    if at_.1 ≥ 4 * n then do
      setAll n type mem v (upwards n 4 at_.2)
      return .next (at_.1 - 4 * n, at_.2 + 4 * n)
    else return .done at_) budget (left, offset)

def setBlocks (n : Nat) (type : Access) (v : Lanes n) (left offset : Nat) : Kernel Unit := do
  let (left, offset) ← setLoop mem n type v left offset
  let (left, offset) ← (if left ≥ 2 * n then do
      setAll n type mem v (upwards n 2 offset)
      return (left - 2 * n, offset + 2 * n)
    else return (left, offset))
  if left > n then vecStore n type (mem + offset) v
  vecStore n .unaligned (mem + (left + offset - n)) v

/-- `__memset_avx2_nt_store`, `__memset_avx512_nt_store`. -/
def memsetNtStore : Kernel Nat := do
  if size ≤ 2 * isa.vecSz then memsetLe2Vec isa mem val size
  else
    let v : Lanes isa.vecSz := set1 (uchar val)
    let offset := isa.offset mem
    vecStore isa.vecSz .unaligned mem v
    setBlocks mem isa.vecSz .stream v (size - offset) offset
    return mem

/-- `__memset_avx2_aligned_store`, `__memset_avx512_aligned_store`: the limits are those of the
unaligned variants. -/
def memsetAlignedStore : Kernel Nat := do
  if Within isa size 2 then memsetLe2Vec isa mem val size
  else
    let v : Lanes isa.vecSz := set1 (uchar val)
    let offset := isa.offset mem
    vecStore isa.vecSz .unaligned mem v
    setBlocks mem isa.vecSz .aligned v (size - offset) offset
    return mem

end Kernel

section Variants

def memsetAvx2Unaligned := memsetUnaligned .avx2
def memsetAvx512Unaligned := memsetUnaligned .avx512

def memsetAvx2AlignedStore := memsetAlignedStore .avx2
def memsetAvx512AlignedStore := memsetAlignedStore .avx512

def memsetAvx2NtStore := memsetNtStore .avx2
def memsetAvx512NtStore := memsetNtStore .avx512

/-- Aliases of the streaming stores. -/
def memsetAvx2Nt := memsetNtStore .avx2
def memsetAvx512Nt := memsetNtStore .avx512

end Variants

section Correct
variable {start : Memory} {mem size : Nat} {value : UInt8} {done : Set Nat} {n : Nat} {v : Lanes n}
variable {places : List Nat} {type : Access}

theorem setAll_triple (buffer : Buffer start mem size) (holds : ∀ i, v i = value)
    (allows : ∀ k ∈ places, type.Allows n (mem + k)) (inside : ∀ k ∈ places, k + n ≤ size) :
    Triple (Progress start mem (fun _ => value) done) (setAll n type mem v places)
      fun _ => Progress start mem (fun _ => value) (done ∪ Spans n 0 places) := by
  induction places generalizing done with
  | nil =>
    refine triple_pure fun m progress => progress.congr fun i => ?_
    simp [Spans]
  | cons k places ih =>
    refine (vecStore_triple buffer (allows k List.mem_cons_self) (inside k List.mem_cons_self)
      holds).bind fun _ => ?_
    refine (ih (fun k' member => allows k' (List.mem_cons_of_mem k member))
      fun k' member => inside k' (List.mem_cons_of_mem k member)).imp fun _ m progress => ?_
    rwa [spans_cons, Nat.zero_add, ← Set.union_assoc]

theorem setRow_triple (buffer : Buffer start mem size) (holds : ∀ i, v i = value) {count offset : Nat}
    (allows : type.Allows n (mem + offset)) (inside : offset + count * n ≤ size) :
    Triple (Progress start mem (fun _ => value) done) (setAll n type mem v (upwards n count offset))
      fun _ => Progress start mem (fun _ => value)
        (done ∪ Set.Ico offset (offset + count * n)) := by
  have spans : Spans n 0 (upwards n count offset) = Set.Ico offset (offset + count * n) := by
    rw [spans_upwards, Nat.zero_add]
  rw [← spans]
  refine setAll_triple buffer holds (fun _ member => upwards_allows allows member) fun k member => ?_
  have fits := upwards_fits member
  omega

theorem setRows_triple (buffer : Buffer start mem size) (holds : ∀ i, v i = value) {count : Nat}
    (room : count * n ≤ size) :
    Triple (Progress start mem (fun _ => value) done)
      (setAll n .unaligned mem v (upwards n count 0 ++ upwards n count (size - count * n)))
      fun _ => Progress start mem (fun _ => value)
        (done ∪ (Set.Ico 0 (count * n) ∪ Set.Ico (size - count * n) size)) := by
  have spans : Spans n 0 (upwards n count 0 ++ upwards n count (size - count * n)) =
      Set.Ico 0 (count * n) ∪ Set.Ico (size - count * n) size := by
    rw [spans_append, spans_upwards, spans_upwards, Nat.zero_add, Nat.zero_add, Nat.zero_add,
      Nat.sub_add_cancel room]
  rw [← spans]
  refine setAll_triple buffer holds (fun _ _ => allows_unaligned) fun k member => ?_
  rcases List.mem_append.mp member with head | tail
  · have fits := upwards_fits head
    omega
  · have fits := upwards_fits tail
    omega

theorem setWhile_triple (count : Nat) (buffer : Buffer start mem size) (holds : ∀ i, v i = value)
    {bound offset : Nat} (positive : 0 < count * n) (inside : bound + count * n ≤ size)
    (range : size < sizeRange) (allows : type.Allows n (mem + offset)) :
    Triple (Progress start mem (fun _ => value) done) (setWhile n count type mem v bound offset)
      fun last m => (offset ≤ last ∧ bound ≤ last ∧ (last = offset ∨ last < bound + count * n)) ∧
        Progress start mem (fun _ => value) (done ∪ Set.Ico offset last) m := by
  refine Triple.from (loopM_triple (fun last m => (offset ≤ last ∧
      (last = offset ∨ last < bound + count * n) ∧ type.Allows n (mem + last)) ∧
        Progress start mem (fun _ => value) (done ∪ Set.Ico offset last) m)
    (fun last => size - last) (fun last => triple_fact ?_)
    (by rw [sizeRange_eq] at range; unfold budget; omega)) fun m progress => ?_
  · rintro ⟨above, near, allowed⟩
    refine triple_ite (fun less => ?_) fun passed => triple_pure fun m progress => ?_
    · refine (setRow_triple buffer holds allowed (by omega)).bind fun _ =>
        triple_pure fun m progress => ?_
      refine ⟨⟨⟨by omega, .inr (by omega), ?_⟩, progress.congr fun i => ?_⟩, by omega⟩
      · rw [← Nat.add_assoc]
        exact allowed.add_mul count
      · simp only [Set.mem_union, Set.mem_Ico, or_assoc]
        refine or_congr_right ?_
        omega
    · exact ⟨⟨above, Nat.le_of_not_lt passed, near⟩, progress⟩
  · refine ⟨⟨Nat.le_refl _, .inl rfl, allows⟩, progress.congr fun i => ?_⟩
    simp

theorem setHeadTail_complete (buffer : Buffer start mem size) (holds : ∀ i, v i = value)
    (room : n ≤ size) (covers : size ≤ 2 * n) :
    Triple (Progress start mem (fun _ => value) ∅) (do setHeadTail mem size n v; return mem)
      (Complete start mem size value) := by
  refine (setAll_triple buffer holds (fun _ _ => allows_unaligned) fun k member => ?_).bind
    fun _ => complete_return fun i => ?_
  · simp only [List.mem_cons, List.not_mem_nil, or_false] at member
    omega
  · simp only [Spans, List.mem_cons, List.not_mem_nil, or_false, exists_eq_or_imp, exists_eq_left,
      Set.mem_union, Set.mem_empty_iff_false, false_or, Set.mem_ofPred_eq]
    omega

end Correct

section Scalars
variable {val : BitVec 32}

/-- The pattern of the scalar cases: the byte twice. -/
private theorem spreads_uchar (val : BitVec 32) : Spreads ((val.setWidth 8).setWidth 32)
    ((val.setWidth 8).setWidth 32 <<< 8 ||| (val.setWidth 8).setWidth 32) 2 := by
  rw [BitVec.or_comm]
  exact (spreads_one _).double

private theorem clearAbove_uchar {w : Nat} : ClearAbove ((val.setWidth 8).setWidth w) := by
  intro j below set
  have low : j < 8 := by
    rw [BitVec.getLsbD_setWidth, BitVec.getLsbD_setWidth] at set
    simp only [Bool.and_eq_true, decide_eq_true_eq] at set
    exact set.2.1
  rwa [Nat.mod_eq_of_lt low]

private theorem getLsbD_uchar {w : Nat} (wide : 8 ≤ w) :
    ∀ b < 8, ((val.setWidth 8).setWidth w).getLsbD b = (val.setWidth 8).getLsbD b := by
  intro b below
  rw [BitVec.getLsbD_setWidth, decide_eq_true (by omega : b < w), Bool.true_and]

private theorem lanesOf_dword (val : BitVec 32) :
    let shftVal := (val.setWidth 8).setWidth 32 <<< 8 ||| (val.setWidth 8).setWidth 32
    ∀ i, lanesOf 4 (shftVal ||| shftVal <<< 16) i = uchar val :=
  ((spreads_uchar val).double.lanes_iff rfl (getLsbD_uchar (by decide))).mpr clearAbove_uchar

private theorem lanesOf_word (val : BitVec 32) :
    let shftVal := (val.setWidth 8).setWidth 32 <<< 8 ||| (val.setWidth 8).setWidth 32
    ∀ i, lanesOf 2 (shftVal.setWidth 16) i = uchar val := by
  have spreads := (spreads_uchar val).setWidth (by decide : 16 ≤ 32)
  rw [BitVec.setWidth_setWidth_of_le _ (by decide)] at spreads
  exact (spreads.lanes_iff rfl (getLsbD_uchar (by decide))).mpr clearAbove_uchar

end Scalars

section Small
variable {start : Memory} {mem size : Nat} {val : BitVec 32}

theorem memsetLe2Ymm_complete (buffer : Buffer start mem size) (short : size ≤ 64) :
    Triple (Progress start mem (fun _ => uchar val) ∅) (memsetLe2Ymm mem val size)
      (Complete start mem size (uchar val)) := by
  unfold memsetLe2Ymm
  simp only [wordSz, dwordSz, qwordSz, xmmSz, ymmSz]
  refine triple_ite (fun from32 => ?_) fun below32 => triple_ite (fun from16 => ?_) fun below16 => ?_
  · exact setHeadTail_complete buffer (fun _ => rfl) from32 short
  · exact setHeadTail_complete buffer (fun _ => rfl) from16 (by omega)
  refine triple_ite (fun over8 => ?_) fun upTo8 => triple_ite (fun from2 => ?_) fun below2 => ?_
  · exact setHeadTail_complete buffer (fun _ => rfl) (by omega) (by omega)
  · refine triple_ite (fun from4 => ?_) fun below4 => ?_
    · exact setHeadTail_complete buffer (lanesOf_dword val) from4 (by omega)
    · exact setHeadTail_complete buffer (lanesOf_word val) from2 (by omega)
  refine triple_ite (fun one => ?_) fun none => ?_
  · refine (vecStore_triple (k := 0) buffer allows_unaligned (by omega) fun _ => rfl).bind
      fun _ => complete_return fun i => ?_
    simp only [Set.mem_union, Set.mem_empty_iff_false, false_or, Set.mem_Ico]
    omega
  · exact complete_return fun i => iff_of_false (Set.notMem_empty i) (by omega)

theorem setMasked_complete (buffer : Buffer start mem size) (short : size ≤ 64) :
    Triple (Progress start mem (fun _ => uchar val) ∅)
      (if size ≠ 0 then do
        maskStore 64 (headMask (64 - size)) mem (set1 (uchar val))
        pure mem
      else pure mem)
      (Complete start mem size (uchar val)) := by
  refine triple_ite (fun some => ?_) fun none => ?_
  · have lanes : ∀ i < 64, (headMask (64 - size) : BitVec 64).getLsbD i = true ↔ i < size := by
      intro i below
      rw [getLsbD_headMask, decide_eq_true_eq]
      omega
    refine (maskStore_triple (k := 0) buffer lanes short (by omega) fun _ _ => rfl).bind
      fun _ => complete_return fun i => ?_
    simp only [Set.mem_union, Set.mem_empty_iff_false, false_or, Set.mem_Ico]
    omega
  · exact complete_return fun i => iff_of_false (Set.notMem_empty i) (by omega)

private theorem memsetLe2Zmm_complete (buffer : Buffer start mem size) (short : size ≤ 128) :
    Triple (Progress start mem (fun _ => uchar val) ∅) (memsetLe2Zmm mem val size)
      (Complete start mem size (uchar val)) := by
  unfold memsetLe2Zmm
  simp only [zmmSz]
  refine triple_ite (setMasked_complete buffer) fun over64 => ?_
  exact setHeadTail_complete buffer (fun _ => rfl) (by omega) (by omega)

end Small

section Loops
variable {start : Memory} {mem size : Nat} {value : UInt8} {done : Set Nat} {n : Nat} {v : Lanes n}
variable {type : Access}

private theorem setLoop_triple (buffer : Buffer start mem size) (holds : ∀ i, v i = value)
    (positive : 0 < n) (range : size < sizeRange) {left offset : Nat} (whole : offset + left = size)
    (allows : type.Allows n (mem + offset)) :
    Triple (Progress start mem (fun _ => value) done) (setLoop mem n type v left offset) fun last m =>
      (offset ≤ last.2 ∧ last.2 + last.1 = size ∧ last.1 < 4 * n ∧ type.Allows n (mem + last.2)) ∧
        Progress start mem (fun _ => value) (done ∪ Set.Ico offset last.2) m := by
  refine Triple.from (loopM_triple (fun at_ m => (offset ≤ at_.2 ∧ at_.2 + at_.1 = size ∧
      type.Allows n (mem + at_.2)) ∧ Progress start mem (fun _ => value) (done ∪ Set.Ico offset at_.2) m)
    (fun at_ => at_.1) (fun at_ => triple_fact ?_)
    (by rw [sizeRange_eq] at range; unfold budget; dsimp only; omega)) fun m progress => ?_
  · rintro ⟨above, total, allowed⟩
    refine triple_ite (fun more => ?_) fun less => triple_pure fun m progress => ?_
    · refine (setRow_triple buffer holds allowed (by omega)).bind fun _ =>
        triple_pure fun m progress => ?_
      refine ⟨⟨⟨by dsimp only; omega, by dsimp only; omega, ?_⟩, progress.congr fun i => ?_⟩, ?_⟩
      · rw [← Nat.add_assoc]
        exact allowed.add_mul 4
      · simp only [Set.mem_union, Set.mem_Ico, or_assoc]
        refine or_congr_right ?_
        omega
      · dsimp only
        omega
    · exact ⟨⟨above, total, Nat.lt_of_not_le less, allowed⟩, progress⟩
  · refine ⟨⟨Nat.le_refl _, whole, allows⟩, progress.congr fun i => ?_⟩
    simp

private theorem setBlocks_triple (buffer : Buffer start mem size) (holds : ∀ i, v i = value)
    (positive : 0 < n) (range : size < sizeRange) {left offset : Nat} (whole : offset + left = size)
    (room : n ≤ size) (allows : type.Allows n (mem + offset)) :
    Triple (Progress start mem (fun _ => value) done) (setBlocks mem n type v left offset)
      fun _ m => ∃ low ≤ offset,
        Progress start mem (fun _ => value) (done ∪ Set.Ico low size) m := by
  refine (setLoop_triple buffer holds positive range whole allows).bind fun last =>
    triple_fact fun ⟨above, total, less, allowed⟩ => ?_
  -- the block of two: where it ends, and what is left behind it
  have two : Triple (Progress start mem (fun _ => value) (done ∪ Set.Ico offset last.2))
      (if last.1 ≥ 2 * n then do
        setAll n type mem v (upwards n 2 last.2)
        return (last.1 - 2 * n, last.2 + 2 * n)
      else return (last.1, last.2)) fun next m =>
        (offset ≤ next.2 ∧ next.2 + next.1 = size ∧ next.1 < 2 * n ∧ type.Allows n (mem + next.2)) ∧
          Progress start mem (fun _ => value) (done ∪ Set.Ico offset next.2) m := by
    refine triple_ite (fun more => ?_) fun few => triple_pure fun m progress => ?_
    · refine (setRow_triple buffer holds allowed (by omega)).bind fun _ =>
        triple_pure fun m progress => ?_
      refine ⟨⟨by dsimp only; omega, by dsimp only; omega, by dsimp only; omega, ?_⟩,
        progress.congr fun i => ?_⟩
      · rw [← Nat.add_assoc]
        exact allowed.add_mul 2
      · simp only [Set.mem_union, Set.mem_Ico, or_assoc]
        refine or_congr_right ?_
        omega
    · exact ⟨⟨above, total, Nat.lt_of_not_le few, allowed⟩, progress⟩
  refine two.bind fun next => triple_fact fun ⟨above, total, less, allowed⟩ => ?_
  have last : size - n + n = size := by omega
  have place : next.1 + next.2 - n = size - n := by omega
  refine triple_ite (fun more => ?_) fun few => ?_
  · refine (vecStore_triple buffer allowed (by omega) holds).bind fun _ => ?_
    rw [place]
    refine (vecStore_triple buffer allows_unaligned (by omega) holds).imp fun _ m progress =>
      ⟨offset, Nat.le_refl offset, progress.congr fun i => ?_⟩
    simp only [Set.mem_union, Set.mem_Ico, or_assoc]
    refine or_congr_right ?_
    omega
  · rw [place]
    refine (vecStore_triple buffer allows_unaligned (by omega) holds).imp fun _ m progress => ?_
    refine ⟨min offset (size - n), Nat.min_le_left _ _, progress.congr fun i => ?_⟩
    simp only [Set.mem_union, Set.mem_Ico, or_assoc]
    refine or_congr_right ?_
    omega

end Loops

section Variants
variable {start : Memory} {isa : VecIsa} {mem size : Nat} {val : BitVec 32}

theorem within_le {count : Nat} (within : Within isa size count) : size ≤ count * isa.vecSz := by
  cases isa with
  | avx2 => exact Nat.le_of_lt within
  | avx512 => exact within

theorem le_of_not_within {count : Nat} (outside : ¬ Within isa size count) :
    count * isa.vecSz ≤ size := by
  cases isa with
  | avx2 => exact Nat.le_of_not_lt outside
  | avx512 => exact Nat.le_of_lt (Nat.lt_of_not_le outside)

theorem memsetLe2Vec_complete (buffer : Buffer start mem size) (short : size ≤ 2 * isa.vecSz) :
    Triple (Progress start mem (fun _ => uchar val) ∅) (memsetLe2Vec isa mem val size)
      (Complete start mem size (uchar val)) := by
  cases isa with
  | avx2 => exact memsetLe2Ymm_complete buffer short
  | avx512 => exact memsetLe2Zmm_complete buffer short

theorem memsetUnaligned_complete (buffer : Buffer start mem size) (range : size < sizeRange) :
    Triple (Progress start mem (fun _ => uchar val) ∅) (memsetUnaligned isa mem val size)
      (Complete start mem size (uchar val)) := by
  have vector := isa.vecSz_pos
  unfold memsetUnaligned
  dsimp only
  refine triple_ite (fun within2 => memsetLe2Vec_complete buffer (within_le within2)) fun over2 => ?_
  have more := le_of_not_within over2
  refine triple_ite (fun within4 => ?_) fun over4 => ?_
  · have few := within_le within4
    refine (setRows_triple buffer (fun _ => rfl) more).bind fun _ => complete_return fun i => ?_
    simp only [Set.mem_union, Set.mem_Ico, Set.mem_empty_iff_false, false_or]
    omega
  have large := le_of_not_within over4
  refine (setRows_triple buffer (fun _ => rfl) large).bind fun _ => ?_
  refine (setWhile_triple 4 buffer (fun _ => rfl) (by omega) (by omega) range
    allows_unaligned).bind fun last => triple_fact fun stop => complete_return fun i => ?_
  simp only [Set.mem_union, Set.mem_Ico, Set.mem_empty_iff_false, false_or]
  omega

private theorem setFrom_complete (buffer : Buffer start mem size) (range : size < sizeRange)
    (large : 2 * isa.vecSz ≤ size) {type : Access} :
    Triple (Progress start mem (fun _ => uchar val) ∅)
      (do
        vecStore isa.vecSz .unaligned mem (set1 (uchar val))
        setBlocks mem isa.vecSz type (set1 (uchar val)) (size - isa.offset mem) (isa.offset mem)
        return mem)
      (Complete start mem size (uchar val)) := by
  have near : isa.offset mem ≤ isa.vecSz := VecIsa.offset_le
  refine (vecStore_triple (k := 0) buffer allows_unaligned (by omega) fun _ => rfl).bind fun _ => ?_
  refine (setBlocks_triple buffer (fun _ => rfl) isa.vecSz_pos range (by omega) (by omega)
    VecIsa.offset_allows).bind fun _ => triple_exists fun low => triple_fact fun below =>
    complete_return fun i => ?_
  simp only [Set.mem_union, Set.mem_Ico, Set.mem_empty_iff_false, false_or]
  omega

theorem memsetAlignedStore_complete (buffer : Buffer start mem size) (range : size < sizeRange) :
    Triple (Progress start mem (fun _ => uchar val) ∅) (memsetAlignedStore isa mem val size)
      (Complete start mem size (uchar val)) := by
  refine triple_ite (fun small => memsetLe2Vec_complete buffer (within_le small)) fun large => ?_
  exact setFrom_complete buffer range (le_of_not_within large)

theorem memsetNtStore_complete (buffer : Buffer start mem size) (range : size < sizeRange) :
    Triple (Progress start mem (fun _ => uchar val) ∅) (memsetNtStore isa mem val size)
      (Complete start mem size (uchar val)) := by
  refine triple_ite (memsetLe2Vec_complete buffer) fun large => ?_
  exact setFrom_complete buffer range (by omega)

/-- All six variants fill, at any alignment; none of their aligned or streaming stores is
misaligned, as the run would stop there. -/
theorem memsetTunable_fills (start : Memory) (mem size : Nat) (val : BitVec 32)
    (buffer : Buffer start mem size) (range : size < sizeRange) :
    (Fills start (memsetAvx2Unaligned mem val size) mem size (uchar val) ∧
      Fills start (memsetAvx2AlignedStore mem val size) mem size (uchar val) ∧
      Fills start (memsetAvx2NtStore mem val size) mem size (uchar val)) ∧
    Fills start (memsetAvx512Unaligned mem val size) mem size (uchar val) ∧
      Fills start (memsetAvx512AlignedStore mem val size) mem size (uchar val) ∧
      Fills start (memsetAvx512NtStore mem val size) mem size (uchar val) := by
  have unaligned (isa : VecIsa) : Fills start (memsetUnaligned isa mem val size) mem size (uchar val) :=
    runs_of_complete (memsetUnaligned_complete buffer range)
  have aligned (isa : VecIsa) : Fills start (memsetAlignedStore isa mem val size) mem size (uchar val) :=
    runs_of_complete (memsetAlignedStore_complete buffer range)
  have stream (isa : VecIsa) : Fills start (memsetNtStore isa mem val size) mem size (uchar val) :=
    runs_of_complete (memsetNtStore_complete buffer range)
  exact ⟨⟨unaligned .avx2, aligned .avx2, stream .avx2⟩, unaligned .avx512, aligned .avx512,
    stream .avx512⟩

theorem memsetTunable_fills_odd :
    Fills (PagedMemory.full UInt8.ofNat).toMemory (memsetAvx2AlignedStore 4097 0x155#32 300) 4097 300
      (uchar 0x155#32) :=
  (memsetTunable_fills (PagedMemory.full UInt8.ofNat).toMemory 4097 300 0x155#32 (fun _ _ => rfl)
    (by rw [sizeRange_eq]; decide)).1.2.1

end Variants

end AoclLibmem.Fill
