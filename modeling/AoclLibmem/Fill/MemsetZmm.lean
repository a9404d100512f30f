import AoclLibmem.Fill.TunableMemset

/-! The 512-bit memsets outside the tunables: `isa/avx512/optimized/memset_avx512_erms.c`,
`uarch/zen4/memset_zen4.c` and `isa/avx512/optimized/memset_avx512.c`. -/

namespace AoclLibmem.Fill

open Base Machine Copy

section Kernel
variable (repstoreStart repstoreStop l2PerCore mem : Nat) (val : BitVec 32) (size : Nat)

def setBleZmm (z0 : Lanes zmmSz) : Kernel Nat := do
  maskStore zmmSz (bzhiOnes (size % 2 ^ 8)) mem z0
  return mem

def setEnds (count : Nat) (z0 : Lanes zmmSz) : Kernel Nat := do
  setAll zmmSz .unaligned mem z0 (upwards zmmSz count 0 ++ upwards zmmSz count (size - count * zmmSz))
  return mem

/-- `do { ... } while (offset < bound)`, 256 bytes a pass. -/
def setDoWhile (n count : Nat) (type : Access) (v : Lanes n) (bound offset : Nat) : Kernel Nat := do
  setAll n type mem v (upwards n count offset)
  setWhile n count type mem v bound (offset + count * n)

/-- The tail: `switch (rem_vecs)`, whose cases fall through, stores the last vectors. -/
def setRemVecs (z0 : Lanes zmmSz) (offset : Nat) : Kernel Nat := do
  let remData := subSize size offset % 2 ^ 16
  let remVecs := (remData / 2 ^ 6 + (if remData % 2 ^ 6 ≠ 0 then 1 else 0)) % 2 ^ 8
  if remVecs ≤ 4 then
    setAll zmmSz .unaligned mem z0 (upwards zmmSz remVecs (size - remVecs * zmmSz))
  return mem

def memsetAvx512Erms : Kernel Nat := do
  let z0 : Lanes zmmSz := set1 (uchar val)
  if size ≤ zmmSz then setBleZmm mem size z0
  else if size ≤ 2 * zmmSz then setEnds mem size 1 z0
  else if size ≤ 4 * zmmSz then setEnds mem size 2 z0
  else if size ≤ 8 * zmmSz then setEnds mem size 4 z0
  else
    setAll zmmSz .unaligned mem z0 (upwards zmmSz 4 0)
    let offset := 4 * zmmSz
    if size > 8 * zmmSz then
      let offset := offset - mem % zmmSz
      if size < repstoreStart then
        let offset ← setDoWhile mem zmmSz 4 .aligned z0 (size - 4 * zmmSz) offset
        if offset = size then return mem else setRemVecs mem size z0 offset
      else if size ≤ repstoreStop then
        let _ ← ermsStosb (mem + offset) (size - offset) val
        return mem
      else
        let offset ← setDoWhile mem zmmSz 4 .stream z0 (size - 4 * zmmSz) offset
        if offset = size then return mem else setRemVecs mem size z0 offset
    else setRemVecs mem size z0 offset

def memsetZen4 : Kernel Nat := do
  let z0 : Lanes zmmSz := set1 (uchar val)
  if size ≤ zmmSz then setBleZmm mem size z0
  else if size ≤ 4 * zmmSz then
    vecStore zmmSz .unaligned mem z0
    if size > 2 * zmmSz then
      setAll zmmSz .unaligned mem z0 [zmmSz, size - zmmSz, size - 2 * zmmSz]
      return mem
    else
      vecStore zmmSz .unaligned (mem + (size - zmmSz)) z0
      return mem
  else
    setAll zmmSz .unaligned mem z0 (upwards zmmSz 4 0)
    let offset := 4 * zmmSz
    if size > 8 * zmmSz then
      let offset := offset - mem % zmmSz
      let offset ← (if size < l2PerCore then
          let y0 : Lanes ymmSz := set1 (uchar val)
          setDoWhile mem ymmSz 8 .aligned y0 (size - 4 * zmmSz) offset
        else setDoWhile mem zmmSz 4 .aligned z0 (size - 4 * zmmSz) offset)
      if offset = size then return mem else setRemVecs mem size z0 offset
    else setRemVecs mem size z0 offset

/-- `_memset_avx512`: the vectors are added at both ends until they meet. -/
def memsetAvx512 : Kernel Nat := do
  let z0 : Lanes zmmSz := set1 (uchar val)
  if size ≤ zmmSz then
    if size ≠ 0 then maskStore zmmSz (headMask (zmmSz - size)) mem z0
    return mem
  else
    setAll zmmSz .unaligned mem z0 [0, size - zmmSz]
    if size ≤ 2 * zmmSz then return mem
    else
      setAll zmmSz .unaligned mem z0 [zmmSz, size - 2 * zmmSz]
      if size ≤ 4 * zmmSz then return mem
      else
        setAll zmmSz .unaligned mem z0 [2 * zmmSz, 3 * zmmSz, size - 4 * zmmSz, size - 3 * zmmSz]
        if size ≤ 8 * zmmSz then return mem
        else
          let _ ← setWhile zmmSz 4 .aligned mem z0 (size - 4 * zmmSz) (4 * zmmSz - mem % zmmSz)
          return mem

end Kernel

section Parts
variable {start : Memory} {mem size n : Nat} {value : UInt8} {done : Set Nat} {type : Access}

private theorem setBleZmm_complete (buffer : Buffer start mem size) (short : size ≤ 64) :
    Triple (Progress start mem (fun _ => value) ∅) (setBleZmm mem size (set1 value))
      (Complete start mem size value) := by
  have lanes : ∀ i < 64, (bzhiOnes (size % 2 ^ 8) : BitVec 64).getLsbD i = true ↔ i < size := by
    intro i below
    have kept : size % 2 ^ 8 % 256 = size := by omega
    rw [getLsbD_bzhiOnes below, kept, decide_eq_true_iff]
  refine (maskStore_triple (k := 0) buffer lanes short (by omega) fun _ _ => rfl).bind
    fun _ => complete_return fun i => ?_
  simp only [Set.mem_union, Set.mem_empty_iff_false, false_or, Set.mem_Ico]
  omega

theorem setEnds_complete (buffer : Buffer start mem size) {count : Nat} (room : count * 64 ≤ size)
    (covers : size ≤ 2 * (count * 64)) :
    Triple (Progress start mem (fun _ => value) ∅) (setEnds mem size count (set1 value))
      (Complete start mem size value) := by
  refine (setRows_triple buffer (fun _ => rfl) room).bind fun _ => complete_return fun i => ?_
  simp only [Set.mem_union, Set.mem_Ico, Set.mem_empty_iff_false, false_or]
  omega

/-- The loop runs at least once and stops inside the last 256 bytes. -/
private theorem setDoWhile_triple (count : Nat) (buffer : Buffer start mem size) {v : Lanes n}
    (holds : ∀ i, v i = value) (block : count * n = 256) (range : size < sizeRange) {offset : Nat}
    (near : offset ≤ 256) (large : 512 < size) (allows : type.Allows n (mem + offset)) :
    Triple (Progress start mem (fun _ => value) done)
      (setDoWhile mem n count type v (size - 256) offset) fun last m =>
        (last ≤ size ∧ size ≤ last + 256) ∧
          Progress start mem (fun _ => value) (done ∪ Set.Ico offset last) m := by
  refine (setRow_triple buffer holds allows (by omega)).bind fun _ => ?_
  have next : type.Allows n (mem + (offset + count * n)) := by
    rw [← Nat.add_assoc]
    exact allows.add_mul count
  refine (setWhile_triple count buffer holds (by omega) (by omega) range next).imp
    fun last m reached => ⟨?_, reached.2.congr fun i => ?_⟩
  · have stop := reached.1
    omega
  · have stop := reached.1
    simp only [Set.mem_union, Set.mem_Ico, or_assoc]
    refine or_congr_right ?_
    omega

private theorem setRemVecs_complete (buffer : Buffer start mem size) (range : size < sizeRange)
    {offset : Nat} (inside : offset ≤ size) (few : size ≤ offset + 256) (large : 256 ≤ size)
    (covers : ∀ i, i ∈ done ∨ (offset ≤ i ∧ i < size) ↔ i < size) :
    Triple (Progress start mem (fun _ => value) done) (setRemVecs mem size (set1 value) offset)
      (Complete start mem size value) := by
  unfold setRemVecs
  simp only [zmmSz]
  generalize counted : (_ + _) % 2 ^ 8 = remVecs
  have vectors := remVecs_covers inside few range counted
  refine triple_ite (fun _ => ?_) fun many => absurd vectors.1 many
  refine (setRow_triple buffer (fun _ => rfl) allows_unaligned (by omega)).bind fun _ =>
    complete_return fun i => ?_
  have known := covers i
  simp only [Set.mem_union, Set.mem_Ico]
  constructor
  · rintro (old | new)
    · exact known.mp (.inl old)
    · omega
  · intro below
    rcases known.mpr below with old | new
    · exact .inl old
    · exact .inr (by omega)

private theorem afterLoop_complete (buffer : Buffer start mem size) (range : size < sizeRange)
    {last : Nat} (inside : last ≤ size) (few : size ≤ last + 256) (large : 256 ≤ size)
    (covers : ∀ i, i ∈ done ∨ (last ≤ i ∧ i < size) ↔ i < size) :
    Triple (Progress start mem (fun _ => value) done)
      (if last = size then pure mem else setRemVecs mem size (set1 value) last)
      (Complete start mem size value) := by
  refine triple_ite (fun reached => complete_return fun i => ?_) fun _ =>
    setRemVecs_complete buffer range inside few large covers
  rw [← covers i]
  exact ⟨.inl, fun either => either.resolve_right (by omega)⟩

private theorem ermsStosb_rest (buffer : Buffer start mem size) {val : BitVec 32} {offset : Nat}
    (inside : offset ≤ size) :
    Triple (Progress start mem (fun _ => uchar val) done)
      (ermsStosb (mem + offset) (size - offset) val)
      fun _ => Progress start mem (fun _ => uchar val) (done ∪ Set.Ico offset size) := by
  have lane : ∀ i : Fin 1, lanesOf 1 val i = uchar val := by
    intro i
    rw [lanesOf, uchar, Fin.val_eq_zero i]
    rfl
  refine (repStos_triple buffer (by simp only [StringUnit.count]; omega) fun _ i => lane i).bind
    fun _ => triple_pure fun m progress => progress.congr fun i => ?_
  simp only [StringUnit.count, Set.mem_union, Set.mem_Ico]
  refine or_congr_right ?_
  omega

end Parts

section Correct
variable {start : Memory} {repstoreStart repstoreStop l2PerCore mem size : Nat} {val : BitVec 32}

theorem memsetAvx512Erms_complete (buffer : Buffer start mem size) (range : size < sizeRange) :
    Triple (Progress start mem (fun _ => uchar val) ∅)
      (memsetAvx512Erms repstoreStart repstoreStop mem val size)
      (Complete start mem size (uchar val)) := by
  unfold memsetAvx512Erms
  simp only [zmmSz]
  refine triple_ite (setBleZmm_complete buffer) fun from65 => ?_
  refine triple_ite (fun to128 => setEnds_complete buffer (by omega) (by omega)) fun from129 => ?_
  refine triple_ite (fun to256 => setEnds_complete buffer (by omega) (by omega)) fun from257 => ?_
  refine triple_ite (fun to512 => setEnds_complete buffer (by omega) (by omega)) fun from513 => ?_
  refine (setRow_triple buffer (fun _ => rfl) allows_unaligned (by omega)).bind fun _ => ?_
  have boundary : (mem + (4 * 64 - mem % 64)) % 64 = 0 := by omega
  -- both loops go on from the last boundary among the first four vectors
  have loop (type : Access) : Triple
      (Progress start mem (fun _ => uchar val) (∅ ∪ Set.Ico 0 (0 + 4 * 64)))
      (do
        let offset ← setDoWhile mem 64 4 type (set1 (uchar val)) (size - 256) (4 * 64 - mem % 64)
        if offset = size then pure mem else setRemVecs mem size (set1 (uchar val)) offset)
      (Complete start mem size (uchar val)) := by
    refine (setDoWhile_triple 4 buffer (fun _ => rfl) rfl range (by omega) (by omega)
      (allows_of_aligned boundary)).bind fun last => triple_fact fun stop => ?_
    refine afterLoop_complete buffer range stop.1 stop.2 (by omega) fun i => ?_
    simp only [Set.mem_union, Set.mem_Ico, Set.mem_empty_iff_false, false_or]
    omega
  refine triple_ite (fun _ => ?_) fun few => absurd (Nat.lt_of_not_le from513) few
  refine triple_ite (fun _ => loop .aligned) fun _ => triple_ite (fun _ => ?_) fun _ => loop .stream
  refine (ermsStosb_rest buffer (by omega)).bind fun _ => complete_return fun i => ?_
  simp only [Set.mem_union, Set.mem_Ico, Set.mem_empty_iff_false, false_or]
  omega

theorem memsetZen4_complete (buffer : Buffer start mem size) (range : size < sizeRange) :
    Triple (Progress start mem (fun _ => uchar val) ∅) (memsetZen4 l2PerCore mem val size)
      (Complete start mem size (uchar val)) := by
  unfold memsetZen4
  simp only [ymmSz, zmmSz]
  refine triple_ite (setBleZmm_complete buffer) fun from65 => ?_
  refine triple_ite (fun to256 => ?_) fun from257 => ?_
  · refine (vecStore_triple (k := 0) buffer allows_unaligned (by omega) fun _ => rfl).bind fun _ => ?_
    refine triple_ite (fun from129 => ?_) fun to128 => ?_
    · refine (setAll_triple buffer (fun _ => rfl) (fun _ _ => allows_unaligned) fun k member => ?_).bind
        fun _ => complete_return fun i => ?_
      · simp only [List.mem_cons, List.not_mem_nil, or_false] at member
        omega
      · simp only [Spans, List.mem_cons, List.not_mem_nil, or_false, exists_eq_or_imp, exists_eq_left,
          Set.mem_union, Set.mem_empty_iff_false, false_or, Set.mem_Ico, Set.mem_ofPred_eq]
        omega
    · refine (vecStore_triple buffer allows_unaligned (by omega) fun _ => rfl).bind fun _ =>
        complete_return fun i => ?_
      simp only [Set.mem_union, Set.mem_Ico, Set.mem_empty_iff_false, false_or]
      omega
  refine (setRow_triple buffer (fun _ => rfl) allows_unaligned (by omega)).bind fun _ => ?_
  refine triple_ite (fun from513 => ?_) fun to512 => ?_
  · have line : (mem + (4 * 64 - mem % 64)) % 64 = 0 := by omega
    have half : (mem + (4 * 64 - mem % 64)) % 32 = 0 := by omega
    have loop {n : Nat} (count : Nat) (block : count * n = 256)
        (boundary : (mem + (4 * 64 - mem % 64)) % n = 0) : Triple
        (Progress start mem (fun _ => uchar val) (∅ ∪ Set.Ico 0 (0 + 4 * 64)))
        (setDoWhile mem n count .aligned (set1 (uchar val)) (size - 256) (4 * 64 - mem % 64)) _ :=
      setDoWhile_triple count buffer (fun _ => rfl) block range (by omega) (by omega)
        (allows_of_aligned boundary)
    refine (triple_ite (fun _ => loop 8 rfl half) fun _ => loop 4 rfl line).bind fun last =>
      triple_fact fun stop => ?_
    refine afterLoop_complete buffer range stop.1 stop.2 (by omega) fun i => ?_
    simp only [Set.mem_union, Set.mem_Ico, Set.mem_empty_iff_false, false_or]
    omega
  · refine setRemVecs_complete buffer range (by omega) (by omega) (by omega) fun i => ?_
    simp only [Set.mem_union, Set.mem_Ico, Set.mem_empty_iff_false, false_or]
    omega

theorem setPair_triple {done : Set Nat} {value : UInt8} (buffer : Buffer start mem size) {k l : Nat}
    (first : k + 64 ≤ size) (second : l + 64 ≤ size) :
    Triple (Progress start mem (fun _ => value) done)
      (setAll 64 .unaligned mem (set1 value) [k, l])
      fun _ => Progress start mem (fun _ => value) (done ∪ Set.Ico k (k + 64) ∪ Set.Ico l (l + 64)) :=
  (vecStore_triple buffer allows_unaligned first fun _ => rfl).bind fun _ =>
    (vecStore_triple buffer allows_unaligned second fun _ => rfl).bind fun _ =>
      triple_pure fun _ progress => progress

private theorem setFour_triple {done : Set Nat} {value : UInt8} (buffer : Buffer start mem size)
    {k1 k2 k3 k4 : Nat} (first : k1 + 64 ≤ size) (second : k2 + 64 ≤ size) (third : k3 + 64 ≤ size)
    (fourth : k4 + 64 ≤ size) :
    Triple (Progress start mem (fun _ => value) done)
      (setAll 64 .unaligned mem (set1 value) [k1, k2, k3, k4])
      fun _ => Progress start mem (fun _ => value) (done ∪ Set.Ico k1 (k1 + 64) ∪
        Set.Ico k2 (k2 + 64) ∪ Set.Ico k3 (k3 + 64) ∪ Set.Ico k4 (k4 + 64)) :=
  (vecStore_triple buffer allows_unaligned first fun _ => rfl).bind fun _ =>
    (vecStore_triple buffer allows_unaligned second fun _ => rfl).bind fun _ =>
      setPair_triple buffer third fourth

theorem memsetAvx512_complete (buffer : Buffer start mem size) (range : size < sizeRange) :
    Triple (Progress start mem (fun _ => uchar val) ∅) (memsetAvx512 mem val size)
      (Complete start mem size (uchar val)) := by
  refine triple_ite (setMasked_complete buffer) fun from65 => ?_
  simp only [zmmSz] at from65 ⊢
  refine (setPair_triple buffer (by omega) (by omega)).bind fun _ => ?_
  refine triple_ite (fun to128 => complete_return fun i => ?_) fun from129 => ?_
  · simp only [Set.mem_union, Set.mem_Ico, Set.mem_empty_iff_false, false_or]
    omega
  refine (setPair_triple buffer (by omega) (by omega)).bind fun _ => ?_
  refine triple_ite (fun to256 => complete_return fun i => ?_) fun from257 => ?_
  · simp only [Set.mem_union, Set.mem_Ico, Set.mem_empty_iff_false, false_or]
    omega
  refine (setFour_triple buffer (by omega) (by omega) (by omega) (by omega)).bind fun _ => ?_
  refine triple_ite (fun to512 => complete_return fun i => ?_) fun from513 => ?_
  · simp only [Set.mem_union, Set.mem_Ico, Set.mem_empty_iff_false, false_or]
    omega
  have boundary : (mem + (4 * 64 - mem % 64)) % 64 = 0 := by omega
  refine (setWhile_triple 4 buffer (fun _ => rfl) (by decide) (by omega) range
    (allows_of_aligned boundary)).bind fun last => triple_fact fun stop => complete_return fun i => ?_
  simp only [Set.mem_union, Set.mem_Ico, Set.mem_empty_iff_false, false_or]
  omega

/-- For all thresholds and cache sizes the three kernels fill exactly the buffer, and leave the
same bytes. A misaligned aligned or streaming store would stop them. -/
theorem memsetZmm_fills (start : Memory) (repstoreStart repstoreStop l2PerCore mem size : Nat)
    (val : BitVec 32) (buffer : Buffer start mem size) (range : size < sizeRange) :
    ∃ erms zen4 avx512 : Memory,
      (memsetAvx512Erms repstoreStart repstoreStop mem val size start = .ok (mem, erms) ∧
        Filled start erms mem size (uchar val)) ∧
      (memsetZen4 l2PerCore mem val size start = .ok (mem, zen4) ∧
        Filled start zen4 mem size (uchar val)) ∧
      (memsetAvx512 mem val size start = .ok (mem, avx512) ∧
        Filled start avx512 mem size (uchar val)) ∧
      erms.byte = zen4.byte ∧ zen4.byte = avx512.byte := by
  have complete1 : Triple (Progress start mem (fun _ => uchar val) ∅)
      (memsetAvx512Erms repstoreStart repstoreStop mem val size) _ :=
    memsetAvx512Erms_complete buffer range
  have complete2 : Triple (Progress start mem (fun _ => uchar val) ∅)
      (memsetZen4 l2PerCore mem val size) _ := memsetZen4_complete buffer range
  have complete3 : Triple (Progress start mem (fun _ => uchar val) ∅) (memsetAvx512 mem val size) _ :=
    memsetAvx512_complete buffer range
  obtain ⟨erms, returned1, filled1⟩ := runs_of_complete complete1
  obtain ⟨zen4, returned2, filled2⟩ := runs_of_complete complete2
  obtain ⟨avx512, returned3, filled3⟩ := runs_of_complete complete3
  exact ⟨erms, zen4, avx512, ⟨returned1, filled1⟩, ⟨returned2, filled2⟩, ⟨returned3, filled3⟩,
    filled_unique filled1 filled2, filled_unique filled2 filled3⟩

/-- The second threshold lies below the first: the stores are streamed. -/
theorem memsetZmm_fills_odd : ∃ erms zen4 avx512 : Memory,
    (memsetAvx512Erms 512 256 4097 0x155#32 1000 (PagedMemory.full UInt8.ofNat).toMemory =
        .ok (4097, erms) ∧
      Filled (PagedMemory.full UInt8.ofNat).toMemory erms 4097 1000 (uchar 0x155#32)) ∧
    (memsetZen4 65536 4097 0x155#32 1000 (PagedMemory.full UInt8.ofNat).toMemory = .ok (4097, zen4) ∧
      Filled (PagedMemory.full UInt8.ofNat).toMemory zen4 4097 1000 (uchar 0x155#32)) ∧
    (memsetAvx512 4097 0x155#32 1000 (PagedMemory.full UInt8.ofNat).toMemory = .ok (4097, avx512) ∧
      Filled (PagedMemory.full UInt8.ofNat).toMemory avx512 4097 1000 (uchar 0x155#32)) ∧
    erms.byte = zen4.byte ∧ zen4.byte = avx512.byte :=
  memsetZmm_fills _ 512 256 65536 4097 1000 0x155#32 (fun _ _ => rfl) (by rw [sizeRange_eq]; decide)

end Correct

end AoclLibmem.Fill
