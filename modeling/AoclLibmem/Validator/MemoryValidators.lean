import AoclLibmem.Validator.ReferencesCorrect

/-! The validators of `memcpy`, `mempcpy`, `memmove` and `memset`: each calls the library once or more
and prints what it finds wrong. -/

namespace AoclLibmem.Validator

open Base Machine Calls

/-- Which part of a validator an error is of: the text behind `ERROR:[VALIDATION]`. -/
inductive Phase where
  | plain
  | forward
  | backward
  | nonOverlap
deriving DecidableEq, Repr

/-- The lines that are printed, with the values that tell them apart. -/
inductive Message where
  | allocation
  | validation (phase : Phase) (size index : Nat)
  | returned (phase : Phase) (expected actual : Nat)
  | preIndex (size index : Nat)
  | postIndex (size index : Nat)
deriving DecidableEq, Repr

abbrev boundaryBytes : Nat := 8

def boundaryByte : UInt8 := 35

/-- `'a' + rand() % LOWER_CHARS`, by the result of the call of `rand`. -/
def lowerChar (random : Nat) : UInt8 := .ofNat (97 + random % 26)

/-- `address & ~(CACHE_LINE_SZ - 1)`. -/
def lineStart (addr : Nat) : Nat := addr / cachelineSz * cachelineSz

/-- A pointer that was returned, as an address; `NULL` is 0. -/
def addressOf : Reply → Nat
  | .pointer address => address.getD 0
  | .size _ | .order _ => 0

section Buffers
variable (addr dst src size : Nat)

def storeByte (b : UInt8) : Kernel Unit := vecStore 1 .unaligned addr fun _ => b

def prepareBoundary : Kernel Unit :=
  loopM .diverged (fun index =>
    if index ≤ boundaryBytes then do
      storeByte (dst - index) boundaryByte
      storeByte (dst + size + index - 1) boundaryByte
      return .next (index + 1)
    else return .done ()) budget 1

def boundaryPass (m : Memory) (index : Nat) : Exec (Step Nat (List Message)) :=
  if index ≤ boundaryBytes then do
    let before ← m.byteAt (dst - index)
    if before ≠ boundaryByte then return .done [.preIndex size index]
    let behind ← m.byteAt (dst + size + index - 1)
    if behind ≠ boundaryByte then return .done [.postIndex size index]
    return .next (index + 1)
  else return .done []

def boundaryCheck (m : Memory) : Exec (List Message) :=
  iterate .diverged (boundaryPass dst size m) budget 1

def initialise (text : Nat → UInt8) : Kernel Unit :=
  loopM .diverged (fun index =>
    if index < size then do
      storeByte (addr + index) (text index)
      return .next (index + 1)
    else return .done ()) budget 0

def initialiseBoth (validation : Nat) (text : Nat → UInt8) : Kernel Unit :=
  loopM .diverged (fun index =>
    if index < size then do
      storeByte (src + index) (text index)
      storeByte (validation + index) (text index)
      return .next (index + 1)
    else return .done ()) budget 0

/-- The loops of the validation: the index of the first byte that is not as expected, or the size. -/
def validated (m : Memory) (expected : Nat → Exec UInt8) : Exec Nat :=
  iterate .diverged (fun index =>
    if index < size then do
      let b ← m.byteAt (dst + index)
      let e ← expected index
      if b = e then return .next (index + 1) else return .done index
    else return .done index) budget 0

end Buffers

/-- What is printed of the bytes, and of the value returned. -/
def complaints (phase : Phase) (size index expected actual : Nat) : List Message :=
  (if index ≠ size then [.validation phase size index] else []) ++
    if actual ≠ expected then [.returned phase expected actual] else []

section Validators
variable (lib : Call → Kernel Reply) (rand : Nat → Nat)

/-- A call with nothing to do, on `NULL`. -/
def zeroCase (call : Call) : Kernel (List Message) := do
  let ret ← lib call
  return if addressOf ret ≠ 0 then [.returned .plain 0 (addressOf ret)] else []

/-- Between disjoint buffers: what `memcpy_validator` and `mempcpy_validator` do, and
`memmove_validator` at its end. -/
def disjointCase (phase : Phase) (call : Nat → Nat → Nat → Call) (expected : Nat → Nat → Nat)
    (buff? : Option Nat) (size dstAln srcAln : Nat) : Kernel (List Message) :=
  match buff? with
  | none => return [.allocation]
  | some buff => do
    let dst := lineStart (buff + (size + boundaryBytes) + 2 * cachelineSz) + dstAln
    let src := buff + srcAln
    prepareBoundary dst size
    initialise src size fun index => lowerChar (rand index)
    let ret ← lib (call dst src size)
    let index ← readOnly fun m => validated dst size m fun index => m.byteAt (src + index)
    let boundary ← readOnly (boundaryCheck dst size)
    return complaints phase size index (expected dst size) (addressOf ret) ++ boundary

def memcpyValidator (buff? : Option Nat) (size dstAln srcAln : Nat) : Kernel (List Message) :=
  if size = 0 then zeroCase lib (.memcpy 0 0 0)
  else disjointCase lib rand .plain .memcpy (fun dst _ => dst) buff? size dstAln srcAln

def mempcpyValidator (buff? : Option Nat) (size dstAln srcAln : Nat) : Kernel (List Message) :=
  if size = 0 then zeroCase lib (.mempcpy 0 0 0)
  else disjointCase lib rand .plain .mempcpy (fun dst size => dst + size) buff? size dstAln srcAln

/-- One direction of `memmove_validator`: the source is kept elsewhere. -/
def overlapCase (phase : Phase) (dst src validation size : Nat) : Kernel (List Message) := do
  initialiseBoth src size validation fun index => lowerChar (rand index)
  let ret ← lib (.memmove dst src size)
  let index ← readOnly fun m => validated dst size m fun index => m.byteAt (validation + index)
  return complaints phase size index dst (addressOf ret)

/-- `memmove_validator`, by the results of its three calls of `alloc_buffer`. -/
def memmoveValidator (buff? validationBuff? apart? : Option Nat) (size dstAln srcAln : Nat) :
    Kernel (List Message) :=
  if size = 0 then zeroCase lib (.memmove 0 0 0)
  else
    match buff?, validationBuff? with
    | some buff, some validation => do
      let tail := lineStart (buff + cachelineSz + rand 0 % (size + 1))
      let forward ← overlapCase lib (fun index => rand (1 + index)) .forward (buff + dstAln)
        (tail + srcAln) validation size
      let backward ← overlapCase lib (fun index => rand (1 + size + index)) .backward (tail + dstAln)
        (buff + srcAln) validation size
      let last ← disjointCase lib (fun index => rand (1 + 2 * size + index)) .nonOverlap .memmove
        (fun dst _ => dst) apart? size dstAln srcAln
      return forward ++ backward ++ last
    | _, _ => return [.allocation]

def memsetValidator (buff? : Option Nat) (size dstAln : Nat) : Kernel (List Message) :=
  if size = 0 then zeroCase lib (.memset 0 0 0)
  else
    match buff? with
    | none => return [.allocation]
    | some buff => do
      let dst := buff + dstAln + cachelineSz
      prepareBoundary dst size
      let value := rand 0 % 256
      let ret ← lib (.memset dst (.ofNat 32 value) size)
      let index ← readOnly fun m => validated dst size m fun _ => pure (.ofNat value)
      let boundary ← readOnly (boundaryCheck dst size)
      return complaints .plain size index dst (addressOf ret) ++ boundary

end Validators

section Loops
variable {start : Memory} {dst src size addr : Nat} {text : Nat → UInt8}

theorem storeByte_written {low k : Nat} {b : UInt8} {done further : Nat → Prop}
    (target : start.canWrite low size = true) (inside : k < size) (same : further k → b = text k)
    (joins : ∀ j, further j → done j ∨ j = k) :
    Triple (Written start low size text done) (storeByte (low + k) b)
      fun _ => Written start low size text further := by
  refine written_store target allows_unaligned inside (fun i => ?_) fun j member => ?_
  · rw [Fin.val_eq_zero i]
    exact same
  · exact (joins j member).imp_right fun here => by omega

theorem initialise_written (text : Nat → UInt8) (target : start.canWrite addr size = true)
    (range : size < sizeRange) : Triple (fun m => m = start) (initialise addr size text)
      fun _ => Written start addr size text (· < size) := by
  refine Triple.from (loopM_triple (fun k m => k ≤ size ∧ Written start addr size text (· < k) m)
    (fun k => size - k) (fun k => triple_fact fun within => ?_) (enough_budget range)) ?_
  · refine triple_ite (fun inside => ?_) fun full => ?_
    · have stores : Triple (Written start addr size text (· < k)) (storeByte (addr + k) (text k))
          fun _ => Written start addr size text (· < k + 1) :=
        storeByte_written target inside (fun _ => rfl) fun j below =>
          (Nat.lt_or_eq_of_le (Nat.le_of_lt_succ below))
      exact stores.bind fun _ => triple_pure fun m written => ⟨⟨inside, written⟩, by omega⟩
    · obtain rfl : k = size := by omega
      exact triple_pure fun m written => written
  · rintro _ rfl
    exact ⟨Nat.zero_le size, (Written.refl _ addr size _).mono fun j below => Nat.not_lt_zero j below⟩

/-- The bytes of the boundary that are set before pass `index`. -/
def BoundarySet (size index j : Nat) : Prop :=
  (9 - index ≤ j ∧ j < 8) ∨ (8 + size ≤ j ∧ j < 7 + size + index)

theorem prepareBoundary_written {low : Nat} (target : start.canWrite low (size + 16) = true) :
    Triple (fun m => m = start) (prepareBoundary (low + 8) size)
      fun _ => Written start low (size + 16) (fun _ => boundaryByte) (BoundarySet size 9) := by
  refine Triple.from (loopM_triple (fun index m => (1 ≤ index ∧ index ≤ 9) ∧
      Written start low (size + 16) (fun _ => boundaryByte) (BoundarySet size index) m)
    (fun index => 9 - index) (fun index => triple_fact fun within => ?_) (by rw [budget]; decide)) ?_
  · refine triple_ite (fun inside => ?_) fun full => ?_
    · have before : low + 8 - index = low + (8 - index) := by
        simp only [boundaryBytes] at inside
        omega
      have behind : low + 8 + size + index - 1 = low + (7 + size + index) := by omega
      rw [before, behind]
      simp only [boundaryBytes] at inside
      have first : Triple
          (Written start low (size + 16) (fun _ => boundaryByte) (BoundarySet size index))
          (storeByte (low + (8 - index)) boundaryByte) fun _ =>
          Written start low (size + 16) (fun _ => boundaryByte)
            fun j => BoundarySet size index j ∨ j = 8 - index :=
        storeByte_written target (by omega) (fun _ => rfl) fun j member => member
      have second : Triple (Written start low (size + 16) (fun _ => boundaryByte)
            fun j => BoundarySet size index j ∨ j = 8 - index)
          (storeByte (low + (7 + size + index)) boundaryByte) fun _ =>
          Written start low (size + 16) (fun _ => boundaryByte) (BoundarySet size (index + 1)) := by
        refine storeByte_written target (by omega) (fun _ => rfl) fun j member => ?_
        unfold BoundarySet at member ⊢
        omega
      refine first.bind fun _ => second.bind fun _ => triple_pure fun m written => ?_
      exact ⟨⟨⟨by omega, by omega⟩, written⟩, by omega⟩
    · obtain rfl : index = 9 := by
        simp only [boundaryBytes] at full
        omega
      exact triple_pure fun m written => written
  · rintro _ rfl
    refine ⟨⟨Nat.le_refl 1, by decide⟩, (Written.refl _ low _ _).mono fun j set => ?_⟩
    unfold BoundarySet at set
    omega

variable {m : Memory}

section Boundary
variable {low index : Nat}

private theorem boundaryPass_next (mapped : ∀ j < size + 16, m.readable (low + j) = true)
    (from_ : 1 ≤ index)
    (small : index ≤ boundaryBytes) (before : m.byte (low + (8 - index)) = boundaryByte)
    (behind : m.byte (low + (7 + size + index)) = boundaryByte) :
    boundaryPass (low + 8) size m index = .ok (.next (index + 1)) := by
  have bound : index ≤ 8 := small
  have place : low + 8 - index = low + (8 - index) := by omega
  have place' : low + 8 + size + index - 1 = low + (7 + size + index) := by omega
  rw [boundaryPass, if_pos small, place, place', Memory.byteAt_eq (mapped _ (by omega)), ok_bind,
    before, Memory.byteAt_eq (mapped _ (by omega))]
  simp only [ne_eq, not_true_eq_false, ↓reduceIte, ok_bind, behind]
  rfl

private theorem boundaryPass_found (mapped : ∀ j < size + 16, m.readable (low + j) = true)
    (from_ : 1 ≤ index) (small : index ≤ boundaryBytes)
    (differ : ¬ (m.byte (low + (8 - index)) = boundaryByte ∧
      m.byte (low + (7 + size + index)) = boundaryByte)) :
    ∃ found, boundaryPass (low + 8) size m index = .ok (.done found) ∧ found ≠ [] := by
  have bound : index ≤ 8 := small
  have place : low + 8 - index = low + (8 - index) := by omega
  have place' : low + 8 + size + index - 1 = low + (7 + size + index) := by omega
  rw [boundaryPass, if_pos small, place, place', Memory.byteAt_eq (mapped _ (by omega)), ok_bind,
    Memory.byteAt_eq (mapped _ (by omega))]
  by_cases before : m.byte (low + (8 - index)) = boundaryByte
  · have behind := not_and.mp differ before
    refine ⟨[.postIndex size index], ?_, List.cons_ne_nil _ _⟩
    simp only [before, ne_eq, not_true_eq_false, ↓reduceIte, ok_bind, behind, not_false_eq_true]
    rfl
  · refine ⟨[.preIndex size index], ?_, List.cons_ne_nil _ _⟩
    simp only [ne_eq, before, not_false_eq_true, ↓reduceIte]
    rfl

/-- The boundary as it was prepared. -/
def Unharmed (m : Memory) (low size : Nat) : Prop :=
  ∀ j, BoundarySet size 9 j → m.byte (low + j) = boundaryByte

theorem boundaryCheck_tells (mapped : ∀ j < size + 16, m.readable (low + j) = true) :
    ∃ found, boundaryCheck (low + 8) size m = .ok found ∧ (found = [] ↔ Unharmed m low size) := by
  rcases clear_or_firstHit (fun index => 1 ≤ index ∧ ¬ (m.byte (low + (8 - index)) = boundaryByte ∧
      m.byte (low + (7 + size + index)) = boundaryByte)) 9 with clear | ⟨index, inside, first⟩
  · have fine (index : Nat) (from_ : 1 ≤ index) (below : index < 9) :=
      not_not.mp (not_and.mp (clear index below) from_)
    refine ⟨[], iterate_counts (fun index from_ below => ?_) rfl (by decide : 1 ≤ 9)
      (by rw [budget]; decide), fun _ j set => ?_, fun _ => rfl⟩
    · exact boundaryPass_next mapped from_ (Nat.le_of_lt_succ below) (fine index from_ below).1
        (fine index from_ below).2
    · rcases set with ⟨from_, below⟩ | ⟨from_, below⟩
      · rw [show j = 8 - (8 - j) by omega]
        exact (fine (8 - j) (by omega) (by omega)).1
      · rw [show j = 7 + size + (j - (7 + size)) by omega]
        exact (fine (j - (7 + size)) (by omega) (by omega)).2
  · obtain ⟨found, ends, some⟩ :=
      boundaryPass_found mapped first.1.1 (Nat.le_of_lt_succ inside) first.1.2
    refine ⟨found, iterate_counts (fun i from_ below => ?_) ends first.1.1 (by rw [budget]; omega),
      fun none => absurd none some, fun kept => absurd ?_ first.1.2⟩
    · have fine := not_not.mp (not_and.mp (first.2 i below) from_)
      exact boundaryPass_next mapped from_ (Nat.le_of_lt_succ (Nat.lt_trans below inside)) fine.1 fine.2
    · have from_ := first.1.1
      exact ⟨kept _ (.inl ⟨by omega, by omega⟩), kept _ (.inr ⟨by omega, by omega⟩)⟩

end Boundary

theorem validated_tells {expected : Nat → Exec UInt8} (text : Nat → UInt8) (range : size < sizeRange)
    (mapped : ∀ i < size, m.readable (dst + i) = true) (reads : ∀ i < size, expected i = .ok (text i)) :
    ∃ index, validated dst size m expected = .ok index ∧
      (index = size ↔ ∀ i < size, m.byte (dst + i) = text i) := by
  rcases clear_or_firstHit (fun i => m.byte (dst + i) ≠ text i) size with
    clear | ⟨index, inside, first⟩
  · refine ⟨size, iterate_counts (fun i _ below => ?_) ?_ (Nat.zero_le size) (enough_budget range),
      fun _ i below => not_not.mp (clear i below), fun _ => rfl⟩
    · simp only [below, ↓reduceIte, Memory.byteAt_eq (mapped i below), reads i below, ok_bind,
        not_not.mp (clear i below)]
      rfl
    · simp only [Nat.lt_irrefl, ↓reduceIte]
      rfl
  · refine ⟨index, iterate_counts (fun i _ below => ?_) ?_ (Nat.zero_le index)
      (enough_budget (Nat.lt_trans inside range)), fun whole => absurd inside (by omega),
      fun same => absurd (same index inside) first.1⟩
    · have room : i < size := Nat.lt_trans below inside
      simp only [room, ↓reduceIte, Memory.byteAt_eq (mapped i room), reads i room, ok_bind,
        not_not.mp (first.2 i below)]
      rfl
    · simp only [inside, ↓reduceIte, Memory.byteAt_eq (mapped index inside), reads index inside,
        ok_bind, first.1]
      rfl

theorem complaints_none {phase : Phase} {index expected actual : Nat} {boundary : List Message} :
    complaints phase size index expected actual ++ boundary = [] ↔
      actual = expected ∧ index = size ∧ boundary = [] := by
  unfold complaints
  split <;> split <;> simp_all

end Loops

end AoclLibmem.Validator
