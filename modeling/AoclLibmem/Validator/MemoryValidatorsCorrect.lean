import AoclLibmem.Validator.MemoryValidators

/-! What the validators of `memcpy`, `mempcpy`, `memmove` and `memset` find: nothing in a build of the
library, and all that a function does wrong within sight of them. -/

namespace AoclLibmem.Validator

open Base Machine Calls

/-- The memory that the validator was given there. -/
structure Allocated (m : Memory) (buff total : Nat) : Prop where
  readable : ∀ i < total, m.readable (buff + i) = true
  writable : ∀ i < total, m.writable (buff + i) = true
  below : buff + total ≤ sizeRange

/-- Nothing is printed, and the rights are those of the start. -/
def Silent (run : Kernel (List Message)) (start : Memory) : Prop :=
  ∃ after, run start = .ok ([], after) ∧ after.rights = start.rights

section Allocated
variable {m other : Memory} {buff total addr size : Nat}

theorem Allocated.of_rights (heap : Allocated m buff total) (same : other.rights = m.rights) :
    Allocated other buff total := by
  obtain ⟨readable, writable⟩ := Prod.ext_iff.mp same
  refine ⟨fun i below => ?_, fun i below => ?_, heap.below⟩
  · exact (congrFun readable (buff + i)).trans (heap.readable i below)
  · exact (congrFun writable (buff + i)).trans (heap.writable i below)

theorem Allocated.part (heap : Allocated m buff total) (from_ : buff ≤ addr)
    (inside : addr + size ≤ buff + total) : Allocated m addr size := by
  obtain ⟨k, rfl⟩ := Nat.exists_eq_add_of_le from_
  refine ⟨fun i below => ?_, fun i below => ?_, Nat.le_trans inside heap.below⟩
  · rw [Nat.add_assoc]
    exact heap.readable (k + i) (by omega)
  · rw [Nat.add_assoc]
    exact heap.writable (k + i) (by omega)

theorem paged_of_rights (start : PagedMemory) (same : m.rights = start.rights) :
    ∃ paged : PagedMemory, paged.toMemory = m := by
  have readable : m.readable = start.readable := congrArg Prod.fst same
  exact ⟨⟨m, fun a b page => by rw [readable]; exact start.byPage a b page⟩, rfl⟩

end Allocated

section Library

/-- The calls of the four functions. -/
def OfMemory : Call → Prop
  | .memcpy .. | .mempcpy .. | .memmove .. | .memset .. => True
  | _ => False

/-- A byte that is farther from the destination than the boundary reaches. -/
def FarFrom : Call → Nat → Prop
  | .memcpy dst _ size, a | .mempcpy dst _ size, a | .memmove dst _ size, a | .memset dst _ size, a =>
      a + boundaryBytes < dst ∨ dst + size + boundaryBytes ≤ a
  | _, _ => True

/-- The calls are answered as the contract says. -/
abbrev Right (lib : Call → Kernel Reply) : Prop :=
  (contract.only fun _ call => OfMemory call).MetBy lib

private theorem right_of_target (target : Target) (strict : Bool) (cacheInfo : Dispatch.CacheInfo)
    (thresholds : Dispatch.Thresholds) : Right (target.code strict cacheInfo thresholds) := by
  rintro m call ⟨legal, ofMemory⟩
  refine target.met strict cacheInfo thresholds m call ⟨legal, ?_⟩
  cases call with
  | memcpy _ _ _ | mempcpy _ _ _ | memmove _ _ _ | memset _ _ _ => cases target <;> trivial
  | _ => exact absurd ofMemory id

/-- One of the functions that copy. -/
structure Copies (call : Nat → Nat → Nat → Call) (expected : Nat → Nat → Nat) : Prop where
  later : ∀ dst size, dst ≤ expected dst size
  ofMemory : ∀ dst src size, OfMemory (call dst src size)
  far : ∀ dst src size a, FarFrom (call dst src size) a ↔
    (a + boundaryBytes < dst ∨ dst + size + boundaryBytes ≤ a)
  legal : ∀ (start : PagedMemory) (dst src size : Nat), Copy.Buffers start.toMemory dst src size →
    size < sizeRange → (dst + size ≤ src ∨ src + size ≤ dst) → Legal start (call dst src size)
  answers : ∀ before dst src size reply after, Answers before (call dst src size) reply after ↔
    (reply = .pointer (some (expected dst size)) ∧ Copy.Copied before after dst src size)

private theorem copies_memcpy : Copies .memcpy fun dst _ => dst :=
  ⟨fun dst _ => Nat.le_refl dst, fun _ _ _ => trivial, fun _ _ _ _ => Iff.rfl,
    fun _ _ _ _ buffers range apart => ⟨buffers, range, apart⟩, fun _ _ _ _ _ _ => Iff.rfl⟩

private theorem copies_mempcpy : Copies .mempcpy fun dst size => dst + size :=
  ⟨Nat.le_add_right, fun _ _ _ => trivial, fun _ _ _ _ => Iff.rfl,
    fun _ _ _ _ buffers range apart => ⟨buffers, range, apart⟩, fun _ _ _ _ _ _ => Iff.rfl⟩

private theorem copies_memmove : Copies .memmove fun dst _ => dst :=
  ⟨fun dst _ => Nat.le_refl dst, fun _ _ _ => trivial, fun _ _ _ _ => Iff.rfl,
    fun _ _ _ _ buffers range _ => ⟨buffers, range⟩, fun _ _ _ _ _ _ => Iff.rfl⟩

private theorem pointer_of_addressOf {reply : Reply} {dst : Nat} (positive : 0 < dst) :
    addressOf reply = dst ↔ reply = .pointer (some dst) := by
  constructor
  · intro same
    cases reply with
    | pointer address? =>
      cases address? with
      | none => exact absurd same (Nat.ne_of_lt positive)
      | some address => exact congrArg (fun a => ReplyOf.pointer (some a)) same
    | size _ | order _ => exact absurd same (Nat.ne_of_lt positive)
  · rintro rfl
    rfl

end Library

/-- The validator makes one call, as it may be made. Whatever the function then does, as long as it is
near its destination, nothing is printed if and only if that is right. -/
def Examines (validator : (Call → Kernel Reply) → Kernel (List Message)) (start : Memory) : Prop :=
  ∃ asked prepared, OfMemory asked ∧ prepared.rights = start.rights ∧ contract.pre prepared asked ∧
    ∀ lib reply after, lib asked prepared = .ok (reply, after) → after.rights = prepared.rights →
      (∀ a, FarFrom asked a → after.byte a = prepared.byte a) →
      ∃ found, validator lib start = .ok (found, after) ∧
        (found = [] ↔ contract.post prepared asked reply after)

private theorem far_kept {call : Call} {before after : Memory} {reply : Reply}
    (ofMemory : OfMemory call)
    (right : Answers before call reply after) (a : Nat) (far : FarFrom call a) :
    after.byte a = before.byte a := by
  cases call with
  | memcpy dst _ size | mempcpy dst _ size | memmove dst _ size | memset dst _ size =>
    refine right.2.2 a fun inside => ?_
    simp only [FarFrom, boundaryBytes] at far
    omega
  | _ => exact absurd ofMemory id

private theorem kept_of_unharmed {before after : Memory} {low size a : Nat}
    (far : ∀ a, (a + boundaryBytes < low + 8 ∨ low + 8 + size + boundaryBytes ≤ a) →
      after.byte a = before.byte a)
    (unharmed : Unharmed before low size) (fine : Unharmed after low size)
    (outside : ¬ (low + 8 ≤ a ∧ a < low + 8 + size)) : after.byte a = before.byte a := by
  by_cases near : low ≤ a ∧ a < low + (size + 16)
  · obtain ⟨j, rfl⟩ := Nat.exists_eq_add_of_le near.1
    have set : BoundarySet size 9 j := by
      unfold BoundarySet
      omega
    rw [fine j set, unharmed j set]
  · refine far a ?_
    simp only [boundaryBytes]
    omega

theorem Examines.silent {validator : (Call → Kernel Reply) → Kernel (List Message)} {start : Memory}
    {lib : Call → Kernel Reply} (examines : Examines validator start) (right : Right lib) :
    Silent (validator lib) start := by
  obtain ⟨asked, prepared, ofMemory, rights, legal, judges⟩ := examines
  obtain ⟨reply, after, returned, post⟩ := right prepared asked ⟨legal, ofMemory⟩
  obtain ⟨found, ran, judged⟩ :=
    judges lib reply after returned post.1 (far_kept ofMemory post.2)
  rw [judged.mpr post] at ran
  exact ⟨after, ran, post.1.trans rights⟩

section Cases
variable {lib : Call → Kernel Reply} {start : PagedMemory} {buff size dstAln srcAln : Nat}

/-- The loop that validates, the check of the boundary and what is printed of both. -/
theorem verdict {m : Memory} {low : Nat} (phase : Phase) (actual expected : Nat)
    (byte : Memory → Nat → Exec UInt8) (text : Nat → UInt8) (window : Allocated m low (size + 16))
    (reads : ∀ i < size, byte m i = .ok (text i)) :
    ∃ found, (do
        let index ← readOnly fun m => validated (low + 8) size m (byte m)
        let boundary ← readOnly (boundaryCheck (low + 8) size)
        return complaints phase size index expected actual ++ boundary : Kernel _) m = .ok (found, m) ∧
      (found = [] ↔ actual = expected ∧ (∀ i < size, m.byte (low + 8 + i) = text i) ∧
        Unharmed m low size) := by
  have target := window.part (Nat.le_add_right low 8) (show low + 8 + size ≤ _ by omega)
  have range : size < sizeRange := by
    have below := window.below
    omega
  obtain ⟨index, ran, whole⟩ := validated_tells text range target.readable reads
  obtain ⟨boundary, ran', unharmed⟩ := boundaryCheck_tells window.readable
  refine ⟨complaints phase size index expected actual ++ boundary, ?_, ?_⟩
  · rw [bind_returned (readOnly_returned ran), bind_returned (readOnly_returned ran')]
    rfl
  · rw [complaints_none, whole, unharmed]

theorem disjointCase_examines (phase : Phase) (rand : Nat → Nat) {call : Nat → Nat → Nat → Call}
    {expected : Nat → Nat → Nat} (copies : Copies call expected)
    (heap : Allocated start.toMemory buff (2 * (size + boundaryBytes + 2 * cachelineSz)))
    (near : dstAln < 64 ∧ srcAln < 64) :
    Examines (fun lib => disjointCase lib rand phase call expected (some buff) size dstAln srcAln)
      start.toMemory := by
  obtain ⟨low, place, above, fits⟩ : ∃ low,
      lineStart (buff + (size + boundaryBytes) + 2 * cachelineSz) + dstAln = low + 8 ∧
        buff + srcAln + size ≤ low ∧
        low + (size + 16) ≤ buff + 2 * (size + boundaryBytes + 2 * cachelineSz) := by
    simp only [boundaryBytes, cachelineSz, lineStart]
    exact ⟨_, (Nat.sub_add_cancel (by omega : 8 ≤ _)).symm, by omega, by omega⟩
  have window := heap.part (by omega) fits
  have source := heap.part (Nat.le_add_right buff srcAln)
    (show buff + srcAln + size ≤ _ by omega)
  have range : size < sizeRange := by
    have below := window.below
    omega
  obtain ⟨_, m1, ran1, edges⟩ :=
    prepareBoundary_written (Memory.canWrite_iff.mpr window.writable) start.toMemory rfl
  have rights1 : m1.rights = start.rights := Prod.ext edges.readable edges.writable
  obtain ⟨_, m2, ran2, filled⟩ := initialise_written (fun index => lowerChar (rand index))
    (Memory.canWrite_iff.mpr (source.of_rights rights1).writable) range m1 rfl
  have rights2 : m2.rights = start.rights :=
    (Prod.ext filled.readable filled.writable : m2.rights = m1.rights).trans rights1
  have unharmed : Unharmed m2 low size := by
    intro j set
    rw [filled.frame _ (by unfold BoundarySet at set; omega)]
    exact edges.text j set
  have target := window.part (Nat.le_add_right low 8) (show low + 8 + size ≤ _ by omega)
  obtain ⟨paged, rfl⟩ := paged_of_rights start rights2
  refine ⟨call (low + 8) (buff + srcAln) size, paged.toMemory, copies.ofMemory _ _ _, rights2,
    ⟨paged, rfl, copies.legal paged _ _ _ ⟨(source.of_rights rights2).readable,
      (target.of_rights rights2).writable⟩ range (.inr (by omega))⟩,
    fun lib reply after returned rights far => ?_⟩
  have same := rights.trans rights2
  obtain ⟨found, ran3, judged⟩ := verdict phase (addressOf reply) (expected (low + 8) size)
    (fun m index => m.byteAt (buff + srcAln + index)) (fun i => after.byte (buff + srcAln + i))
    (window.of_rights same) fun i below => Memory.byteAt_eq ((source.of_rights same).readable i below)
  refine ⟨found, ?_, judged.trans ?_⟩
  · dsimp only [disjointCase]
    rw [place, bind_returned ran1, bind_returned ran2, bind_returned returned]
    exact ran3
  · have kept (i : Nat) (below : i < size) :
        after.byte (buff + srcAln + i) = paged.byte (buff + srcAln + i) := by
      refine far _ ((copies.far _ _ _ _).mpr (.inl ?_))
      simp only [boundaryBytes]
      omega
    rw [pointer_of_addressOf (Nat.lt_of_lt_of_le (Nat.succ_pos _) (copies.later _ _))]
    refine Iff.trans ?_ (and_iff_right rights).symm
    rw [copies.answers]
    refine and_congr_right fun _ => ?_
    constructor
    · intro fine
      refine ⟨fun i below => ?_, fun a outside => ?_⟩
      · rw [fine.1 i below, kept i below]
      · exact kept_of_unharmed (fun a away => far a ((copies.far _ _ _ _).mpr away)) unharmed fine.2
          outside
    · intro copied
      refine ⟨fun i below => ?_, fun j set => ?_⟩
      · rw [copied.1 i below, kept i below]
      · rw [copied.2 _ (by unfold BoundarySet at set; omega)]
        exact unharmed j set

end Cases

section Overlap
variable {m : Memory} {addr dst src validation size : Nat} {text : Nat → UInt8} {b : UInt8}

private theorem storeByte_returned (rights : m.writable addr = true) :
    ∃ after, storeByte addr b m = .ok ((), after) ∧ after.rights = m.rights ∧ after.byte addr = b ∧
      ∀ a, a ≠ addr → after.byte a = m.byte a := by
  have whole : m.canWrite addr 1 = true := by
    refine Memory.canWrite_iff.mpr fun i below => ?_
    obtain rfl : i = 0 := by omega
    exact rights
  refine ⟨m.write addr fun _ : Fin 1 => b, if_pos ⟨allows_unaligned, whole⟩, rfl, ?_, fun a other => ?_⟩
  · exact dif_pos ⟨Nat.le_refl addr, by omega⟩
  · exact dif_neg fun inside => other (by omega)

/-- The first `k` bytes are in both places. -/
structure Both (start : Memory) (src validation k : Nat) (text : Nat → UInt8) (m : Memory) : Prop where
  rights : m.rights = start.rights
  source : ∀ i < k, m.byte (src + i) = text i
  kept : ∀ i < k, m.byte (validation + i) = text i

private theorem initialiseBoth_written (text : Nat → UInt8) (source : Allocated m src size)
    (kept : Allocated m validation size)
    (apart : src + size ≤ validation ∨ validation + size ≤ src) (range : size < sizeRange) :
    Triple (fun state => state = m) (initialiseBoth src size validation text)
      fun _ => Both m src validation size text := by
  refine Triple.from (loopM_triple (fun k state => k ≤ size ∧ Both m src validation k text state)
    (fun k => size - k) (fun k => triple_fact fun within => ?_) (enough_budget range)) ?_
  · refine triple_ite (fun inside => ?_) fun full => ?_
    · intro state both
      obtain ⟨middle, ran, rights, here, frame⟩ := storeByte_returned (b := text k)
        ((source.of_rights both.rights).writable k inside)
      obtain ⟨last, ran', rights', here', frame'⟩ := storeByte_returned (b := text k)
        ((kept.of_rights (rights.trans both.rights)).writable k inside)
      refine ⟨.next (k + 1), last, ?_, ⟨inside, ?_⟩, by omega⟩
      · rw [bind_returned ran, bind_returned ran']
        rfl
      refine ⟨rights'.trans (rights.trans both.rights), fun i below => ?_, fun i below => ?_⟩
      · rw [frame' _ (by omega)]
        rcases Nat.lt_or_eq_of_le (Nat.le_of_lt_succ below) with less | rfl
        · rw [frame _ (by omega), both.source i less]
        · exact here
      · rcases Nat.lt_or_eq_of_le (Nat.le_of_lt_succ below) with less | rfl
        · rw [frame' _ (by omega), frame _ (by omega), both.kept i less]
        · exact here'
    · obtain rfl : k = size := by omega
      exact triple_pure fun state both => both
  · rintro _ rfl
    exact ⟨Nat.zero_le size, rfl, fun i below => absurd below (Nat.not_lt_zero i),
      fun i below => absurd below (Nat.not_lt_zero i)⟩

variable {lib : Call → Kernel Reply} {start : PagedMemory}

private theorem overlapCase_silent (phase : Phase) (rand : Nat → Nat) (right : Right lib)
    (source : Allocated start.toMemory src size) (target : Allocated start.toMemory dst size)
    (kept : Allocated start.toMemory validation size)
    (apart : src + size ≤ validation ∨ validation + size ≤ src)
    (apart' : dst + size ≤ validation ∨ validation + size ≤ dst) (range : size < sizeRange) :
    Silent (overlapCase lib rand phase dst src validation size) start.toMemory := by
  obtain ⟨_, m1, ran1, both⟩ := initialiseBoth_written (fun index => lowerChar (rand index))
    source kept apart range start.toMemory rfl
  obtain ⟨paged, rfl⟩ := paged_of_rights start both.rights
  obtain ⟨reply, m2, ran2, rights2, answer, copied⟩ := right paged.toMemory (.memmove dst src size)
    ⟨⟨paged, rfl, ⟨(source.of_rights both.rights).readable, (target.of_rights both.rights).writable⟩,
      range⟩, trivial⟩
  have rights : m2.rights = start.rights := rights2.trans both.rights
  have reads (i : Nat) (below : i < size) :
      m2.byteAt (validation + i) = .ok (m2.byte (validation + i)) :=
    Memory.byteAt_eq ((kept.of_rights rights).readable i below)
  obtain ⟨index, ran3, whole⟩ := validated_tells (fun i => m2.byte (validation + i)) range
    (target.of_rights rights).readable reads
  obtain rfl : index = size := by
    refine whole.mpr fun i below => ?_
    rw [copied.1 i below, copied.2 _ (by omega), both.kept i below, both.source i below]
  refine ⟨m2, ?_, rights⟩
  rw [overlapCase, bind_returned ran1, bind_returned ran2, bind_returned (readOnly_returned ran3),
    answer]
  simp only [complaints, addressOf, Option.getD_some, ne_eq, not_true_eq_false, ↓reduceIte,
    List.append_nil]
  rfl

end Overlap

section Pass
variable {lib : Call → Kernel Reply} {start : PagedMemory} {buff validation apart size : Nat}
variable {dstAln srcAln : Nat}

private theorem memsetValidator_examines (rand : Nat → Nat) (positive : 0 < size)
    (heap : Allocated start.toMemory buff (size + 2 * boundaryBytes + 2 * cachelineSz))
    (near : dstAln < 64) :
    Examines (fun lib => memsetValidator lib rand (some buff) size dstAln) start.toMemory := by
  obtain ⟨low, place, above, fits⟩ : ∃ low, buff + dstAln + cachelineSz = low + 8 ∧ buff ≤ low ∧
      low + (size + 16) ≤ buff + (size + 2 * boundaryBytes + 2 * cachelineSz) := by
    simp only [boundaryBytes, cachelineSz]
    exact ⟨buff + dstAln + 56, rfl, by omega, by omega⟩
  have window := heap.part above fits
  have range : size < sizeRange := by
    have below := window.below
    omega
  have target := window.part (Nat.le_add_right low 8) (show low + 8 + size ≤ _ by omega)
  obtain ⟨_, m1, ran1, edges⟩ :=
    prepareBoundary_written (Memory.canWrite_iff.mpr window.writable) start.toMemory rfl
  have rights1 : m1.rights = start.rights := Prod.ext edges.readable edges.writable
  obtain ⟨paged, rfl⟩ := paged_of_rights start rights1
  have value : Fill.uchar (.ofNat 32 (rand 0 % 256)) = .ofNat (rand 0 % 256) := by
    refine UInt8.toNat_inj.mp ?_
    have small : rand 0 % 256 < 256 := Nat.mod_lt _ (by decide)
    simp only [Fill.uchar, UInt8.toNat_ofBitVec, BitVec.toNat_setWidth, BitVec.toNat_ofNat,
      UInt8.toNat_ofNat']
    omega
  refine ⟨.memset (low + 8) (.ofNat 32 (rand 0 % 256)) size, paged.toMemory, trivial, rights1,
    ⟨paged, rfl, (target.of_rights rights1).writable, range⟩,
    fun lib reply after returned rights far => ?_⟩
  obtain ⟨found, ran2, judged⟩ := verdict .plain (addressOf reply) (low + 8)
    (fun _ _ => pure (.ofNat (rand 0 % 256))) (fun _ => .ofNat (rand 0 % 256))
    (window.of_rights (rights.trans rights1)) fun i below => rfl
  refine ⟨found, ?_, judged.trans ?_⟩
  · simp only [memsetValidator, Nat.ne_of_gt positive, ↓reduceIte]
    rw [place, bind_returned ran1, bind_returned returned]
    exact ran2
  · rw [pointer_of_addressOf (Nat.succ_pos _)]
    refine Iff.trans ?_ (and_iff_right rights).symm
    refine and_congr_right fun _ => ?_
    constructor
    · intro fine
      refine ⟨fun i below => ?_, fun a outside => ?_⟩
      · rw [fine.1 i below, value]
      · exact kept_of_unharmed far edges.text fine.2 outside
    · intro filled
      refine ⟨fun i below => ?_, fun j set => ?_⟩
      · rw [filled.1 i below, value]
      · rw [filled.2 _ (by unfold BoundarySet at set; omega)]
        exact edges.text j set

theorem zeroCase_silent {call : Call} (right : Right lib) (ofMemory : OfMemory call)
    (legal : Legal start call) (null : ∀ before reply after, Answers before call reply after →
      addressOf reply = 0) : Silent (zeroCase lib call) start.toMemory := by
  obtain ⟨reply, after, returned, rights, answers⟩ :=
    right start.toMemory call ⟨⟨start, rfl, legal⟩, ofMemory⟩
  refine ⟨after, ?_, rights⟩
  rw [zeroCase, bind_returned returned, null _ _ _ answers]
  rfl

theorem nothing_range : 0 < sizeRange := by
  rw [sizeRange_eq]
  decide

theorem nothing_buffers (m : Memory) : Copy.Buffers m 0 0 0 :=
  ⟨fun i below => absurd below (Nat.not_lt_zero i), fun i below => absurd below (Nat.not_lt_zero i)⟩

private theorem memcpyValidator_examines (rand : Nat → Nat) (positive : 0 < size)
    (heap : Allocated start.toMemory buff (2 * (size + boundaryBytes + 2 * cachelineSz)))
    (near : dstAln < 64 ∧ srcAln < 64) :
    Examines (fun lib => memcpyValidator lib rand (some buff) size dstAln srcAln) start.toMemory := by
  simp only [memcpyValidator, Nat.ne_of_gt positive, ↓reduceIte]
  exact disjointCase_examines .plain rand copies_memcpy heap near

private theorem mempcpyValidator_examines (rand : Nat → Nat) (positive : 0 < size)
    (heap : Allocated start.toMemory buff (2 * (size + boundaryBytes + 2 * cachelineSz)))
    (near : dstAln < 64 ∧ srcAln < 64) :
    Examines (fun lib => mempcpyValidator lib rand (some buff) size dstAln srcAln) start.toMemory := by
  simp only [mempcpyValidator, Nat.ne_of_gt positive, ↓reduceIte]
  exact disjointCase_examines .plain rand copies_mempcpy heap near

private theorem memcpyValidator_silent (right : Right lib) (rand : Nat → Nat)
    (heap : Allocated start.toMemory buff (2 * (size + boundaryBytes + 2 * cachelineSz)))
    (near : dstAln < 64 ∧ srcAln < 64) :
    Silent (memcpyValidator lib rand (some buff) size dstAln srcAln) start.toMemory := by
  rcases Nat.eq_zero_or_pos size with rfl | positive
  · rw [memcpyValidator, if_pos rfl]
    refine zeroCase_silent right trivial ⟨nothing_buffers _, nothing_range, .inl (Nat.le_refl 0)⟩ ?_
    rintro before reply after ⟨rfl, copied⟩
    rfl
  · exact (memcpyValidator_examines rand positive heap near).silent right

private theorem mempcpyValidator_silent (right : Right lib) (rand : Nat → Nat)
    (heap : Allocated start.toMemory buff (2 * (size + boundaryBytes + 2 * cachelineSz)))
    (near : dstAln < 64 ∧ srcAln < 64) :
    Silent (mempcpyValidator lib rand (some buff) size dstAln srcAln) start.toMemory := by
  rcases Nat.eq_zero_or_pos size with rfl | positive
  · rw [mempcpyValidator, if_pos rfl]
    refine zeroCase_silent right trivial ⟨nothing_buffers _, nothing_range, .inl (Nat.le_refl 0)⟩ ?_
    rintro before reply after ⟨rfl, copied⟩
    rfl
  · exact (mempcpyValidator_examines rand positive heap near).silent right

private theorem memsetValidator_silent (right : Right lib) (rand : Nat → Nat)
    (heap : Allocated start.toMemory buff (size + 2 * boundaryBytes + 2 * cachelineSz))
    (near : dstAln < 64) :
    Silent (memsetValidator lib rand (some buff) size dstAln) start.toMemory := by
  rcases Nat.eq_zero_or_pos size with rfl | positive
  · rw [memsetValidator, if_pos rfl]
    refine zeroCase_silent right trivial ⟨fun i below => absurd below (Nat.not_lt_zero i),
      nothing_range⟩ ?_
    rintro before reply after ⟨rfl, filled⟩
    rfl
  · exact (memsetValidator_examines rand positive heap near).silent right

private theorem memmoveValidator_silent (right : Right lib) (rand : Nat → Nat)
    (heap : Allocated start.toMemory buff (2 * (size + 2 * cachelineSz)))
    (kept : Allocated start.toMemory validation (size + 2 * cachelineSz))
    (heap' : Allocated start.toMemory apart (2 * (size + boundaryBytes + 2 * cachelineSz)))
    (disjoint : buff + 2 * (size + 2 * cachelineSz) ≤ validation ∨
      validation + (size + 2 * cachelineSz) ≤ buff) (near : dstAln < 64 ∧ srcAln < 64) :
    Silent (memmoveValidator lib rand (some buff) (some validation) (some apart) size dstAln srcAln)
      start.toMemory := by
  unfold memmoveValidator
  split
  next nothing =>
    refine zeroCase_silent right trivial ⟨nothing_buffers _, nothing_range⟩ ?_
    rintro before reply after ⟨rfl, copied⟩
    rfl
  next some =>
    dsimp only
    have inside : rand 0 % (size + 1) < size + 1 := Nat.mod_lt _ (Nat.succ_pos size)
    obtain ⟨tail, place, low, high⟩ : ∃ tail,
        lineStart (buff + cachelineSz + rand 0 % (size + 1)) = tail ∧ buff ≤ tail ∧
          tail ≤ buff + cachelineSz + size := by
      simp only [lineStart, cachelineSz]
      exact ⟨_, rfl, by omega, by omega⟩
    rw [place]
    simp only [cachelineSz] at heap kept disjoint high
    have range : size < sizeRange := by
      have below := kept.below
      omega
    have validated := kept.part (Nat.le_refl validation) (show validation + size ≤ _ by omega)
    have head (aln : Nat) (small : aln < 64) := heap.part (Nat.le_add_right buff aln)
      (show buff + aln + size ≤ buff + 2 * (size + 2 * 64) by omega)
    have back (aln : Nat) (small : aln < 64) := heap.part (show buff ≤ tail + aln by omega)
      (show tail + aln + size ≤ buff + 2 * (size + 2 * 64) by omega)
    obtain ⟨m1, ran1, rights1⟩ : Silent _ start.toMemory :=
      overlapCase_silent .forward (fun index => rand (1 + index)) right
        (back srcAln near.2) (head dstAln near.1) validated (by omega) (by omega) range
    obtain ⟨paged1, rfl⟩ := paged_of_rights start rights1
    obtain ⟨m2, ran2, rights2⟩ : Silent _ paged1.toMemory :=
      overlapCase_silent .backward (fun index => rand (1 + size + index)) right
        ((head srcAln near.2).of_rights rights1) ((back dstAln near.1).of_rights rights1)
        (validated.of_rights rights1) (by omega) (by omega) range
    obtain ⟨paged2, rfl⟩ := paged_of_rights start (rights2.trans rights1)
    obtain ⟨m3, ran3, rights3⟩ : Silent _ paged2.toMemory :=
      (disjointCase_examines .nonOverlap (fun index => rand (1 + 2 * size + index)) copies_memmove
        (heap'.of_rights (rights2.trans rights1)) near).silent right
    refine ⟨m3, ?_, rights3.trans (rights2.trans rights1)⟩
    rw [bind_returned ran1, bind_returned ran2, bind_returned ran3]
    rfl

/-- Whatever build is validated, with whatever size, alignments and random numbers: nothing is
printed. -/
theorem memory_validators_pass (target : Target) (strict : Bool) (cacheInfo : Dispatch.CacheInfo)
    (thresholds : Dispatch.Thresholds) (rand : Nat → Nat) {filled : Nat}
    (heap : Allocated start.toMemory apart (2 * (size + boundaryBytes + 2 * cachelineSz)))
    (overlap : Allocated start.toMemory buff (2 * (size + 2 * cachelineSz)))
    (kept : Allocated start.toMemory validation (size + 2 * cachelineSz))
    (disjoint : buff + 2 * (size + 2 * cachelineSz) ≤ validation ∨
      validation + (size + 2 * cachelineSz) ≤ buff)
    (target_ : Allocated start.toMemory filled (size + 2 * boundaryBytes + 2 * cachelineSz))
    (near : dstAln < 64 ∧ srcAln < 64) :
    Silent (memcpyValidator (target.code strict cacheInfo thresholds) rand (some apart) size dstAln
        srcAln) start.toMemory ∧
      Silent (mempcpyValidator (target.code strict cacheInfo thresholds) rand (some apart) size dstAln
        srcAln) start.toMemory ∧
      Silent (memmoveValidator (target.code strict cacheInfo thresholds) rand (some buff)
        (some validation) (some apart) size dstAln srcAln) start.toMemory ∧
      Silent (memsetValidator (target.code strict cacheInfo thresholds) rand (some filled) size dstAln)
        start.toMemory :=
  have right := right_of_target target strict cacheInfo thresholds
  ⟨memcpyValidator_silent right rand heap near, mempcpyValidator_silent right rand heap near,
    memmoveValidator_silent right rand overlap kept heap disjoint near,
    memsetValidator_silent right rand target_ near.1⟩

theorem allocated_full {buff total : Nat} (below : buff + total ≤ sizeRange) :
    Allocated (PagedMemory.full UInt8.ofNat).toMemory buff total :=
  ⟨fun _ _ => rfl, fun _ _ => rfl, below⟩

theorem memory_validators_pass_zen5 :
    Silent (memcpyValidator (Target.zen5.code false ⟨0, 0, 0⟩ ⟨0, 0, 0, 0, 0, 0⟩) id (some 4096) 100 3 5)
        (PagedMemory.full UInt8.ofNat).toMemory ∧
      Silent (mempcpyValidator (Target.zen5.code false ⟨0, 0, 0⟩ ⟨0, 0, 0, 0, 0, 0⟩) id (some 4096) 100
        3 5) (PagedMemory.full UInt8.ofNat).toMemory ∧
      Silent (memmoveValidator (Target.zen5.code false ⟨0, 0, 0⟩ ⟨0, 0, 0, 0, 0, 0⟩) id (some 4096)
        (some 8192) (some 4096) 100 3 5) (PagedMemory.full UInt8.ofNat).toMemory ∧
      Silent (memsetValidator (Target.zen5.code false ⟨0, 0, 0⟩ ⟨0, 0, 0, 0, 0, 0⟩) id (some 4096) 100 3)
        (PagedMemory.full UInt8.ofNat).toMemory := by
  have room : 8192 + 1000 ≤ sizeRange := by
    rw [sizeRange_eq]
    decide
  refine memory_validators_pass .zen5 false _ _ id (allocated_full ?_) (allocated_full ?_)
    (allocated_full ?_) (.inl (by decide)) (allocated_full ?_) ⟨by decide, by decide⟩
  all_goals exact Nat.le_trans (by decide) room

end Pass

end AoclLibmem.Validator
