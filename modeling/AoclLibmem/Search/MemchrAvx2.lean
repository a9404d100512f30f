import AoclLibmem.Search.MemchrSpec

/-! `memchr_avx2.c`, in the default build and with `ALMEM_STRICT_BOUNDS`. -/

namespace AoclLibmem.Search

open Base Machine Strings

/-- `match4` above `match3` in a `uint64_t`. -/
def matchTail (match3 match4 : BitVec 32) : BitVec 64 :=
  match4.setWidth 64 <<< 32 ||| match3.setWidth 64

section Kernel
variable (m : Memory) (ch : UInt8) (mem size : Nat)

/-- `_mm256_movemask_epi8(_mm256_cmpeq_epi8(y0, y1))` for the vector at an address. -/
def matchYmm (load : Nat → Exec (Lanes 32)) (addr : Nat) : Exec (BitVec 32) := do
  let y1 ← load addr
  return movemaskEpi8 (cmpeqEpi8 (set1 ch) y1)

/-- The first of four vectors with a match, the last two under one count. -/
def pickYmm (ret match1 match2 match3 match4 : BitVec 32) (at1 at2 at3 : Nat) : Option Nat :=
  if ret ≠ 0#32 then
    if match1 ≠ 0#32 then some (at1 + tzcnt match1)
    else if match2 ≠ 0#32 then some (at2 + tzcnt match2)
    else some (at3 + tzcnt (matchTail match3 match4))
  else none

def fourYmm (load : Nat → Exec (Lanes 32)) (at1 at2 at3 at4 : Nat) : Exec (Option Nat) := do
  let y5 := cmpeqEpi8 (set1 ch) (← load (mem + at1))
  let y6 := cmpeqEpi8 (set1 ch) (← load (mem + at2))
  let y7 := cmpeqEpi8 (set1 ch) (← load (mem + at3))
  let y8 := cmpeqEpi8 (set1 ch) (← load (mem + at4))
  let ret := movemaskEpi8 (orSi (orSi y5 y6) (orSi y7 y8))
  return pickYmm ret (movemaskEpi8 y5) (movemaskEpi8 y6) (movemaskEpi8 y7) (movemaskEpi8 y8) at1 at2 at3

/-- `_mm_cvtsi64_si128` and `_mm_cvtsi32_si128` of a scalar of `k` bytes. -/
def loadScalar (k addr : Nat) : Exec (Lanes 16) := do
  let low ← m.loadu k addr
  return fun i => if below : i.val < k then low ⟨i, below⟩ else 0

def headTail (load : Nat → Exec (Lanes 16)) (lanes : BitVec 16) (width : Nat) :
    Exec (Option Nat) := do
  let x1 ← load mem
  let m1 := movemaskEpi8 (cmpeqEpi8 (set1 ch) x1) &&& lanes
  orScan (foundAt m1 0) do
    let x2 ← load (mem + (size - width))
    let m2 := movemaskEpi8 (cmpeqEpi8 (set1 ch) x2) &&& lanes
    return foundAt m2 (size - width)

/-- `size <= YMM_SZ` with `ALMEM_STRICT_BOUNDS`. -/
def memchrLeYmm : Exec (Option Nat) := do
  if xmmSz ≤ size then headTail ch mem size (m.loadu 16) (BitVec.allOnes 16) xmmSz
  else if qwordSz ≤ size then headTail ch mem size (loadScalar m 8) 0xFF#16 qwordSz
  else if dwordSz ≤ size then headTail ch mem size (loadScalar m 4) 0xF#16 dwordSz
  else
    let cmp := (← m.byteAt mem) ^^^ ch
    if cmp = 0 then return some 0
    else if 1 < size then
      let cmp := (← m.byteAt (mem + 1)) ^^^ ch
      if cmp = 0 then return some 1
      else if 2 < size then
        let cmp := (← m.byteAt (mem + 2)) ^^^ ch
        if cmp = 0 then return some 2 else return none
      else return none
    else return none

def memchrAvx2Rest : Exec (Option Nat) := do
  if size ≤ 2 * ymmSz then
    let ret ← matchYmm ch (m.loadu 32) (mem + (size - ymmSz))
    return foundAt ret (size - ymmSz)
  else fourLarge (fourYmm ch mem) m mem size

/-- The first vector in the default build: before a page end it is loaded from the boundary
below the buffer, and the one behind it is looked at too. -/
def memchrAvx2Default : Exec (Option Nat) := do
  if mem % pageSz ≤ pageSz - ymmSz then
    let ret ← matchYmm ch (m.loadu 32) mem
    if size ≤ ymmSz then return foundAt (bzhi ret size) 0
    else orScan (foundAt ret 0) (memchrAvx2Rest m ch mem size)
  else
    let leading := mem % ymmSz
    let trailing := ymmSz - leading
    let alignedAddr := mem - leading
    let mask := (← matchYmm ch (m.load 32) alignedAddr) >>> leading
    if size ≤ trailing then return foundAt (bzhi mask size) 0
    else orScan (foundAt mask 0) do
      let ret ← matchYmm ch (m.load 32) (alignedAddr + ymmSz)
      if size ≤ trailing + ymmSz then return foundAt (bzhi ret (size - trailing)) trailing
      else orScan (foundAt ret trailing) (memchrAvx2Rest m ch mem size)

def memchrAvx2Strict : Exec (Option Nat) := do
  if size ≤ ymmSz then memchrLeYmm m ch mem size
  else
    let ret ← matchYmm ch (m.loadu 32) mem
    orScan (foundAt ret 0) (memchrAvx2Rest m ch mem size)

end Kernel

/-- `_memchr_avx2`; `strict` is `ALMEM_STRICT_BOUNDS`. -/
def memchrAvx2 (strict : Bool) (m : Memory) (mem : Nat) (val : Int) (size : Nat) :
    Exec (Option Nat) := do
  if size = 0 then return none
  else
    let ch := charOfInt val
    let index ← if strict then memchrAvx2Strict m ch mem size else memchrAvx2Default m ch mem size
    return index.map (mem + ·)

section Four
variable {m : Memory} {ch : UInt8} {mem size : Nat} {exit : Trap → Prop}

theorem marks_cmpeq {n : Nat} (m : Memory) (ch : UInt8) (addr : Nat) :
    Marks (movemaskEpi8 (cmpeqEpi8 (set1 ch) (m.lanes n addr))) fun i => m.byte (addr + i) = ch :=
  marks_of_lanes fun i => by
    rw [getLsbD_movemask_cmpeq, beq_iff_eq, Memory.lanes_apply, set1]
    exact eq_comm

theorem marks_matches (m : Memory) (ch : UInt8) (mem place : Nat) :
    Marks (movemaskEpi8 (cmpeqEpi8 (set1 ch) (m.lanes 32 (mem + place))))
      fun i => Matches m.byte mem ch (place + i) :=
  (marks_cmpeq m ch (mem + place)).congr fun i _ => by rw [Matches, Nat.add_assoc]

private theorem marks_first (m : Memory) (ch : UInt8) (mem : Nat) :
    Marks (movemaskEpi8 (cmpeqEpi8 (set1 ch) (m.lanes 32 mem)))
      fun i => Matches m.byte mem ch (0 + i) :=
  (marks_cmpeq m ch mem).congr fun i _ => by rw [Matches, Nat.zero_add]

/-- The two masks together speak for 64 bytes. -/
private theorem marks_matchTail {hit : Nat → Prop} {match3 match4 : BitVec 32}
    (marks3 : Marks match3 hit) (marks4 : Marks match4 fun i => hit (32 + i)) :
    Marks (matchTail match3 match4) hit := by
  intro i below
  rw [matchTail, BitVec.getLsbD_or, BitVec.getLsbD_shiftLeft, BitVec.getLsbD_setWidth,
    BitVec.getLsbD_setWidth]
  by_cases low : i < 32
  · rw [← marks3 i low]
    simp [low, below]
  · have place : i - 32 < 32 := by omega
    have bit : match4.getLsbD (i - 32) = true ↔ hit (32 + (i - 32)) := marks4 (i - 32) place
    rw [Nat.add_sub_cancel' (Nat.not_lt.mp low)] at bit
    rw [← bit, BitVec.getLsbD_of_ge match3 i (Nat.not_lt.mp low)]
    simp [low, below]
    omega

private theorem matchTail_eq_zero {match3 match4 : BitVec 32} :
    matchTail match3 match4 = 0#64 ↔ match3 = 0#32 ∧ match4 = 0#32 := by
  have lanes : Marks (matchTail match3 match4)
      fun i => if i < 32 then match3.getLsbD i = true else match4.getLsbD (i - 32) = true :=
    marks_matchTail (fun i below => by simp [below]) fun i below => by simp
  rw [lanes.none_iff, eq_zero_iff_getLsbD, eq_zero_iff_getLsbD]
  constructor
  · intro quiet
    constructor
    · intro i below
      simpa [below] using quiet i (by omega)
    · intro i below
      simpa using quiet (32 + i) (by omega)
  · rintro ⟨low, high⟩ i below
    by_cases inLow : i < 32
    · rw [if_pos inLow, low i inLow]
      exact Bool.false_ne_true
    · rw [if_neg inLow, high (i - 32) (by omega)]
      exact Bool.false_ne_true

/-- The test of all four vectors does not change the choice among them. -/
private theorem pickYmm_eq {ret match1 match2 match3 match4 : BitVec 32} {at1 at2 at3 : Nat}
    (all : ret = match1 ||| match2 ||| (match3 ||| match4)) :
    pickYmm ret match1 match2 match3 match4 at1 at2 at3 =
      (foundAt match1 at1).or ((foundAt match2 at2).or (foundAt (matchTail match3 match4) at3)) := by
  have none : ret = 0#32 ↔ (match1 = 0#32 ∧ match2 = 0#32) ∧ matchTail match3 match4 = 0#64 := by
    rw [all, BitVec.or_eq_zero_iff, BitVec.or_eq_zero_iff, BitVec.or_eq_zero_iff, matchTail_eq_zero]
  unfold pickYmm foundAt
  by_cases in1 : match1 = 0#32
  · by_cases in2 : match2 = 0#32
    · by_cases tail : matchTail match3 match4 = 0#64
      · simp [none, in1, in2, tail]
      · simp [none, in1, in2, tail]
    · simp [none, in1, in2]
  · simp [none, in1]

private theorem pickYmm_reports {hit : Nat → Prop} {ret match1 match2 match3 match4 : BitVec 32}
    {at1 at2 at3 bound : Nat} (all : ret = match1 ||| match2 ||| (match3 ||| match4))
    (marks1 : Marks match1 fun i => hit (at1 + i)) (marks2 : Marks match2 fun i => hit (at2 + i))
    (marks3 : Marks match3 fun i => hit (at3 + i))
    (marks4 : Marks match4 fun i => hit (at3 + 32 + i)) (clear : ClearBelow hit at1)
    (near2 : at2 ≤ at1 + 32) (near3 : at3 ≤ at2 + 32) (inside1 : at1 + 32 ≤ bound)
    (inside2 : at2 + 32 ≤ bound) (last : at3 + 64 = bound) :
    Reports bound hit (pickYmm ret match1 match2 match3 match4 at1 at2 at3) := by
  have tail : Marks (matchTail match3 match4) fun i => hit (at3 + i) :=
    marks_matchTail marks3 (marks4.congr fun i _ => by rw [Nat.add_assoc])
  rw [pickYmm_eq all, ← last]
  refine reports_or (reports_block marks1.finds clear (Nat.le_refl _)) (by omega) fun clear1 => ?_
  refine reports_or (reports_block marks2.finds clear1 near2) (by omega) fun clear2 => ?_
  exact reports_block tail.finds clear2 near3

theorem fourYmm_reports : ReportsFour (Matches m.byte mem ch) m mem exit (fourYmm ch mem) := by
  intro load at1 at2 at3 reads clear near2 near3 inside1 inside2
  rw [fourYmm, reads at1 (by simp), reads at2 (by simp), reads at3 (by simp), reads (at3 + 32) (by simp)]
  refine pickYmm_reports ?_ (marks_matches m ch mem at1) (marks_matches m ch mem at2)
    (marks_matches m ch mem at3) (marks_matches m ch mem (at3 + 32)) clear near2 near3 (by omega)
    (by omega) (by omega)
  rw [movemaskEpi8_orSi, movemaskEpi8_orSi, movemaskEpi8_orSi]

end Four

section Stages
variable {m : Memory} {ch : UInt8} {mem size : Nat} {exit : Trap → Prop}

theorem matchYmm_eq {load : Nat → Exec (Lanes 32)} {addr : Nat}
    (read : load addr = .ok (m.lanes 32 addr)) :
    matchYmm ch load addr = .ok (movemaskEpi8 (cmpeqEpi8 (set1 ch) (m.lanes 32 addr))) := by
  rw [matchYmm, read]
  rfl

theorem memchrAvx2Rest_ends (whole : m.canRead mem size = true) (range : size < sizeRange)
    (large : 32 < size) (clear : ClearBelow (Matches m.byte mem ch) 32) :
    Ends (memchrAvx2Rest m ch mem size) (Reports size (Matches m.byte mem ch)) exit := by
  rw [memchrAvx2Rest]
  simp only [ymmSz]
  apply Ends.ite
  · intro le64
    have last := reports_block (marks_matches m ch mem (size - 32)).finds clear (by omega)
    rw [Nat.sub_add_cancel (by omega)] at last
    rw [matchYmm_eq (loadu_inside whole (by omega))]
    exact last
  · exact fun from65 => fourLarge_ends fourYmm_reports (by decide) whole range (Nat.not_le.mp from65)

/-- Two loads of `width` bytes that cover the buffer from both ends. -/
theorem headTail_ends {load : Nat → Exec (Lanes 16)} {lanes : BitVec 16} {width : Nat}
    (reads : ∀ k, k + width ≤ size → ∃ x, load (mem + k) = .ok x ∧
      ∀ i : Fin 16, i < width → x i = m.byte (mem + k + i))
    (mask : ∀ i < 16, lanes.getLsbD i = decide (i < width)) (narrow : width ≤ 16)
    (fits : width ≤ size) (covered : size ≤ width + width) :
    Ends (headTail ch mem size load lanes width) (Reports size (Matches m.byte mem ch)) exit := by
  have start : ClearBelow (Matches m.byte mem ch) 0 := clearBelow_zero
  have marks {k : Nat} {x : Lanes 16} (same : ∀ i : Fin 16, i < width → x i = m.byte (mem + k + i)) :
      Marks (movemaskEpi8 (cmpeqEpi8 (set1 ch) x) &&& lanes)
        fun i => i < width ∧ Matches m.byte mem ch (k + i) := by
    apply marks_of_lanes
    intro i
    rw [BitVec.getLsbD_and, getLsbD_movemask_cmpeq, mask i i.isLt, Bool.and_eq_true, beq_iff_eq,
      decide_eq_true_eq, and_comm]
    refine and_congr_right fun below => ?_
    rw [same i below, Matches, Nat.add_assoc, set1]
    exact eq_comm
  obtain ⟨x1, read1, same1⟩ := reads 0 (by omega)
  obtain ⟨x2, read2, same2⟩ := reads (size - width) (by omega)
  rw [Nat.add_zero] at read1
  rw [headTail, read1]
  have head := reports_foundAt (marks same1).finds start narrow
  refine orScan_ends head (by omega) fun clear => ?_
  have tail := reports_foundAt (marks same2).finds (clear.mono (by omega)) narrow
  rw [Nat.sub_add_cancel fits] at tail
  rw [read2]
  exact tail

private theorem loadScalar_inside (whole : m.canRead mem size = true) {width k : Nat}
    (inside : k + width ≤ size) : ∃ x, loadScalar m width (mem + k) = .ok x ∧
      ∀ i : Fin 16, i < width → x i = m.byte (mem + k + i) := by
  rw [loadScalar, loadu_inside whole inside]
  refine ⟨_, rfl, fun i below => ?_⟩
  rw [dif_pos below, Memory.lanes_apply]

theorem byteTest_ends (whole : m.canRead mem size = true) {k : Nat} (inside : k < size)
    (clear : ClearBelow (Matches m.byte mem ch) k) {rest : Exec (Option Nat)}
    (onward : ClearBelow (Matches m.byte mem ch) (k + 1) →
      Ends rest (Reports size (Matches m.byte mem ch)) exit) :
    Ends (do
      let b ← m.byteAt (mem + k)
      if b ^^^ ch = 0 then return some k else rest) (Reports size (Matches m.byte mem ch)) exit := by
  rw [Memory.byteAt_eq (Memory.canRead_iff.mp whole k inside)]
  apply Ends.ite
  · intro zero
    have same : Matches m.byte mem ch k := (xor_eq_zero_iff _ _).mp zero
    exact reports_found ⟨same, clear⟩ inside
  · intro nonzero
    apply onward
    apply clear.extend
    intro j below
    have first : j = 0 := by omega
    rw [first]
    exact fun same => nonzero ((xor_eq_zero_iff _ _).mpr same)

private theorem memchrLeYmm_ends (whole : m.canRead mem size = true) (small : size ≤ 32)
    (some : size ≠ 0) :
    Ends (memchrLeYmm m ch mem size) (Reports size (Matches m.byte mem ch)) exit := by
  rw [memchrLeYmm]
  simp only [xmmSz, qwordSz, dwordSz]
  apply Ends.ite
  · intro from16
    refine headTail_ends (fun k inside => ⟨_, loadu_inside whole inside, fun i _ => rfl⟩)
      (fun i below => ?_) (by omega) from16 (by omega)
    rw [BitVec.getLsbD_allOnes]
  · intro below16
    apply Ends.ite
    · intro from8
      exact headTail_ends (fun k inside => loadScalar_inside whole inside) (by decide) (by omega) from8
        (by omega)
    · intro below8
      apply Ends.ite
      · intro from4
        exact headTail_ends (fun k inside => loadScalar_inside whole inside) (by decide) (by omega) from4
          (by omega)
      · intro below4
        refine byteTest_ends whole (k := 0) (by omega) clearBelow_zero fun clear1 => ?_
        refine ends_ite.mpr ⟨fun second => ?_, fun one => .clear (clear1.mono (by omega))⟩
        refine byteTest_ends whole (k := 1) second clear1 fun clear2 => ?_
        refine ends_ite.mpr ⟨fun third => ?_, fun two => .clear (clear2.mono (by omega))⟩
        exact byteTest_ends whole (k := 2) third clear2 fun clear3 => .clear (clear3.mono (by omega))

theorem memchrAvx2Strict_ends (whole : m.canRead mem size = true) (range : size < sizeRange)
    (some : size ≠ 0) :
    Ends (memchrAvx2Strict m ch mem size) (Reports size (Matches m.byte mem ch)) exit := by
  have start : ClearBelow (Matches m.byte mem ch) 0 := clearBelow_zero
  apply Ends.ite
  · intro small
    exact memchrLeYmm_ends whole small some
  · intro large
    simp only [ymmSz] at large
    have first := reports_block (marks_first m ch mem).finds start (Nat.le_refl 0)
    have read : m.loadu 32 mem = .ok (m.lanes 32 mem) := loadu_inside whole (k := 0) (by omega)
    rw [matchYmm_eq read]
    exact orScan_ends first (by omega) fun clear => memchrAvx2Rest_ends whole range (by omega) clear

end Stages

section Default
variable {m : PagedMemory} {ch : UInt8} {mem size : Nat} {exit : Trap → Prop}

/-- In the default build the first vector need not lie inside the buffer, but in its pages. -/
theorem memchrAvx2Default_ends (whole : m.canRead mem size = true) (range : size < sizeRange)
    (some : size ≠ 0) :
    Ends (memchrAvx2Default m.toMemory ch mem size) (Reports size (Matches m.byte mem ch)) exit := by
  have start : ClearBelow (Matches m.byte mem ch) 0 := clearBelow_zero
  have readable (k : Nat) (inside : k < size) : m.readable (mem + k) = true :=
    Memory.canRead_iff.mp whole k inside
  have first : m.readable mem = true := readable 0 (Nat.pos_of_ne_zero some)
  simp only [memchrAvx2Default, pageSz, ymmSz]
  apply Ends.ite
  · intro inner
    have marks := marks_first m.toMemory ch mem
    rw [matchYmm_eq (Memory.loadu_eq (PagedMemory.canRead_of_page first rfl (by omega)))]
    apply Ends.ite
    · intro small
      have only := reports_foundAt (marks.bzhi (k := size) (by omega)).finds start small
      rwa [Nat.zero_add] at only
    · intro large
      refine orScan_ends (reports_block marks.finds start (Nat.le_refl 0)) (by omega) fun clear => ?_
      exact memchrAvx2Rest_ends whole range (by omega) clear
  · intro edge
    have below : mem % 32 < 32 := by omega
    have marks : Marks (movemaskEpi8 (cmpeqEpi8 (set1 ch) (m.lanes 32 (mem - mem % 32))) >>> (mem % 32))
        fun i => i < 32 - mem % 32 ∧ Matches m.byte mem ch (0 + i) := by
      refine ((marks_cmpeq m.toMemory ch (mem - mem % 32)).ushiftRight (mem % 32)).congr fun i _ => ?_
      rw [Matches, Nat.zero_add, ← Nat.add_assoc, Nat.sub_add_cancel (Nat.mod_le _ _),
        Nat.lt_sub_iff_add_lt']
    have reads : m.canRead (mem - mem % 32) 32 = true :=
      PagedMemory.canRead_of_page first (by omega) (by omega)
    rw [matchYmm_eq (Memory.load_eq (by omega) reads)]
    apply Ends.ite
    · intro small
      have cut := (marks.bzhi (k := size) (by omega)).congr fun i _ =>
        and_congr_right fun inside => and_iff_right (Nat.lt_of_lt_of_le inside small)
      have only := reports_foundAt cut.finds start (by omega)
      rwa [Nat.zero_add] at only
    · intro more
      refine orScan_ends (reports_foundAt marks.finds start (by omega)) (by omega) fun clear => ?_
      have second := readable (32 - mem % 32) (by omega)
      have next : mem - mem % 32 + 32 = mem + (32 - mem % 32) := by omega
      rw [Nat.zero_add] at clear
      have reads2 := PagedMemory.canRead_of_page (n := 32) second rfl (by omega)
      rw [next, matchYmm_eq (Memory.load_eq (by omega) reads2)]
      have marks2 := marks_matches m.toMemory ch mem (32 - mem % 32)
      apply Ends.ite
      · intro small
        have last := reports_foundAt (marks2.bzhi (k := size - (32 - mem % 32)) (by omega)).finds clear
          (by omega)
        rwa [Nat.add_sub_cancel' (by omega)] at last
      · intro large
        refine orScan_ends (reports_block marks2.finds clear (Nat.le_refl _)) (by omega) fun clear2 => ?_
        exact memchrAvx2Rest_ends whole range (by omega) (clear2.mono (by omega))

end Default

/-- `_memchr_avx2` finds the first match in both builds: the default build in every memory that
maps the pages of the buffer, the strict one in every memory that maps its bytes. -/
theorem memchrAvx2_finds (mem : Nat) (val : Int) (size : Nat) (range : size < sizeRange) :
    (∀ m : PagedMemory, m.canRead mem size = true →
      ∃ result, memchrAvx2 false m.toMemory mem val size = .ok result ∧
        FindsChar m.byte mem size (charOfInt val) result) ∧
    ∀ m : Memory, m.canRead mem size = true →
      ∃ result, memchrAvx2 true m mem val size = .ok result ∧
        FindsChar m.byte mem size (charOfInt val) result := by
  by_cases none : size = 0
  · subst none
    constructor
    · intro m _
      exact ⟨_, rfl, .absent clearBelow_zero⟩
    · intro m _
      exact ⟨_, rfl, .absent clearBelow_zero⟩
  · constructor
    · intro m whole
      rw [memchrAvx2, if_neg none]
      exact returns_char (memchrAvx2Default_ends whole range none)
    · intro m whole
      rw [memchrAvx2, if_neg none]
      exact returns_char (memchrAvx2Strict_ends whole range none)

theorem memchrAvx2_finds_pageEnd :
    (∃ result, memchrAvx2 false (onlyPages UInt8.ofNat 4090 6).toMemory 4090 (-3) 6 = .ok result ∧
      FindsChar UInt8.ofNat 4090 6 (charOfInt (-3)) result) ∧
    ∃ result, memchrAvx2 true (onlyBuffer UInt8.ofNat 4090 6) 4090 (-3) 6 = .ok result ∧
      FindsChar UInt8.ofNat 4090 6 (charOfInt (-3)) result := by
  obtain ⟨default, strict⟩ := memchrAvx2_finds 4090 (-3) 6 (by rw [sizeRange_eq]; decide)
  constructor
  · exact default (onlyPages UInt8.ofNat 4090 6) onlyPages_canRead
  · exact strict (onlyBuffer UInt8.ofNat 4090 6) onlyBuffer_canRead

end AoclLibmem.Search
