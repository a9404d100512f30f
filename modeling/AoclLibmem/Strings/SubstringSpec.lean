import AoclLibmem.Strings.CompareSpec
import AoclLibmem.Strings.SearchSpec
import AoclLibmem.Machine.BitLoop

/-! What `strstr` has to return, the candidate filter its two kernels share, and how the
answer for one block bears on the whole search. -/

namespace AoclLibmem.Strings

open Base Machine

def Occurs (byte : Nat → UInt8) (haystack needle len i : Nat) : Prop :=
  OccursAt (fun k => byte (haystack + k)) (fun j => byte (needle + j)) len i

/-- The required result of `strstr`: the first occurrence of the needle wholly before the
terminator of the haystack. -/
def Searches (byte : Nat → UInt8) (haystack needle : Nat) (result : Option Nat) : Prop :=
  ∃ T L, IsLength byte haystack T ∧ IsLength byte needle L ∧
    Picks (OccursWithin (fun k => byte (haystack + k)) (fun j => byte (needle + j)) L T) haystack
      result

/-- Both kernels can take a match behind the terminator for one before it: the haystack
starts in the last vector of a page, has no terminator there, `ghost` makes candidates of all
lanes behind the page end, and the needle stands only behind the terminator. -/
def FalseMatch (byte : Nat → UInt8) (haystack needle T L vecSz : Nat) (ghost : Prop) : Prop :=
  pageSz - vecSz < haystack % pageSz ∧ 2 ≤ L ∧ vecSz - haystack % vecSz ≤ T ∧ ghost ∧
    (∀ i ≤ T, ¬ Occurs byte haystack needle L i) ∧
    ∃ p, T < p ∧ p < vecSz ∧ Occurs byte haystack needle L p

section Spec
variable {byte : Nat → UInt8} {haystack needle T L : Nat} {result : Option Nat}

/-- In front of the terminator, an occurrence is one before the terminator. -/
theorem searches_iff (endsHaystack : IsLength byte haystack T) (endsNeedle : IsLength byte needle L) :
    Searches byte haystack needle result ↔
      Picks (fun i => i ≤ T ∧ Occurs byte haystack needle L i) haystack result := by
  have same (i : Nat) : OccursWithin (fun k => byte (haystack + k)) (fun j => byte (needle + j)) L T i ↔
      i ≤ T ∧ Occurs byte haystack needle L i := occursWithin_iff endsNeedle.2 endsHaystack.1
  constructor
  · rintro ⟨T', L', ends, ends', picks⟩
    rw [ends.unique endsHaystack, ends'.unique endsNeedle] at picks
    exact picks.congr same
  · intro picks
    exact ⟨T, L, endsHaystack, endsNeedle, picks.congr fun i => (same i).symm⟩

/-- A one-byte needle: `strstr` asks what `strchr` answers. -/
theorem searches_of_locates (endsHaystack : IsLength byte haystack T)
    (endsNeedle : IsLength byte needle 1) :
    Searches byte haystack needle result ↔ Locates byte haystack (byte needle) result := by
  have letter : byte needle ≠ 0 := endsNeedle.2 0 (by omega)
  have single (i : Nat) : Occurs byte haystack needle 1 i ↔ byte (haystack + i) = byte needle :=
    ⟨fun occurs => occurs.first (by omega), fun same j below => by
      have zero : j = 0 := by omega
      subst zero
      exact same⟩
  rw [searches_iff endsHaystack endsNeedle]
  simp only [single]
  constructor
  · intro picks
    cases picks with
    | found first =>
      refine .found ⟨first.1.2, fun j less same => first.2 j less ⟨by have := first.1.1; omega, same⟩⟩ ?_
      intro j less
      exact endsHaystack.2 j (by have := first.1.1; omega)
    | absent clear => exact .absent endsHaystack fun i le same => clear i ⟨le, same⟩
  · intro locates
    cases locates with
    | found first inside =>
      have before := endsHaystack.clear_le inside
      exact .found ⟨⟨by omega, first.1⟩, fun j less hit => first.2 j less hit.2⟩
    | absent ends missing =>
      rw [ends.unique endsHaystack] at missing
      exact .absent fun i hit => missing i hit.1 hit.2

/-- The verdict of `strncmp` on a position of the haystack. -/
theorem compares_zero_iff {i : Nat} {value : Int} (free : ∀ j < L, byte (needle + j) ≠ 0)
    (compares : Compares byte (haystack + i) needle (some L) value) :
    value = 0 ↔ Occurs byte haystack needle L i := by
  cases compares with
  | differ first inside =>
    rename_i k
    have below := inside L rfl
    have differ : byte (haystack + i + k) ≠ byte (needle + k) := by
      intro same
      rcases first.1 with differ | zero
      · exact differ same
      · exact free k below (same.symm.trans zero)
    constructor
    · intro zero
      refine absurd (UInt8.toNat_inj.mp ?_) differ
      omega
    · intro occurs
      refine absurd ?_ differ
      rw [Nat.add_assoc]
      exact occurs k below
  | same bound clear =>
    rw [Option.some_inj] at bound
    subst bound
    refine iff_of_true rfl fun j below => ?_
    have quiet := clear j below
    rw [Decides, not_or, not_not, Nat.add_assoc] at quiet
    exact quiet.1

end Spec

/-- `needle_first`, `needle_second`, `needle_last`: three bytes of the needle, each in all lanes. -/
structure Broadcast (n : Nat) where
  first : Lanes n
  second : Lanes n
  last : Lanes n

def broadcastNeedle (n : Nat) (m : Memory) (needle needleLen : Nat) : Exec (Broadcast n) := do
  let b0 ← m.byteAt needle
  let b1 ← m.byteAt (needle + 1)
  let bl ← m.byteAt (needle + needleLen - 1)
  return ⟨set1 b0, set1 b1, set1 bl⟩

abbrev needleKeys (n : Nat) (byte : Nat → UInt8) (needle len : Nat) : Broadcast n :=
  ⟨set1 (byte needle), set1 (byte (needle + 1)), set1 (byte (needle + len - 1))⟩

/-- `*match_mask &= equal(key, load(addr))`. -/
def filterAt {n : Nat} (equal : Lanes n → Lanes n → BitVec n) (m : Memory) (key : Lanes n)
    (addr : Nat) (matchMask : BitVec n) : Exec (BitVec n) := do
  let y ← m.loadu n addr
  return matchMask &&& equal key y

/-- `apply_filter`, `apply_filter_avx2`: drop candidates by the second and the last byte of
the needle, each only when its vector stays well inside the page. -/
def applyFilterBy {n : Nat} (equal : Lanes n → Lanes n → BitVec n) (m : Memory)
    (haystack offset needleLen : Nat) (keys : Broadcast n) (matchMask : BitVec n) :
    Exec (BitVec n) :=
  if matchMask = 0#n then return matchMask
  else do
    let haystackPtr := haystack + offset
    let bytesToPageEnd := pageSz - haystackPtr % pageSz
    let matchMask ← (if bytesToPageEnd > 1 + n then
      filterAt equal m keys.second (haystack + offset + 1) matchMask else pure matchMask)
    if needleLen ≤ 512 ∧ bytesToPageEnd > needleLen + n then
      filterAt equal m keys.last (haystackPtr + needleLen - 1) matchMask
    else return matchMask

/-- The comparison marks the lanes at which its operands are equal. -/
def MarksEqual {n : Nat} (equal : Lanes n → Lanes n → BitVec n) : Prop :=
  ∀ a b, ∀ i : Fin n, (equal a b).getLsbD i = (a i == b i)

theorem MarksEqual.marks {n : Nat} {equal : Lanes n → Lanes n → BitVec n} (lanes : MarksEqual equal)
    {a b : Lanes n} (hit : Nat → Prop) (lane : ∀ i : Fin n, a i = b i ↔ hit i) :
    Marks (equal a b) hit :=
  marks_of_lanes fun i => by rw [lanes a b i, beq_iff_eq, lane i]

section Filter
variable {n : Nat} {equal : Lanes n → Lanes n → BitVec n} {byte : Nat → UInt8}
variable {haystack needle len offset : Nat} {mask left rest : BitVec n} {exit : Trap → Prop}

/-- The masks agree at the occurrences of the needle. -/
def SameAtOccurrences (byte : Nat → UInt8) (haystack needle len offset : Nat) (mask mask' : BitVec n) :
    Prop :=
  ∀ i < n, Occurs byte haystack needle len (offset + i) → mask'.getLsbD i = mask.getLsbD i

/-- What is left of the candidates in a mask: each at which the needle occurs, and no other bit. -/
structure Thinned (byte : Nat → UInt8) (haystack needle len offset : Nat) (mask left : BitVec n) :
    Prop where
  keeps : ∀ i < n, Occurs byte haystack needle len (offset + i) →
    mask.getLsbD i = true → left.getLsbD i = true
  within : ∀ i < n, left.getLsbD i = true → mask.getLsbD i = true

theorem Thinned.refl : Thinned byte haystack needle len offset mask mask :=
  ⟨fun _ _ _ set => set, fun _ _ set => set⟩

theorem Thinned.trans (first : Thinned byte haystack needle len offset mask left)
    (second : Thinned byte haystack needle len offset left rest) :
    Thinned byte haystack needle len offset mask rest where
  keeps i below occurs set := second.keeps i below occurs (first.keeps i below occurs set)
  within i below set := first.within i below (second.within i below set)

theorem Thinned.same (thinned : Thinned byte haystack needle len offset mask left) :
    SameAtOccurrences byte haystack needle len offset mask left :=
  fun i below occurs => Bool.eq_iff_iff.mpr ⟨thinned.within i below, thinned.keeps i below occurs⟩

/-- A filter by byte `k` of the needle keeps every occurrence. -/
private theorem filterAt_ends (lanes : MarksEqual equal) {k addr : Nat}
    (inside : k < len) (here : addr = haystack + offset + k) :
    Ends (filterAt equal (PagedMemory.full byte).toMemory (set1 (byte (needle + k))) addr mask)
      (Thinned byte haystack needle len offset mask) exit := by
  rw [filterAt, Memory.loadu_eq (Memory.canRead_iff.mpr fun _ _ => rfl)]
  refine ⟨fun i below occurs set => ?_, fun i _ set => ?_⟩
  · have lane := lanes (set1 (byte (needle + k))) ((PagedMemory.full byte).lanes n addr) ⟨i, below⟩
    have same : byte (haystack + (offset + i + k)) = byte (needle + k) := occurs k inside
    have position : addr + i = haystack + (offset + i + k) := by omega
    simp only [set1, Memory.lanes_apply, PagedMemory.full_byte, position, same, beq_self_eq_true]
      at lane
    rw [BitVec.getLsbD_and, lane, Bool.and_true]
    exact set
  · rw [BitVec.getLsbD_and, Bool.and_eq_true] at set
    exact set.1

theorem broadcastNeedle_eq (byte : Nat → UInt8) (needle len : Nat) :
    broadcastNeedle n (PagedMemory.full byte).toMemory needle len =
      .ok (needleKeys n byte needle len) := rfl

theorem applyFilterBy_ends (lanes : MarksEqual equal) (long : 2 ≤ len) :
    Ends (applyFilterBy equal (PagedMemory.full byte).toMemory haystack offset len
      (needleKeys n byte needle len) mask)
      (Thinned byte haystack needle len offset mask) exit := by
  refine ends_ite.mpr ⟨fun _ => .refl, fun _ => ?_⟩
  refine Ends.bind (ends_ite.mpr ⟨fun _ => filterAt_ends lanes (by omega : 1 < len) rfl,
    fun _ => .refl⟩) ?_
  intro left first
  refine ends_ite.mpr ⟨fun _ => ?_, fun _ => first⟩
  have last : Ends (filterAt equal (PagedMemory.full byte).toMemory
      (set1 (byte (needle + (len - 1)))) (haystack + offset + len - 1) left)
      (Thinned byte haystack needle len offset left) exit :=
    filterAt_ends lanes (by omega) (by omega)
  rw [← Nat.add_sub_assoc (by omega : 1 ≤ len)] at last
  exact last.imp fun rest second => first.trans second

end Filter

section Blocks
variable {w : Nat} {null mask mask' : BitVec w} {byte : Nat → UInt8} {occurs : Nat → Prop}
variable {haystack offset width T : Nat} {ghost : Prop} {result : Option Nat}

/-- What the mask of NUL bytes says of a block whose first `width` bytes it speaks for. -/
structure BlockEnd (null : BitVec w) (offset width T : Nat) : Prop where
  closed : null ≠ 0#w → tzcnt null < width ∧ offset + tzcnt null = T
  further : null = 0#w → offset + width ≤ T

theorem blockEnd_of_finds (narrow : width ≤ w) (ends : IsLength byte haystack T)
    (finds : Finds null (fun i => i < width ∧ byte (haystack + (offset + i)) = 0))
    (reached : offset ≤ T) : BlockEnd null offset width T := by
  have clear : ClearBelow (fun i => byte (haystack + i) = 0) offset := ends.2.mono reached
  refine ⟨fun nonzero => ?_, fun zero => ends.clear_le (finds.clear_within clear narrow zero)⟩
  obtain ⟨inside, first⟩ := finds.firstHit_within clear nonzero
  refine ⟨inside, ?_⟩
  rw [Nat.add_comm]
  exact first.unique ends

/-- At the occurrences of the needle, the mask has the lanes below `width`, and the lanes
behind it when `ghost` holds. -/
def Candidates (occurs : Nat → Prop) (mask : BitVec w) (offset width : Nat) (ghost : Prop) : Prop :=
  ∀ i < w, occurs (offset + i) → (mask.getLsbD i = true ↔ i < width ∨ ghost)

theorem Candidates.filtered (candidates : Candidates occurs mask offset width ghost)
    (kept : ∀ i < w, occurs (offset + i) → mask'.getLsbD i = mask.getLsbD i) :
    Candidates occurs mask' offset width ghost := by
  intro i below found
  rw [kept i below found]
  exact candidates i below found

/-- What the search of a block is for: occurrences at candidates, up to the terminator
when the block has it. Behind `width` all lanes are candidates, or none is. -/
def BlockHit (occurs : Nat → Prop) (null : BitVec w) (offset width T : Nat) (ghost : Prop) (i : Nat) :
    Prop :=
  i < w ∧ (i < width ∨ ghost) ∧ (null ≠ 0#w → offset + i ≤ T) ∧ occurs (offset + i)

/-- The answer for the block that holds the terminator is the answer of the search. -/
theorem picks_of_closed (fits : BlockEnd null offset width T) (narrow : width ≤ w)
    (clear : ClearBelow occurs offset) (nonzero : null ≠ 0#w)
    (picks : Picks (BlockHit occurs null offset width T ghost) (haystack + offset) result) :
    Picks (fun i => i ≤ T ∧ occurs i) haystack result := by
  obtain ⟨inside, last⟩ := fits.closed nonzero
  refine Picks.shift (picks.congr fun i => ⟨fun hit => ⟨hit.2.2.1 nonzero, hit.2.2.2⟩, ?_⟩)
    fun i less hit => clear i less hit.2
  rintro ⟨before, found⟩
  exact ⟨by omega, .inl (by omega), fun _ => before, found⟩

/-- An answer from a block without the terminator: right, or behind the terminator. -/
private theorem picks_of_found {r : Nat} (fits : BlockEnd null offset width T)
    (clear : ClearBelow occurs offset) (zero : null = 0#w)
    (picks : Picks (BlockHit occurs null offset width T ghost) (haystack + offset) (some r)) :
    (∃ i ≤ T, occurs i ∧ Picks (fun i => i ≤ T ∧ occurs i) haystack (some r)) ∨
      ghost ∧ (∀ i ≤ T, ¬ occurs i) ∧ ∃ p, T < p ∧ p < offset + w ∧ occurs p ∧ r = haystack + p := by
  have reach := fits.further zero
  cases picks with
  | found first =>
    rename_i i
    obtain ⟨⟨inside, candidate, _, found⟩, before⟩ := first
    -- the candidates are closed downwards, so nothing occurs before the answer
    have quiet : ClearBelow occurs (offset + i) := by
      refine clear.extend fun j less seen => before j less ?_
      exact ⟨by omega, candidate.imp_left fun low => by omega, fun nonzero => absurd zero nonzero, seen⟩
    rw [Nat.add_assoc]
    by_cases inFront : offset + i ≤ T
    · exact .inl ⟨_, inFront, found, .found ⟨⟨inFront, found⟩, fun j less hit => quiet j less hit.2⟩⟩
    · refine .inr ⟨candidate.resolve_left (by omega), fun j le => quiet j (by omega), ?_⟩
      exact ⟨offset + i, by omega, by omega, found, rfl⟩

/-- No answer from a block without the terminator. -/
theorem clear_of_absent (narrow : width ≤ w) (clear : ClearBelow occurs offset) (zero : null = 0#w)
    (picks : Picks (BlockHit occurs null offset width T ghost) (haystack + offset) none) :
    ClearBelow occurs (offset + width) ∧ (ghost → ClearBelow occurs (offset + w)) := by
  cases picks with
  | absent none =>
    have miss (i : Nat) (inside : i < w) (candidate : i < width ∨ ghost) : ¬ occurs (offset + i) :=
      fun seen => none i ⟨inside, candidate, fun nonzero => absurd zero nonzero, seen⟩
    exact ⟨clear.extend fun i less => miss i (by omega) (.inl less),
      fun all => clear.extend fun i less => miss i less (.inr all)⟩

/-- With no lane behind `width`, an answer is right whether the block has the terminator
or not. -/
theorem picks_of_answer {r : Nat} (fits : BlockEnd null offset w T) (clear : ClearBelow occurs offset)
    (picks : Picks (BlockHit occurs null offset w T False) (haystack + offset) (some r)) :
    Picks (fun i => i ≤ T ∧ occurs i) haystack (some r) := by
  by_cases zero : null = 0#w
  · rcases picks_of_found fits clear zero picks with ⟨_, _, _, right⟩ | ⟨wrong, _⟩
    · exact right
    · exact wrong.elim
  · exact picks_of_closed fits (Nat.le_refl w) clear zero picks

/-- The masks of a whole block: where it ends, and where an occurrence can start. -/
theorem blockEnd_of_lanes {equal : Lanes w → Lanes w → BitVec w} (lanes : MarksEqual equal)
    (ends : IsLength byte haystack T) (reached : offset ≤ T) :
    BlockEnd (equal ((PagedMemory.full byte).lanes w (haystack + offset)) setzero) offset w T := by
  have nulls := lanes.marks (a := (PagedMemory.full byte).lanes w (haystack + offset)) (b := setzero)
    (fun i => byte (haystack + (offset + i)) = 0)
    fun i => by rw [Memory.lanes_apply, Nat.add_assoc]; rfl
  exact blockEnd_of_finds (Nat.le_refl w) ends nulls.finds.within reached

theorem candidates_of_lanes {equal : Lanes w → Lanes w → BitVec w} {needle L : Nat}
    (lanes : MarksEqual equal) (positive : 1 ≤ L) :
    Candidates (Occurs byte haystack needle L)
      (equal ((PagedMemory.full byte).lanes w (haystack + offset)) (set1 (byte needle))) offset w
      False := by
  intro i below found
  have letter := found.first positive
  rw [Nat.add_zero, ← Nat.add_assoc] at letter
  rw [or_false, iff_true_right below]
  exact (lanes.marks (fun i => byte (haystack + offset + i) = byte needle)
    (fun i => Iff.rfl) i below).mpr letter

end Blocks

/-- How many bytes of the string the first vector of a kernel speaks for. -/
def firstWidth (haystack vecSz : Nat) : Nat :=
  if pageSz - vecSz < haystack % pageSz then vecSz - haystack % vecSz else vecSz

section FirstBlock
variable {w : Nat} {null : BitVec w} {byte : Nat → UInt8} {haystack needle T L : Nat} {ghost : Prop}
variable {result : Option Nat}

theorem FalseMatch.width (wrong : FalseMatch byte haystack needle T L w ghost) :
    firstWidth haystack w ≤ T := by
  rw [firstWidth, if_pos wrong.1]
  exact wrong.2.2.1

/-- A first block with the terminator in it leaves no room for a false match. -/
theorem not_falseMatch_of_closed (fits : BlockEnd null 0 (firstWidth haystack w) T)
    (nonzero : null ≠ 0#w) : ¬ FalseMatch byte haystack needle T L w ghost := by
  intro wrong
  have width := wrong.width
  have last := fits.closed nonzero
  omega

private theorem firstWidth_le (haystack w : Nat) : firstWidth haystack w ≤ w := by
  unfold firstWidth
  split <;> omega

/-- The answer of a first block with the terminator in it. -/
theorem firstBlock_closed (fits : BlockEnd null 0 (firstWidth haystack w) T) (nonzero : null ≠ 0#w)
    (picks : Picks (BlockHit (Occurs byte haystack needle L) null 0 (firstWidth haystack w) T ghost)
      (haystack + 0) result) :
    Picks (fun i => i ≤ T ∧ Occurs byte haystack needle L i) haystack result ↔
      ¬ FalseMatch byte haystack needle T L w ghost :=
  iff_of_true (picks_of_closed fits (firstWidth_le haystack w) clearBelow_zero nonzero picks)
    (not_falseMatch_of_closed fits nonzero)

/-- An answer of a first block without the terminator is wrong exactly at a false match. -/
theorem firstBlock_found {r : Nat} (long : 2 ≤ L) (fits : BlockEnd null 0 (firstWidth haystack w) T)
    (zero : null = 0#w)
    (picks : Picks (BlockHit (Occurs byte haystack needle L) null 0 (firstWidth haystack w) T ghost)
      (haystack + 0) (some r)) :
    Picks (fun i => i ≤ T ∧ Occurs byte haystack needle L i) haystack (some r) ↔
      ¬ FalseMatch byte haystack needle T L w ghost := by
  rcases picks_of_found fits clearBelow_zero zero picks with
    ⟨i, le, found, right⟩ | ⟨all, quiet, p, behind, near, found, rfl⟩
  · exact iff_of_true right fun wrong => wrong.2.2.2.2.1 i le found
  · have reach := fits.further zero
    have edge : pageSz - w < haystack % pageSz := by
      by_contra inner
      rw [firstWidth, if_neg inner] at reach
      omega
    rw [firstWidth, if_pos edge] at reach
    refine iff_of_false (fun right => ?_) (not_not.mpr ?_)
    · obtain ⟨i, first, _⟩ := right.answered
      exact quiet i first.1.1 first.1.2
    · exact ⟨edge, long, by omega, all, quiet, p, behind, by omega, found⟩

/-- A first block without the terminator and without an answer. -/
theorem firstBlock_absent (zero : null = 0#w)
    (picks : Picks (BlockHit (Occurs byte haystack needle L) null 0 (firstWidth haystack w) T ghost)
      (haystack + 0) none) :
    ClearBelow (Occurs byte haystack needle L) (firstWidth haystack w) ∧
      ¬ FalseMatch byte haystack needle T L w ghost := by
  have passed := clear_of_absent (firstWidth_le haystack w) clearBelow_zero zero picks
  rw [Nat.zero_add, Nat.zero_add] at passed
  refine ⟨passed.1, ?_⟩
  rintro ⟨_, _, _, all, _, p, _, near, found⟩
  exact passed.2 all p near found

/-- The terminator comes before the needle's length: nothing can occur. -/
theorem picks_none_of_short (endsHaystack : IsLength byte haystack T)
    (endsNeedle : IsLength byte needle L) (short : T < L) :
    Picks (fun i => i ≤ T ∧ Occurs byte haystack needle L i) haystack none := by
  refine .absent fun i hit => ?_
  have inside := hit.2.fits endsNeedle.2 endsHaystack.1 hit.1
  omega

end FirstBlock

/-- The common text of `_strstr_avx2` and `_strstr_avx512`: the short cases go elsewhere. -/
def strstrBy (strchr : Nat → Int → Exec (Option Nat)) (strlen : Nat → Exec Nat)
    (broadcasting : Nat → Nat → Nat → Exec (Option Nat)) (m : Memory) (haystack needle : Nat) :
    Exec (Option Nat) := do
  let n0 ← m.byteAt needle
  if n0 = 0 then return some haystack
  else
    let h0 ← m.byteAt haystack
    if h0 = 0 then return none
    else
      let n1 ← m.byteAt (needle + 1)
      if n1 = 0 then strchr haystack (intOfChar n0)
      else
        let needleLen ← strlen needle
        broadcasting haystack needle needleLen

section Cases
variable {m : PagedMemory} {strchr : Nat → Int → Exec (Option Nat)} {strlen : Nat → Exec Nat}
variable {broadcasting : Nat → Nat → Nat → Exec (Option Nat)}
variable {byte : Nat → UInt8} {haystack needle T L : Nat}
variable {post : Option Nat → Prop} {exit : Trap → Prop}

theorem strstrBy_mapped (endsHaystack : IsLength m.byte haystack T)
    (endsNeedle : IsLength m.byte needle L)
    (source : m.readable haystack = true) (needleSource : ∀ i ≤ L, m.readable (needle + i) = true)
    (empty : L = 0 → post (some haystack)) (void : T = 0 → 1 ≤ L → post none)
    (single : L = 1 → Ends (strchr haystack (intOfChar (m.byte needle))) post exit)
    (length : Ends (strlen needle) (IsLength m.byte needle) exit)
    (long : 2 ≤ L → Ends (broadcasting haystack needle L) post exit) :
    Ends (strstrBy strchr strlen broadcasting m.toMemory haystack needle) post exit := by
  have short {str len : Nat} (ends : IsLength m.byte str len) : m.byte str = 0 ↔ len = 0 := by
    constructor
    · intro zero
      exact ends.unique ⟨zero, clearBelow_zero⟩
    · rintro rfl
      exact ends.1
  have first : m.byteAt needle = .ok (m.byte needle) :=
    Memory.byteAt_eq (needleSource 0 (Nat.zero_le L))
  rw [strstrBy, first, ok_bind]
  apply Ends.ite
  · intro zero
    exact empty ((short endsNeedle).mp zero)
  · intro some
    have positive : 1 ≤ L := Nat.pos_of_ne_zero fun zero => some ((short endsNeedle).mpr zero)
    rw [Memory.byteAt_eq source, ok_bind, Memory.byteAt_eq (needleSource 1 positive), ok_bind]
    refine ends_ite.mpr ⟨fun zero => void ((short endsHaystack).mp zero) positive, fun _ => ?_⟩
    apply Ends.ite
    · intro zero
      refine single (endsNeedle.unique ⟨zero, fun i below => ?_⟩)
      have first : i = 0 := by omega
      subst first
      exact some
    · intro more
      refine length.bind fun len ends => ?_
      rw [ends.unique endsNeedle]
      refine long ?_
      by_contra one
      have single : L = 1 := by omega
      rw [single] at endsNeedle
      exact more endsNeedle.1

theorem strstrBy_ends (endsHaystack : IsLength byte haystack T) (endsNeedle : IsLength byte needle L)
    (empty : L = 0 → post (some haystack)) (void : T = 0 → 1 ≤ L → post none)
    (single : L = 1 → Ends (strchr haystack (intOfChar (byte needle))) post exit)
    (length : Ends (strlen needle) (IsLength byte needle) exit)
    (long : 2 ≤ L → Ends (broadcasting haystack needle L) post exit) :
    Ends (strstrBy strchr strlen broadcasting (PagedMemory.full byte).toMemory haystack needle)
      post exit :=
  strstrBy_mapped (m := PagedMemory.full byte) endsHaystack endsNeedle rfl (fun _ _ => rfl) empty void
    single length long

theorem searches_empty (endsHaystack : IsLength byte haystack T) (endsNeedle : IsLength byte needle 0) :
    Searches byte haystack needle (some haystack) := by
  rw [searches_iff endsHaystack endsNeedle]
  have here : Occurs byte haystack needle 0 0 := fun j below => absurd below (Nat.not_lt_zero j)
  exact .found (i := 0) ⟨⟨Nat.zero_le T, here⟩, clearBelow_zero⟩

end Cases

end AoclLibmem.Strings
