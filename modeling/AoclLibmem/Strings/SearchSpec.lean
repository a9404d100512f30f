import AoclLibmem.Machine.BlockScan

/-! What `strlen` and `strchr` have to return, and the steps their kernels share:
the look at the byte found and the choice among four vectors. -/

namespace AoclLibmem.Strings

open Base Machine

/-- Four vectors from a multiple of four of them lie in the page of the first byte. -/
theorem fourVecs_read {m : PagedMemory} {w addr : Nat} (vector : w = 32 ∨ w = 64)
    (aligned : addr % (4 * w) = 0) (first : m.readable addr = true) :
    m.load w addr = .ok (m.lanes w addr) ∧
      m.load w (addr + w) = .ok (m.lanes w (addr + w)) ∧
      m.load w (addr + 2 * w) = .ok (m.lanes w (addr + 2 * w)) ∧
      m.load w (addr + 3 * w) = .ok (m.lanes w (addr + 3 * w)) := by
  have read (k : Nat) (offset : Nat) (place : offset = k * w) (inside : k < 4) :
      m.load w (addr + offset) = .ok (m.lanes w (addr + offset)) := by
    rcases vector with rfl | rfl
    · exact Memory.load_eq (by omega) (PagedMemory.canRead_of_page first (by omega) (by omega))
    · exact Memory.load_eq (by omega) (PagedMemory.canRead_of_page first (by omega) (by omega))
  exact ⟨read 0 0 (Nat.zero_mul w).symm (by decide), read 1 w (Nat.one_mul w).symm (by decide),
    read 2 _ rfl (by decide), read 3 _ rfl (by decide)⟩

/-- The string at `str` has its first NUL at index `len`. -/
def IsLength (byte : Nat → UInt8) (str len : Nat) : Prop := FirstHit (fun i => byte (str + i) = 0) len

def charOfInt (c : Int) : UInt8 := .ofBitVec (BitVec.ofInt 8 c)

def intOfChar (b : UInt8) : Int := b.toBitVec.toInt

@[simp] theorem charOfInt_intOfChar (b : UInt8) : charOfInt (intOfChar b) = b := by
  simp [charOfInt, intOfChar]

/-- The required result of `strchr`: the first `ch` at or before the terminator. -/
inductive Locates (byte : Nat → UInt8) (str : Nat) (ch : UInt8) : Option Nat → Prop where
  | found {i : Nat} (first : FirstHit (fun j => byte (str + j) = ch) i)
      (inside : ∀ j < i, byte (str + j) ≠ 0) : Locates byte str ch (some (str + i))
  | absent {len : Nat} (ends : IsLength byte str len)
      (missing : ∀ i ≤ len, byte (str + i) ≠ ch) : Locates byte str ch none

def Stops (byte : Nat → UInt8) (str : Nat) (ch : UInt8) (i : Nat) : Prop :=
  byte (str + i) = ch ∨ byte (str + i) = 0

section Locate
variable {byte : Nat → UInt8} {str : Nat} {ch : UInt8} {result other : Option Nat} {stop : Nat}

theorem Locates.unique (first : Locates byte str ch result) (second : Locates byte str ch other) :
    result = other := by
  cases first with
  | found first inside =>
    cases second with
    | found first' inside' => rw [first.unique first']
    | absent ends none =>
      rename_i i len
      by_cases before : i ≤ len
      · exact absurd first.1 (none i before)
      · exact absurd ends.1 (inside len (by omega))
  | absent ends none =>
    cases second with
    | found first' inside' =>
      rename_i len i
      by_cases before : i ≤ len
      · exact absurd first'.1 (none i before)
      · exact absurd ends.1 (inside' len (by omega))
    | absent _ _ => rfl

/-- The byte at the stop tells a match from the end of the string. -/
theorem locates_of_stop (first : FirstHit (Stops byte str ch) stop) :
    Locates byte str ch (if byte (str + stop) = ch then some (str + stop) else none) := by
  split
  · rename_i same
    exact .found ⟨same, fun i below found => first.2 i below (.inl found)⟩
      fun i below zero => first.2 i below (.inr zero)
  · rename_i other
    have zero : byte (str + stop) = 0 := first.1.resolve_left other
    refine .absent ⟨zero, fun i below null => first.2 i below (.inr null)⟩ fun i le => ?_
    rcases Nat.lt_or_eq_of_le le with below | rfl
    · exact fun same => first.2 i below (.inl same)
    · exact other

theorem exists_stop (ch : UInt8) {len : Nat} (ends : IsLength byte str len) :
    ∃ stop ≤ len, FirstHit (Stops byte str ch) stop :=
  exists_firstHit (Or.inr ends.1)

end Locate

/-- The bytes a scan for `hit` has to look at are readable. -/
def ScanNeeds (m : Memory) (str : Nat) (hit : Nat → Prop) : Prop :=
  ∀ k, ClearBelow hit k → m.readable (str + k) = true

theorem scanNeeds_full (byte : Nat → UInt8) (str : Nat) (hit : Nat → Prop) :
    ScanNeeds (PagedMemory.full byte).toMemory str hit := fun _ _ => rfl

/-- No scan looks behind a byte that is a hit. -/
theorem scanNeeds_of_hit {m : Memory} {str stop : Nat} {hit : Nat → Prop} (found : hit stop)
    (mapped : ∀ i ≤ stop, m.readable (str + i) = true) : ScanNeeds m str hit :=
  fun k clear => mapped k (clear.le_hit found)

/-- Seven letters and a NUL at the end of page 1, and no other page. -/
def lastWord : PagedMemory := .ofPages (fun a => if a = 8191 then 0 else 97) fun page => page == 1

theorem lastWord_isLength {str len : Nat} (ends : str + len = 8191) : IsLength lastWord.byte str len := by
  have letter (a : Nat) : lastWord.byte a = if a = 8191 then 0 else 97 := rfl
  have nul : lastWord.byte (str + len) = 0 := by rw [letter, if_pos ends]
  refine ⟨nul, fun i below zero => ?_⟩
  have other : lastWord.byte (str + i) = 97 := by rw [letter, if_neg (by omega)]
  exact absurd (other.symm.trans zero) (by decide)

theorem lastWord_mapped {str i : Nat} (low : 4096 ≤ str) (inside : str + i ≤ 8191) :
    lastWord.readable (str + i) = true := by
  have page1 : (str + i) / 4096 = 1 := by omega
  simp [lastWord, PagedMemory.ofPages, pageSz, page1]

/-- `if (*result == ch) return result; return NULL;`. -/
def matchOrNull (m : Memory) (ch : UInt8) (result : Nat) : Exec (Option Nat) := do
  let b ← m.byteAt result
  return if b = ch then some result else none

theorem matchOrNull_ends {m : Memory} {str stop : Nat} {ch : UInt8} {exit : Trap → Prop}
    (needs : ScanNeeds m str (Stops m.byte str ch))
    (first : FirstHit (Stops m.byte str ch) stop) :
    Ends (matchOrNull m ch (str + stop)) (Locates m.byte str ch) exit := by
  rw [matchOrNull, Memory.byteAt_eq (needs stop first.2)]
  exact locates_of_stop first

/-- `min_epu8(xor(y, ych), y)`: zero where `y` is `ch` or NUL. -/
def matchOrZero {n : Nat} (ch : UInt8) (y : Lanes n) : Lanes n := minEpu8 (xorSi y (set1 ch)) y

theorem matchOrZero_eq_zero {n : Nat} {ch : UInt8} {y : Lanes n} (i : Fin n) :
    matchOrZero ch y i = 0 ↔ y i = ch ∨ y i = 0 := by
  rw [matchOrZero, minEpu8_eq_zero]
  exact or_congr_left (xor_eq_zero_iff _ _)

/-- A loop that gets `v` bytes further at each pass over clear ones arrives at the first hit.
Its state is the index, or an address with the base added to it. -/
theorem strideLoop_ends {α : Type} {hit : Nat → Prop} {post : α → Prop} {exit : Trap → Prop}
    {step : Nat → Exec (Step Nat α)} {base s v w k stop : Nat} (first : FirstHit hit stop)
    (range : stop < sizeRange) (some : 0 < v) (whole : v % w = 0)
    (pass : ∀ k, (s + k) % w = 0 → ClearBelow hit k →
      Ends (step (base + k)) (Step.Holds (fun next => next = base + (k + v) ∧ ClearBelow hit (k + v))
        post) exit)
    (aligned : (s + k) % w = 0) (clear : ClearBelow hit k) :
    Ends (iterate .diverged step budget (base + k)) post exit := by
  refine iterate_ends (fun place => ∃ k, place = base + k ∧ (s + k) % w = 0 ∧ ClearBelow hit k)
    (fun place => stop + 1 - (place - base)) ?_ ⟨k, rfl, aligned, clear⟩ ?_
  · rintro _ ⟨k, rfl, boundary, before⟩
    refine (pass k boundary before).imp ?_
    intro decision holds
    cases decision with
    | next next =>
      obtain ⟨rfl, further⟩ := holds
      have limit := first.clear_le before
      refine ⟨⟨k + v, rfl, ?_, further⟩, by omega⟩
      rw [← Nat.add_assoc, Nat.add_mod, boundary, whole, Nat.zero_mod]
    | done result => exact holds
  · rw [sizeRange_eq] at range
    unfold budget
    omega

section Pair
variable {w offset : Nat} {hit : Nat → Prop} {first both : BitVec w}

/-- Two vectors by the masks of the first and of both: the hit is in the second. -/
theorem second_firstHit (clear : ClearBelow hit offset)
    (marks1 : Marks first fun i => hit (offset + i))
    (marks2 : Marks both fun i => hit (offset + i) ∨ hit (offset + w + i))
    (not1 : first = 0#w) (some : both ≠ 0#w) : FirstHit hit (tzcnt both + (offset + w)) := by
  have none1 := marks1.none_iff.mp not1
  have second := marks2.congr fun i below => or_iff_right (none1 i below)
  exact second.finds.firstHit (clear.extend none1) some

theorem pair_clear (clear : ClearBelow hit offset)
    (marks2 : Marks both fun i => hit (offset + i) ∨ hit (offset + w + i)) (none : both = 0#w) :
    ClearBelow hit (offset + w + w) := by
  have quiet := marks2.none_iff.mp none
  exact (clear.extend fun i below found => quiet i below (.inl found)).extend
    fun i below found => quiet i below (.inr found)

end Pair

/-- The first hit of four vectors from the masks of the first, of the first two, of
the third and of all four. -/
def pickFour {w : Nat} (first pair third all : BitVec w) (offset : Nat) : Nat :=
  if pair ≠ 0#w then
    if first ≠ 0#w then tzcnt first + offset else tzcnt pair + w + offset
  else if third ≠ 0#w then tzcnt third + 2 * w + offset
  else tzcnt all + 3 * w + offset

theorem pickFour_add {w : Nat} (first pair third all : BitVec w) (str offset : Nat) :
    pickFour first pair third all (str + offset) = str + pickFour first pair third all offset := by
  unfold pickFour
  split <;> split <;> omega

private theorem pickFour_firstHit {w : Nat} {hit : Nat → Prop} {first pair third all : BitVec w}
    {offset : Nat} (clear : ClearBelow hit offset)
    (marks1 : Marks first fun i => hit (offset + i))
    (marks2 : Marks pair fun i => hit (offset + i) ∨ hit (offset + w + i))
    (marks3 : Marks third fun i => hit (offset + 2 * w + i))
    (marks4 : Marks all fun i => (hit (offset + i) ∨ hit (offset + w + i)) ∨
      hit (offset + 2 * w + i) ∨ hit (offset + 3 * w + i))
    (some : all ≠ 0#w) : FirstHit hit (pickFour first pair third all offset) := by
  unfold pickFour
  split
  · rename_i inPair
    split
    · rename_i inFirst
      exact marks1.finds.firstHit clear inFirst
    · rename_i notFirst
      have found := second_firstHit clear marks1 marks2 (not_not.mp notFirst) inPair
      rwa [Nat.add_comm offset w, ← Nat.add_assoc] at found
  · rename_i notPair
    have none := marks2.none_iff.mp (not_not.mp notPair)
    have clear2 := pair_clear clear marks2 (not_not.mp notPair)
    have double : offset + w + w = offset + 2 * w := by omega
    rw [double] at clear2
    split
    · rename_i inThird
      have found := marks3.finds.firstHit clear2 inThird
      rwa [Nat.add_comm offset, ← Nat.add_assoc] at found
    · rename_i notThird
      have clear3 := marks3.finds.clear clear2 (not_not.mp notThird)
      have triple : offset + 2 * w + w = offset + 3 * w := by omega
      rw [triple] at clear3
      have last : Finds all fun i => hit (offset + 3 * w + i) :=
        (marks4.congr fun i below => by
          have third := marks3.none_iff.mp (not_not.mp notThird) i below
          rw [or_iff_right (none i below), or_iff_right third]).finds
      have found := last.firstHit clear3 some
      rwa [Nat.add_comm offset, ← Nat.add_assoc] at found

theorem pickFour_none {w : Nat} {hit : Nat → Prop} {all : BitVec w} {offset : Nat}
    (clear : ClearBelow hit offset)
    (marks : Marks all fun i => (hit (offset + i) ∨ hit (offset + w + i)) ∨
      hit (offset + 2 * w + i) ∨ hit (offset + 3 * w + i))
    (zero : all = 0#w) : ClearBelow hit (offset + 4 * w) := by
  have none := marks.none_iff.mp zero
  intro i below found
  by_cases old : i < offset
  · exact clear i old found
  · obtain ⟨j, rfl⟩ := Nat.exists_eq_add_of_le (Nat.not_lt.mp old)
    by_cases first : j < w
    · exact none j first (.inl (.inl found))
    by_cases second : j < 2 * w
    · refine none (j - w) (by omega) (.inl (.inr ?_))
      rwa [show offset + w + (j - w) = offset + j by omega]
    by_cases third : j < 3 * w
    · refine none (j - 2 * w) (by omega) (.inr (.inl ?_))
      rwa [show offset + 2 * w + (j - 2 * w) = offset + j by omega]
    · refine none (j - 3 * w) (by omega) (.inr (.inr ?_))
      rwa [show offset + 3 * w + (j - 3 * w) = offset + j by omega]

/-- `mask` marks the zero lanes of a register. -/
def MarksZeros {w : Nat} (mask : Lanes w → BitVec w) : Prop :=
  ∀ (y : Lanes w) (hit : Nat → Prop), (∀ i : Fin w, y i = 0 ↔ hit i) → Marks (mask y) hit

theorem marks_null {n : Nat} {z : Lanes n} {hit : Nat → Prop} (lane : ∀ i : Fin n, z i = 0 ↔ hit i) :
    Marks (cmpeqEpu8Mask z setzero) hit :=
  marks_of_lanes fun i => by rw [getLsbD_cmpeqEpu8Mask, beq_iff_eq, ← lane i]; rfl

theorem marksZeros_null {n : Nat} : MarksZeros fun z : Lanes n => cmpeqEpu8Mask z setzero :=
  fun _ _ lane => marks_null lane

/-- Four registers whose zero lanes are the hits of the four vectors at `offset`. -/
structure FourLanes {w : Nat} (hit : Nat → Prop) (offset : Nat) (y1 y2 y3 y4 : Lanes w) : Prop where
  lane1 : ∀ i : Fin w, y1 i = 0 ↔ hit (offset + i)
  lane2 : ∀ i : Fin w, y2 i = 0 ↔ hit (offset + w + i)
  lane3 : ∀ i : Fin w, y3 i = 0 ↔ hit (offset + 2 * w + i)
  lane4 : ∀ i : Fin w, y4 i = 0 ↔ hit (offset + 3 * w + i)

theorem nullFour {w : Nat} (m : Memory) (str offset : Nat) :
    FourLanes (fun i => m.byte (str + i) = 0) offset (m.lanes w (str + offset))
      (m.lanes w (str + offset + w)) (m.lanes w (str + offset + 2 * w))
      (m.lanes w (str + offset + 3 * w)) := by
  constructor <;> intro i <;> rw [Memory.lanes_apply] <;> simp only [Nat.add_assoc]

section FourLanes
variable {w offset : Nat} {hit : Nat → Prop} {y1 y2 y3 y4 : Lanes w} {mask : Lanes w → BitVec w}

theorem FourLanes.marks_pair (four : FourLanes hit offset y1 y2 y3 y4) (zeros : MarksZeros mask) :
    Marks (mask (minEpu8 y1 y2)) fun i => hit (offset + i) ∨ hit (offset + w + i) := by
  apply zeros
  intro i
  rw [minEpu8_eq_zero]
  exact or_congr (four.lane1 i) (four.lane2 i)

theorem FourLanes.marks_all (four : FourLanes hit offset y1 y2 y3 y4) (zeros : MarksZeros mask) :
    Marks (mask (minEpu8 (minEpu8 y1 y2) (minEpu8 y3 y4))) fun i =>
      (hit (offset + i) ∨ hit (offset + w + i)) ∨
        hit (offset + 2 * w + i) ∨ hit (offset + 3 * w + i) := by
  apply zeros
  intro i
  simp only [minEpu8_eq_zero]
  exact or_congr (or_congr (four.lane1 i) (four.lane2 i)) (or_congr (four.lane3 i) (four.lane4 i))

/-- The minimum of the four vectors without a zero: no hit among them. -/
theorem FourLanes.clear (four : FourLanes hit offset y1 y2 y3 y4) (zeros : MarksZeros mask)
    (clear : ClearBelow hit offset) (zero : mask (minEpu8 (minEpu8 y1 y2) (minEpu8 y3 y4)) = 0#w) :
    ClearBelow hit (offset + 4 * w) :=
  pickFour_none clear (four.marks_all zeros) zero

/-- The minimum of the four vectors with a zero: the choice among them is the first hit. -/
theorem FourLanes.firstHit (four : FourLanes hit offset y1 y2 y3 y4) (zeros : MarksZeros mask)
    (clear : ClearBelow hit offset) (some : mask (minEpu8 (minEpu8 y1 y2) (minEpu8 y3 y4)) ≠ 0#w) :
    FirstHit hit (pickFour (mask y1) (mask (minEpu8 y1 y2)) (mask y3)
      (mask (minEpu8 (minEpu8 y1 y2) (minEpu8 y3 y4))) offset) :=
  pickFour_firstHit clear (zeros _ _ four.lane1) (four.marks_pair zeros) (zeros _ _ four.lane3)
    (four.marks_all zeros) some

theorem FourLanes.firstHit_lt (four : FourLanes hit offset y1 y2 y3 y4) (zeros : MarksZeros mask)
    (some : mask (minEpu8 (minEpu8 y1 y2) (minEpu8 y3 y4)) ≠ 0#w) {idx : Nat}
    (first : FirstHit hit idx) : idx < offset + 4 * w := by
  by_contra beyond
  have clear (j : Nat) (below : j < 4 * w) : ¬ hit (offset + j) := first.2 _ (by omega)
  apply some
  apply (four.marks_all zeros).none_iff.mpr
  intro i below found
  simp only [Nat.add_assoc] at found
  rcases found with (found | found) | found | found
  · exact clear _ (by omega) found
  · exact clear _ (by omega) found
  · exact clear _ (by omega) found
  · exact clear _ (by omega) found

end FourLanes

end AoclLibmem.Strings
