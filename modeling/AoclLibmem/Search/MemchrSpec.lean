import AoclLibmem.Machine.LaneCompare
import AoclLibmem.Machine.BlockScan
import AoclLibmem.Strings.SearchSpec

/-! What `memchr` has to return, and the exits of its kernels. Each returns `ret_ptr` plus an
index, or `NULL`; the stages of the model return the index. -/

namespace AoclLibmem.Search

open Base Machine

def Matches (byte : Nat → UInt8) (mem : Nat) (ch : UInt8) (i : Nat) : Prop := byte (mem + i) = ch

/-- The required result: the address of the first match in the buffer, or `NULL`. -/
inductive FindsChar (byte : Nat → UInt8) (mem size : Nat) (ch : UInt8) : Option Nat → Prop where
  | found {i : Nat} (first : FirstHit (Matches byte mem ch) i) (inside : i < size) :
      FindsChar byte mem size ch (some (mem + i))
  | absent (clear : ClearBelow (Matches byte mem ch) size) : FindsChar byte mem size ch none

private theorem findsChar_of_reports {byte : Nat → UInt8} {mem size : Nat} {ch : UInt8}
    {index : Option Nat} (reports : Reports size (Matches byte mem ch) index) :
    FindsChar byte mem size ch (index.map (mem + ·)) := by
  cases reports with
  | clear all => exact .absent all
  | first below found before => exact .found ⟨found, before⟩ below

/-- `if (ret) return ret_ptr + offset + tzcnt(ret);`. -/
def foundAt {w : Nat} (ret : BitVec w) (offset : Nat) : Option Nat :=
  if ret ≠ 0#w then some (offset + tzcnt ret) else none

def orScan (found : Option Nat) (rest : Exec (Option Nat)) : Exec (Option Nat) :=
  match found with
  | some index => return some index
  | none => rest

/-- One round of `while (size >= offset)`, the size reduced by four vectors of `vec` bytes;
behind the loop the last four vectors, unless the loop has come to the very end. -/
def fourLoopStep (vec size : Nat) (four : Nat → Exec (Option Nat)) (tail : Exec (Option Nat))
    (offset : Nat) : Exec (Step Nat (Option Nat)) := do
  let reduced := size - 4 * vec
  if offset ≤ reduced then
    match ← four offset with
    | some index => return .done (some index)
    | none => return .next (offset + 4 * vec)
  else if size = offset then return .done none
  else return .done (← tail)

def fourLoop (vec size : Nat) (four : Nat → Exec (Option Nat)) (tail : Exec (Option Nat))
    (offset : Nat) : Exec (Option Nat) :=
  iterate .diverged (fourLoopStep vec size four tail) budget offset

section Large
variable {vec : Nat} (four : (Nat → Exec (Lanes vec)) → Nat → Nat → Nat → Nat → Exec (Option Nat))
variable (m : Memory) (mem size : Nat)

/-- The last four vectors. -/
def fourTail : Exec (Option Nat) :=
  four (m.loadu vec) (size - 4 * vec) (size - 3 * vec) (size - 2 * vec) (size - 1 * vec)

/-- The sizes above two vectors: two from each end, or four from the start, then the loop and the
last four. -/
def fourLarge : Exec (Option Nat) := do
  if size ≤ 4 * vec then four (m.loadu vec) 0 vec (size - 2 * vec) (size - vec)
  else
    orScan (← four (m.loadu vec) 0 vec (2 * vec) (3 * vec)) <|
      if 8 * vec < size then
        fourLoop vec size
          (fun offset => four (m.load vec) offset (offset + vec) (offset + 2 * vec) (offset + 3 * vec))
          (fourTail four m size) (4 * vec - mem % vec)
      else fourTail four m size

end Large

theorem loadu_inside {m : Memory} {mem size : Nat} (whole : m.canRead mem size = true) {k n : Nat}
    (inside : k + n ≤ size) : m.loadu n (mem + k) = .ok (m.lanes n (mem + k)) :=
  Memory.loadu_eq (Memory.canRead_sub whole inside)

section Rules
variable {hit : Nat → Prop} {w offset width bound limit : Nat} {word : BitVec w}
variable {exit : Trap → Prop}

theorem reports_found {index : Nat} (first : FirstHit hit index) (inside : index < bound) :
    Reports bound hit (some index) :=
  .first inside first.1 first.2

/-- A word that speaks for `width` lanes at `offset`. -/
theorem reports_foundAt (finds : Finds word fun i => i < width ∧ hit (offset + i))
    (clear : ClearBelow hit offset) (narrow : width ≤ w) :
    Reports (offset + width) hit (foundAt word offset) := by
  unfold foundAt
  split
  · rename_i nonzero
    obtain ⟨inside, first⟩ := finds.firstHit_within clear nonzero
    rw [Nat.add_comm] at first
    exact reports_found first (by omega)
  · rename_i zero
    exact .clear (finds.clear_within clear narrow (not_not.mp zero))

theorem reports_block (finds : Finds word fun i => hit (offset + i)) (clear : ClearBelow hit limit)
    (near : offset ≤ limit) : Reports (offset + w) hit (foundAt word offset) :=
  reports_foundAt finds.within (clear.mono near) (Nat.le_refl w)

/-- The first of two reports counts; the second is asked when it is clear. -/
theorem reports_or {first second : Option Nat} (reports : Reports limit hit first)
    (inside : limit ≤ bound) (onward : ClearBelow hit limit → Reports bound hit second) :
    Reports bound hit (first.or second) := by
  cases reports with
  | clear all => exact onward all
  | first below here before => exact .first (by omega) here before

theorem orScan_ends {found : Option Nat} {rest : Exec (Option Nat)}
    (reports : Reports limit hit found) (inside : limit ≤ bound)
    (onward : ClearBelow hit limit → Ends rest (Reports bound hit) exit) :
    Ends (orScan found rest) (Reports bound hit) exit := by
  cases reports with
  | clear all => exact onward all
  | first below here before => exact .first (by omega) here before

end Rules

section Loop
variable {hit : Nat → Prop} {vec mem size : Nat} {four : Nat → Exec (Option Nat)}
variable {tail : Exec (Option Nat)} {exit : Trap → Prop}

/-- The loop stands at a multiple of the vector inside the buffer, with all before it clear. -/
structure LoopPlace (hit : Nat → Prop) (vec mem size offset : Nat) : Prop where
  aligned : (mem + offset) % vec = 0
  within : offset ≤ size
  clear : ClearBelow hit offset

private theorem fourLoopStep_ends (large : 4 * vec ≤ size)
    (fours : ∀ offset, offset + 4 * vec ≤ size → (mem + offset) % vec = 0 → ClearBelow hit offset →
      Ends (four offset) (Reports (offset + 4 * vec) hit) exit)
    (last : ∀ k, size - 4 * vec ≤ k → ClearBelow hit k → Ends tail (Reports size hit) exit)
    {offset : Nat} (here : LoopPlace hit vec mem size offset) :
    Ends (fourLoopStep vec size four tail offset)
      (Step.Holds (fun next => next = offset + 4 * vec ∧ LoopPlace hit vec mem size next)
        (Reports size hit)) exit := by
  obtain ⟨aligned, within, clear⟩ := here
  apply Ends.ite
  · intro fits
    have inside : offset + 4 * vec ≤ size := by omega
    refine (fours offset inside aligned clear).bind fun index reports => ?_
    cases reports with
    | clear all =>
      have boundary : (mem + (offset + 4 * vec)) % vec = 0 := by
        rw [← Nat.add_assoc, Nat.add_mul_mod_self_right, aligned]
      exact ⟨rfl, boundary, inside, all⟩
    | first below found before => exact .first (Nat.lt_of_lt_of_le below inside) found before
  · intro narrow
    apply Ends.ite
    · intro full
      exact .clear (by rwa [← full] at clear)
    · intro more
      exact (last offset (by omega) clear).bind fun index reports => reports

theorem fourLoop_ends (positive : 0 < vec) (large : 4 * vec ≤ size) (range : size < sizeRange)
    (fours : ∀ offset, offset + 4 * vec ≤ size → (mem + offset) % vec = 0 → ClearBelow hit offset →
      Ends (four offset) (Reports (offset + 4 * vec) hit) exit)
    (last : ∀ k, size - 4 * vec ≤ k → ClearBelow hit k → Ends tail (Reports size hit) exit)
    {start : Nat} (initially : LoopPlace hit vec mem size start) :
    Ends (fourLoop vec size four tail start) (Reports size hit) exit := by
  apply iterate_ends (LoopPlace hit vec mem size) (fun offset => size - offset) ?_ initially ?_
  · intro offset here
    refine (fourLoopStep_ends large fours last here).imp fun decision holds => ?_
    cases decision with
    | next next =>
      obtain ⟨rfl, there⟩ := holds
      have within := there.within
      exact ⟨there, by omega⟩
    | done index => exact holds
  · rw [sizeRange_eq] at range
    unfold budget
    omega

/-- A test of four vectors reports on the bytes they cover, the last two next to each other. -/
def ReportsFour (hit : Nat → Prop) (m : Memory) (mem : Nat) (exit : Trap → Prop)
    (four : (Nat → Exec (Lanes vec)) → Nat → Nat → Nat → Nat → Exec (Option Nat)) : Prop :=
  ∀ load at1 at2 at3, (∀ k ∈ [at1, at2, at3, at3 + vec], load (mem + k) = .ok (m.lanes vec (mem + k))) →
    ClearBelow hit at1 → at2 ≤ at1 + vec → at3 ≤ at2 + vec → at1 ≤ at3 + vec → at2 ≤ at3 + vec →
    Ends (four load at1 at2 at3 (at3 + vec)) (Reports (at3 + 2 * vec) hit) exit

section Four
variable {m : Memory} {fours : (Nat → Exec (Lanes vec)) → Nat → Nat → Nat → Nat → Exec (Option Nat)}

private theorem four_inside (reports : ReportsFour hit m mem exit fours)
    (whole : m.canRead mem size = true) {at1 at2 at3 at4 bound : Nat} (clear : ClearBelow hit at1)
    (near2 : at2 ≤ at1 + vec) (near3 : at3 ≤ at2 + vec) (inside1 : at1 ≤ at4) (inside2 : at2 ≤ at4)
    (next4 : at4 = at3 + vec) (last : bound = at4 + vec) (inside : bound ≤ size) :
    Ends (fours (m.loadu vec) at1 at2 at3 at4) (Reports bound hit) exit := by
  subst next4
  have covered : at3 + 2 * vec = bound := by omega
  rw [← covered]
  refine reports _ at1 at2 at3 (fun k member => loadu_inside whole ?_) clear near2 near3 inside1 inside2
  simp only [List.mem_cons, List.not_mem_nil, or_false] at member
  omega

theorem fourTail_ends (reports : ReportsFour hit m mem exit fours)
    (whole : m.canRead mem size = true) (large : 4 * vec ≤ size) {k : Nat} (clear : ClearBelow hit k)
    (near : size - 4 * vec ≤ k) : Ends (fourTail fours m size) (Reports size hit) exit :=
  four_inside reports whole (clear.mono near) (by omega) (by omega) (by omega) (by omega) (by omega)
    (by omega) (Nat.le_refl size)

private theorem four_aligned (reports : ReportsFour hit m mem exit fours)
    (whole : m.canRead mem size = true) {offset : Nat} (inside : offset + 4 * vec ≤ size)
    (aligned : (mem + offset) % vec = 0) (clear : ClearBelow hit offset) :
    Ends (fours (m.load vec) offset (offset + vec) (offset + 2 * vec) (offset + 3 * vec))
      (Reports (offset + 4 * vec) hit) exit := by
  have next4 : offset + 3 * vec = offset + 2 * vec + vec := by omega
  have bound : offset + 4 * vec = offset + 2 * vec + 2 * vec := by omega
  rw [next4, bound]
  refine reports _ offset (offset + vec) (offset + 2 * vec) (fun k member => ?_) clear (by omega)
    (by omega) (by omega) (by omega)
  obtain ⟨j, below, rfl⟩ : ∃ j < 4, k = offset + j * vec := by
    simp only [List.mem_cons, List.not_mem_nil, or_false] at member
    rcases member with rfl | rfl | rfl | rfl
    · exact ⟨0, by omega, by omega⟩
    · exact ⟨1, by omega, by omega⟩
    · exact ⟨2, by omega, by omega⟩
    · exact ⟨3, by omega, by omega⟩
  have room : j * vec + vec ≤ 4 * vec := by
    rw [← Nat.succ_mul]
    exact Nat.mul_le_mul_right vec below
  refine Memory.load_eq ?_ (Memory.canRead_sub whole (by omega))
  rw [← Nat.add_assoc, Nat.add_mul_mod_self_right, aligned]

theorem fourLarge_ends (reports : ReportsFour hit m mem exit fours) (positive : 0 < vec)
    (whole : m.canRead mem size = true) (range : size < sizeRange) (large : 2 * vec < size) :
    Ends (fourLarge fours m mem size) (Reports size hit) exit := by
  apply Ends.ite
  · intro le4
    exact four_inside reports whole clearBelow_zero (by omega) (by omega) (by omega) (by omega)
      (by omega) (by omega) (Nat.le_refl size)
  · intro over4
    have four : Ends (fours (m.loadu vec) 0 vec (2 * vec) (3 * vec)) (Reports (4 * vec) hit) exit :=
      four_inside reports whole clearBelow_zero (by omega) (by omega) (by omega) (by omega) (by omega)
        (by omega) (by omega)
    refine four.bind fun index first => orScan_ends first (by omega) fun clear4 => ?_
    apply Ends.ite
    · intro over8
      apply fourLoop_ends positive (by omega) range
      · exact fun offset inside aligned clear => four_aligned reports whole inside aligned clear
      · exact fun k near clear => fourTail_ends reports whole (by omega) clear near
      · have below := Nat.mod_lt mem positive
        have line : mem + (4 * vec - mem % vec) = vec * (mem / vec) + 4 * vec := by
          have whole := Nat.div_add_mod mem vec
          omega
        refine ⟨?_, by omega, clear4.mono (by omega)⟩
        rw [line, Nat.add_mul_mod_self_right, Nat.mul_mod_right]
    · intro le8
      exact fourTail_ends reports whole (by omega) clear4 (by omega)

end Four

/-- A search that reports on the buffer returns what `memchr` has to. -/
theorem returns_char {byte : Nat → UInt8} {ch : UInt8} {run : Exec (Option Nat)}
    (ends : Ends run (Reports size (Matches byte mem ch)) fun _ => False) :
    ∃ result, (do
      let index ← run
      return index.map (mem + ·)) = .ok result ∧ FindsChar byte mem size ch result := by
  obtain ⟨index, returned, reports⟩ := ends.returns
  refine ⟨_, ?_, findsChar_of_reports reports⟩
  rw [returned]
  rfl

end Loop

/-- A memory in which just the buffer is mapped. -/
def onlyBuffer (byte : Nat → UInt8) (mem size : Nat) : Memory where
  byte := byte
  readable a := decide (mem ≤ a ∧ a < mem + size)
  writable _ := false

/-- A memory in which just the pages that hold a byte of the buffer are mapped. -/
def onlyPages (byte : Nat → UInt8) (mem size : Nat) : PagedMemory :=
  .ofPages byte fun page => decide (∃ i < size, page = (mem + i) / pageSz)

theorem onlyBuffer_canRead {byte : Nat → UInt8} {mem size : Nat} :
    (onlyBuffer byte mem size).canRead mem size = true := by
  rw [Memory.canRead_iff]
  intro i below
  exact decide_eq_true ⟨by omega, by omega⟩

theorem onlyPages_canRead {byte : Nat → UInt8} {mem size : Nat} :
    (onlyPages byte mem size).canRead mem size = true := by
  rw [Memory.canRead_iff]
  intro i below
  exact decide_eq_true ⟨i, below, rfl⟩

end AoclLibmem.Search
