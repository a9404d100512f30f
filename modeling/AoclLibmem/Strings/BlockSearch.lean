import AoclLibmem.Strings.SubstringSpec

/-! The search of `strstr` through the haystack, block after block: the text that its two kernels
share around the search of one block. -/

namespace AoclLibmem.Strings

open Base Machine

section Kernel
variable {n : Nat}

/-- One pass of the main loop. -/
def searchStep (equal : Lanes n → Lanes n → BitVec n)
    (search : Nat → BitVec n → BitVec n → Exec (Option Nat)) (m : Memory) (haystack : Nat)
    (keys : Broadcast n) (offset : Nat) : Exec (Step Nat (Option Nat)) := do
  let y1 ← m.loadu n (haystack + offset)
  let matchMask := equal y1 keys.first
  let nullMask := equal y1 setzero
  match ← search offset matchMask nullMask with
  | some result => return .done (some result)
  | none => if nullMask ≠ 0#n then return .done none else return .next (offset + n)

/-- What follows the masks of the first block: its search, and then the loop from the first vector
boundary on. -/
def searchFrom (first : Exec (Option Nat)) (step : Nat → Exec (Step Nat (Option Nat)))
    (haystack needleLen : Nat) (nullMask : BitVec n) (nullIdx : Nat) : Exec (Option Nat) :=
  if nullMask ≠ 0#n ∧ nullIdx < needleLen then return none
  else do
    match ← first with
    | some result => return some result
    | none =>
      if nullMask ≠ 0#n then return none
      else iterate .diverged step budget (n - haystack % n)

end Kernel

section Ends
variable {n : Nat} {equal : Lanes n → Lanes n → BitVec n} {keys : Broadcast n} {null : BitVec n}
variable {search : Nat → BitVec n → BitVec n → Exec (Option Nat)}
variable {byte : Nat → UInt8} {occurs : Nat → Prop} {haystack needle T L start : Nat} {ghost : Prop}
variable {exit : Trap → Prop}

/-- A loop whose blocks are searched as they should be finds the first occurrence. -/
theorem searchLoop_ends (lanes : MarksEqual equal) (some : 0 < n) (ends : IsLength byte haystack T)
    (range : T < sizeRange)
    (blocks : ∀ offset ≤ T,
      let y1 := (PagedMemory.full byte).lanes n (haystack + offset)
      Ends (search offset (equal y1 keys.first) (equal y1 setzero))
        (Picks (BlockHit occurs (equal y1 setzero) offset n T False) (haystack + offset)) exit)
    (reached : start ≤ T) (clear : ClearBelow occurs start) :
    Ends (iterate .diverged (searchStep equal search (PagedMemory.full byte).toMemory haystack keys)
      budget start) (Picks (fun i => i ≤ T ∧ occurs i) haystack) exit := by
  refine iterate_ends (fun offset => offset ≤ T ∧ ClearBelow occurs offset)
    (fun offset => T + 1 - offset) ?_ ⟨reached, clear⟩
    (by rw [sizeRange_eq] at range; unfold budget; omega)
  rintro offset ⟨inFront, before⟩
  rw [searchStep, Memory.loadu_eq (Memory.canRead_iff.mpr fun _ _ => rfl), ok_bind]
  have fits := blockEnd_of_lanes lanes ends inFront
  refine (blocks offset inFront).bind ?_
  rintro (_ | r) picks
  · apply Ends.iteNe
    · intro nonzero
      exact picks_of_closed fits (Nat.le_refl n) before nonzero picks
    · intro zero
      have further := fits.further zero
      have passed := clear_of_absent (Nat.le_refl n) before zero picks
      exact ⟨⟨further, passed.1⟩, by omega⟩
  · exact picks_of_answer fits before picks

/-- The first vector reaches the boundary from which the loop goes on. -/
theorem boundary_le (haystack n : Nat) : n - haystack % n ≤ firstWidth haystack n := by
  rw [firstWidth]
  split
  · exact Nat.le_refl _
  · exact Nat.sub_le _ _

/-- The whole search is right but for a false match of the first block. -/
theorem searchFrom_ends {first : Exec (Option Nat)} {step : Nat → Exec (Step Nat (Option Nat))}
    (endsHaystack : IsLength byte haystack T) (endsNeedle : IsLength byte needle L) (long : 2 ≤ L)
    (fits : BlockEnd null 0 (firstWidth haystack n) T)
    (searched : Ends first (Picks (BlockHit (Occurs byte haystack needle L) null 0
      (firstWidth haystack n) T ghost) (haystack + 0)) exit)
    (loop : ∀ start ≤ T, ClearBelow (Occurs byte haystack needle L) start →
      Ends (iterate .diverged step budget start)
        (Picks (fun i => i ≤ T ∧ Occurs byte haystack needle L i) haystack) exit) :
    Ends (searchFrom first step haystack L null (if null ≠ 0#n then tzcnt null else n))
      (fun result => Picks (fun i => i ≤ T ∧ Occurs byte haystack needle L i) haystack result ↔
        ¬ FalseMatch byte haystack needle T L n ghost) exit := by
  apply Ends.ite
  · intro early
    have last := (fits.closed early.1).2
    have short := early.2
    rw [if_pos early.1] at short
    exact iff_of_true (picks_none_of_short endsHaystack endsNeedle (by omega))
      (not_falseMatch_of_closed fits early.1)
  · intro _
    refine searched.bind ?_
    rintro (_ | r) picks
    · apply Ends.iteNe
      · intro nonzero
        exact firstBlock_closed fits nonzero picks
      · intro zero
        obtain ⟨clear, fine⟩ := firstBlock_absent zero picks
        have reach := fits.further zero
        have start := boundary_le haystack n
        refine (loop _ (by omega) (clear.mono start)).imp fun result right => ?_
        exact iff_of_true right fine
    · by_cases zero : null = 0#n
      · exact firstBlock_found long fits zero picks
      · exact firstBlock_closed fits zero picks

end Ends

section Congruence
variable {n : Nat} {null : BitVec n} {idx haystack needleLen : Nat}

/-- The search agrees with another one when the first block does and, behind a first block without
the terminator, the loop. -/
theorem searchFrom_congr {first other : Exec (Option Nat)}
    {step step' : Nat → Exec (Step Nat (Option Nat))} (same : first = other)
    (loops : null = 0#n → iterate .diverged step budget (n - haystack % n) =
      iterate .diverged step' budget (n - haystack % n)) :
    searchFrom first step haystack needleLen null idx =
      searchFrom other step' haystack needleLen null idx := by
  subst same
  refine ite_congr rfl (fun _ => rfl) fun _ => congrArg (_ >>= ·) (funext fun result => ?_)
  cases result with
  | some place => rfl
  | none => exact ite_congr rfl (fun _ => rfl) fun none => loops (not_not.mp none)

end Congruence

end AoclLibmem.Strings
