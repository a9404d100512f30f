import AoclLibmem.Strings.Strspn
import AoclLibmem.Strings.SearchSpec

/-! What `strspn` has to return, and the two forms in which its kernels keep the accepted
characters: a register and a table. -/

namespace AoclLibmem.Strings

open Base Machine

/-- `c` stands before the first NUL of the string at `accept`. -/
def Accepted (byte : Nat → UInt8) (accept : Nat) (c : UInt8) : Prop :=
  ∃ i, (∀ j ≤ i, byte (accept + j) ≠ 0) ∧ byte (accept + i) = c

/-- A NUL and a character that is not accepted end the span. -/
def Rejected (byte : Nat → UInt8) (accept : Nat) (c : UInt8) : Prop := c = 0 ∨ ¬ Accepted byte accept c

def IsSpan (byte : Nat → UInt8) (s accept idx : Nat) : Prop :=
  FirstHit (fun i => Rejected byte accept (byte (s + i))) idx

/-- What a caller of strspn provides: two strings, each in pages that are mapped. -/
structure SpanCall (m : PagedMemory) (s accept len acceptLen : Nat) : Prop where
  ends : IsLength m.byte s len
  range : len < sizeRange
  source : ∀ i ≤ len, m.readable (s + i) = true
  acceptEnds : IsLength m.byte accept acceptLen
  acceptRange : acceptLen < sizeRange
  acceptSource : ∀ i ≤ acceptLen, m.readable (accept + i) = true

/-- The register holds the string at `accept` up to its NUL, as far as there is room. -/
def HoldsAccept (byte : Nat → UInt8) (accept : Nat) (v : Lanes 16) : Prop :=
  ∀ i : Fin 16, (∀ j < i.val, byte (accept + j) ≠ 0) → v i = byte (accept + i)

/-- The bits of the word are the lanes with a byte that satisfies `p`. -/
def MarksBytes {w : Nat} (word : Lanes w → BitVec w) (p : UInt8 → Prop) : Prop :=
  ∀ (v : Lanes w) (i : Fin w), (word v).getLsbD i = true ↔ p (v i)

section Accept
variable {byte : Nat → UInt8} {accept acceptLen : Nat} {c : UInt8} {v : Lanes 16}

theorem accepted_iff (ends : IsLength byte accept acceptLen) :
    Accepted byte accept c ↔ ∃ i < acceptLen, byte (accept + i) = c := by
  constructor
  · rintro ⟨i, clear, same⟩
    have before : ClearBelow (fun j => byte (accept + j) = 0) (i + 1) :=
      fun j below => clear j (Nat.le_of_lt_succ below)
    exact ⟨i, before.le_hit ends.1, same⟩
  · rintro ⟨i, below, same⟩
    exact ⟨i, fun j le => ends.2 j (by omega), same⟩

/-- No character is accepted by the empty string. -/
theorem rejected_of_empty (empty : byte accept = 0) : Rejected byte accept c := by
  refine .inr ?_
  rintro ⟨i, clear, _⟩
  exact clear 0 (Nat.zero_le i) empty

theorem rejected_single (some : byte accept ≠ 0) (single : byte (accept + 1) = 0) :
    Rejected byte accept c ↔ c ≠ byte accept ∨ c = 0 := by
  have ends : IsLength byte accept 1 := by
    refine ⟨single, fun i below => ?_⟩
    rwa [Nat.lt_one_iff.mp below]
  rw [Rejected, accepted_iff ends, or_comm]
  refine or_congr_left (not_congr ?_)
  simp [eq_comm]

theorem HoldsAccept.eq (holds : HoldsAccept byte accept v) {len : Nat}
    (ends : IsLength byte accept len) (i : Fin 16) (inside : i.val ≤ len) : v i = byte (accept + i) :=
  holds i fun j below => ends.2 j (by omega)

/-- A register without a NUL holds sixteen characters. -/
theorem HoldsAccept.no_null_iff (holds : HoldsAccept byte accept v)
    (ends : IsLength byte accept acceptLen) :
    movemaskEpi8 (cmpeqEpi8 v setzero) = 0#16 ↔ 16 ≤ acceptLen := by
  have marks : Marks (movemaskEpi8 (cmpeqEpi8 v setzero)) fun i => ∃ below : i < 16, v ⟨i, below⟩ = 0 :=
    marks_of_lanes fun i => by rw [getLsbD_movemask_cmpeq, beq_iff_eq]; simp [setzero]
  rw [marks.none_iff]
  constructor
  · intro none
    by_contra short
    have null := holds.eq ends ⟨acceptLen, by omega⟩ (Nat.le_refl _)
    exact none acceptLen (by omega) ⟨by omega, null.trans ends.1⟩
  · rintro wide i _ ⟨below, null⟩
    rw [holds.eq ends ⟨i, below⟩ (by dsimp only; omega)] at null
    exact ends.2 i (by omega) null

/-- The valid lanes of the register are the accepted characters, when these fit. -/
theorem HoldsAccept.set (holds : HoldsAccept byte accept v) (ends : IsLength byte accept acceptLen)
    (short : acceptLen ≤ 16) : (∃ i, Valid v i ∧ v i = c) ↔ Accepted byte accept c := by
  rw [accepted_iff ends]
  constructor
  · rintro ⟨i, valid, same⟩
    have inside : i.val < acceptLen := by
      by_contra behind
      have below := i.isLt
      refine valid ⟨acceptLen, by omega⟩ (Nat.not_lt.mp behind) ?_
      rw [holds.eq ends _ (Nat.le_refl _)]
      exact ends.1
    exact ⟨i, inside, (holds.eq ends i (Nat.le_of_lt inside)).symm.trans same⟩
  · rintro ⟨i, below, same⟩
    refine ⟨⟨i, by omega⟩, fun j le => ?_, (holds.eq ends _ (Nat.le_of_lt below)).trans same⟩
    have before : j.val < acceptLen := Nat.lt_of_le_of_lt (Fin.le_def.mp le) below
    rw [holds.eq ends j (Nat.le_of_lt before)]
    exact ends.2 j before

end Accept

theorem MarksBytes.marks {w : Nat} {word : Lanes w → BitVec w} {p : UInt8 → Prop}
    (marks : MarksBytes word p) (m : Memory) (addr : Nat) :
    Marks (word (m.lanes w addr)) fun i => p (m.byte (addr + i)) :=
  marks_of_lanes fun i => marks (m.lanes w addr) i

section Call
variable {m : PagedMemory} {s accept len acceptLen : Nat} (call : SpanCall m s accept len acceptLen)
include call

theorem SpanCall.exists_span : ∃ idx ≤ len, IsSpan m.byte s accept idx :=
  exists_firstHit (.inl call.ends.1)

theorem SpanCall.needs :
    ScanNeeds m.toMemory s fun i => Rejected m.byte accept (m.byte (s + i)) :=
  scanNeeds_of_hit (.inl call.ends.1) call.source

end Call

/-- The accepted letters are the last two of the word, right before the page end. -/
theorem lastWord_spanCall {s len : Nat} (low : 4096 ≤ s) (ends : s + len = 8191) :
    SpanCall lastWord s 8189 len 2 where
  ends := lastWord_isLength ends
  range := by rw [sizeRange_eq]; omega
  source _ inside := lastWord_mapped low (by omega)
  acceptEnds := lastWord_isLength rfl
  acceptRange := by rw [sizeRange_eq]; decide
  acceptSource _ inside := lastWord_mapped (by decide) (by omega)

end AoclLibmem.Strings
