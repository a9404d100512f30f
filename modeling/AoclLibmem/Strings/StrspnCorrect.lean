import AoclLibmem.Strings.StrspnCmpistri

/-! Both kernels return the span, whichever strategy the accepted characters select. -/

namespace AoclLibmem.Strings

open Base Machine

section Strspn
variable {m : PagedMemory} {s accept len acceptLen : Nat} {exit : Trap → Prop} {v : Lanes 16}

theorem SpanCall.acceptIsLong_ends (call : SpanCall m s accept len acceptLen)
    (holds : HoldsAccept m.byte accept v) :
    Ends (acceptIsLong m.toMemory accept v) (fun long => long = false → RegisterOf m.byte accept v)
      exit := by
  apply Ends.ite
  · intro none
    have wide := (holds.no_null_iff call.acceptEnds).mp none
    simp only [xmmSz]
    rw [Memory.byteAt_eq (call.acceptSource 16 wide)]
    intro short c
    have null : m.byte (accept + 16) = 0 := by simpa using short
    exact holds.set call.acceptEnds (call.acceptEnds.le_of_hit null)
  · intro found _ c
    have fits := mt (holds.no_null_iff call.acceptEnds).mpr found
    exact holds.set call.acceptEnds (by omega)

/-- The tests of `strspnBy` select a strategy that returns the span. -/
theorem SpanCall.strspnBy_ends (call : SpanCall m s accept len acceptLen) {single : UInt8 → Exec Nat}
    {loadAccept : Exec (Lanes 16)} {table : Exec Nat} {short : Lanes 16 → Exec Nat}
    (onSingle : m.byte accept ≠ 0 → m.byte (accept + 1) = 0 →
      Ends (single (m.byte accept)) (IsSpan m.byte s accept) exit)
    (onLoad : Ends loadAccept (HoldsAccept m.byte accept) exit)
    (onTable : Ends table (IsSpan m.byte s accept) exit)
    (onShort : ∀ v, RegisterOf m.byte accept v → Ends (short v) (IsSpan m.byte s accept) exit) :
    Ends (strspnBy m.toMemory s accept single loadAccept table short) (IsSpan m.byte s accept) exit := by
  have first : m.byteAt accept = .ok (m.byte accept) :=
    Memory.byteAt_eq (call.acceptSource 0 (Nat.zero_le _))
  rw [strspnBy, first]
  apply Ends.ite
  · intro empty
    exact ⟨rejected_of_empty empty, clearBelow_zero⟩
  · intro some
    have mapped : m.readable s = true := call.source 0 (Nat.zero_le _)
    rw [Memory.byteAt_eq mapped]
    apply Ends.ite
    · intro empty
      exact ⟨.inl empty, clearBelow_zero⟩
    · intro _
      have second : 1 ≤ acceptLen := by
        by_contra none
        have zero : acceptLen = 0 := by omega
        have null := call.acceptEnds.1
        rw [zero] at null
        exact some null
      rw [Memory.byteAt_eq (call.acceptSource 1 second)]
      apply Ends.ite
      · intro one
        exact onSingle some one
      · intro _
        refine onLoad.bind fun v holds => ?_
        refine (call.acceptIsLong_ends holds).bind fun long register => ?_
        apply Ends.ite
        · intro _
          exact onTable
        · intro fits
          exact onShort v (register (Bool.not_eq_true _ ▸ fits))

theorem SpanCall.cmpistri_ends (call : SpanCall m s accept len acceptLen)
    (register : RegisterOf m.byte accept v) {edge : Exec (Step Nat Nat)}
    (onEdge : 4096 - 16 < s % 4096 → Ends edge
      (Step.Holds (HandsOver (fun i => Rejected m.byte accept (m.byte (s + i))) s 16)
        (IsSpan m.byte s accept)) exit) :
    Ends (spanFrom 16 (cmpistriFirst m.toMemory s v edge) (cmpistriStep m.toMemory s v))
      (IsSpan m.byte s accept) exit := by
  obtain ⟨stop, le, first⟩ := call.exists_span
  exact spanFrom_ends first (Nat.lt_of_le_of_lt le call.range) (by decide) (by decide)
    (cmpistriFirst_ends register call.needs onEdge) (cmpistriStep_ends register call.needs)

/-- The least index of a NUL or of a character that does not occur in `accept`. -/
theorem strspnAvx2_exact (m : PagedMemory) (s accept len acceptLen : Nat)
    (call : SpanCall m s accept len acceptLen) :
    ∃ idx, strspnAvx2 m.toMemory s accept = .ok idx ∧ IsSpan m.byte s accept idx := by
  apply Ends.returns
  refine call.strspnBy_ends (fun some one => ?_) call.loadAcceptAvx2_ends call.tableAvx2 ?_
  · exact call.single some one (by decide) (marks_neqOrNulYmm _)
  · intro v register
    exact call.cmpistri_ends register fun _ => call.edgeAvx2_ends

theorem strspnAvx2_exact_lastWord :
    ∃ idx, strspnAvx2 lastWord.toMemory 5000 8189 = .ok idx ∧ IsSpan lastWord.byte 5000 8189 idx :=
  strspnAvx2_exact lastWord 5000 8189 3191 2 (lastWord_spanCall (by decide) rfl)

theorem strspnAvx512_exact (m : PagedMemory) (s accept len acceptLen : Nat)
    (call : SpanCall m s accept len acceptLen) :
    ∃ idx, strspnAvx512 m.toMemory s accept = .ok idx ∧ IsSpan m.byte s accept idx := by
  apply Ends.returns
  refine call.strspnBy_ends (fun some one => ?_) call.loadAcceptAvx512_ends call.tableAvx512 ?_
  · exact call.single some one (by decide) (marks_neqOrNulZmm _)
  · intro v register
    exact call.cmpistri_ends register fun pageEnd => edgeAvx512_ends register call.needs pageEnd

theorem strspnAvx512_exact_lastWord :
    ∃ idx, strspnAvx512 lastWord.toMemory 5000 8189 = .ok idx ∧ IsSpan lastWord.byte 5000 8189 idx :=
  strspnAvx512_exact lastWord 5000 8189 3191 2 (lastWord_spanCall (by decide) rfl)

end Strspn

end AoclLibmem.Strings
