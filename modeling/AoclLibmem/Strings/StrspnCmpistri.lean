import AoclLibmem.Strings.StrspnTable

/-! The strategy of `strspn` with `_mm_cmpistri`: the accepted characters in a register, and the
heads of both kernels where a string begins right before a page end. -/

namespace AoclLibmem.Strings

open Base Machine

/-- A chunk of `width` lanes: the lane returned is its first hit, or there is none. -/
theorem chunk_first {hit : Nat → Prop} {k width idx : Nat} (clear : ClearBelow hit k)
    (first : FirstHit (fun j => width ≤ j ∨ hit (k + j)) idx) (below : idx < width) :
    FirstHit hit (k + idx) :=
  clear.first (first.1.resolve_left (by omega)) fun j less found => first.2 j less (.inr found)

theorem chunk_clear {hit : Nat → Prop} {k width idx : Nat} (clear : ClearBelow hit k)
    (first : FirstHit (fun j => width ≤ j ∨ hit (k + j)) idx) (through : ¬ idx < width) :
    ClearBelow hit (k + width) :=
  clear.extend fun j below found => first.2 j (by omega) (.inr found)

section Cmpistri
variable {m : PagedMemory} {s accept len acceptLen : Nat} {exit : Trap → Prop} {v : Lanes 16}

/-- The valid lanes of the register are the accepted characters. -/
def RegisterOf (byte : Nat → UInt8) (accept : Nat) (v : Lanes 16) : Prop :=
  ∀ c, (∃ i, Valid v i ∧ v i = c) ↔ Accepted byte accept c

/-- The comparison of a register with the chunk at `s + k`, of which `width` bytes are loaded. -/
theorem RegisterOf.chunk (register : RegisterOf m.byte accept v) {block : Lanes 16} {k width : Nat}
    (narrow : width ≤ 16)
    (lanes : ∀ i : Fin 16, block i = if i.val < width then m.byte (s + (k + i)) else 0) :
    FirstHit (fun j => width ≤ j ∨ Rejected m.byte accept (m.byte (s + (k + j))))
      (cmpistri v block) := by
  have first := cmpistri_firstHit (a := v) (b := block)
    (fun j => width ≤ j ∨ Rejected m.byte accept (m.byte (s + (k + j)))) fun j => by
      rw [register (block j), lanes j]
      by_cases inside : j.val < width
      · rw [if_pos inside]
        exact or_iff_right (Nat.not_le.mpr inside)
      · rw [if_neg inside]
        exact iff_of_true (.inl (Nat.not_lt.mp inside)) (.inl rfl)
  refine ⟨first.1.elim (fun full => .inl (Nat.le_trans narrow full)) id, fun j below found => ?_⟩
  exact first.2 j below (.inr found)

theorem RegisterOf.vec (register : RegisterOf m.byte accept v) (k : Nat) :
    FirstHit (fun j => 16 ≤ j ∨ Rejected m.byte accept (m.byte (s + (k + j))))
      (cmpistri v (m.lanes 16 (s + k))) :=
  register.chunk (Nat.le_refl 16) fun i => by rw [if_pos i.isLt, Memory.lanes_apply, Nat.add_assoc]

variable (register : RegisterOf m.byte accept v)
variable (needs : ScanNeeds m.toMemory s fun i => Rejected m.byte accept (m.byte (s + i)))
include register needs

theorem cmpistriStep_ends (k : Nat) (aligned : (s + k) % 16 = 0)
    (clear : ClearBelow (fun i => Rejected m.byte accept (m.byte (s + i))) k) :
    Ends (cmpistriStep m.toMemory s v (s + k))
      (Step.Holds (fun next => next = s + (k + 32) ∧
          ClearBelow (fun i => Rejected m.byte accept (m.byte (s + i))) (k + 32))
        (IsSpan m.byte s accept)) exit := by
  have index : s + k - s = k := Nat.add_sub_cancel_left s k
  simp only [cmpistriStep, xmmSz, index]
  rw [Memory.load_eq aligned (PagedMemory.canRead_of_aligned (needs k clear) aligned (by decide))]
  have first1 := register.vec (s := s) k
  apply Ends.ite
  · intro below
    exact chunk_first clear first1 below
  · intro through
    have clear2 := chunk_clear clear first1 through
    have boundary : (s + k + 16) % 16 = 0 := by omega
    have mapped : m.readable (s + k + 16) = true := by
      rw [Nat.add_assoc]
      exact needs _ clear2
    rw [Memory.load_eq boundary (PagedMemory.canRead_of_aligned mapped boundary (by decide)),
      Nat.add_assoc s]
    have first2 := register.vec (s := s) (k + 16)
    apply Ends.ite
    · intro below
      exact chunk_first clear2 first2 below
    · intro through
      exact ⟨by omega, chunk_clear (k := k + 16) clear2 first2 through⟩

/-- The first chunk, when what `edge` does before a page end is right. -/
theorem cmpistriFirst_ends {edge : Exec (Step Nat Nat)}
    (onEdge : 4096 - 16 < s % 4096 → Ends edge
      (Step.Holds (HandsOver (fun i => Rejected m.byte accept (m.byte (s + i))) s 16)
        (IsSpan m.byte s accept)) exit) :
    Ends (cmpistriFirst m.toMemory s v edge)
      (Step.Holds (HandsOver (fun i => Rejected m.byte accept (m.byte (s + i))) s 16)
        (IsSpan m.byte s accept)) exit := by
  have mapped : m.readable s = true := needs 0 clearBelow_zero
  simp only [cmpistriFirst, pageSz, xmmSz]
  apply Ends.ite
  · intro inPage
    rw [Memory.loadu_eq (PagedMemory.canRead_of_page mapped rfl (by omega))]
    have first : FirstHit (fun j => 16 ≤ j ∨ Rejected m.byte accept (m.byte (s + (0 + j))))
        (cmpistri v (m.lanes 16 s)) := register.vec 0
    apply Ends.ite
    · intro below
      have found : IsSpan m.byte s accept (0 + cmpistri v (m.lanes 16 s)) :=
        chunk_first clearBelow_zero first below
      rwa [Nat.zero_add] at found
    · intro through
      have clear : ClearBelow (fun i => Rejected m.byte accept (m.byte (s + i))) (0 + 16) :=
        chunk_clear clearBelow_zero first through
      exact ⟨16, rfl, by omega, clear⟩
  · intro pageEnd
    exact onEdge (by omega)

end Cmpistri

section Edge
variable {m : PagedMemory} {s accept len acceptLen : Nat} {exit : Trap → Prop} {v : Lanes 16}

theorem SpanCall.findAccept_ends (call : SpanCall m s accept len acceptLen) (c : UInt8) :
    Ends (findAccept m.toMemory accept c) (fun a => a = 0 ↔ ¬ Accepted m.byte accept c) exit := by
  refine iterate_ends (fun a => ∃ k ≤ acceptLen, a = accept + k ∧ ∀ i < k, m.byte (accept + i) ≠ c)
    (fun a => acceptLen + 1 - (a - accept)) ?_ ⟨0, Nat.zero_le _, rfl, fun i below => by omega⟩ ?_
  · rintro _ ⟨k, inside, rfl, before⟩
    rw [Memory.byteAt_eq (call.acceptSource k inside), accepted_iff call.acceptEnds]
    apply Ends.ite
    · rintro ⟨more, other⟩
      have further : k ≠ acceptLen := by
        rintro rfl
        exact more call.acceptEnds.1
      refine ⟨⟨k + 1, by omega, rfl, fun i below => ?_⟩, by omega⟩
      rcases Nat.lt_or_eq_of_le (Nat.le_of_lt_succ below) with less | rfl
      · exact before i less
      · exact other
    · intro stopped
      by_cases null : m.byte (accept + k) = 0
      · have last : k = acceptLen := Nat.le_antisymm inside (call.acceptEnds.le_of_hit null)
        refine iff_of_true null ?_
        rintro ⟨i, below, same⟩
        exact before i (by omega) same
      · have same : m.byte (accept + k) = c := by
          by_contra other
          exact stopped ⟨null, other⟩
        have below : k < acceptLen := by
          refine Nat.lt_of_le_of_ne inside ?_
          rintro rfl
          exact null call.acceptEnds.1
        exact iff_of_false null (not_not.mpr ⟨k, below, same⟩)
  · have range := call.acceptRange
    rw [sizeRange_eq] at range
    unfold budget
    omega

/-- Byte by byte to the page end, which is a multiple of 16. -/
theorem SpanCall.edgeAvx2_ends (call : SpanCall m s accept len acceptLen) :
    Ends (edgeAvx2 m.toMemory s accept)
      (Step.Holds (HandsOver (fun i => Rejected m.byte accept (m.byte (s + i))) s 16)
        (IsSpan m.byte s accept)) exit := by
  obtain ⟨stop, le, first⟩ := call.exists_span
  refine iterate_ends
    (fun ptr => ∃ k, ptr = s + k ∧ ClearBelow (fun i => Rejected m.byte accept (m.byte (s + i))) k)
    (fun ptr => stop + 1 - (ptr - s)) ?_ ⟨0, rfl, clearBelow_zero⟩ ?_
  · rintro _ ⟨k, rfl, clear⟩
    have index : s + k - s = k := Nat.add_sub_cancel_left s k
    have limit := first.clear_le clear
    simp only [edgeStepAvx2, index]
    apply Ends.ite
    · intro between
      rw [Memory.byteAt_eq (call.needs k clear)]
      apply Ends.ite
      · intro null
        exact ⟨.inl null, clear⟩
      · intro more
        refine (call.findAccept_ends _).bind fun a found => ?_
        apply Ends.ite
        · intro missing
          exact ⟨.inr (found.mp missing), clear⟩
        · intro present
          have accepted := not_not.mp (mt found.mpr present)
          refine ⟨⟨k + 1, rfl, clear.extend fun j below => ?_⟩, by omega⟩
          rw [Nat.lt_one_iff.mp below]
          exact fun rejected => rejected.elim more fun missing => missing accepted
    · intro aligned
      exact ⟨k, rfl, by omega, clear⟩
  · have range := call.range
    rw [sizeRange_eq] at range
    unfold budget
    omega

private theorem getLsbD_safeMask {safe i : Nat} (narrow : safe ≤ 16) :
    ((bzhi 0xffff#32 safe).setWidth 16).getLsbD i = decide (i < safe) := by
  have ones : 0xffff#32 = allLanes 16 := by decide
  rw [BitVec.getLsbD_setWidth]
  by_cases below : i < 16
  · rw [getLsbD_bzhi (by omega), ones, getLsbD_allLanes (by decide), decide_eq_true below,
      Bool.true_and, Bool.true_and, Nat.mod_eq_of_lt (by omega)]
  · rw [decide_eq_false below, Bool.false_and, decide_eq_false (by omega)]

private theorem loadSafe_ends {addr safe : Nat} (narrow : safe ≤ 16)
    (rights : m.canRead addr safe = true) : Ends (loadSafe m.toMemory safe addr)
      (fun v => ∀ i : Fin 16, v i = if i.val < safe then m.byte (addr + i) else 0) exit := by
  have active (i : Nat) (below : i < 64) :
      (((bzhi 0xffff#32 safe).setWidth 16).setWidth 64).getLsbD i = decide (i < safe) := by
    rw [BitVec.getLsbD_setWidth, decide_eq_true below, Bool.true_and, getLsbD_safeMask narrow]
  rw [loadSafe, Memory.maskLoadu_eq]
  · intro i
    have lane := active i (by omega)
    simp only [castsi512Si128, Fin.val_castLE, lane, decide_eq_true_eq, setzero]
  · intro i below set
    rw [active i below, decide_eq_true_iff] at set
    exact Memory.canRead_iff.mp rights i set

/-- The masked load before the page end and one comparison. -/
theorem edgeAvx512_ends (register : RegisterOf m.byte accept v)
    (needs : ScanNeeds m.toMemory s fun i => Rejected m.byte accept (m.byte (s + i)))
    (pageEnd : 4096 - 16 < s % 4096) :
    Ends (edgeAvx512 m.toMemory s v)
      (Step.Holds (HandsOver (fun i => Rejected m.byte accept (m.byte (s + i))) s 16)
        (IsSpan m.byte s accept)) exit := by
  have mapped : m.readable s = true := needs 0 clearBelow_zero
  have narrow : 4096 - s % 4096 ≤ 16 := by omega
  rw [edgeAvx512]
  simp only [pageSz]
  refine (loadSafe_ends narrow (PagedMemory.canRead_of_page mapped rfl (by omega))).bind ?_
  intro block lanes
  have shifted (i : Fin 16) :
      block i = if i.val < 4096 - s % 4096 then m.byte (s + (0 + i)) else 0 := by
    rw [lanes i, Nat.zero_add]
  have first := register.chunk narrow shifted
  apply Ends.ite
  · intro below
    have found : IsSpan m.byte s accept (0 + cmpistri v block) := chunk_first clearBelow_zero first below
    rwa [Nat.zero_add] at found
  · intro through
    have clear : ClearBelow (fun i => Rejected m.byte accept (m.byte (s + i))) (0 + (4096 - s % 4096)) :=
      chunk_clear clearBelow_zero first through
    rw [Nat.zero_add] at clear
    exact ⟨_, rfl, by omega, clear⟩

theorem SpanCall.acceptBuf_ends (call : SpanCall m s accept len acceptLen) :
    Ends (acceptBuf m.toMemory accept) (HoldsAccept m.byte accept) exit := by
  refine iterate_ends
    (fun state => state.1 ≤ 16 ∧ (∀ j < state.1, m.byte (accept + j) ≠ 0) ∧
      ∀ j : Fin 16, state.2 j = if j.val < state.1 then m.byte (accept + j) else 0)
    (fun state => 17 - state.1) ?_ ⟨Nat.zero_le _, fun j below => absurd below (Nat.not_lt_zero j),
      fun j => rfl⟩ (by unfold budget; dsimp only; omega)
  rintro ⟨i, buf⟩ ⟨inside, clear, lanes⟩
  dsimp only at inside clear lanes ⊢
  split
  · rename_i room
    have before : i ≤ acceptLen := by
      have upTo : ClearBelow (fun j => m.byte (accept + j) = 0) i := clear
      exact upTo.le_hit call.acceptEnds.1
    rw [Memory.byteAt_eq (call.acceptSource i before)]
    apply Ends.iteNe
    · intro more
      refine ⟨⟨room, fun j below => ?_, fun j => ?_⟩, by dsimp only; omega⟩
      · rcases Nat.lt_or_eq_of_le (Nat.le_of_lt_succ below) with less | rfl
        · exact clear j less
        · exact more
      · dsimp only
        by_cases here : j.val = i
        · have same : j = ⟨i, room⟩ := Fin.ext here
          rw [same, Function.update_self, if_pos (Nat.lt_succ_self i)]
        · rw [Function.update_of_ne fun same => here (congrArg Fin.val same), lanes j]
          exact if_congr (by omega) rfl rfl
    · intro null j before
      have upTo : j.val ≤ i := by
        by_contra behind
        exact before i (by omega) null
      rw [lanes j]
      split
      · rfl
      · rename_i reached
        rw [show j.val = i by omega, null]
  · rename_i full
    intro j _
    rw [lanes j, if_pos (by omega)]

theorem SpanCall.loadAccept (call : SpanCall m s accept len acceptLen)
    (inside : accept % 4096 ≤ 4096 - 16) :
    Ends (m.loadu 16 accept) (HoldsAccept m.byte accept) exit := by
  have mapped : m.readable accept = true := call.acceptSource 0 (Nat.zero_le _)
  rw [Memory.loadu_eq (PagedMemory.canRead_of_page mapped rfl (by omega))]
  exact fun i _ => rfl

theorem SpanCall.loadAcceptAvx2_ends (call : SpanCall m s accept len acceptLen) :
    Ends (loadAcceptAvx2 m.toMemory accept) (HoldsAccept m.byte accept) exit := by
  apply Ends.ite
  · intro _
    exact call.acceptBuf_ends
  · intro inPage
    simp only [pageSz, xmmSz] at inPage
    exact call.loadAccept (by omega)

/-- Without a NUL before the page end the string goes on behind it, and the register is loaded
again. -/
theorem SpanCall.loadAcceptAvx512_ends (call : SpanCall m s accept len acceptLen) :
    Ends (loadAcceptAvx512 m.toMemory accept) (HoldsAccept m.byte accept) exit := by
  have mapped : m.readable accept = true := call.acceptSource 0 (Nat.zero_le _)
  simp only [loadAcceptAvx512, pageSz, xmmSz]
  apply Ends.ite
  · intro pageEnd
    have narrow : 4096 - accept % 4096 ≤ 16 := by omega
    refine (loadSafe_ends narrow (PagedMemory.canRead_of_page mapped rfl (by omega))).bind ?_
    intro v lanes
    have marks : Marks (movemaskEpi8 (cmpeqEpi8 v setzero) &&&
        (bzhi 0xffff#32 (4096 - accept % 4096)).setWidth 16)
        fun i => i < 4096 - accept % 4096 ∧ m.byte (accept + i) = 0 := by
      apply marks_of_lanes
      intro i
      rw [BitVec.getLsbD_and, getLsbD_movemask_cmpeq, getLsbD_safeMask narrow, lanes i]
      by_cases inside : i.val < 4096 - accept % 4096
      · simp [inside, setzero]
      · simp [inside]
    apply Ends.ite
    · intro none
      have clear := marks.clear_within narrow none
      have further : m.readable (accept + (4096 - accept % 4096)) = true :=
        call.acceptSource _ (clear.le_hit call.acceptEnds.1)
      have rights : m.canRead accept 16 = true := by
        refine Memory.canRead_iff.mpr fun i below => ?_
        by_cases inside : i < 4096 - accept % 4096
        · rw [← mapped]
          exact m.byPage _ _ (by simp only [pageSz]; omega)
        · rw [← further]
          exact m.byPage _ _ (by simp only [pageSz]; omega)
      rw [Memory.loadu_eq rights]
      exact fun i _ => rfl
    · intro found i before
      obtain ⟨⟨inside, null⟩, -⟩ := marks.first found
      have upTo : i.val < 4096 - accept % 4096 := by
        by_contra behind
        exact before _ (by omega) null
      rw [lanes i, if_pos upTo]
  · intro inPage
    exact call.loadAccept (by omega)

end Edge

end AoclLibmem.Strings
