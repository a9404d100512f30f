import AoclLibmem.Strings.StrspnSpec

/-! The loops of `strspn` over aligned vectors, and the two strategies that test every byte for
itself: against the one accepted character, and in a table. -/

namespace AoclLibmem.Strings

open Base Machine

section Loops
variable {m : PagedMemory} {s stop : Nat} {exit : Trap → Prop}

/-- The bytes before the address are clear, also when it is aligned downwards. -/
def HandsOver (hit : Nat → Prop) (s w ptr : Nat) : Prop :=
  ∃ k, ptr = s + k ∧ ptr % w ≤ k ∧ ClearBelow hit k

theorem spanFrom_ends {hit : Nat → Prop} {chunk : Exec (Step Nat Nat)}
    {step : Nat → Exec (Step Nat Nat)} {v w : Nat} (first : FirstHit hit stop) (range : stop < sizeRange)
    (some : 0 < v) (whole : v % w = 0)
    (start : Ends chunk (Step.Holds (HandsOver hit s w) (FirstHit hit)) exit)
    (pass : ∀ k, (s + k) % w = 0 → ClearBelow hit k →
      Ends (step (s + k)) (Step.Holds (fun next => next = s + (k + v) ∧ ClearBelow hit (k + v))
        (FirstHit hit)) exit) :
    Ends (spanFrom w chunk step) (FirstHit hit) exit := by
  refine start.bind fun decision holds => ?_
  cases decision with
  | done idx => exact holds
  | next ptr =>
    obtain ⟨k, rfl, inside, clear⟩ := holds
    have aligned : (s + k - (s + k) % w) % w = 0 := Nat.mod_eq_zero_of_dvd (Nat.dvd_sub_mod _)
    rw [Nat.add_sub_assoc inside] at aligned
    dsimp only
    rw [Nat.add_sub_assoc inside]
    exact strideLoop_ends first range some whole pass aligned (clear.mono (Nat.sub_le _ _))

variable {w : Nat} {stops : Lanes w → BitVec w} {p : UInt8 → Prop}

private theorem spanStep_ends (marks : MarksBytes stops p)
    (needs : ScanNeeds m.toMemory s fun i => p (m.byte (s + i))) (divides : w ∣ 4096) (k : Nat)
    (aligned : (s + k) % w = 0) (clear : ClearBelow (fun i => p (m.byte (s + i))) k) :
    Ends (spanStep stops m.toMemory s (s + k))
      (Step.Holds (fun next => next = s + (k + w) ∧ ClearBelow (fun i => p (m.byte (s + i))) (k + w))
        (FirstHit fun i => p (m.byte (s + i)))) exit := by
  have finds : Finds (stops (m.lanes w (s + k))) fun i => p (m.byte (s + (k + i))) := by
    refine (marks.marks m.toMemory (s + k)).finds.congr fun i => ?_
    rw [Nat.add_assoc]
  rw [spanStep, Memory.load_eq aligned (PagedMemory.canRead_of_aligned (needs k clear) aligned divides)]
  apply Ends.iteNe
  · intro found
    have here : s + k - s = k := Nat.add_sub_cancel_left s k
    rw [here, Nat.add_comm]
    exact finds.firstHit clear found
  · intro none
    exact ⟨Nat.add_assoc s k w, finds.clear clear none⟩

private theorem readable_line (mapped : m.readable s = true) (divides : w ∣ 4096) :
    m.readable (s - s % w) = true := by
  rw [← mapped]
  refine m.byPage _ _ ?_
  obtain ⟨q, pages⟩ := divides
  have line : s - s % w = w * (s / w) := by
    have split := Nat.div_add_mod s w
    omega
  have some : 0 < w := Nat.pos_of_ne_zero fun zero => by simp [zero] at pages
  rw [pageSz, pages, line, Nat.mul_div_mul_left _ _ some, Nat.div_div_eq_div_mul]

/-- The search for the end of a run of one character. -/
private theorem spanSingle_ends (marks : MarksBytes stops p)
    (needs : ScanNeeds m.toMemory s fun i => p (m.byte (s + i))) (divides : w ∣ 4096)
    (first : FirstHit (fun i => p (m.byte (s + i))) stop) (range : stop < sizeRange) :
    Ends (spanSingle stops m.toMemory s) (FirstHit fun i => p (m.byte (s + i))) exit := by
  have some : 0 < w := Nat.pos_of_dvd_of_pos divides (by decide)
  have below := Nat.mod_lt s some
  have before := Nat.mod_le s w
  have shifted : Marks (stops (m.lanes w (s - s % w)) >>> (s % w))
      fun i => i < w - s % w ∧ p (m.byte (s + i)) := by
    refine ((marks.marks m.toMemory (s - s % w)).ushiftRight (s % w)).congr fun i _ => ?_
    rw [← Nat.add_assoc, Nat.sub_add_cancel before, Nat.lt_sub_iff_add_lt']
  have aligned : (s - s % w) % w = 0 := Nat.mod_eq_zero_of_dvd (Nat.dvd_sub_mod s)
  rw [spanSingle, Memory.load_eq aligned
    (PagedMemory.canRead_of_aligned (readable_line (needs 0 clearBelow_zero) divides) aligned divides)]
  apply Ends.iteNe
  · intro found
    exact (shifted.first_within found).2
  · intro none
    have clear := shifted.clear_within (Nat.sub_le w _) none
    have next : s - s % w + w = s + (w - s % w) := by omega
    rw [next]
    refine strideLoop_ends first range some (Nat.mod_self w) (spanStep_ends marks needs divides) ?_ clear
    rw [← next, Nat.add_mod_right, aligned]

end Loops

section Single
variable {m : PagedMemory} {s accept len acceptLen : Nat} {exit : Trap → Prop}

theorem marks_neqOrNulYmm (c : UInt8) : MarksBytes (neqOrNulYmm c) fun b => b ≠ c ∨ b = 0 := by
  intro v i
  have lane : orSi (andnotSi (cmpeqEpi8 v (set1 c)) (set1 0xff)) (cmpeqEpi8 v setzero) i =
      full (!(v i == c) && true || v i == 0) := by
    calc ~~~full (v i == c) &&& full true ||| full (v i == 0)
        = full (!(v i == c) && true) ||| full (v i == 0) := by rw [full_not_and]
      _ = full (!(v i == c) && true || v i == 0) := full_or _ _
  rw [neqOrNulYmm, getLsbD_movemask_full lane]
  simp

theorem marks_neqOrNulZmm (c : UInt8) : MarksBytes (neqOrNulZmm c) fun b => b ≠ c ∨ b = 0 := by
  intro v i
  rw [neqOrNulZmm, BitVec.getLsbD_or, getLsbD_cmpneqEpu8Mask, getLsbD_cmpeqEpu8Mask]
  simp [set1, setzero]

/-- The strategy for a string of one character. -/
theorem SpanCall.single (call : SpanCall m s accept len acceptLen) (some : m.byte accept ≠ 0)
    (one : m.byte (accept + 1) = 0) {w : Nat} {stops : Lanes w → BitVec w} (divides : w ∣ 4096)
    (marks : MarksBytes stops fun b => b ≠ m.byte accept ∨ b = 0) :
    Ends (spanSingle stops m.toMemory s) (IsSpan m.byte s accept) exit := by
  obtain ⟨stop, le, first⟩ := call.exists_span
  have rejects : MarksBytes stops (Rejected m.byte accept) := fun v i =>
    (marks v i).trans (rejected_single some one).symm
  exact spanSingle_ends rejects call.needs divides first (Nat.lt_of_le_of_lt le call.range)

end Single

section Table
variable {m : PagedMemory} {s accept len acceptLen : Nat} {exit : Trap → Prop} {lut : Lanes 256}

/-- The entries of the accepted characters differ from zero, and no others. -/
def TableOf (byte : Nat → UInt8) (accept : Nat) (lut : Lanes 256) : Prop :=
  ∀ c : UInt8, lut c.toFin ≠ 0 ↔ Accepted byte accept c

/-- The table after the first `k` characters. -/
def EnteredTo (byte : Nat → UInt8) (accept k : Nat) (lut : Lanes 256) : Prop :=
  ∀ c : UInt8, lut c.toFin ≠ 0 ↔ ∃ i < k, byte (accept + i) = c

theorem EnteredTo.enter {byte : Nat → UInt8} {k : Nat} (entered : EnteredTo byte accept k lut)
    {value : UInt8} (some : value ≠ 0) :
    EnteredTo byte accept (k + 1) (Function.update lut (byte (accept + k)).toFin value) := by
  intro c
  by_cases same : c = byte (accept + k)
  · rw [same, Function.update_self]
    exact iff_of_true some ⟨k, Nat.lt_succ_self k, rfl⟩
  · have other : c.toFin ≠ (byte (accept + k)).toFin := fun equal => same (UInt8.toFin_inj.mp equal)
    rw [Function.update_of_ne other, entered c]
    constructor
    · rintro ⟨i, below, found⟩
      exact ⟨i, by omega, found⟩
    · rintro ⟨i, below, found⟩
      refine ⟨i, Nat.lt_of_le_of_ne (Nat.le_of_lt_succ below) ?_, found⟩
      rintro rfl
      exact same found.symm

theorem buildLut_ends {m : Memory} (ends : IsLength m.byte accept acceptLen)
    (source : ∀ i ≤ acceptLen, m.readable (accept + i) = true) (range : acceptLen < sizeRange)
    {entry : UInt8 → UInt8} (some : ∀ c, c ≠ 0 → entry c ≠ 0) :
    Ends (buildLut m accept entry) (TableOf m.byte accept) exit := by
  refine iterate_ends
    (fun state => ∃ k ≤ acceptLen, state.1 = accept + k ∧ EnteredTo m.byte accept k state.2)
    (fun state => acceptLen + 1 - (state.1 - accept)) ?_ ⟨0, Nat.zero_le _, rfl, ?_⟩ ?_
  · rintro ⟨_, lut⟩ ⟨k, inside, rfl, entered⟩
    rw [Memory.byteAt_eq (source k inside)]
    apply Ends.iteNe
    · intro more
      have before : k ≠ acceptLen := by
        rintro rfl
        exact more ends.1
      exact ⟨⟨k + 1, by omega, rfl, entered.enter (some _ more)⟩, by dsimp only; omega⟩
    · intro null c
      have last : k = acceptLen := Nat.le_antisymm inside (ends.le_of_hit null)
      rw [entered c, last, accepted_iff ends]
  · intro c
    simp [setzero]
  · rw [sizeRange_eq] at range
    unfold budget
    dsimp only
    omega

theorem SpanCall.buildLut_ends (call : SpanCall m s accept len acceptLen) {entry : UInt8 → UInt8}
    (some : ∀ c, c ≠ 0 → entry c ≠ 0) :
    Ends (buildLut m.toMemory accept entry) (TableOf m.byte accept) exit :=
  Strings.buildLut_ends call.acceptEnds call.acceptSource call.acceptRange some

theorem lutTest_ends (table : TableOf m.byte accept lut)
    (needs : ScanNeeds m.toMemory s fun i => Rejected m.byte accept (m.byte (s + i))) {k : Nat}
    {α : Type} {rest found : Exec α} {post : α → Prop}
    (clear : ClearBelow (fun i => Rejected m.byte accept (m.byte (s + i))) k)
    (onFound : IsSpan m.byte s accept k → Ends found post exit)
    (onRest : ClearBelow (fun i => Rejected m.byte accept (m.byte (s + i))) (k + 1) →
      Ends rest post exit) :
    Ends (do
      let c ← m.byteAt (s + k)
      if lut c.toFin = 0 then found else rest) post exit := by
  have lookup : lut (m.byte (s + k)).toFin = 0 ↔ Rejected m.byte accept (m.byte (s + k)) := by
    rw [← not_iff_not, ← ne_eq, table, Rejected, not_or, not_not]
    refine ⟨fun accepted => ⟨?_, accepted⟩, fun accepted => accepted.2⟩
    obtain ⟨i, before, same⟩ := accepted
    rw [← same]
    exact before i (Nat.le_refl i)
  rw [Memory.byteAt_eq (needs k clear)]
  apply Ends.ite
  · intro none
    exact onFound ⟨lookup.mp none, clear⟩
  · intro some
    apply onRest
    apply clear.extend
    intro j below
    rw [Nat.lt_one_iff.mp below]
    exact fun rejected => some (lookup.mpr rejected)

/-- The strategy of `_strspn_avx2` for more than sixteen characters. -/
theorem SpanCall.tableAvx2 (call : SpanCall m s accept len acceptLen) :
    Ends (do
      let lut ← buildLut m.toMemory accept fun c => c
      iterate .diverged (lutStepAvx2 m.toMemory s lut) budget s) (IsSpan m.byte s accept) exit := by
  obtain ⟨stop, le, first⟩ := call.exists_span
  refine (call.buildLut_ends fun _ some => some).bind fun lut table => ?_
  refine strideLoop_ends (s := s) (v := 4) (w := 1) (k := 0) first (Nat.lt_of_le_of_lt le call.range)
    (by decide) (by decide) ?_ (Nat.mod_one _) clearBelow_zero
  intro k _ clear
  have place (j : Nat) : s + k + j = s + (k + j) := Nat.add_assoc s k j
  have index (j : Nat) : s + j - s = j := Nat.add_sub_cancel_left s j
  simp only [lutStepAvx2, place, index]
  refine lutTest_ends table call.needs clear (fun found => found) fun clear => ?_
  refine lutTest_ends table call.needs clear (fun found => found) fun clear => ?_
  refine lutTest_ends table call.needs clear (fun found => found) fun clear => ?_
  refine lutTest_ends table call.needs clear (fun found => found) fun clear => ?_
  exact ⟨rfl, clear⟩

/-- The look-up by four permutes is the look-up in the table. -/
private theorem getLsbD_membershipMaskLut (bytes : Lanes 64) (i : Fin 64) :
    (membershipMaskLut bytes (quarters lut)).getLsbD i = true ↔ lut (bytes i).toFin ≠ 0 := by
  have bound : (bytes i).toNat < 256 := (bytes i).toNat_lt
  have quarter (t : Fin 4) (here : (bytes i).toNat / 64 = t) :
      permutexvarEpi8 (andSi bytes (set1 0x3f)) (quarters lut t) i = lut (bytes i).toFin :=
    permutexvar_quarters here
  have below (limit : UInt8) : (cmpltEpu8Mask bytes (set1 limit)).getLsbD i = true ↔
      (bytes i).toNat < limit.toNat := by
    rw [getLsbD_cmpltEpu8Mask, decide_eq_true_iff]
    exact UInt8.lt_iff_toNat_lt
  rw [membershipMaskLut, getLsbD_cmpneqEpu8Mask, bne_iff_ne]
  simp only [maskBlendEpi8, below, setzero]
  refine not_congr (Eq.congr_left ?_)
  split
  · rename_i low
    change (bytes i).toNat < 64 at low
    exact quarter 0 (by change _ = 0; omega)
  · rename_i above
    change ¬ (bytes i).toNat < 64 at above
    split
    · rename_i low
      change (bytes i).toNat < 128 at low
      exact quarter 1 (by change _ = 1; omega)
    · rename_i above
      change ¬ (bytes i).toNat < 128 at above
      split
      · rename_i low
        change (bytes i).toNat < 192 at low
        exact quarter 2 (by change _ = 2; omega)
      · rename_i above
        change ¬ (bytes i).toNat < 192 at above
        exact quarter 3 (by change _ = 3; omega)

/-- In the table of `_strspn_avx512`, the look-up of a vector finds the lanes whose byte is one
of the accepted characters. -/
theorem membershipMaskLut_member (m : Memory) (accept acceptLen : Nat)
    (ends : IsLength m.byte accept acceptLen)
    (source : ∀ i ≤ acceptLen, m.readable (accept + i) = true) (range : acceptLen < sizeRange) :
    ∃ lut, buildLut m accept (fun _ => 0xff) = .ok lut ∧
      ∀ (bytes : Lanes 64) (i : Fin 64),
        (membershipMaskLut bytes (quarters lut)).getLsbD i = true ↔
          bytes i ≠ 0 ∧ ∃ j < acceptLen, m.byte (accept + j) = bytes i := by
  have built : Ends (buildLut m accept fun _ => 0xff) (TableOf m.byte accept) fun _ => False :=
    buildLut_ends ends source range fun _ _ => by decide
  obtain ⟨lut, returned, table⟩ := built.returns
  refine ⟨lut, returned, fun bytes i => ?_⟩
  rw [getLsbD_membershipMaskLut, table, accepted_iff ends]
  constructor
  · rintro ⟨j, below, same⟩
    refine ⟨?_, j, below, same⟩
    rw [← same]
    exact ends.2 j below
  · rintro ⟨_, j, below, same⟩
    exact ⟨j, below, same⟩

theorem membershipMaskLut_member_lastWord :
    ∃ lut, buildLut lastWord.toMemory 8189 (fun _ => 0xff) = .ok lut ∧
      ∀ (bytes : Lanes 64) (i : Fin 64),
        (membershipMaskLut bytes (quarters lut)).getLsbD i = true ↔
          bytes i ≠ 0 ∧ ∃ j < 2, lastWord.byte (8189 + j) = bytes i :=
  have call : SpanCall lastWord 5000 8189 3191 2 := lastWord_spanCall (by decide) rfl
  membershipMaskLut_member lastWord.toMemory 8189 2 call.acceptEnds call.acceptSource call.acceptRange

theorem TableOf.marks (table : TableOf m.byte accept lut) :
    MarksBytes (nullOrMissing (quarters lut)) (Rejected m.byte accept) := by
  intro v i
  rw [nullOrMissing, BitVec.getLsbD_or, getLsbD_cmpeqEpu8Mask, BitVec.getLsbD_not,
    decide_eq_true i.isLt, Bool.true_and, Bool.or_eq_true, beq_iff_eq, Bool.not_eq_true',
    ← Bool.not_eq_true, getLsbD_membershipMaskLut, table]
  exact Iff.rfl

/-- The mask of the part of a vector before the page end. -/
theorem TableOf.marks_safe (table : TableOf m.byte accept lut) (safe : Nat) (block : Lanes 64)
    (short : safe < 256) (lanes : ∀ i : Fin 64, i.val < safe → block i = m.byte (s + i)) :
    Marks ((maskCmpeqEpi8Mask (bzhiOnes safe) block setzero |||
        ~~~membershipMaskLut block (quarters lut)) &&& bzhiOnes safe)
      fun i => i < safe ∧ Rejected m.byte accept (m.byte (s + i)) := by
  apply marks_of_lanes
  intro i
  have active := getLsbD_bzhiOnes (n := 64) (k := safe) i.isLt
  have whole := table.marks block i
  rw [nullOrMissing, BitVec.getLsbD_or] at whole
  rw [BitVec.getLsbD_and, BitVec.getLsbD_or, maskCmpeqEpi8Mask, BitVec.getLsbD_and, active,
    Nat.mod_eq_of_lt short]
  by_cases inside : i.val < safe
  · rw [decide_eq_true inside, Bool.true_and, Bool.and_true, whole, lanes i inside]
    exact (and_iff_right inside).symm
  · simp [inside]

/-- The first vector of the look-up, whole or cut off at the page end. -/
private theorem lutFirstAvx512_ends (table : TableOf m.byte accept lut)
    (needs : ScanNeeds m.toMemory s fun i => Rejected m.byte accept (m.byte (s + i))) :
    Ends (lutFirstAvx512 m.toMemory s (quarters lut))
      (Step.Holds (HandsOver (fun i => Rejected m.byte accept (m.byte (s + i))) s 64)
        (IsSpan m.byte s accept)) exit := by
  have mapped : m.readable s = true := needs 0 clearBelow_zero
  rw [lutFirstAvx512]
  simp only [pageSz, zmmSz]
  apply Ends.ite
  · intro pageEnd
    have active (i : Nat) (below : i < 64) :
        (bzhiOnes (4096 - s % 4096) : BitVec 64).getLsbD i = decide (i < 4096 - s % 4096) := by
      rw [getLsbD_bzhiOnes below, Nat.mod_eq_of_lt (by omega)]
    rw [Memory.maskLoadu_eq]
    · have marks := table.marks_safe (s := s) (4096 - s % 4096)
        (fun i => if (bzhiOnes (4096 - s % 4096) : BitVec 64).getLsbD i then m.byte (s + i)
          else setzero i) (by omega) fun i inside => by
            rw [active i i.isLt, decide_eq_true inside, if_pos rfl]
      apply Ends.iteNe
      · intro found
        exact (marks.first_within found).2
      · intro none
        exact ⟨_, rfl, by omega, marks.clear_within (by omega) none⟩
    · intro i below set
      rw [active i below, decide_eq_true_iff] at set
      exact Memory.canRead_iff.mp (PagedMemory.canRead_of_page mapped rfl (by omega)) i set
  · intro inPage
    rw [Memory.loadu_eq (PagedMemory.canRead_of_page mapped rfl (by omega))]
    have marks := table.marks.marks m.toMemory s
    apply Ends.iteNe
    · intro found
      exact marks.first found
    · intro none
      exact ⟨64, rfl, by omega, marks.none_iff.mp none⟩

/-- The strategy of `_strspn_avx512` for more than sixteen characters. -/
theorem SpanCall.tableAvx512 (call : SpanCall m s accept len acceptLen) :
    Ends (do
      let lut ← buildLut m.toMemory accept fun _ => 0xff
      let lut := quarters lut
      spanFrom 64 (lutFirstAvx512 m.toMemory s lut) (spanStep (nullOrMissing lut) m.toMemory s))
      (IsSpan m.byte s accept) exit := by
  obtain ⟨stop, le, first⟩ := call.exists_span
  refine (call.buildLut_ends fun _ _ => by decide).bind fun lut table => ?_
  exact spanFrom_ends first (Nat.lt_of_le_of_lt le call.range) (by decide) (by decide)
    (lutFirstAvx512_ends table call.needs) (spanStep_ends table.marks call.needs (by decide))

end Table

end AoclLibmem.Strings
