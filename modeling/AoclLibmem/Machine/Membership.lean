import AoclLibmem.Machine.LaneCompare

/-! Which lanes of a register hold a byte of a set: by `_mm_cmpistri`, where the set is a
second register, and by the look-up in a table spread over four registers. -/

namespace AoclLibmem.Machine

open Base

section Intrinsics
variable {n : Nat}

/-- Implicit length: the lanes before the first NUL are valid. -/
def Valid (v : Lanes n) (i : Fin n) : Prop := ∀ j ≤ i, v j ≠ 0

instance (v : Lanes n) (i : Fin n) : Decidable (Valid v i) := by
  unfold Valid
  infer_instance

/-- The result of `_SIDD_CMP_EQUAL_ANY`: a valid lane of `b` equal to some valid lane of `a`. -/
def equalAny (a b : Lanes 16) : BitVec 16 :=
  ofLanes fun j => decide (∃ i, Valid a i ∧ Valid b j ∧ a i = b j)

/-- `_mm_cmpistri(a, b, _SIDD_SBYTE_OPS | _SIDD_NEGATIVE_POLARITY)`: the lowest bit of the
complement, or 16. Negative polarity also sets the bits of lanes that are not valid. -/
def cmpistri (a b : Lanes 16) : Nat := tzcnt (~~~equalAny a b)

/-- `_mm512_cmplt_epu8_mask`. -/
def cmpltEpu8Mask (a b : Lanes n) : BitVec n := ofLanes fun i => decide (a i < b i)

/-- `_mm512_mask_cmpeq_epi8_mask`: bits of `k` whose lanes are equal. -/
def maskCmpeqEpi8Mask (k : BitVec n) (a b : Lanes n) : BitVec n := k &&& cmpeqEpu8Mask a b

/-- `_mm512_mask_blend_epi8`: the lanes in `k` are those of `b`. -/
def maskBlendEpi8 (k : BitVec n) (a b : Lanes n) : Lanes n := fun i => if k.getLsbD i then b i else a i

/-- `_mm512_permutexvar_epi8`: the low six bits of a lane of `idx` select a lane of `a`. -/
def permutexvarEpi8 (idx a : Lanes 64) : Lanes 64 :=
  fun i => a ⟨(idx i).toNat % 64, Nat.mod_lt _ (by decide)⟩

/-- `_mm512_castsi512_si128`. -/
def castsi512Si128 (z : Lanes 64) : Lanes 16 := fun i => z (i.castLE (by decide))

/-- A table of 256 bytes in four registers. -/
def quarters (lut : Lanes 256) (t : Fin 4) : Lanes 64 := fun i => lut ⟨64 * t + i, by omega⟩

end Intrinsics

section Compare
variable {a b : Lanes 16}

private theorem marks_not_equalAny (a b : Lanes 16) : Marks (~~~equalAny a b) fun j =>
    ∃ below : j < 16, Valid b ⟨j, below⟩ → ¬ ∃ i, Valid a i ∧ a i = b ⟨j, below⟩ := by
  intro j below
  have lane := getLsbD_ofLanes (fun j => decide (∃ i, Valid a i ∧ Valid b j ∧ a i = b j)) ⟨j, below⟩
  rw [BitVec.getLsbD_not, decide_eq_true below, Bool.true_and, equalAny, lane, Bool.not_eq_true',
    decide_eq_false_iff_not]
  constructor
  · rintro none
    exact ⟨below, fun valid ⟨i, first, same⟩ => none ⟨i, first, valid, same⟩⟩
  · rintro ⟨_, none⟩ ⟨i, first, valid, same⟩
    exact none valid ⟨i, first, same⟩

/-- The first lane with a NUL or with a byte outside the set, as if lane 16 always were one. -/
theorem cmpistri_firstHit (hit : Nat → Prop)
    (lane : ∀ j : Fin 16, hit j ↔ b j = 0 ∨ ¬ ∃ i, Valid a i ∧ a i = b j) :
    FirstHit (fun j => 16 ≤ j ∨ hit j) (cmpistri a b) := by
  rw [cmpistri]
  have marks := marks_not_equalAny a b
  have marked (j : Nat) (below : j < 16) (found : hit j) :
      ∃ below : j < 16, Valid b ⟨j, below⟩ → ¬ ∃ i, Valid a i ∧ a i = b ⟨j, below⟩ := by
    refine ⟨below, fun valid => ((lane ⟨j, below⟩).mp found).resolve_left ?_⟩
    exact valid _ (Nat.le_refl j)
  by_cases zero : ~~~equalAny a b = 0#16
  · have none := marks.none_iff.mp zero
    rw [tzcnt_eq_width_iff.mpr zero]
    refine ⟨.inl (Nat.le_refl 16), fun j below found => none j below (marked j below ?_)⟩
    exact found.resolve_left (Nat.not_le.mpr below)
  · have inside := tzcnt_lt zero
    obtain ⟨⟨below, found⟩, before⟩ := marks.first zero
    refine ⟨.inr ((lane ⟨_, below⟩).mpr ?_), fun j less hit => before j less (marked j (by omega) ?_)⟩
    · by_cases valid : Valid b ⟨tzcnt (~~~equalAny a b), below⟩
      · exact .inr (found valid)
      · -- a lane is not valid from the first NUL on, and no lane before this one is marked
        simp only [Valid, not_forall, not_not] at valid
        obtain ⟨k, le, null⟩ := valid
        rcases Nat.lt_or_eq_of_le (Fin.le_def.mp le) with less | same
        · exact absurd ⟨k.isLt, fun valid => absurd null (valid k (Nat.le_refl _))⟩ (before k less)
        · rw [← null, ← Fin.ext same]
          exact .inl rfl
    · exact hit.resolve_left (by omega)

end Compare

section Lookup
variable {n : Nat} {bytes : Lanes 64} {lut : Lanes 256} {i : Fin 64}

theorem getLsbD_cmpltEpu8Mask {a b : Lanes n} (i : Fin n) :
    (cmpltEpu8Mask a b).getLsbD i = decide (a i < b i) :=
  getLsbD_ofLanes _ i

/-- The quarter of a byte's top two bits, at its low six bits, is the entry of the byte. -/
theorem permutexvar_quarters {t : Fin 4} (quarter : (bytes i).toNat / 64 = t) :
    permutexvarEpi8 (andSi bytes (set1 0x3f)) (quarters lut t) i = lut (bytes i).toFin := by
  have low : (bytes i &&& 0x3f).toNat = (bytes i).toNat % 64 := by
    rw [UInt8.toNat_and]
    exact Nat.and_two_pow_sub_one_eq_mod (bytes i).toNat 6
  rw [permutexvarEpi8, quarters]
  refine congrArg lut (Fin.ext ?_)
  change 64 * t.val + (bytes i &&& 0x3f).toNat % 64 = (bytes i).toNat
  omega

end Lookup

end AoclLibmem.Machine
