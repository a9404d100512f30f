import AoclLibmem.Copy.LoadStoreSpec

/-! The block loops of `load_store_impls.h` on their own: the count of the backward one never
goes below zero, and each leaves the bytes that it has still to read as they were. -/

namespace AoclLibmem.Copy

open Base Machine

/-- `dst[low..high)` holds what was in `src[low..high)`, and nothing else has changed. -/
def CopiedPart (before after : Memory) (dst src low high : Nat) : Prop :=
  (∀ i, low ≤ i → i < high → after.byte (dst + i) = before.byte (src + i)) ∧
    ∀ a, ¬ (dst + low ≤ a ∧ a < dst + high) → after.byte a = before.byte a

/-- `size` after `k` passes of `VEC_4X_LOAD_STORE_LOOP_BKWD`, a `size_t`. -/
def sizeAfter (n size k : Nat) : Nat := (fun s => subSize s (4 * n))^[k] size

/-- What `VEC_4X_LOAD_STORE_LOOP_BKWD` has to do from `size` down: every pass that it makes
finds four vectors in `size`, `k` of them are made, and the bytes below those moved are intact. -/
structure DescendsSafely (start : Memory) (n : Nat) (loadType storeType : Access)
    (dst src size offset : Nat) : Prop where
  fits : ∀ k, (∀ j ≤ k, offset < sizeAfter n size j) → 4 * n ≤ sizeAfter n size k
  moves : ∃ r after,
    vecLoadStoreLoopBkwd n loadType storeType 4 dst src size offset start = .ok (r, after) ∧
      (∃ k, r = sizeAfter n size k ∧ ∀ j < k, offset < sizeAfter n size j) ∧
      r ≤ offset ∧ CopiedPart start after dst src r size ∧
      ∀ i < r, after.byte (src + i) = start.byte (src + i)

/-- What `VEC_4X_LOAD_STORE_LOOP` and `VEC_8X_LOAD_STORE_LOOP` have to do from `offset` up, in
buffers of `total` bytes. -/
def AscendsSafely (start : Memory) (n count : Nat) (loadType storeType : Access)
    (dst src size offset total : Nat) : Prop :=
  ∃ r after, vecLoadStoreLoop n loadType storeType count dst src size offset start = .ok (r, after) ∧
    offset ≤ r ∧ size ≤ r ∧ CopiedPart start after dst src offset r ∧
    ∀ i, r ≤ i → i < total → after.byte (src + i) = start.byte (src + i)

section Loops
variable {start m : Memory} {n dst src size offset low high : Nat} {loadType storeType : Access}

theorem Progress.copiedPart (progress : Progress start dst src (∅ ∪ Set.Ico low high) m) :
    CopiedPart start m dst src low high := by
  refine ⟨fun i above below => progress.moved.moved i (.inr ⟨above, below⟩), fun a outside => ?_⟩
  refine progress.moved.frame a fun i member same => outside ?_
  rcases member with none | ⟨above, below⟩
  · exact none.elim
  · omega

/-- Four vectors are left in every size above `offset` that is a number of vectors away. -/
theorem four_fit (admits : 4 * n ≤ offset ∨ offset = 3 * n ∧ size % n = 0) {s : Nat}
    (more : offset < s) (phase : s % n = size % n) : 4 * n ≤ s := by
  rcases admits with far | ⟨rfl, whole⟩
  · omega
  · rw [whole] at phase
    obtain ⟨count, rfl⟩ := Nat.dvd_of_mod_eq_zero phase
    rw [Nat.mul_comm n count] at more ⊢
    exact Nat.mul_le_mul_right n (Nat.lt_of_mul_lt_mul_right more)

/-- A size that has been reached by passes of the loop is a number of vectors away. -/
private theorem sizeAfter_phase (range : size < sizeRange)
    (admits : 4 * n ≤ offset ∨ offset = 3 * n ∧ size % n = 0) {k : Nat}
    (entered : ∀ j < k, offset < sizeAfter n size j) :
    sizeAfter n size k ≤ size ∧ sizeAfter n size k % n = size % n := by
  induction k with
  | zero => exact ⟨Nat.le_refl size, rfl⟩
  | succ k ih =>
    obtain ⟨below, phase⟩ := ih fun j less => entered j (by omega)
    have whole := four_fit admits (entered k (Nat.lt_succ_self k)) phase
    have next : sizeAfter n size (k + 1) = sizeAfter n size k - 4 * n := by
      rw [sizeAfter, Function.iterate_succ_apply', ← sizeAfter]
      exact subSize_of_le whole (by omega)
    rw [next, ← phase, ← Nat.add_mul_mod_self_right (sizeAfter n size k - 4 * n) 4 n,
      Nat.sub_add_cancel whole]
    exact ⟨by omega, rfl⟩

private theorem loopBkwd_descends (vector : 0 < n) (buffers : Buffers start dst src size)
    (range : size < sizeRange) (up : src < dst)
    (admits : 4 * n ≤ offset ∨ offset = 3 * n ∧ size % n = 0)
    (loads : loadType.Allows n (src + size)) (stores : storeType.Allows n (dst + size)) :
    DescendsSafely start n loadType storeType dst src size offset where
  fits k entered :=
    four_fit admits (entered k (Nat.le_refl k))
      (sizeAfter_phase range admits fun j less => entered j (Nat.le_of_lt less)).2
  moves := by
    have moves : Descends start dst src ∅ offset size (4 * n) _ :=
      vecLoadStoreLoopBkwd_backward buffers (by omega) (Nat.le_refl size) range
        (fun s above phase => four_fit admits above phase) loads stores (Nat.le_of_lt up)
        fun j none => none.elim
    obtain ⟨r, after, returned, stop, progress⟩ := moves start (.refl start dst src)
    have copied := progress.copiedPart
    have passes := returned
    unfold vecLoadStoreLoopBkwd at passes
    refine ⟨r, after, returned, loopM_iterates passes, stop.2.1, copied, fun i below =>
      copied.2 _ ?_⟩
    omega

private theorem loop_ascends {count total : Nat} (block : 0 < count * n)
    (buffers : Buffers start dst src total) (range : size < sizeRange)
    (inside : offset < size → loopEnd (count * n) offset size ≤ total)
    (clear : dst ≤ src ∨ dst + total ≤ src ∨ src + total ≤ dst)
    (loads : loadType.Allows n (src + offset)) (stores : storeType.Allows n (dst + offset)) :
    AscendsSafely start n count loadType storeType dst src size offset total := by
  have bounds : offset ≤ _ ∧ size ≤ _ ∧ _ := loopEnd_bounds block
  have safe : ∀ p, offset ≤ p → p < size → p + count * n ≤ loopEnd (count * n) offset size →
      Intact dst src (∅ ∪ Set.Ico offset p) (Set.Ico p (p + count * n)) := by
    rintro p above less fits i ⟨low, high⟩ j (none | ⟨_, moved⟩)
    · exact none.elim
    · have total := inside (by omega)
      omega
  obtain ⟨_, after, returned, rfl, progress⟩ :=
    vecLoadStoreLoop_ends buffers block inside range loads stores safe start (.refl start dst src)
  have copied := progress.copiedPart
  refine ⟨_, after, returned, bounds.1, bounds.2.1, copied, fun i above below => copied.2 _ ?_⟩
  omega

/-- For every vector size, memory and kinds of access: the loop downwards to a higher address
is safe with an offset of four vectors, or of three and whole vectors; the loops upwards are
safe to a lower address and between disjoint buffers. -/
theorem blockLoops_safe (start : Memory) (n : Nat) (loadType storeType : Access)
    (dst src size offset : Nat) (vector : 0 < n) (range : size < sizeRange) :
    (Buffers start dst src size → src < dst →
      (4 * n ≤ offset ∨ offset = 3 * n ∧ size % n = 0) →
      loadType.Allows n (src + size) → storeType.Allows n (dst + size) →
        DescendsSafely start n loadType storeType dst src size offset) ∧
    ∀ count total, 0 < count → Buffers start dst src total →
      (offset < size → loopEnd (count * n) offset size ≤ total) →
      (dst ≤ src ∨ dst + total ≤ src ∨ src + total ≤ dst) →
      loadType.Allows n (src + offset) → storeType.Allows n (dst + offset) →
        AscendsSafely start n count loadType storeType dst src size offset total := by
  refine ⟨fun buffers up admits loads stores => ?_,
    fun count total some buffers inside clear loads stores => ?_⟩
  · exact loopBkwd_descends vector buffers range up admits loads stores
  · exact loop_ascends (Nat.mul_pos some vector) buffers range inside clear loads stores

theorem blockLoops_safe_ymm :
    DescendsSafely (PagedMemory.full UInt8.ofNat).toMemory 32 .unaligned .aligned 96 64 320 96 ∧
      AscendsSafely (PagedMemory.full UInt8.ofNat).toMemory 32 8 .unaligned .aligned 64 65 320 32
        600 :=
  ⟨(blockLoops_safe _ 32 .unaligned .aligned 96 64 320 96 (by decide)
      (by rw [sizeRange_eq]; decide)).1 ⟨fun _ _ => rfl, fun _ _ => rfl⟩ (by decide)
      (.inr (by decide)) allows_unaligned (allows_of_aligned rfl),
    (blockLoops_safe _ 32 .unaligned .aligned 64 65 320 32 (by decide)
      (by rw [sizeRange_eq]; decide)).2 8 600 (by decide) ⟨fun _ _ => rfl, fun _ _ => rfl⟩
      (fun _ => by decide) (.inl (by decide)) allows_unaligned (allows_of_aligned rfl)⟩

end Loops

end AoclLibmem.Copy
