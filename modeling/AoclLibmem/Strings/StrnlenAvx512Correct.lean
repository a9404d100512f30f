import AoclLibmem.Strings.StrnlenAvx512

/-! `_strlen_avx512`, `__strlen_zen4` and `_strnlen_avx512` return the length, with no more
than the pages mapped that hold the bytes they have to look at. -/

namespace AoclLibmem.Strings

open Base Machine

section Strnlen
variable {m : PagedMemory} {str maxlen offset : Nat} {exit : Trap → Prop}

/-- A load cut to `rem` lanes: its word speaks for them. -/
private theorem partialAvx512_ends {rem : Nat} (rights : m.canRead (str + offset) rem = true)
    (clear : ClearBelow (fun i => m.byte (str + i) = 0) offset) (narrow : rem ≤ 64)
    (whole : offset + rem = maxlen) :
    Ends (partialAvx512 m.toMemory str maxlen offset rem) (IsBoundedLength m.byte str maxlen)
      exit := by
  have lanes (i : Nat) (below : i < 64) : (bzhiOnes rem : BitVec 64).getLsbD i = decide (i < rem) := by
    rw [getLsbD_bzhiOnes below, Nat.mod_eq_of_lt (by omega)]
  have active : ∀ i < 64, (bzhiOnes rem : BitVec 64).getLsbD i = true →
      m.readable (str + offset + i) = true := by
    intro i below set
    rw [lanes i below, decide_eq_true_eq] at set
    exact Memory.canRead_iff.mp rights i set
  rw [partialAvx512, Memory.maskLoadu_eq active]
  refine lastBlock_ends (Marks.finds ?_) clear narrow whole
  apply marks_of_lanes
  intro i
  rw [BitVec.getLsbD_and, getLsbD_cmpeqEpu8Mask, lanes i i.isLt]
  by_cases inside : i.val < rem
  · simp [inside, setzero, Nat.add_assoc]
  · simp [inside]

theorem strnlenAvx512One_passes (needs : BoundedNeeds m.toMemory str maxlen) :
    Passes m.byte str maxlen 64 (fun k => (str + k) % 64 = 0) (strnlenAvx512One m.toMemory str)
      exit := by
  intro offset fits aligned clear
  have first := needs offset (by omega) clear
  obtain ⟨word, read, finds⟩ := (nullZmm_probes str (m.reads_load 64)).reads offset
    ((PagedMemory.alignedRead_iff aligned (by decide)).mpr first)
  rw [strnlenAvx512One, read]
  apply Ends.iteNe
  · intro nonzero
    have inside := tzcnt_lt nonzero
    exact boundedLength_of_isLength (finds.firstHit clear nonzero) (by omega)
  · intro zero
    exact ⟨zero, by omega, finds.clear clear zero⟩

private theorem strnlenAvx512Four_passes (needs : BoundedNeeds m.toMemory str maxlen) :
    Passes m.byte str maxlen 256 (MainPlace 64 str maxlen) (strnlenAvx512Four m.toMemory str) exit := by
  rintro offset fits ⟨aligned, multiple⟩ clear
  have boundary := multiple fits
  obtain ⟨read1, read2, read3, read4⟩ := fourVecs_read (.inr rfl) boundary (needs offset (by omega) clear)
  simp only [strnlenAvx512Four, zmmSz, read1, read2, read3, read4]
  have four := nullFour (w := 64) m.toMemory str offset
  apply Ends.iteNe
  · intro nonzero
    have first := four.firstHit marksZeros_null clear nonzero
    have inside := four.firstHit_lt marksZeros_null nonzero first
    exact boundedLength_of_isLength first (by omega)
  · intro zero
    exact ⟨zero, ⟨by omega, by omega⟩, four.clear marksZeros_null clear zero⟩

private theorem strnlenAvx512Partial_ends (needs : BoundedNeeds m.toMemory str maxlen)
    (inside : offset < maxlen) (clear : ClearBelow (fun i => m.byte (str + i) = 0) offset)
    (aligned : (str + offset) % 64 = 0) (narrow : maxlen < offset + 64) :
    Ends (partialAvx512 m.toMemory str maxlen offset (maxlen - offset))
      (IsBoundedLength m.byte str maxlen) exit := by
  have first := needs offset inside clear
  have rights := PagedMemory.canRead_of_page (n := maxlen - offset) first rfl (by omega)
  exact partialAvx512_ends rights clear (by omega) (by omega)

private theorem strnlenAvx512Last_ends (needs : BoundedNeeds m.toMemory str maxlen)
    (here : Scanned m.byte str maxlen (fun k => (str + k) % 64 = 0) (0#64, offset))
    (narrow : maxlen < offset + 64) :
    Ends (strnlenAvx512Last m.toMemory str maxlen offset) (IsBoundedLength m.byte str maxlen) exit := by
  apply Ends.ite
  · intro inside
    exact strnlenAvx512Partial_ends needs inside here.clear here.place narrow
  · intro full
    exact boundedLength_of_clear (here.clear.mono (Nat.not_lt.mp full))

private theorem strnlenAvx512Main_ends (needs : BoundedNeeds m.toMemory str maxlen)
    (room : Room m.byte str maxlen) (range : maxlen < sizeRange) {state : BitVec 64 × Nat}
    (start : Scanned m.byte str maxlen (MainPlace 64 str maxlen) state) :
    Ends (strnlenAvx512Main m.toMemory str maxlen state) (IsBoundedLength m.byte str maxlen)
      exit :=
  fitMain_ends (.inr rfl) (strnlenAvx512Four_passes needs) (strnlenAvx512One_passes needs) range room
    start fun _ => strnlenAvx512Last_ends needs

private theorem strnlenAvx512Line_ends (needs : BoundedNeeds m.toMemory str maxlen)
    (room : Room m.byte str maxlen) (range : maxlen < sizeRange) {ret : BitVec 64}
    (start : Scanned m.byte str maxlen (fun k => (str + k) % 64 = 0) (ret, offset)) :
    Ends (strnlenAvx512Line m.toMemory str maxlen ret offset) (IsBoundedLength m.byte str maxlen)
      exit := by
  rw [strnlenAvx512Line]
  refine (fitVecs_ends (strnlenAvx512One_passes needs) room (by decide) start).bind ?_
  rintro (⟨ret, offset⟩ | pos) reached
  · obtain ⟨here, _⟩ := reached
    obtain ⟨quiet, within, clear, aligned⟩ := here
    simp only [zmmSz]
    rw [addSize_of_lt (room.add_lt within clear (by decide))]
    refine ends_ite.mpr ⟨fun ⟨inside, narrow⟩ => ?_, fun fits => ?_⟩
    · exact strnlenAvx512Partial_ends needs inside clear aligned narrow
    · refine (fitVecs_ends (strnlenAvx512One_passes needs) room (by decide)
        ⟨quiet, within, clear, aligned⟩).bind ?_
      rintro (⟨ret', offset'⟩ | pos) reached
      · obtain ⟨⟨quiet', within', clear', aligned'⟩, stop⟩ := reached
        exact strnlenAvx512Main_ends needs room range
          ⟨quiet', within', clear', aligned', by omega⟩
      · exact reached
  · exact reached

/-- The first block: a vector cut at `maxlen` and at the page end, a part of a vector, or a
whole one. -/
private theorem strnlenAvx512First_ends (needs : BoundedNeeds m.toMemory str maxlen)
    (some : maxlen ≠ 0) : Ends (strnlenAvx512First m.toMemory str maxlen)
      (Step.Holds (fun ret => ret = 0#64 ∧ ClearBelow (fun i => m.byte (str + i) = 0) (64 - str % 64))
        (IsBoundedLength m.byte str maxlen)) exit := by
  have start : ClearBelow (fun i => m.byte (str + i) = 0) 0 := clearBelow_zero
  have first : m.readable str = true := needs 0 (Nat.pos_of_ne_zero some) start
  simp only [strnlenAvx512First, pageSz, zmmSz]
  apply Ends.ite
  · intro edge
    obtain ⟨safe, same⟩ : ∃ safe, min maxlen (64 - str % 64) = safe := ⟨_, rfl⟩
    have small : safe + str % 64 < 256 := by omega
    have lanes (i : Nat) (below : i < 64) :
        (bzhi (headMask (str % 64)) (safe + str % 64) : BitVec 64).getLsbD i =
          decide (i < min (64 - str % 64) (safe + str % 64)) := by
      rw [getLsbD_bzhi below, getLsbD_headMask, Nat.mod_eq_of_lt small, ← Bool.decide_and,
        decide_eq_decide]
      omega
    obtain ⟨word, read, finds⟩ := nullZmmHead_eq str lanes
      (PagedMemory.canRead_of_page first rfl (by omega))
    simp only [same]
    rw [read]
    apply Ends.iteNe
    · intro nonzero
      exact clip_bounded (finds.firstHit_within start nonzero).2
    · intro zero
      have clear := finds.clear_within start (by omega) zero
      apply Ends.ite
      · intro done
        exact boundedLength_of_clear (clear.mono (by omega))
      · intro more
        exact ⟨zero, clear.mono (by omega)⟩
  · intro inner
    by_cases short : maxlen < 64
    · have rights := PagedMemory.canRead_of_page (n := maxlen) first rfl (by omega)
      rw [if_pos short, if_pos short]
      refine (partialAvx512_ends rights start ?_ ?_).bind fun len bounded => bounded
      · omega
      · omega
    · rw [if_neg short, if_neg (Nat.lt_irrefl 64)]
      obtain ⟨word, read, finds⟩ := (nullZmm_probes str (m.reads_loadu 64)).reads 0
        (PagedMemory.canRead_of_page first (by omega) (by omega))
      rw [read]
      apply Ends.iteNe
      · intro nonzero
        have inside := tzcnt_lt nonzero
        exact boundedLength_of_isLength (finds.firstHit start nonzero) (by omega)
      · intro zero
        have clear := finds.clear start zero
        exact ⟨zero, clear.mono (by omega)⟩

theorem strnlenAvx512_ends (needs : BoundedNeeds m.toMemory str maxlen)
    (room : Room m.byte str maxlen) (range : maxlen < sizeRange) :
    Ends (strnlenAvx512 m.toMemory str maxlen) (IsBoundedLength m.byte str maxlen) exit := by
  apply Ends.ite
  · intro zero
    rw [zero]
    exact boundedLength_of_clear clearBelow_zero
  · intro some
    refine (strnlenAvx512First_ends needs some).bind fun decision holds => ?_
    cases decision with
    | done len => exact holds
    | next ret =>
      obtain ⟨quiet, clear⟩ := holds
      apply Ends.ite
      · intro done
        exact boundedLength_of_clear (clear.mono done)
      · intro more
        simp only [zmmSz] at more ⊢
        exact strnlenAvx512Line_ends needs room range ⟨quiet, by omega, clear, by omega⟩

end Strnlen

/-- All three return the exact length with no more mapped than the bytes they have to look at:
up to the first NUL, and for `_strnlen_avx512` below `maxlen`. What lies between the page of the
null pointer and the end of the address space is as short as `_strnlen_avx512` needs it. -/
theorem strlenAvx512_exact (m : PagedMemory) (str : Nat) :
    (∀ len, IsLength m.byte str len → len < sizeRange →
      (∀ i ≤ len, m.readable (str + i) = true) →
      strlenAvx512 m.toMemory str = .ok len ∧ strlenZen4 m.toMemory str = .ok len) ∧
    ∀ maxlen len, maxlen < sizeRange → IsBoundedLength m.byte str maxlen len →
      len + pageSz ≤ sizeRange →
      (∀ i < maxlen, i ≤ len → m.readable (str + i) = true) →
      strnlenAvx512 m.toMemory str maxlen = .ok len := by
  constructor
  · intro len first range mapped
    have needs : ScanNeeds m.toMemory str fun i => m.byte (str + i) = 0 :=
      scanNeeds_of_hit first.1 mapped
    constructor
    · exact returns_length (strlenAvx512_ends needs first range) first
    · exact returns_length (strlenZen4_ends needs first range) first
  · intro maxlen len range bounded room mapped
    exact returns_boundedLength
      (strnlenAvx512_ends (bounded.needs mapped) (bounded.room room) range) bounded

theorem strlenAvx512_exact_lastWord :
    (strlenAvx512 lastWord.toMemory 5000 = .ok 3191 ∧ strlenZen4 lastWord.toMemory 5000 = .ok 3191) ∧
      strnlenAvx512 lastWord.toMemory 5000 2000 = .ok 2000 := by
  obtain ⟨strlen, strnlen⟩ := strlenAvx512_exact lastWord 5000
  have ends : IsLength lastWord.byte 5000 3191 := lastWord_isLength rfl
  constructor
  · exact strlen 3191 ends (by rw [sizeRange_eq]; decide) fun i le =>
      lastWord_mapped (by decide) (by omega)
  · exact strnlen 2000 2000 (by rw [sizeRange_eq]; decide)
      (boundedLength_of_clear (ends.2.mono (by decide))) (by rw [sizeRange_eq]; decide)
      fun i _ le => lastWord_mapped (by decide) (by omega)

end AoclLibmem.Strings
