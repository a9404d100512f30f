import AoclLibmem.Calls.Layout

/-! What the functions that only read tell of the bytes, told of the lists. -/

namespace AoclLibmem.Calls

open Base Machine Strings

section Readings
variable {ι : Type} {start : PagedMemory} {layout : Layout ι start} {m : Memory} {p q : Place ι}
variable {text text' : List UInt8} {bound : Option Nat} {n : Nat} {value : Int} {result : Option Nat}

private theorem toNat_injective : Function.Injective UInt8.toNat := fun _ _ => UInt8.toNat_inj.mp

section Bounded
variable (reads : layout.Text m p (some n) text)
include reads

theorem Layout.Text.boundedLength : IsBoundedLength m.byte (layout.at p) n text.length where
  within := reads.isText.within n rfl
  clear := reads.isText.clear
  ends short := reads.isText.ends (by simpa using short)

theorem Layout.Text.prefixMapped : PrefixMapped m (layout.at p) n := by
  intro k below clear
  have inside := reads.isText.clear_le clear (by simpa using Nat.le_of_lt below)
  exact reads.readable k inside (by simpa using below)

end Bounded

section Whole
variable (reads : layout.Text m p none text)
include reads

theorem Layout.Text.isLength : IsLength m.byte (layout.at p) text.length := reads.isText.firstHit

theorem Layout.Text.mapped (i : Nat) (inside : i ≤ text.length) :
    m.readable (layout.at p + i) = true :=
  reads.readable i inside (by simp)

theorem Layout.Text.room : p.offset + (text.length + 1) ≤ layout.size p.object :=
  reads.further (by simp)

theorem Layout.Text.length_lt : text.length < sizeRange := by
  have range := layout.range reads.room
  omega

theorem Layout.Text.locates {ch : UInt8} (locates : Locates m.byte (layout.at p) ch result) :
    result = (((text ++ [0]).findIdx? (· == ch)).map p.add).map layout.at := by
  have spells := reads.isText.spells_stop
  cases locates with
  | @found i first inside =>
    have le := reads.isText.clear_le inside (by simp)
    have found := spells.findIdx?_eq (p := (· == ch)) (i := i) ⟨?_, ?_⟩ ?_
    · rw [found]
      exact congrArg some layout.at_add.symm
    · exact beq_iff_eq.mpr first.1
    · exact fun j before same => first.2 j before (beq_iff_eq.mp same)
    · rw [List.length_append, List.length_singleton]
      omega
  | absent ends missing =>
    rw [spells.findIdx?_none]
    · rfl
    · intro j below same
      rw [List.length_append, List.length_singleton] at below
      have le : j ≤ text.length := by omega
      rw [FirstHit.unique reads.isLength ends] at le
      exact missing j le (beq_iff_eq.mp same)

theorem Layout.Text.searches (reads' : layout.Text m q none text')
    (searches : Searches m.byte (layout.at p) (layout.at q) result) :
    result = ((text.tails.findIdx? text'.isPrefixOf).map p.add).map layout.at := by
  obtain ⟨T, L, ends, ends', picks⟩ := searches
  rw [FirstHit.unique ends reads.isLength, FirstHit.unique ends' reads'.isLength] at picks
  rw [picks_findIdx? reads.isText.spells reads'.isText.spells picks, Option.map_map]
  exact congrArg (Option.map · _) (funext fun i => layout.at_add.symm)

theorem Layout.Text.spans (reads' : layout.Text m q none text') {idx : Nat}
    (span : IsSpan m.byte (layout.at p) (layout.at q) idx) :
    idx = (text.takeWhile (· ∈ text')).length := by
  have member (c : UInt8) : Accepted m.byte (layout.at q) c ↔ c ∈ text' := by
    rw [accepted_iff reads'.isLength, List.mem_iff_getElem]
    constructor
    · rintro ⟨i, inside, same⟩
      exact ⟨i, inside, (reads'.isText.spells i inside).symm.trans same⟩
    · rintro ⟨i, inside, same⟩
      exact ⟨i, inside, (reads'.isText.spells i inside).trans same⟩
  have inside : idx ≤ text.length := span.le_of_hit (.inl reads.isLength.1)
  refine (reads.isText.spells.length_takeWhile (fun i before => ?_) inside fun more => ?_).symm
  · have accepted := not_not.mp (not_or.mp (span.2 i before)).2
    exact decide_eq_true ((member _).mp accepted)
  · rcases span.1 with ends | other
    · exact absurd ends (reads.isLength.2 idx more)
    · exact decide_eq_false fun accepted => other ((member _).mpr accepted)

end Whole

section Compared
variable (reads : layout.Text m p bound text) (reads' : layout.Text m q bound text')
include reads reads'

theorem Layout.Text.needs : Needs m (layout.at p) (layout.at q) bound := by
  intro k clear live
  have live' := sizeLe_false.mp live
  have reach := reach_of_unsettled reads.isText reads'.isText clear fun n member =>
    Nat.le_of_lt (live' n member)
  exact ⟨reads.readable k reach.1 live', reads'.readable k reach.2 live'⟩

theorem Layout.Text.compares (compares : Compares m.byte (layout.at p) (layout.at q) bound value) :
    value.sign = bytesSign text text' := by
  cases compares with
  | differ first inside =>
    rw [sign_sub]
    exact (orderSign_map_of_settled reads.isText reads'.isText toNat_injective (Nat.zero_le ·) first
      inside).symm
  | same bounded clear =>
    have same := text_eq_of_unsettled reads.isText reads'.isText clear
      (reads.isText.within _ bounded) (reads'.isText.within _ bounded) fun n member => ?_
    · rw [same, bytesSign, orderSign_self]
      rfl
    · rw [bounded, Option.mem_some_iff] at member
      omega

end Compared

section Bytes
variable {bytes bytes' : List UInt8} (reads : layout.Bytes m p n bytes)
include reads

theorem Layout.Bytes.finds {ch : UInt8} (finds : Search.FindsChar m.byte (layout.at p) n ch result) :
    result = ((bytes.findIdx? (· == ch)).map p.add).map layout.at := by
  cases finds with
  | found first inside =>
    rw [reads.spells.findIdx?_eq (p := (· == ch)) ⟨beq_iff_eq.mpr first.1, fun j before same =>
      first.2 j before (beq_iff_eq.mp same)⟩ (reads.length ▸ inside)]
    exact congrArg some layout.at_add.symm
  | absent clear =>
    rw [reads.spells.findIdx?_none]
    · rfl
    · intro j below same
      exact clear j (reads.length ▸ below) (beq_iff_eq.mp same)

theorem Layout.Bytes.orders (reads' : layout.Bytes m q n bytes')
    (orders : Compare.Orders m.byte (layout.at p) (layout.at q) n value) :
    value.sign = bytesSign bytes bytes' := by
  cases orders with
  | @differ k first inside =>
    have same (i : Nat) (below : i < k) :
        (m.byte (layout.at p + i)).toNat = (m.byte (layout.at q + i)).toNat :=
      congrArg UInt8.toNat (not_not.mp (first.2 i below))
    have lists := (reads.spells.map UInt8.toNat).orderSign_eq (reads'.spells.map UInt8.toNat) same
      (by rwa [List.length_map, reads.length]) (by rwa [List.length_map, reads'.length])
      fun other => first.1 (toNat_injective other)
    rw [bytesSign, lists]
    exact sign_sub _ _
  | same clear =>
    have lists : bytes = bytes' := by
      refine reads.spells.unique (fun i inside => ?_) (reads.length.trans reads'.length.symm)
      rw [not_not.mp (clear i (by rwa [reads'.length] at inside))]
      exact reads'.spells i inside
    rw [lists, bytesSign, orderSign_self]
    rfl

end Bytes

end Readings

end AoclLibmem.Calls
