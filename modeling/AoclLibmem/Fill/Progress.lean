import AoclLibmem.Machine.StringInstr
import AoclLibmem.Base.Painted

/-! What a fill kernel has done so far, and what each store adds to it. -/

namespace AoclLibmem.Fill

open Base Machine

/-- `mem[0..size)` holds `value`, and nothing else has changed. -/
def Filled (before after : Memory) (mem size : Nat) (value : UInt8) : Prop :=
  (∀ i < size, after.byte (mem + i) = value) ∧
    ∀ a, ¬ (mem ≤ a ∧ a < mem + size) → after.byte a = before.byte a

def Buffer (m : Memory) (mem size : Nat) : Prop := ∀ i < size, m.writable (mem + i) = true

/-- The bytes with index in `done` have been set to those of the pattern. -/
structure Progress (start : Memory) (mem : Nat) (pattern : Nat → UInt8) (done : Set Nat) (m : Memory) :
    Prop where
  readable : m.readable = start.readable
  writable : m.writable = start.writable
  painted : Painted start.byte m.byte mem pattern done

section Steps
variable {start m : Memory} {mem size : Nat} {pattern : Nat → UInt8} {done other : Set Nat}

theorem Progress.refl (start : Memory) (mem : Nat) (pattern : Nat → UInt8) :
    Progress start mem pattern ∅ start :=
  ⟨rfl, rfl, .refl _ mem pattern⟩

theorem Progress.congr (progress : Progress start mem pattern done m)
    (same : ∀ i, i ∈ done ↔ i ∈ other) : Progress start mem pattern other m := by
  rwa [← Set.ext same]

theorem Progress.filled {value : UInt8} (progress : Progress start mem (fun _ => value) done m)
    (all : ∀ i, i ∈ done ↔ i < size) : Filled start m mem size value := by
  refine ⟨fun i below => progress.painted.painted i ((all i).mpr below), fun a outside => ?_⟩
  refine progress.painted.frame a fun i member same => outside ?_
  have below := (all i).mp member
  omega

theorem filled_unique {after last : Memory} {value : UInt8} (one : Filled start after mem size value)
    (other : Filled start last mem size value) : after.byte = last.byte := by
  funext a
  by_cases inside : mem ≤ a ∧ a < mem + size
  · obtain ⟨i, rfl⟩ := Nat.exists_eq_add_of_le inside.1
    rw [one.1 i (by omega), other.1 i (by omega)]
  · rw [one.2 a inside, other.2 a inside]

theorem vecStore_triple (buffer : Buffer start mem size) {type : Access} {n k : Nat} {v : Lanes n}
    (allows : type.Allows n (mem + k)) (inside : k + n ≤ size)
    (holds : ∀ i : Fin n, v i = pattern (k + i)) :
    Triple (Progress start mem pattern done) (vecStore n type (mem + k) v)
      fun _ => Progress start mem pattern (done ∪ Set.Ico k (k + n)) := by
  intro m progress
  have rights : m.canWrite (mem + k) n = true := by
    rw [Memory.canWrite_iff, progress.writable]
    intro i below
    rw [Nat.add_assoc]
    exact buffer (k + i) (by omega)
  refine ⟨(), m.write (mem + k) v, if_pos ⟨allows, rights⟩, progress.readable, progress.writable, ?_⟩
  refine progress.painted.extend (fun i member => ?_) fun a outside => ?_
  · have low := member.1
    have high := member.2
    have position : mem + k ≤ mem + i ∧ mem + i - (mem + k) < n := by omega
    have same : k + (mem + i - (mem + k)) = i := by omega
    exact (dif_pos position).trans ((holds _).trans (congrArg pattern same))
  · exact dif_neg fun position => outside (a - mem) ⟨by omega, by omega⟩ (by omega)

theorem maskStore_triple (buffer : Buffer start mem size) {n k len : Nat} {mask : BitVec n} {v : Lanes n}
    (lanes : ∀ i < n, mask.getLsbD i = true ↔ i < len) (short : len ≤ n) (inside : k + len ≤ size)
    (holds : ∀ i : Fin n, i < len → v i = pattern (k + i)) :
    Triple (Progress start mem pattern done) (maskStore n mask (mem + k) v)
      fun _ => Progress start mem pattern (done ∪ Set.Ico k (k + len)) := by
  intro m progress
  have writes : ∀ i : Fin n, mask.getLsbD i = true → m.writable (mem + k + i) = true := by
    intro i set
    have active := (lanes i i.isLt).mp set
    rw [progress.writable, Nat.add_assoc]
    exact buffer (k + i) (by omega)
  refine ⟨(), m.maskWrite mask (mem + k) v, if_pos writes, progress.readable, progress.writable, ?_⟩
  refine progress.painted.extend (fun i member => ?_) fun a outside => ?_
  · have low := member.1
    have high := member.2
    have position : mem + k ≤ mem + i ∧ mem + i - (mem + k) < n := by omega
    have set : mask.getLsbD (mem + i - (mem + k)) = true := (lanes _ position.2).mpr (by omega)
    have same : k + (mem + i - (mem + k)) = i := by omega
    refine (dif_pos ⟨position, set⟩).trans ((holds ⟨_, position.2⟩ ?_).trans (congrArg pattern same))
    dsimp only
    omega
  · refine dif_neg fun position => outside (a - mem) ⟨by omega, ?_⟩ (by omega)
    have active := (lanes _ position.1.2).mp position.2
    omega

/-- The same unit from index `k` on, when the pattern repeats it. -/
theorem repStos_triple (buffer : Buffer start mem size) {n k count : Nat} {v : Lanes n}
    (inside : k + count * n ≤ size) (holds : ∀ j, ∀ i : Fin n, v i = pattern (k + j * n + i)) :
    Triple (Progress start mem pattern done) (repStos n v (mem + k) count)
      fun _ => Progress start mem pattern (done ∪ Set.Ico k (k + count * n)) := by
  induction count generalizing k done with
  | zero =>
    refine triple_pure fun m progress => progress.congr fun i => ?_
    simp
  | succ count ih =>
    rw [Nat.succ_mul] at inside ⊢
    refine (vecStore_triple buffer allows_unaligned (by omega) fun i => ?_).bind fun _ => ?_
    · simpa using holds 0 i
    rw [Nat.add_assoc]
    refine (ih (by omega) fun j i => ?_).imp fun _ m progress => progress.congr fun i => ?_
    · rw [holds (j + 1) i, Nat.succ_mul]
      exact congrArg pattern (by omega)
    · simp only [Set.mem_union, Set.mem_Ico, or_assoc]
      refine or_congr_right ?_
      omega

end Steps

section Complete
variable {start : Memory} {mem size : Nat} {value : UInt8}

def Complete (start : Memory) (mem size : Nat) (value : UInt8) (result : Nat) (m : Memory) : Prop :=
  result = mem ∧ Filled start m mem size value

theorem complete_return {done : Set Nat} (all : ∀ i, i ∈ done ↔ i < size) :
    Triple (Progress start mem (fun _ => value) done) (pure mem : Kernel Nat)
      (Complete start mem size value) :=
  triple_pure fun _ progress => ⟨rfl, progress.filled all⟩

theorem runs_of_complete {run : Kernel Nat}
    (complete : Triple (Progress start mem (fun _ => value) ∅) run (Complete start mem size value)) :
    ∃ after, run start = .ok (mem, after) ∧ Filled start after mem size value := by
  obtain ⟨result, after, returned, rfl, filled⟩ := complete start (.refl start mem _)
  exact ⟨after, returned, filled⟩

end Complete

end AoclLibmem.Fill
