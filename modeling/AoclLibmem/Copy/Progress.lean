import AoclLibmem.Fill.Progress
import AoclLibmem.Base.Moved

/-! What a copy kernel has done so far, relative to the memory it started on, and what
each load and each store adds to it. -/

namespace AoclLibmem.Copy

open Base Machine

/-- `dst[0..size)` holds what was in `src[0..size)`, and nothing else has changed. -/
def Copied (before after : Memory) (dst src size : Nat) : Prop :=
  (∀ i < size, after.byte (dst + i) = before.byte (src + i)) ∧
    ∀ a, ¬ (dst ≤ a ∧ a < dst + size) → after.byte a = before.byte a

/-- The rights a copy needs: to read the source and to write the destination. -/
structure Buffers (m : Memory) (dst src size : Nat) : Prop where
  source : ∀ i < size, m.readable (src + i) = true
  target : ∀ i < size, m.writable (dst + i) = true

def confined (m : Memory) (dst src size : Nat) : Memory :=
  { m with
    readable := fun a => decide (src ≤ a ∧ a < src + size)
    writable := fun a => decide (dst ≤ a ∧ a < dst + size) }

theorem confined_buffers (m : Memory) (dst src size : Nat) :
    Buffers (confined m dst src size) dst src size :=
  ⟨fun i below => decide_eq_true (by omega), fun i below => decide_eq_true (by omega)⟩

/-- The bytes with index in `done` have been moved, from their values at the start. -/
structure Progress (start : Memory) (dst src : Nat) (done : Set Nat) (m : Memory) : Prop where
  readable : m.readable = start.readable
  writable : m.writable = start.writable
  moved : Moved start.byte m.byte dst src done

def Holds (start : Memory) (src k : Nat) {n : Nat} (v : Lanes n) : Prop :=
  ∀ i : Fin n, v i = start.byte (src + k + i)

section Steps
variable {start m : Memory} {dst src size : Nat} {done other : Set Nat}

theorem Progress.refl (start : Memory) (dst src : Nat) : Progress start dst src ∅ start :=
  ⟨rfl, rfl, .refl _ dst src⟩

theorem Progress.congr (progress : Progress start dst src done m) (same : ∀ i, i ∈ done ↔ i ∈ other) :
    Progress start dst src other m := by
  rwa [← Set.ext same]

/-- A copy is a fill with the first values of the source. -/
theorem progress_iff_fill : Progress start dst src done m ↔
    Fill.Progress start dst (fun i => start.byte (src + i)) done m :=
  ⟨fun progress => ⟨progress.readable, progress.writable, moved_iff_painted.mp progress.moved⟩,
    fun progress => ⟨progress.readable, progress.writable, moved_iff_painted.mpr progress.painted⟩⟩

theorem Progress.copied (progress : Progress start dst src done m)
    (all : ∀ i, i ∈ done ↔ i < size) : Copied start m dst src size := by
  refine ⟨fun i below => progress.moved.moved i ((all i).mpr below), fun a outside => ?_⟩
  refine progress.moved.frame a fun i member same => outside ?_
  have below := (all i).mp member
  omega

theorem copied_unique {after last : Memory} (one : Copied start after dst src size)
    (other : Copied start last dst src size) : after.byte = last.byte := by
  funext a
  by_cases inside : dst ≤ a ∧ a < dst + size
  · obtain ⟨i, rfl⟩ := Nat.exists_eq_add_of_le inside.1
    rw [one.1 i (by omega), other.1 i (by omega)]
  · rw [one.2 a inside, other.2 a inside]

theorem vecLoad_triple (buffers : Buffers start dst src size) {type : Access} {n k : Nat}
    (allows : type.Allows n (src + k)) (inside : k + n ≤ size)
    (intact : Intact dst src done (Set.Ico k (k + n))) :
    Triple (Progress start dst src done) (vecLoad n type (src + k))
      fun v m => Holds start src k v ∧ Progress start dst src done m := by
  intro m progress
  have rights : m.canRead (src + k) n = true := by
    rw [Memory.canRead_iff, progress.readable]
    intro i below
    rw [Nat.add_assoc]
    exact buffers.source (k + i) (by omega)
  refine ⟨m.lanes n (src + k), m, if_pos ⟨allows, rights⟩, fun i => ?_, progress⟩
  rw [Memory.lanes_apply, Nat.add_assoc]
  exact progress.moved.source intact ⟨by omega, by omega⟩

theorem vecStore_triple (buffers : Buffers start dst src size) {type : Access} {n k : Nat}
    {v : Lanes n} (allows : type.Allows n (dst + k)) (inside : k + n ≤ size)
    (holds : Holds start src k v) :
    Triple (Progress start dst src done) (vecStore n type (dst + k) v)
      fun _ => Progress start dst src (done ∪ Set.Ico k (k + n)) := by
  have stores : Triple (Fill.Progress start dst (fun i => start.byte (src + i)) done)
      (vecStore n type (dst + k) v) _ :=
    Fill.vecStore_triple buffers.target allows inside fun i => by rw [holds i, Nat.add_assoc]
  exact (stores.from fun _ => progress_iff_fill.mp).imp fun _ _ => progress_iff_fill.mpr

theorem maskLoad_triple (buffers : Buffers start dst src size) {n k len : Nat} {mask : BitVec n}
    (lanes : ∀ i < n, mask.getLsbD i = true ↔ i < len) (inside : k + len ≤ size)
    (intact : Intact dst src done (Set.Ico k (k + len))) :
    Triple (Progress start dst src done) (maskLoad n mask (src + k)) fun v m =>
      (∀ i : Fin n, i < len → v i = start.byte (src + k + i)) ∧ Progress start dst src done m := by
  intro m progress
  have reads : ∀ i < n, mask.getLsbD i = true → m.readable (src + k + i) = true := by
    intro i below set
    have active := (lanes i below).mp set
    rw [progress.readable, Nat.add_assoc]
    exact buffers.source (k + i) (by omega)
  refine ⟨fun i => if mask.getLsbD i then m.byte (src + k + i) else setzero i, m, ?_, ?_, progress⟩
  · rw [maskLoad, Memory.maskLoadu_eq reads]
    rfl
  · intro i active
    dsimp only
    rw [if_pos ((lanes i i.isLt).mpr active), Nat.add_assoc]
    exact progress.moved.source intact ⟨by omega, by omega⟩

theorem maskStore_triple (buffers : Buffers start dst src size) {n k len : Nat} {mask : BitVec n}
    {v : Lanes n} (lanes : ∀ i < n, mask.getLsbD i = true ↔ i < len) (short : len ≤ n)
    (inside : k + len ≤ size) (holds : ∀ i : Fin n, i < len → v i = start.byte (src + k + i)) :
    Triple (Progress start dst src done) (maskStore n mask (dst + k) v)
      fun _ => Progress start dst src (done ∪ Set.Ico k (k + len)) := by
  have stores : Triple (Fill.Progress start dst (fun i => start.byte (src + i)) done)
      (maskStore n mask (dst + k) v) _ :=
    Fill.maskStore_triple buffers.target lanes short inside
      fun i active => by rw [holds i active, Nat.add_assoc]
  exact (stores.from fun _ => progress_iff_fill.mp).imp fun _ _ => progress_iff_fill.mpr

end Steps

end AoclLibmem.Copy
