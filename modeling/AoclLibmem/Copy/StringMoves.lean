import AoclLibmem.Copy.LoadStoreSpec
import AoclLibmem.Machine.StringInstr

/-! The `rep movs` functions of `load_store_erms_impls.h` and the copy functions of
`tunable/erms` made from them. An asm statement changes memory, its output operands, and the
registers that it writes without naming them. -/

namespace AoclLibmem.Copy

open Base Machine

section Kernel
variable (unit : StringUnit) (dst src len : Nat)

/-- `__erms_movsb`, `__erms_movsw`, ...: `dst` is a read-write operand, so RDI is returned. -/
def ermsMovs : Kernel Nat := repMovs unit.bytes dst src (unit.count len)

/-- `__erms_movsb_last_byte`, ...: again RDI. -/
def ermsMovsLastByte : Kernel Nat := repMovs unit.bytes dst src (unit.count len)

/-- `__erms_movsb_back`, ...: what is in RAX. That is `dst`, waiting to be returned, except that the
text for bytes moves RDI there and does not say so. -/
def ermsMovsBack : Kernel Nat := do
  let last := wrapSub (dst + len) unit.bytes
  repMovsBack unit.bytes last (wrapSub (src + len) unit.bytes) (unit.count len)
  return if unit = .b then last else dst

/-- `__memmove_erms_b_aligned`, `__memmove_erms_w_aligned`, ... -/
def memmoveErmsAligned : Kernel Nat :=
  if src > dst then do
    let _ ← ermsMovs unit dst src len
    return dst
  else ermsMovsBack unit dst src len

def memcpyErmsBAligned := ermsMovs .b
def memcpyErmsWAligned := ermsMovs .w
def memcpyErmsDAligned := ermsMovs .d
def memcpyErmsQAligned := ermsMovs .q
def mempcpyErmsBAligned := ermsMovsLastByte .b
def memmoveErmsBAligned := memmoveErmsAligned .b

end Kernel

section Correct
variable {start : Memory} {dst src size : Nat} {done : Set Nat}

/-- Units from index `k` upwards, when none is overwritten before its turn. -/
theorem repMovs_triple (buffers : Buffers start dst src size) {n k count : Nat}
    (inside : k + count * n ≤ size)
    (safe : ∀ j < count, Intact dst src (done ∪ Set.Ico k (k + j * n))
      (Set.Ico (k + j * n) (k + j * n + n))) :
    Triple (Progress start dst src done) (repMovs n (dst + k) (src + k) count) fun last m =>
      last = dst + k + count * n ∧ Progress start dst src (done ∪ Set.Ico k (k + count * n)) m := by
  induction count generalizing k done with
  | zero =>
    refine triple_pure fun m progress => ⟨by omega, progress.congr fun i => ?_⟩
    simp
  | succ count ih =>
    rw [Nat.succ_mul] at inside ⊢
    have here : Intact dst src done (Set.Ico k (k + n)) := by
      intro i read j move
      exact safe 0 (Nat.succ_pos count) i (by simpa using read) j (.inl move)
    refine (vecLoad_triple buffers allows_unaligned (by omega) here).bind fun unit =>
      triple_fact fun holds => ?_
    refine (vecStore_triple buffers allows_unaligned (by omega) holds).bind fun _ => ?_
    rw [Nat.add_assoc dst, Nat.add_assoc src]
    refine (ih (by omega) fun j less => ?_).imp fun last m reached => ?_
    · intro i read p move
      have later := safe (j + 1) (by omega)
      rw [Nat.succ_mul] at later
      refine later i ?_ p ?_
      · have low := read.1
        have high := read.2
        exact ⟨by omega, by omega⟩
      · simp only [Set.mem_union, Set.mem_Ico, or_assoc] at move ⊢
        refine move.imp_right ?_
        omega
    · refine ⟨by have stop := reached.1; omega, reached.2.congr fun i => ?_⟩
      simp only [Set.mem_union, Set.mem_Ico, or_assoc]
      refine or_congr_right ?_
      omega

theorem repMovsBack_triple (buffers : Buffers start dst src size) {n k count : Nat}
    (inside : k + count * n ≤ size)
    (safe : ∀ j < count, Intact dst src
      (done ∪ Set.Ico (k + j * n + n) (k + count * n)) (Set.Ico (k + j * n) (k + j * n + n))) :
    Triple (Progress start dst src done)
      (repMovsBack n (dst + (k + count * n) - n) (src + (k + count * n) - n) count)
      fun _ => Progress start dst src (done ∪ Set.Ico k (k + count * n)) := by
  induction count generalizing done with
  | zero =>
    refine triple_pure fun m progress => progress.congr fun i => ?_
    simp
  | succ count ih =>
    rw [Nat.succ_mul] at inside safe ⊢
    have first (addr : Nat) : addr + (k + (count * n + n)) - n = addr + (k + count * n) := by omega
    rw [first, first]
    have here : Intact dst src done (Set.Ico (k + count * n) (k + count * n + n)) := by
      intro i read j move
      exact safe count (Nat.lt_succ_self count) i read j (.inl move)
    refine (vecLoad_triple buffers allows_unaligned (by omega) here).bind fun unit =>
      triple_fact fun holds => ?_
    refine (vecStore_triple buffers allows_unaligned (by omega) holds).bind fun _ => ?_
    refine (ih (by omega) fun j less => ?_).imp fun _ m progress => progress.congr fun i => ?_
    · intro i read p move
      refine safe j (by omega) i read p ?_
      have below : (j + 1) * n ≤ count * n := Nat.mul_le_mul_right n less
      rw [Nat.succ_mul] at below
      simp only [Set.mem_union, Set.mem_Ico, or_assoc] at move ⊢
      refine move.imp_right ?_
      omega
    · simp only [Set.mem_union, Set.mem_Ico, or_assoc]
      refine or_congr_right ?_
      omega

theorem ermsMovs_triple (buffers : Buffers start dst src size) {unit : StringUnit}
    (covers : unit.count size * unit.bytes = size) (clear : dst ≤ src ∨ src + size ≤ dst) :
    Triple (Progress start dst src ∅) (ermsMovs unit dst src size) fun last m =>
      (last = dst + size ∧ Copied start m dst src size) ∧
        m.readable = start.readable ∧ m.writable = start.writable := by
  refine (repMovs_triple (k := 0) buffers (by omega) fun j less => ?_).imp fun last m reached => ?_
  · have below : (j + 1) * unit.bytes ≤ unit.count size * unit.bytes := Nat.mul_le_mul_right _ less
    rw [Nat.succ_mul] at below
    rcases clear with down | apart
    · refine intact_forward (k := 0 + j * unit.bytes) down ?_ fun i member => member.1
      rintro p (none | ⟨_, high⟩)
      · exact none.elim
      · exact high
    · refine intact_of_apart (Or.inr apart : dst + size ≤ src ∨ _) ?_ fun i member => ?_
      · rintro p (none | ⟨_, high⟩)
        · exact none.elim
        · omega
      · have high := member.2
        omega
  · rw [covers] at reached
    exact ⟨⟨reached.1, reached.2.copied fun i => by simp⟩, reached.2.readable, reached.2.writable⟩

theorem ermsMovsBack_triple (buffers : Buffers start dst src size) {unit : StringUnit}
    (covers : unit.count size * unit.bytes = size) (up : src ≤ dst) :
    Triple (Progress start dst src ∅) (ermsMovsBack unit dst src size) fun last m =>
      (last = (if unit = .b then wrapSub (dst + size) unit.bytes else dst) ∧
        Copied start m dst src size) ∧
        m.readable = start.readable ∧ m.writable = start.writable := by
  have moves : Triple (Progress start dst src ∅)
      (repMovsBack unit.bytes (dst + (0 + unit.count size * unit.bytes) - unit.bytes)
        (src + (0 + unit.count size * unit.bytes) - unit.bytes) (unit.count size)) _ :=
    repMovsBack_triple buffers (by omega) fun j less => by
      refine intact_backward (k := 0 + j * unit.bytes + unit.bytes) up ?_ fun i member => member.2
      rintro p (none | ⟨low, _⟩)
      · exact none.elim
      · exact low
  rw [Nat.zero_add, covers, ← repMovsBack_wrapSub covers] at moves
  exact moves.bind fun _ => triple_pure fun _ progress =>
    ⟨⟨rfl, progress.copied fun i => by simp⟩, progress.readable, progress.writable⟩

/-- The calls after which `dst` is still in RAX. -/
def KeepsRax (unit : StringUnit) (dst src size : Nat) : Prop := unit = .b → dst < src ∨ size = 1

theorem back_eq_iff {unit : StringUnit} (up : src ≤ dst) :
    (if unit = .b then wrapSub (dst + size) unit.bytes else dst) = dst ↔ KeepsRax unit dst src size := by
  unfold KeepsRax
  split
  · next byte =>
    subst byte
    have kept : wrapSub (dst + size) 1 = dst ↔ size = 1 := wrapSub_one_eq_iff
    have upwards : ¬ dst < src := Nat.not_lt_of_le up
    simpa [StringUnit.bytes, StringUnit.shift, upwards] using kept
  · next other => simp [other]

/-- In the direction in which no unit is overwritten before its turn. -/
theorem memmoveErmsAligned_triple (buffers : Buffers start dst src size) {unit : StringUnit}
    (covers : unit.count size * unit.bytes = size) :
    Triple (Progress start dst src ∅) (memmoveErmsAligned unit dst src size) fun last m =>
      ((last = dst ↔ KeepsRax unit dst src size) ∧ Copied start m dst src size) ∧
        m.readable = start.readable ∧ m.writable = start.writable := by
  refine triple_ite (fun down => ?_) fun notDown => ?_
  · refine (ermsMovs_triple buffers covers (.inl (Nat.le_of_lt down))).bind fun _ =>
      triple_pure fun _ done => ⟨⟨iff_of_true rfl fun _ => .inl down, done.1.2⟩, done.2⟩
  · have up : src ≤ dst := Nat.le_of_not_lt notDown
    refine (ermsMovsBack_triple buffers covers up).imp fun last _ done => ⟨⟨?_, done.1.2⟩, done.2⟩
    rw [done.1.1]
    exact back_eq_iff up

theorem memmoveErmsAligned_complete (buffers : Buffers start dst src size) {unit : StringUnit}
    (covers : unit.count size * unit.bytes = size) (keeps : KeepsRax unit dst src size) :
    Triple (Progress start dst src ∅) (memmoveErmsAligned unit dst src size)
      (Complete start dst src size) :=
  (memmoveErmsAligned_triple buffers covers).imp fun _ _ done =>
    ⟨⟨done.1.1.mpr keeps, done.1.2⟩, done.2⟩

end Correct

end AoclLibmem.Copy
