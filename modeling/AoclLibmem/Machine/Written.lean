import AoclLibmem.Machine.StringInstr

/-! Writing a text into a window of memory: which of its bytes are there already. The other
bytes of the window are free, so a store may put anything in the place of a byte that a
later one sets right. -/

namespace AoclLibmem.Machine

open Base

/-- The rights are those of the start, and only bytes of the window have changed. -/
structure Framed (start : Memory) (low size : Nat) (m : Memory) : Prop where
  readable : m.readable = start.readable
  writable : m.writable = start.writable
  frame : ∀ a, ¬ (low ≤ a ∧ a < low + size) → m.byte a = start.byte a

/-- Only bytes of the window have changed, and those with index in `done` are the text's. -/
structure Written (start : Memory) (dst size : Nat) (text : Nat → UInt8) (done : Nat → Prop)
    (m : Memory) : Prop extends Framed start dst size m where
  text : ∀ j, done j → m.byte (dst + j) = text j

/-- The register was loaded from `addr`, from a memory that differs in the window only. -/
def Seen (start : Memory) (dst size : Nat) {n : Nat} (v : Lanes n) (addr : Nat) : Prop :=
  ∃ m, Framed start dst size m ∧ v = m.lanes n addr

section Steps
variable {start m : Memory} {dst size n k len : Nat} {text : Nat → UInt8} {done further : Nat → Prop}
variable {type : Access} {v : Lanes n}

theorem Framed.refl (start : Memory) (dst size : Nat) : Framed start dst size start :=
  ⟨rfl, rfl, fun _ _ => rfl⟩

/-- A load that lacks its rights stops the run, whatever was written before. -/
theorem Framed.load_faults {addr : Nat} (framed : Framed start dst size m)
    (missing : start.canRead addr n ≠ true) : vecLoad n type addr m = .error .fault := by
  refine if_neg fun ready => missing ?_
  have rights := ready.2
  rw [Memory.canRead_iff] at rights ⊢
  rwa [framed.readable] at rights

theorem Written.refl (start : Memory) (dst size : Nat) (text : Nat → UInt8) :
    Written start dst size text (fun _ => False) start :=
  ⟨.refl start dst size, fun _ none => none.elim⟩

theorem Written.mono (written : Written start dst size text done m)
    (less : ∀ j, further j → done j) : Written start dst size text further m :=
  ⟨written.toFramed, fun j member => written.text j (less j member)⟩

theorem written_load {addr : Nat} (rights : start.canRead addr n = true) (allows : type.Allows n addr) :
    Triple (Written start dst size text done) (vecLoad n type addr)
      fun v m => Seen start dst size v addr ∧ Written start dst size text done m := by
  intro m written
  have same : m.canRead addr n = true := by
    rw [Memory.canRead_iff] at rights ⊢
    rwa [written.readable]
  exact ⟨m.lanes n addr, m, if_pos ⟨allows, same⟩, ⟨m, written.toFramed, rfl⟩, written⟩

theorem written_maskLoadOnto {fill : Lanes n} {mask : BitVec n} {addr : Nat}
    (rights : ∀ i < n, mask.getLsbD i = true → start.readable (addr + i) = true) :
    Triple (Written start dst size text done) (maskLoadOnto fill mask addr)
      fun v m => (∃ seen, Framed start dst size seen ∧
        v = fun i : Fin n => if mask.getLsbD i then seen.byte (addr + i) else fill i) ∧
        Written start dst size text done m := by
  intro m written
  have same : ∀ i < n, mask.getLsbD i = true → m.readable (addr + i) = true := by
    rwa [written.readable]
  refine ⟨_, m, ?_, ⟨m, written.toFramed, rfl⟩, written⟩
  rw [maskLoadOnto, Memory.maskLoadu_eq same]
  rfl

theorem written_maskLoad {mask : BitVec n} {addr : Nat}
    (rights : ∀ i < n, mask.getLsbD i = true → start.readable (addr + i) = true) :
    Triple (Written start dst size text done) (maskLoad n mask addr)
      fun v m => (∃ seen, Framed start dst size seen ∧
        v = fun i : Fin n => if mask.getLsbD i then seen.byte (addr + i) else 0) ∧
        Written start dst size text done m :=
  written_maskLoadOnto rights

/-- Four vectors at a multiple of their size, loaded from one memory. -/
theorem written_load4 {α : Type} {addr : Nat} {goal : α → Memory → Prop}
    {next : Lanes n → Lanes n → Lanes n → Lanes n → Kernel α} (aligned : addr % (4 * n) = 0)
    (rights : start.canRead addr (4 * n) = true)
    (rest : ∀ m, Framed start dst size m → Triple (Written start dst size text done)
      (next (m.lanes n addr) (m.lanes n (addr + n)) (m.lanes n (addr + 2 * n))
        (m.lanes n (addr + 3 * n))) goal) :
    Triple (Written start dst size text done) (do
      let y1 ← vecLoad n .aligned addr
      let y2 ← vecLoad n .aligned (addr + n)
      let y3 ← vecLoad n .aligned (addr + 2 * n)
      let y4 ← vecLoad n .aligned (addr + 3 * n)
      next y1 y2 y3 y4) goal := by
  intro m written
  have vector : addr % n = 0 := by
    rw [← Nat.mod_mul_left_mod addr 4 n, aligned, Nat.zero_mod]
  have load (j : Nat) (below : j < 4) :
      vecLoad n .aligned (addr + j * n) m = .ok (m.lanes n (addr + j * n), m) := by
    have part : j * n + n ≤ 4 * n := by
      rw [← Nat.succ_mul]
      exact Nat.mul_le_mul_right n below
    have readable := Memory.canRead_sub rights part
    refine if_pos ⟨(allows_of_aligned vector).add_mul j, ?_⟩
    rw [Memory.canRead_iff] at readable ⊢
    rwa [written.readable]
  have load1 := load 0 (by omega)
  have load2 := load 1 (by omega)
  rw [Nat.zero_mul, Nat.add_zero] at load1
  rw [Nat.one_mul] at load2
  obtain ⟨value, after, returned, holds⟩ := rest m written.toFramed m written
  refine ⟨value, after, ?_, holds⟩
  rw [← returned]
  simp only [bind, StateT.bind, load1, load2, load 2 (by omega), load 3 (by omega), Except.bind]

/-- A store into the window. The lanes that count are those of the text. -/
theorem written_store (target : start.canWrite dst size = true) (allows : type.Allows n (dst + k))
    (inside : k + n ≤ size) (lanes : ∀ i : Fin n, further (k + i) → v i = text (k + i))
    (joins : ∀ j, further j → done j ∨ k ≤ j ∧ j < k + n) :
    Triple (Written start dst size text done) (vecStore n type (dst + k) v)
      fun _ => Written start dst size text further := by
  intro m written
  have rights : m.canWrite (dst + k) n = true := by
    rw [Memory.canWrite_iff] at target ⊢
    intro i below
    rw [written.writable, Nat.add_assoc]
    exact target _ (by omega)
  refine ⟨(), m.write (dst + k) v, if_pos ⟨allows, rights⟩, ⟨written.readable, written.writable, ?_⟩, ?_⟩
  · intro a outside
    exact (dif_neg fun position => outside (by omega)).trans (written.frame a outside)
  · intro j member
    by_cases position : dst + k ≤ dst + j ∧ dst + j - (dst + k) < n
    · have same : k + (dst + j - (dst + k)) = j := by omega
      have lane := lanes ⟨dst + j - (dst + k), position.2⟩
      dsimp only at lane
      rw [same] at lane
      exact (dif_pos position).trans (lane member)
    · have old := (joins j member).resolve_right fun new => position (by omega)
      exact (dif_neg position).trans (written.text j old)

theorem written_add (target : start.canWrite dst size = true) (allows : type.Allows n (dst + k))
    (inside : k + n ≤ size) (lanes : ∀ i : Fin n, v i = text (k + i)) :
    Triple (Written start dst size text done) (vecStore n type (dst + k) v)
      fun _ => Written start dst size text fun j => done j ∨ k ≤ j ∧ j < k + n :=
  written_store target allows inside (fun i _ => lanes i) fun _ member => member

theorem written_maskStore (target : start.canWrite dst size = true) {mask : BitVec n}
    (set : ∀ i < n, mask.getLsbD i = true ↔ i < len) (inside : k + len ≤ size)
    (lanes : ∀ i : Fin n, i < len → further (k + i) → v i = text (k + i))
    (joins : ∀ j, further j → done j ∨ k ≤ j ∧ j < k + len ∧ j < k + n) :
    Triple (Written start dst size text done) (maskStore n mask (dst + k) v)
      fun _ => Written start dst size text further := by
  intro m written
  have writes : ∀ i : Fin n, mask.getLsbD i = true → m.writable (dst + k + i) = true := by
    intro i active
    have below := (set i i.isLt).mp active
    rw [Memory.canWrite_iff] at target
    rw [written.writable, Nat.add_assoc]
    exact target _ (by omega)
  refine ⟨(), m.maskWrite mask (dst + k) v, if_pos writes, ⟨written.readable, written.writable, ?_⟩, ?_⟩
  · intro a outside
    refine (dif_neg fun position => outside ?_).trans (written.frame a outside)
    have active := (set _ position.1.2).mp position.2
    omega
  · intro j member
    by_cases position : (dst + k ≤ dst + j ∧ dst + j - (dst + k) < n) ∧
        mask.getLsbD (dst + j - (dst + k)) = true
    · have active := (set _ position.1.2).mp position.2
      have same : k + (dst + j - (dst + k)) = j := by omega
      have lane := lanes ⟨dst + j - (dst + k), position.1.2⟩ active
      dsimp only at lane
      rw [same] at lane
      exact (dif_pos position).trans (lane member)
    · refine (dif_neg position).trans (written.text j ((joins j member).resolve_right fun new => ?_))
      exact position ⟨by omega, (set _ (by omega)).mpr (by omega)⟩

theorem written_repStos (target : start.canWrite dst size = true) {unit : Lanes 1} {count : Nat}
    (inside : k + count ≤ size) (lanes : ∀ j, k ≤ j → j < k + count → unit 0 = text j)
    (joins : ∀ j, further j → done j ∨ k ≤ j ∧ j < k + count) :
    Triple (Written start dst size text done) (repStos 1 unit (dst + k) count)
      fun _ => Written start dst size text further := by
  induction count generalizing k done with
  | zero =>
    refine triple_pure fun m written => written.mono fun j member => ?_
    exact (joins j member).resolve_right (by omega)
  | succ count ih =>
    have first : Triple (Written start dst size text done) (vecStore 1 .unaligned (dst + k) unit)
        fun _ => Written start dst size text fun j => done j ∨ j = k := by
      apply written_store target allows_unaligned (by omega)
      · intro i _
        have zero : i = 0 := Fin.fin_one_eq_zero i
        rw [zero]
        exact lanes _ (by omega) (by simp)
      · rintro j (old | rfl)
        · exact .inl old
        · exact .inr ⟨Nat.le_refl j, Nat.lt_succ_self j⟩
    refine first.bind fun _ => ?_
    rw [Nat.add_assoc]
    apply ih (by omega)
    · intro j low high
      exact lanes j (by omega) (by omega)
    · intro j member
      rcases joins j member with old | ⟨low, high⟩
      · exact .inl (.inl old)
      · by_cases same : j = k
        · exact .inl (.inr same)
        · exact .inr ⟨by omega, by omega⟩

end Steps

end AoclLibmem.Machine
