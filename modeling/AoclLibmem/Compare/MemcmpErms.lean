import AoclLibmem.Compare.MemcmpSpec
import AoclLibmem.Machine.StringInstr

/-! `load_compare_erms_impls.h` and `tunable/erms/memcmp_erms.c`. After the scan the bytes at
the start of the last compared unit decide, wherever in the unit the buffers differ. -/

namespace AoclLibmem.Compare

open Base Machine

/-- `cld; repz cmps`: unit after unit while both are equal; the final RSI and RDI, past the
last compared unit. -/
def repzCmps (m : Memory) (n : Nat) (rsi rdi : Nat) : Nat → Exec (Nat × Nat)
  | 0 => pure (rsi, rdi)
  | count + 1 => do
    let unit1 ← m.loadu n rsi
    let unit2 ← m.loadu n rdi
    if unit1 = unit2 then repzCmps m n (rsi + n) (rdi + n) count else pure (rsi + n, rdi + n)

/-- RCX for the operand `"c"(size)`, an `int`: the compiler leaves the upper half as it is. -/
def rcxOf (rcxHigh : BitVec 32) (size : Nat) : Nat := rcxHigh.toNat * 2 ^ 32 + size % 2 ^ 32

/-- `__erms_cmpsb`, `__erms_cmpsw`, `__erms_cmpsd`, `__erms_cmpsq`: `movzx` onto a word
register loads a byte. -/
def ermsCmps (m : Memory) (unit : StringUnit) (rcxHigh : BitVec 32) (mem1 mem2 size : Nat) :
    Exec Int := do
  let (rsi, rdi) ← repzCmps m unit.bytes mem1 mem2 (unit.count (rcxOf rcxHigh size))
  let al ← byteFrom m rsi (-unit.bytes)
  let dl ← byteFrom m rdi (-unit.bytes)
  return gap al dl

section Kernels
variable (m : Memory) (rcxHigh : BitVec 32) (mem1 mem2 size : Nat)

def memcmpErmsBAligned : Exec Int := ermsCmps m .b rcxHigh mem1 mem2 size

def memcmpErmsWAligned : Exec Int := ermsCmps m .w rcxHigh mem1 mem2 size

/-- `__memcmp_erms_d_aligned`; builds with `ALMEM_CMPSD_CLANG_WORKAROUND` compare words. -/
def memcmpErmsDAligned (clangWorkaround : Bool) : Exec Int :=
  if clangWorkaround then ermsCmps m .w rcxHigh mem1 mem2 size
  else ermsCmps m .d rcxHigh mem1 mem2 size

def memcmpErmsQAligned : Exec Int := ermsCmps m .q rcxHigh mem1 mem2 size

end Kernels

def OrdersSign (m : Memory) (mem1 mem2 size : Nat) (run : Exec Int) : Prop :=
  ∃ value exact, run = .ok value ∧ Orders m.byte mem1 mem2 size exact ∧ value.sign = exact.sign

/-- RCX counts at least one unit. The buffers are equal and it counts no unit past them, or
they first differ at the start of a unit that it counts. -/
def Served (byte : Nat → UInt8) (mem1 mem2 size : Nat) (unit : StringUnit) (rcxHigh : BitVec 32) :
    Prop :=
  let count := unit.count (rcxOf rcxHigh size)
  0 < count ∧
    ((ClearBelow (Differs byte mem1 mem2) size ∧ count * unit.bytes ≤ size) ∨
      ∃ k < size, FirstHit (Differs byte mem1 mem2) k ∧ k % unit.bytes = 0 ∧
        k < count * unit.bytes)

section Scan
variable {m : Memory} {mem1 mem2 n units : Nat}

private theorem lanes_eq_iff {place : Nat} : m.lanes n (mem1 + place) = m.lanes n (mem2 + place) ↔
    ∀ i < n, ¬ Differs m.byte mem1 mem2 (place + i) := by
  refine ⟨fun equal i below => ?_, fun same => funext fun i => ?_⟩
  · have lane := congrFun equal ⟨i, below⟩
    rwa [Memory.lanes_apply, Memory.lanes_apply, Nat.add_assoc, Nat.add_assoc, ← not_ne_iff] at lane
  · have lane := same i i.isLt
    rwa [Differs, not_ne_iff, ← Nat.add_assoc, ← Nat.add_assoc] at lane

private theorem repzCmps_behind (buffers : Buffers m mem1 mem2 (units * n)) (positive : 0 < n)
    (count : Nat) :
    repzCmps m n (mem1 + units * n) (mem2 + units * n) (count + 1) = .error .fault := by
  rw [repzCmps]
  by_cases first : m.canRead (mem1 + units * n) n = true
  · have missing : m.canRead (mem2 + units * n) n ≠ true := by
      intro second
      have lies := buffers.inside_of_both (by omega) (Memory.canRead_iff.mp first 0 positive)
        (Memory.canRead_iff.mp second 0 positive)
      omega
    rw [Memory.loadu_eq first, ok_bind, (m.reads_loadu n).faults _ missing]
    rfl
  · rw [(m.reads_loadu n).faults _ first]
    rfl

/-- The scan ends behind the unit of the first difference, behind its last unit, or at a
unit past two equal buffers. -/
private theorem repzCmps_ends (buffers : Buffers m mem1 mem2 (units * n)) (positive : 0 < n)
    (count : Nat) {j : Nat} (inside : j ≤ units)
    (clear : ClearBelow (Differs m.byte mem1 mem2) (j * n)) :
    Ends (repzCmps m n (mem1 + j * n) (mem2 + j * n) count)
      (fun out => ∃ e ≤ units, out = (mem1 + e * n, mem2 + e * n) ∧
        ((e = j + count ∧ ClearBelow (Differs m.byte mem1 mem2) (e * n)) ∨
          ∃ k, FirstHit (Differs m.byte mem1 mem2) k ∧ k / n + 1 = e ∧ e ≤ j + count))
      fun _ => ClearBelow (Differs m.byte mem1 mem2) (units * n) ∧ units < j + count := by
  induction count generalizing j with
  | zero => exact ⟨j, inside, rfl, .inl ⟨rfl, clear⟩⟩
  | succ count ih =>
    have next : j * n + n = (j + 1) * n := (Nat.succ_mul j n).symm
    by_cases last : j = units
    · rw [last, repzCmps_behind buffers positive, ends_error, ← last]
      exact ⟨clear, by omega⟩
    · have room : (j + 1) * n ≤ units * n := Nat.mul_le_mul_right n (by omega)
      obtain ⟨first, second⟩ := buffers.canRead (k := j * n) (n := n) (by omega)
      rw [repzCmps, Memory.loadu_eq first, ok_bind, Memory.loadu_eq second, ok_bind]
      apply Ends.ite
      · intro equal
        rw [Nat.add_assoc, Nat.add_assoc, next]
        have further : ClearBelow (Differs m.byte mem1 mem2) ((j + 1) * n) := by
          rw [← next]
          exact clear.extend (lanes_eq_iff.mp equal)
        refine (ih (by omega) further).mono ?_ ?_
        · rintro out ⟨e, le, rfl, stop⟩
          refine ⟨e, le, rfl, stop.imp (fun all => ⟨by omega, all.2⟩) ?_⟩
          rintro ⟨k, hit, here, bound⟩
          exact ⟨k, hit, here, by omega⟩
        · exact fun _ beyond => ⟨beyond.1, by omega⟩
      · intro unequal
        rcases clear_or_firstHit (Differs m.byte mem1 mem2) ((j + 1) * n) with all | found
        · exact absurd (lanes_eq_iff.mpr fun i below => all _ (by omega)) unequal
        · obtain ⟨k, below, hit⟩ := found
          have above : j * n ≤ k := hit.clear_le clear
          have unit : k / n = j := Nat.div_eq_of_lt_le above below
          refine ⟨j + 1, by omega, ?_, .inr ⟨k, hit, by rw [unit], by omega⟩⟩
          rw [← next, Nat.add_assoc, Nat.add_assoc]

end Scan

section Correct
variable {m : Memory} {mem1 mem2 size : Nat} {unit : StringUnit} {rcxHigh : BitVec 32}

theorem Buffers.unitStart (buffers : Buffers m mem1 mem2 size) {n e : Nat} (positive : 0 < n)
    (some : 0 < e) (inside : e * n ≤ size) :
    (do
      let al ← byteFrom m (mem1 + e * n) (-n)
      let dl ← byteFrom m (mem2 + e * n) (-n)
      return gap al dl : Exec Int) =
        .ok (gap (m.byte (mem1 + (e - 1) * n)) (m.byte (mem2 + (e - 1) * n))) := by
  have step : (e - 1) * n + n = e * n := by
    rw [← Nat.succ_mul, Nat.succ_eq_add_one, Nat.sub_add_cancel some]
  have back (mem : Nat) : byteFrom m (mem + e * n) (-n) = byteFrom m mem ((e - 1) * n : Nat) := by
    have same : ((mem + e * n : Nat) : Int) + -n = (mem : Int) + ((e - 1) * n : Nat) := by omega
    rw [byteFrom, byteFrom, same]
  rw [back, back]
  exact buffers.byteDiff_eq (by omega)

/-- What the scan and the step back return, exactly. -/
private theorem ermsCmps_ends (buffers : Buffers m mem1 mem2 size) (whole : size % unit.bytes = 0)
    (rcxHigh : BitVec 32) :
    let count := unit.count (rcxOf rcxHigh size)
    Ends (ermsCmps m unit rcxHigh mem1 mem2 size)
      (fun value => 0 < count ∧ count * unit.bytes ≤ size ∧
          ClearBelow (Differs m.byte mem1 mem2) (count * unit.bytes) ∧ value = 0 ∨
        ∃ k < size, FirstHit (Differs m.byte mem1 mem2) k ∧ k < count * unit.bytes ∧
          value = gap (m.byte (mem1 + k / unit.bytes * unit.bytes))
            (m.byte (mem2 + k / unit.bytes * unit.bytes)))
      fun _ => count = 0 ∨
        ClearBelow (Differs m.byte mem1 mem2) size ∧ size < count * unit.bytes := by
  intro count
  have positive : 0 < unit.bytes := Nat.two_pow_pos _
  obtain ⟨units, rfl⟩ : ∃ units, size = units * unit.bytes :=
    ⟨size / unit.bytes, (Nat.div_mul_cancel (Nat.dvd_of_mod_eq_zero whole)).symm⟩
  rw [ermsCmps]
  have scan := repzCmps_ends buffers positive count (Nat.zero_le units)
    (by rw [Nat.zero_mul]; exact clearBelow_zero)
  rw [Nat.zero_mul, Nat.add_zero, Nat.add_zero, Nat.zero_add] at scan
  refine ends_bind.mpr (scan.mono ?_ ?_)
  · rintro ⟨rsi, rdi⟩ ⟨e, le, out, stop⟩
    obtain ⟨rfl, rfl⟩ := Prod.mk.inj out
    dsimp only
    have room : e * unit.bytes ≤ units * unit.bytes := Nat.mul_le_mul_right _ le
    rcases Nat.eq_zero_or_pos e with rfl | some
    · have none : count = 0 := by
        rcases stop with ⟨all, _⟩ | ⟨k, _, here, _⟩
        · exact all.symm
        · exact absurd here (Nat.succ_ne_zero _)
      rw [Nat.zero_mul, Nat.add_zero, Nat.add_zero]
      change Ends (byteDiff m mem1 mem2 (-unit.bytes)) _ _
      cases back : byteDiff m mem1 mem2 (-unit.bytes) with
      | ok value => exact absurd back (buffers.byteDiff_behind (by omega) value)
      | error reason => exact .inl none
    · rw [buffers.unitStart positive some room, ends_ok]
      rcases stop with ⟨all, clear⟩ | ⟨k, hit, here, bound⟩
      · subst all
        have before : (count - 1) * unit.bytes < count * unit.bytes :=
          Nat.mul_lt_mul_of_pos_right (by omega) positive
        exact .inl ⟨some, room, clear, gap_eq_zero.mpr (not_not.mp (clear _ before))⟩
      · have below : k < e * unit.bytes := by
          rw [← here]
          exact Nat.lt_mul_of_div_lt (Nat.lt_succ_self _) positive
        have counted : e * unit.bytes ≤ count * unit.bytes := Nat.mul_le_mul_right _ bound
        refine .inr ⟨k, by omega, hit, by omega, ?_⟩
        rw [← here, Nat.add_sub_cancel]
  · rintro _ ⟨clear, beyond⟩
    exact .inr ⟨clear, Nat.mul_lt_mul_of_pos_right beyond positive⟩

/-- The run has the required sign exactly when the count serves the buffers. -/
theorem ermsCmps_orders_iff (buffers : Buffers m mem1 mem2 size) (whole : size % unit.bytes = 0) :
    OrdersSign m mem1 mem2 size (ermsCmps m unit rcxHigh mem1 mem2 size) ↔
      Served m.byte mem1 mem2 size unit rcxHigh := by
  have ends := ermsCmps_ends buffers whole rcxHigh
  have positive : 0 < unit.bytes := Nat.two_pow_pos _
  constructor
  · rintro ⟨value, exact, returned, orders, sign⟩
    rcases ends.of_ok returned with ⟨some, room, _, zero⟩ | ⟨k, inside, first, counted, result⟩
    · have none : exact = 0 := by rwa [zero, Int.sign_zero, eq_comm, Int.sign_eq_zero_iff_zero] at sign
      exact ⟨some, .inl ⟨orders.clear none, room⟩⟩
    · have some : unit.count (rcxOf rcxHigh size) ≠ 0 := by
        intro none
        rw [none, Nat.zero_mul] at counted
        exact Nat.not_lt_zero k counted
      refine ⟨Nat.pos_of_ne_zero some, .inr ⟨k, inside, first, ?_, counted⟩⟩
      by_contra within
      have start : k / unit.bytes * unit.bytes < k := by
        have split := Nat.div_add_mod' k unit.bytes
        omega
      have equal := not_not.mp (first.2 _ start)
      rw [result, gap_eq_zero.mpr equal, Int.sign_zero, eq_comm, Int.sign_eq_zero_iff_zero] at sign
      exact FirstHit.gap_ne_zero first ((orders.at_first first inside).symm.trans sign)
  · rintro ⟨some, served⟩
    cases run : ermsCmps m unit rcxHigh mem1 mem2 size with
    | error reason =>
      rw [run] at ends
      rcases ends with none | ⟨clear, beyond⟩
      · omega
      · rcases served with ⟨_, room⟩ | ⟨k, inside, first, _⟩
        · omega
        · exact absurd first.1 (clear k inside)
    | ok value =>
      refine ⟨value, ?_⟩
      rcases ends.of_ok run with ⟨_, room, clear, zero⟩ | ⟨k, inside, first, counted, result⟩
      · rcases served with ⟨all, _⟩ | ⟨k, _, first, _, counted⟩
        · exact ⟨0, rfl, .same all, by rw [zero]⟩
        · exact absurd first.1 (clear k counted)
      · refine ⟨_, rfl, .differ first inside, ?_⟩
        rcases served with ⟨all, _⟩ | ⟨other, _, first', start, _⟩
        · exact absurd first.1 (all k inside)
        · obtain rfl := first.unique first'
          rw [result, Nat.div_mul_cancel (Nat.dvd_of_mod_eq_zero start)]

/-- Exactly when each variant orders the buffers as `memcmp` does. An empty comparison, whose
count is zero, is never served: the step back leaves the buffers. -/
theorem memcmpErms_orders_iff (m : Memory) (mem1 mem2 size : Nat) (rcxHigh : BitVec 32)
    (buffers : Buffers m mem1 mem2 size) :
    (OrdersSign m mem1 mem2 size (memcmpErmsBAligned m rcxHigh mem1 mem2 size) ↔
      Served m.byte mem1 mem2 size .b rcxHigh) ∧
    (size % 2 = 0 → (OrdersSign m mem1 mem2 size (memcmpErmsWAligned m rcxHigh mem1 mem2 size) ↔
      Served m.byte mem1 mem2 size .w rcxHigh)) ∧
    (size % 4 = 0 → ∀ clangWorkaround, (OrdersSign m mem1 mem2 size
        (memcmpErmsDAligned m rcxHigh mem1 mem2 size clangWorkaround) ↔
      Served m.byte mem1 mem2 size (if clangWorkaround then .w else .d) rcxHigh)) ∧
    (size % 8 = 0 → (OrdersSign m mem1 mem2 size (memcmpErmsQAligned m rcxHigh mem1 mem2 size) ↔
      Served m.byte mem1 mem2 size .q rcxHigh)) := by
  refine ⟨?_, fun whole => ?_, fun whole clangWorkaround => ?_, fun whole => ?_⟩
  · exact ermsCmps_orders_iff buffers (StringUnit.whole_b size)
  · exact ermsCmps_orders_iff buffers whole
  · cases clangWorkaround with
    | true =>
      have words : size % StringUnit.w.bytes = 0 := by
        simp only [StringUnit.bytes, StringUnit.shift]
        omega
      exact ermsCmps_orders_iff buffers words
    | false =>
      have dwords : size % StringUnit.d.bytes = 0 := whole
      exact ermsCmps_orders_iff buffers dwords
  · exact ermsCmps_orders_iff buffers whole

theorem memcmpErms_orders_iff_qword :
    OrdersSign (twoBuffers UInt8.ofNat 16 64 8) 16 64 8
      (memcmpErmsQAligned (twoBuffers UInt8.ofNat 16 64 8) 0 16 64 8) :=
  ((memcmpErms_orders_iff _ 16 64 8 0 (twoBuffers_buffers (by decide))).2.2.2 (by decide)).mpr
    ⟨by decide, .inr ⟨0, by decide, ⟨by decide, clearBelow_zero⟩, by decide, by decide⟩⟩

def secondByte : Memory := twoBuffers (fun a => if a = 65 then 1 else 0) 16 64 2

/-- The second byte is taken for equal, and an empty comparison reads before the buffers. -/
theorem memcmpErmsWAligned_misses_second_byte :
    memcmpErmsWAligned secondByte 0 16 64 2 = .ok 0 ∧
      ¬ OrdersSign secondByte 16 64 2 (memcmpErmsWAligned secondByte 0 16 64 2) ∧
      memcmpErmsWAligned secondByte 0 16 64 0 = .error .fault := by
  refine ⟨by decide +kernel, fun ordered => ?_, by decide +kernel⟩
  have buffers : Buffers secondByte 16 64 2 := twoBuffers_buffers (by decide)
  have differs : Differs secondByte.byte 16 64 1 := by decide
  have served : Served secondByte.byte 16 64 2 .w 0 :=
    (ermsCmps_orders_iff buffers (by decide)).mp ordered
  rcases served.2 with ⟨all, _⟩ | ⟨k, _, first, start, _⟩
  · exact all 1 (by decide) differs
  · have before : k ≤ 1 := first.le_of_hit differs
    have even : k % 2 = 0 := start
    obtain rfl : k = 0 := by omega
    exact absurd first.1 (by decide)

end Correct

end AoclLibmem.Compare
