import AoclLibmem.Compare.MemcmpSpec
import AoclLibmem.Machine.LaneCompare
import AoclLibmem.Machine.Kernel

/-! The tests of the vector `memcmp` kernels: compare a block, or two, and leave with the
difference at the first unequal byte. Some keep the index of that byte in an `int`. -/

namespace AoclLibmem.Compare

open Base Machine

/-- `index` stored in an `int`, as an address offset. -/
def intIndex (index : Nat) : Int := (BitVec.ofNat 32 index).toInt

def orGo (test : Exec (Option Int)) (rest : Exec Int) : Exec Int := do
  match ← test with
  | some result => return result
  | none => rest

def elseTest (first second : Exec (Option Int)) : Exec (Option Int) := do
  match ← first with
  | some result => return some result
  | none => second

/-- `while (guard)`: test four vectors, `stride` bytes, at `offset` and go on behind them; then the
rest. -/
@[irreducible] def vec4Loop (stride : Nat) (guard : Nat → Bool) (test : Nat → Exec (Option Int))
    (rest : Nat → Exec Int) : Nat → Exec Int :=
  iterate .diverged (fun offset =>
    if guard offset then do
      match ← test offset with
      | some result => return .done result
      | none => return .next (offset + stride)
    else do return .done (← rest offset)) budget

section Kernel
variable (m : Memory) (mem1 mem2 : Nat) {n : Nat}

def loadAs (type : Access) (n addr : Nat) : Exec (Lanes n) :=
  if type.Allows n addr then m.loadu n addr else throw .fault

def leaveAt : Option Int → Exec (Option Int)
  | some index => do return some (← byteDiff m mem1 mem2 index)
  | none => return none

def testBlock (load : Nat → Exec (Lanes n)) (unequal : Lanes n → Lanes n → Option Nat)
    (index : Nat → Int) (place : Nat) : Exec (Option Int) := do
  let y0 ← load (mem2 + place)
  let y1 ← load (mem1 + place)
  leaveAt m mem1 mem2 ((unequal y0 y1).map fun lane => index (lane + place))

/-- The first unequal byte of two scalars in a register of `w` bits. -/
def unequalScalar (w : Nat) (a b : Lanes n) : Option Nat :=
  let res := scalarXor w a b
  if res ≠ 0#w then some (tzcnt res / 8) else none

/-- Two vectors under one merged test, the index in a `size_t`. -/
def testMerged (n : Nat) (place1 place2 : Nat) : Exec (Option Int) := do
  let y0 ← m.loadu n (mem2 + place1)
  let y1 ← m.loadu n (mem2 + place2)
  let y4 ← m.loadu n (mem1 + place1)
  let y5 ← m.loadu n (mem1 + place2)
  leaveAt m mem1 mem2 ((unequalPair y0 y4 y1 y5 place1 place2).map Nat.cast)

def testTwo (load : Nat → Exec (Lanes n)) (unequal : Lanes n → Lanes n → Option Nat)
    (index : Nat → Int) (place1 place2 : Nat) : Exec (Option Int) := do
  let y0 ← load (mem2 + place1)
  let y1 ← load (mem2 + place2)
  let y4 ← load (mem1 + place1)
  let y5 ← load (mem1 + place2)
  match unequal y0 y4 with
  | some lane => leaveAt m mem1 mem2 (some (index (lane + place1)))
  | none => leaveAt m mem1 mem2 ((unequal y1 y5).map fun lane => index (lane + place2))

/-- The last four vectors, the index in an `int`. -/
def tail4Ymm (size : Nat) (load : Nat → Exec (Lanes ymmSz)) : Exec Int :=
  orGo (testTwo m mem1 mem2 load unequalYmm intIndex (size - 4 * ymmSz) (size - 3 * ymmSz)) <|
  orGo (testTwo m mem1 mem2 load unequalYmm intIndex (size - 2 * ymmSz) (size - 1 * ymmSz)) (pure 0)

def testMerged4 (offset : Nat) : Exec (Option Int) :=
  elseTest (testMerged m mem1 mem2 ymmSz (offset + 0 * ymmSz) (offset + 1 * ymmSz))
    (testMerged m mem1 mem2 ymmSz (offset + 2 * ymmSz) (offset + 3 * ymmSz))

end Kernel

section Spec
variable (m : Memory) (mem1 mem2 size : Nat) (good : Nat → Prop)

def OrdersExactly (run : Exec Int) : Prop :=
  ∃ value, run = .ok value ∧ Orders m.byte mem1 mem2 size value

/-- The first difference is none of those that are handled well. -/
def Lost : Prop := ∃ k < size, FirstHit (Differs m.byte mem1 mem2) k ∧ ¬ good k

/-- A lost difference comes out as equality, when the run returns at all. -/
def Answers (value : Int) : Prop :=
  Orders m.byte mem1 mem2 size value ∧ ¬ Lost m mem1 mem2 size good ∨
    value = 0 ∧ Lost m mem1 mem2 size good

/-- A test answers, or clears the buffers up to `limit`. -/
def Tests (limit : Nat) (test : Exec (Option Int)) : Prop :=
  Ends test
    (fun result => match result with
      | some value => Answers m mem1 mem2 size good value
      | none => ClearBelow (Differs m.byte mem1 mem2) limit)
    fun _ => Lost m mem1 mem2 size good

/-- The difference at the index is an answer when `k` is the first difference. -/
def Serves (index : Nat → Int) (k : Nat) : Prop :=
  FirstHit (Differs m.byte mem1 mem2) k →
    Ends (byteDiff m mem1 mem2 (index k)) (Answers m mem1 mem2 size good)
      fun _ => Lost m mem1 mem2 size good

end Spec

section Rules
variable {m : Memory} {mem1 mem2 size : Nat} {good : Nat → Prop} {k limit : Nat}

theorem ordersExactly_iff {run : Exec Int}
    (ends : Ends run (Answers m mem1 mem2 size good) fun _ => Lost m mem1 mem2 size good) :
    OrdersExactly m mem1 mem2 size run ↔
      ∀ k < size, FirstHit (Differs m.byte mem1 mem2) k → good k := by
  have none_lost : (∀ k < size, FirstHit (Differs m.byte mem1 mem2) k → good k) ↔
      ¬ Lost m mem1 mem2 size good := by
    simp only [Lost, not_exists, not_and, not_not]
  rw [none_lost]
  constructor
  · rintro ⟨value, returned, orders⟩ lost
    rcases ends.of_ok returned with right | ⟨zero, _⟩
    · exact right.2 lost
    · obtain ⟨k, inside, first, _⟩ := lost
      exact first.1 |> orders.clear zero k inside
  · intro kept
    cases run with
    | error reason => exact absurd ends kept
    | ok value => exact ⟨value, rfl, (ends.resolve_right fun wrong => kept wrong.2).1⟩

theorem answers_same (clear : ClearBelow (Differs m.byte mem1 mem2) size) :
    Answers m mem1 mem2 size good 0 :=
  .inl ⟨.same clear, fun ⟨k, inside, first, _⟩ => clear k inside first.1⟩

private theorem answers_differ (first : FirstHit (Differs m.byte mem1 mem2) k) (inside : k < size)
    (kept : good k) : Answers m mem1 mem2 size good (gap (m.byte (mem1 + k)) (m.byte (mem2 + k))) := by
  refine .inl ⟨.differ first inside, ?_⟩
  rintro ⟨other, _, first', lost⟩
  rw [first'.unique first] at lost
  exact lost kept

theorem Buffers.serves_cast (buffers : Buffers m mem1 mem2 size) (inside : k < size)
    (kept : good k) : Serves m mem1 mem2 size good Nat.cast k := by
  intro first
  rw [buffers.byteDiff_eq inside]
  exact answers_differ first inside kept

theorem Buffers.byteDiff_last (buffers : Buffers m mem1 mem2 size) (last : size = k + 1)
    (clear : ClearBelow (Differs m.byte mem1 mem2) k) (kept : good k) :
    Ends (byteDiff m mem1 mem2 k) (Answers m mem1 mem2 size good)
      fun _ => Lost m mem1 mem2 size good := by
  rw [buffers.byteDiff_eq (by omega)]
  by_cases differs : Differs m.byte mem1 mem2 k
  · exact answers_differ ⟨differs, clear⟩ (by omega) kept
  · rw [gap_eq_zero.mpr (not_not.mp differs), ends_ok]
    refine answers_same fun i below => ?_
    by_cases same : i = k
    · rwa [same]
    · exact clear i (by omega)

private theorem intIndex_of_lt (small : k < 2 ^ 31) : intIndex k = k := by
  rw [intIndex, BitVec.toInt_eq_toNat_of_lt, BitVec.toNat_ofNat, Nat.mod_eq_of_lt (by omega)]
  rw [BitVec.toNat_ofNat]
  omega

private theorem intIndex_bounds (k : Nat) : -2 ^ 31 ≤ intIndex k ∧ intIndex k < 2 ^ 31 :=
  ⟨BitVec.le_toInt _, BitVec.toInt_lt⟩

/-- An index in an `int` is exact below 2^31. From there on it is another one: before the
buffers, or among bytes already found equal. -/
theorem Buffers.serves_int (buffers : Buffers m mem1 mem2 size) (inside : k < size)
    (kept : good k ↔ k < 2 ^ 31) : Serves m mem1 mem2 size good intIndex k := by
  intro first
  by_cases small : k < 2 ^ 31
  · rw [intIndex_of_lt small]
    exact buffers.serves_cast inside (kept.mpr small) first
  · have lost : Lost m mem1 mem2 size good := ⟨k, inside, first, fun within => small (kept.mp within)⟩
    have bounds := intIndex_bounds k
    by_cases behind : intIndex k < 0
    · cases returned : byteDiff m mem1 mem2 (intIndex k) with
      | error reason => exact lost
      | ok value => exact absurd returned (buffers.byteDiff_behind behind value)
    · obtain ⟨i, place⟩ := Int.eq_ofNat_of_zero_le (not_lt.mp behind)
      have earlier : i < k := by omega
      rw [place, buffers.byteDiff_eq (by omega), ends_ok]
      exact .inr ⟨gap_eq_zero.mpr (not_not.mp (first.2 i earlier)), lost⟩

def farByte : Memory :=
  twoBuffers (fun a => if a = 2 ^ 32 + 2 ^ 31 then 1 else 0) (2 ^ 32) (2 ^ 34) (2 ^ 31 + 1)

private theorem farByte_buffers : Buffers farByte (2 ^ 32) (2 ^ 34) (2 ^ 31 + 1) :=
  twoBuffers_buffers (by decide)

private theorem farByte_first : FirstHit (Differs farByte.byte (2 ^ 32) (2 ^ 34)) (2 ^ 31) := by
  refine ⟨by decide, fun i below differs => differs ?_⟩
  have zero {a : Nat} (other : a ≠ 2 ^ 32 + 2 ^ 31) : farByte.byte a = 0 := if_neg other
  rw [zero (by omega), zero (by omega)]

/-- A kernel that is not good at index 2^31 loses that byte. -/
theorem farByte_lost (kernel : Memory → Exec Int)
    (ends : ∀ m, Buffers m (2 ^ 32) (2 ^ 34) (2 ^ 31 + 1) →
      Ends (kernel m) (Answers m (2 ^ 32) (2 ^ 34) (2 ^ 31 + 1) good)
        fun _ => Lost m (2 ^ 32) (2 ^ 34) (2 ^ 31 + 1) good)
    (unfit : ¬ good (2 ^ 31)) :
    ¬ OrdersExactly farByte (2 ^ 32) (2 ^ 34) (2 ^ 31 + 1) (kernel farByte) := fun ordered =>
  unfit ((ordersExactly_iff (ends _ farByte_buffers)).mp ordered (2 ^ 31) (by omega) farByte_first)

theorem Tests.orGo {test : Exec (Option Int)} {rest : Exec Int}
    (tests : Tests m mem1 mem2 size good limit test)
    (further : ClearBelow (Differs m.byte mem1 mem2) limit →
      Ends rest (Answers m mem1 mem2 size good) fun _ => Lost m mem1 mem2 size good) :
    Ends (orGo test rest) (Answers m mem1 mem2 size good) fun _ => Lost m mem1 mem2 size good := by
  refine ends_bind.mpr (tests.imp ?_)
  intro result holds
  cases result with
  | some value => exact holds
  | none => exact further holds

theorem Tests.elseTest {first second : Exec (Option Int)} {near : Nat}
    (tests : Tests m mem1 mem2 size good near first)
    (further : ClearBelow (Differs m.byte mem1 mem2) near →
      Tests m mem1 mem2 size good limit second) :
    Tests m mem1 mem2 size good limit (elseTest first second) := by
  refine ends_bind.mpr (tests.imp ?_)
  intro result holds
  cases result with
  | some value => exact holds
  | none => exact further holds

theorem vec4Loop_ends {stride : Nat} {guard : Nat → Bool} {test : Nat → Exec (Option Int)}
    {rest : Nat → Exec Int} (positive : 0 < stride) (range : size < sizeRange)
    (invariant : Nat → Prop) {start : Nat} (initially : invariant start)
    (clear : ClearBelow (Differs m.byte mem1 mem2) start)
    (pass : ∀ offset, invariant offset → guard offset = true →
      ClearBelow (Differs m.byte mem1 mem2) offset → offset < size ∧ invariant (offset + stride) ∧
        Tests m mem1 mem2 size good (offset + stride) (test offset))
    (after : ∀ offset, invariant offset → guard offset ≠ true →
      ClearBelow (Differs m.byte mem1 mem2) offset →
        Ends (rest offset) (Answers m mem1 mem2 size good) fun _ => Lost m mem1 mem2 size good) :
    Ends (vec4Loop stride guard test rest start) (Answers m mem1 mem2 size good)
      fun _ => Lost m mem1 mem2 size good := by
  rw [vec4Loop]
  refine iterate_ends
    (fun offset => invariant offset ∧ ClearBelow (Differs m.byte mem1 mem2) offset)
    (fun offset => size - offset) ?_ ⟨initially, clear⟩ ?_
  · rintro offset ⟨holds, sofar⟩
    apply Ends.ite
    · intro inside
      obtain ⟨below, next, tests⟩ := pass offset holds inside sofar
      refine ends_bind.mpr (tests.imp ?_)
      intro result answer
      cases result with
      | some value => exact answer
      | none => exact ⟨⟨next, answer⟩, by omega⟩
    · intro outside
      exact ends_bind.mpr (after offset holds outside sofar)
  · rw [sizeRange_eq] at range
    rw [budget]
    omega

theorem Tests.last {test : Exec (Option Int)} (tests : Tests m mem1 mem2 size good limit test)
    (whole : size ≤ limit) :
    Ends (Compare.orGo test (pure 0)) (Answers m mem1 mem2 size good)
      fun _ => Lost m mem1 mem2 size good :=
  tests.orGo fun clear => answers_same (clear.mono whole)

theorem leaveAt_tests {index : Int}
    (ends : Ends (byteDiff m mem1 mem2 index) (Answers m mem1 mem2 size good)
      fun _ => Lost m mem1 mem2 size good) :
    Tests m mem1 mem2 size good limit (leaveAt m mem1 mem2 (some index)) :=
  ends_bind.mpr ends

end Rules

section Blocks
variable {m : Memory} {mem1 mem2 size : Nat} {good : Nat → Prop} {n clearTo place : Nat}

def Loads (m : Memory) (mem1 mem2 : Nat) (load : Nat → Exec (Lanes n)) (place : Nat) : Prop :=
  load (mem1 + place) = .ok (m.lanes n (mem1 + place)) ∧
    load (mem2 + place) = .ok (m.lanes n (mem2 + place))

theorem Buffers.loads_unaligned (buffers : Buffers m mem1 mem2 size) (inside : place + n ≤ size) :
    Loads m mem1 mem2 (m.loadu n) place :=
  ⟨Memory.loadu_eq (buffers.canRead inside).1, Memory.loadu_eq (buffers.canRead inside).2⟩

theorem Buffers.loads_as (buffers : Buffers m mem1 mem2 size) {type : Access}
    (inside : place + n ≤ size) (allowed1 : type.Allows n (mem1 + place))
    (allowed2 : type.Allows n (mem2 + place)) : Loads m mem1 mem2 (loadAs m type n) place := by
  have plain := buffers.loads_unaligned inside
  rw [Loads, loadAs, loadAs, if_pos allowed1, if_pos allowed2]
  exact plain

theorem unlike_lanes {i : Nat} (below : i < n) :
    Unlike (m.lanes n (mem2 + place)) (m.lanes n (mem1 + place)) i ↔
      Differs m.byte mem1 mem2 (place + i) := by
  unfold Unlike Differs
  simp only [below, exists_true_left, Memory.lanes_apply, Nat.add_assoc]
  exact ne_comm

theorem clear_of_reports (clear : ClearBelow (Differs m.byte mem1 mem2) clearTo)
    (near : place ≤ clearTo)
    (none : ∀ i < n, ¬ Unlike (m.lanes n (mem2 + place)) (m.lanes n (mem1 + place)) i) :
    ClearBelow (Differs m.byte mem1 mem2) (place + n) :=
  (clear.mono near).extend fun i below differs => none i below ((unlike_lanes below).mpr differs)

theorem first_of_reports {lane : Nat} (clear : ClearBelow (Differs m.byte mem1 mem2) clearTo)
    (near : place ≤ clearTo)
    (reports : Reports n (Unlike (m.lanes n (mem2 + place)) (m.lanes n (mem1 + place))) (some lane)) :
    FirstHit (Differs m.byte mem1 mem2) (lane + place) ∧ lane < n := by
  obtain ⟨below, found, before⟩ := reports.of_some
  refine ⟨?_, below⟩
  rw [Nat.add_comm]
  exact (clear.mono near).first ((unlike_lanes below).mp found) fun i less differs =>
    before i less ((unlike_lanes (by omega)).mpr differs)

theorem testBlock_tests {load : Nat → Exec (Lanes n)} {unequal : Lanes n → Lanes n → Option Nat}
    {index : Nat → Int} (clear : ClearBelow (Differs m.byte mem1 mem2) clearTo)
    (near : place ≤ clearTo) (loads : Loads m mem1 mem2 load place)
    (reports : ∀ a b, Reports n (Unlike a b) (unequal a b))
    (serves : ∀ k < place + n, Serves m mem1 mem2 size good index k) :
    Tests m mem1 mem2 size good (place + n) (testBlock m mem1 mem2 load unequal index place) := by
  rw [testBlock, loads.1, loads.2, ok_bind, ok_bind]
  have report := reports (m.lanes n (mem2 + place)) (m.lanes n (mem1 + place))
  cases result : unequal (m.lanes n (mem2 + place)) (m.lanes n (mem1 + place)) with
  | none =>
    rw [result] at report
    exact clear_of_reports clear near report.of_none
  | some lane =>
    rw [result] at report
    obtain ⟨first, below⟩ := first_of_reports clear near report
    exact leaveAt_tests (serves _ (by omega) first)

/-- A block test with a `size_t` index, of the first bytes. -/
theorem Buffers.testBlock_exact (buffers : Buffers m mem1 mem2 size)
    {unequal : Lanes n → Lanes n → Option Nat}
    (reports : ∀ a b, Reports n (Unlike a b) (unequal a b))
    (clear : ClearBelow (Differs m.byte mem1 mem2) clearTo) (near : place ≤ clearTo)
    (inside : place + n ≤ size) (kept : ∀ k < place + n, good k) :
    Tests m mem1 mem2 size good (place + n)
      (testBlock m mem1 mem2 (m.loadu n) unequal Nat.cast place) :=
  testBlock_tests clear near (buffers.loads_unaligned inside) reports fun k below =>
    buffers.serves_cast (by omega) (kept k below)

/-- The second block begins where the first ends, or before. -/
theorem testMerged_tests {place1 place2 : Nat}
    (clear : ClearBelow (Differs m.byte mem1 mem2) clearTo) (buffers : Buffers m mem1 mem2 size)
    (narrow : n ≤ 32) (near : place1 ≤ clearTo) (joined : place2 ≤ place1 + n)
    (inside1 : place1 + n ≤ size) (inside2 : place2 + n ≤ size)
    (kept : ∀ k, k < place1 + n ∨ k < place2 + n → good k) :
    Tests m mem1 mem2 size good (place2 + n) (testMerged m mem1 mem2 n place1 place2) := by
  obtain ⟨load1, load2⟩ := buffers.loads_unaligned inside1
  obtain ⟨load3, load4⟩ := buffers.loads_unaligned inside2
  rw [testMerged, load2, load4, load1, load3, ok_bind, ok_bind, ok_bind, ok_bind]
  have report := unequalPair_reports (a := m.lanes n (mem2 + place1)) (b := m.lanes n (mem1 + place1))
    (c := m.lanes n (mem2 + place2)) (d := m.lanes n (mem1 + place2)) narrow place1 place2
  cases result : unequalPair (m.lanes n (mem2 + place1)) (m.lanes n (mem1 + place1))
      (m.lanes n (mem2 + place2)) (m.lanes n (mem1 + place2)) place1 place2 with
  | none =>
    obtain ⟨none1, none2⟩ := report.1 result
    exact clear_of_reports (clear_of_reports clear near none1) joined none2
  | some k =>
    refine leaveAt_tests ?_
    rcases report.2 k result with ⟨lane, rfl, reports⟩ | ⟨lane, rfl, none1, reports⟩
    · obtain ⟨first, below⟩ := first_of_reports clear near reports
      exact buffers.serves_cast (by omega) (kept _ (by omega)) first
    · obtain ⟨first, below⟩ := first_of_reports (clear_of_reports clear near none1) joined reports
      exact buffers.serves_cast (by omega) (kept _ (by omega)) first

theorem testTwo_tests {load : Nat → Exec (Lanes n)} {unequal : Lanes n → Lanes n → Option Nat}
    {index : Nat → Int} {place1 place2 : Nat}
    (clear : ClearBelow (Differs m.byte mem1 mem2) clearTo)
    (loads1 : Loads m mem1 mem2 load place1) (loads2 : Loads m mem1 mem2 load place2)
    (reports : ∀ a b, Reports n (Unlike a b) (unequal a b))
    (near : place1 ≤ clearTo) (joined : place2 ≤ place1 + n)
    (serves : ∀ k, k < place1 + n ∨ k < place2 + n → Serves m mem1 mem2 size good index k) :
    Tests m mem1 mem2 size good (place2 + n)
      (testTwo m mem1 mem2 load unequal index place1 place2) := by
  rw [testTwo, loads1.2, loads2.2, loads1.1, loads2.1, ok_bind, ok_bind, ok_bind, ok_bind]
  have report1 := reports (m.lanes n (mem2 + place1)) (m.lanes n (mem1 + place1))
  have report2 := reports (m.lanes n (mem2 + place2)) (m.lanes n (mem1 + place2))
  cases result1 : unequal (m.lanes n (mem2 + place1)) (m.lanes n (mem1 + place1)) with
  | some lane =>
    rw [result1] at report1
    obtain ⟨first, below⟩ := first_of_reports clear near report1
    exact leaveAt_tests (serves _ (.inl (by omega)) first)
  | none =>
    rw [result1] at report1
    have further := clear_of_reports clear near report1.of_none
    cases result2 : unequal (m.lanes n (mem2 + place2)) (m.lanes n (mem1 + place2)) with
    | none =>
      rw [result2] at report2
      exact clear_of_reports further joined report2.of_none
    | some lane =>
      rw [result2] at report2
      obtain ⟨first, below⟩ := first_of_reports further joined report2
      exact leaveAt_tests (serves _ (.inr (by omega)) first)

theorem unequalScalar_reports {n w : Nat} (wide : 8 * n ≤ w) (a b : Lanes n) :
    Reports n (Unlike a b) (unequalScalar w a b) :=
  scalarXor_reports wide

theorem tail4Ymm_ends (buffers : Buffers m mem1 mem2 size) {clearTo : Nat}
    {load : Nat → Exec (Lanes 32)} (clear : ClearBelow (Differs m.byte mem1 mem2) clearTo)
    (loads : ∀ place, place + 32 ≤ size → Loads m mem1 mem2 load place) (large : 128 ≤ size)
    (near : size - 128 ≤ clearTo)
    (kept : ∀ k, FirstHit (Differs m.byte mem1 mem2) k → (good k ↔ k < 2 ^ 31)) :
    Ends (tail4Ymm m mem1 mem2 size load) (Answers m mem1 mem2 size good)
      fun _ => Lost m mem1 mem2 size good := by
  rw [tail4Ymm]
  simp only [ymmSz]
  have serves {k : Nat} (inside : k < size) : Serves m mem1 mem2 size good intIndex k :=
    fun first => buffers.serves_int inside (kept k first) first
  refine (testTwo_tests clear (loads _ (by omega)) (loads _ (by omega)) unequalYmm_reports (by omega)
    (by omega) fun k below => serves (by omega)).orGo fun further => ?_
  exact (testTwo_tests further (loads _ (by omega)) (loads _ (by omega)) unequalYmm_reports (by omega)
    (by omega) fun k below => serves (by omega)).last (by omega)

theorem testMerged4_tests (buffers : Buffers m mem1 mem2 size) {offset : Nat}
    (clear : ClearBelow (Differs m.byte mem1 mem2) offset) (inside : offset + 128 ≤ size)
    (kept : ∀ k < offset + 128, good k) :
    Tests m mem1 mem2 size good (offset + 128) (testMerged4 m mem1 mem2 offset) := by
  rw [testMerged4]
  simp only [ymmSz]
  refine (testMerged_tests clear buffers (by decide) (by omega) (by omega) (by omega) (by omega)
    fun k below => kept k (by omega)).elseTest fun further => ?_
  exact testMerged_tests further buffers (by decide) (by omega) (by omega) (by omega) (by omega)
    fun k below => kept k (by omega)

end Blocks

end AoclLibmem.Compare
