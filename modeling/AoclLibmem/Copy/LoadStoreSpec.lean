import AoclLibmem.Copy.LoadStore
import AoclLibmem.Copy.Progress

/-! What the movers move, as triples on the progress of a copy. Every rule asks that the
bytes a mover loads are intact at that time; overlapping buffers are admitted. -/

namespace AoclLibmem.Copy

open Base Machine

/-- The indices covered by vectors of `n` bytes at the given places. -/
def Spans (n base : Nat) (places : List Nat) : Set Nat :=
  {i | ∃ k ∈ places, base + k ≤ i ∧ i < base + k + n}

section Places
variable {n base count offset size i : Nat} {places others : List Nat}

theorem spans_cons (k : Nat) : Spans n base (k :: places) =
    Set.Ico (base + k) (base + k + n) ∪ Spans n base places := by
  ext i
  simp [Spans]

theorem spans_append : Spans n base (places ++ others) = Spans n base places ∪ Spans n base others := by
  ext i
  simp [Spans, or_and_right, exists_or]

private theorem mem_row (low : offset ≤ i) (high : i < offset + count * n) :
    ∃ j < count, offset + j * n ≤ i ∧ i < offset + j * n + n := by
  have positive : 0 < n := Nat.pos_of_ne_zero fun zero => by
    rw [zero, Nat.mul_zero] at high
    omega
  have split := Nat.div_add_mod (i - offset) n
  have rest := Nat.mod_lt (i - offset) positive
  refine ⟨(i - offset) / n, (Nat.div_lt_iff_lt_mul positive).mpr (by omega), ?_, ?_⟩
  all_goals
    rw [Nat.mul_comm] at split
    omega

theorem row_end {j : Nat} (less : j < count) : j * n + n ≤ count * n := by
  rw [← Nat.succ_mul]
  exact Nat.mul_le_mul_right n less

theorem mem_upwards {k : Nat} : k ∈ upwards n count offset ↔ ∃ j < count, k = offset + j * n := by
  simp [upwards, eq_comm]

theorem mem_downwards {k : Nat} : k ∈ downwards n count size ↔ ∃ j < count, k = size - (j + 1) * n := by
  simp [downwards, eq_comm]

theorem upwards_fits {k : Nat} (member : k ∈ upwards n count offset) :
    offset ≤ k ∧ k + n ≤ offset + count * n := by
  obtain ⟨j, less, rfl⟩ := mem_upwards.mp member
  have last := row_end (n := n) less
  omega

theorem downwards_fits {k : Nat} (room : count * n ≤ size) (member : k ∈ downwards n count size) :
    size - count * n ≤ k ∧ k + n ≤ size := by
  obtain ⟨j, less, rfl⟩ := mem_downwards.mp member
  have last := row_end (n := n) less
  rw [Nat.succ_mul]
  omega

theorem upwards_allows {type : Access} {addr k : Nat} (allows : type.Allows n (addr + offset))
    (member : k ∈ upwards n count offset) : type.Allows n (addr + k) := by
  obtain ⟨j, _, rfl⟩ := mem_upwards.mp member
  rw [← Nat.add_assoc]
  exact allows.add_mul j

theorem downwards_allows {type : Access} {addr k : Nat} (room : count * n ≤ size)
    (allows : type.Allows n (addr + size)) (member : k ∈ downwards n count size) :
    type.Allows n (addr + k) := by
  obtain ⟨j, less, rfl⟩ := mem_downwards.mp member
  have last := row_end (n := n) less
  exact allows.sub_mul (by rw [Nat.succ_mul]; omega)

theorem spans_upwards :
    Spans n base (upwards n count offset) = Set.Ico (base + offset) (base + offset + count * n) := by
  ext i
  constructor
  · rintro ⟨k, member, low, high⟩
    have fits := upwards_fits member
    exact ⟨by omega, by omega⟩
  · rintro ⟨low, high⟩
    obtain ⟨j, less, above, under⟩ := mem_row low high
    exact ⟨_, mem_upwards.mpr ⟨j, less, rfl⟩, by omega, by omega⟩

private theorem spans_downwards (room : count * n ≤ size) :
    Spans n base (downwards n count size) = Set.Ico (base + (size - count * n)) (base + size) := by
  ext i
  constructor
  · rintro ⟨k, member, low, high⟩
    have fits := downwards_fits room member
    exact ⟨by omega, by omega⟩
  · rintro ⟨low, high⟩
    have mirror : count * n - (i - (base + (size - count * n))) - 1 < 0 + count * n := by omega
    obtain ⟨j, less, above, under⟩ := mem_row (Nat.zero_le _) mirror
    refine ⟨_, mem_downwards.mpr ⟨j, less, rfl⟩, ?_, ?_⟩
    all_goals
      have last := row_end (n := n) less
      rw [Nat.succ_mul]
      omega

end Places

section Batches
variable {start : Memory} {dst src size : Nat} {done : Set Nat} {n : Nat}
variable {loadType storeType : Access} {places : List Nat}

def AllHold (start : Memory) (src base : Nat) (places : List Nat) (vecs : List (Lanes n)) : Prop :=
  List.Forall₂ (fun k vec => Holds start src (base + k) vec) places vecs

private theorem loadAll_triple (base : Nat) (buffers : Buffers start dst src size)
    (allows : ∀ k ∈ places, loadType.Allows n (src + base + k))
    (inside : ∀ k ∈ places, base + k + n ≤ size)
    (intact : Intact dst src done (Spans n base places)) :
    Triple (Progress start dst src done) (loadAll n loadType (src + base) places)
      fun vecs m => AllHold start src base places vecs ∧ Progress start dst src done m := by
  induction places with
  | nil => exact triple_pure fun m progress => ⟨.nil, progress⟩
  | cons k places ih =>
    rw [spans_cons] at intact
    have first := vecLoad_triple buffers (k := base + k)
      (by rw [← Nat.add_assoc]; exact allows k List.mem_cons_self) (inside k List.mem_cons_self)
      fun i member => intact i (.inl member)
    rw [← Nat.add_assoc] at first
    refine first.bind fun vec => triple_fact fun holds => ?_
    refine (ih (fun k' member => allows k' (List.mem_cons_of_mem k member))
      (fun k' member => inside k' (List.mem_cons_of_mem k member))
      fun i member => intact i (.inr member)).bind fun vecs => triple_fact fun all => ?_
    exact triple_pure fun m progress => ⟨.cons holds all, progress⟩

private theorem storeAll_triple (base : Nat) (buffers : Buffers start dst src size)
    {vecs : List (Lanes n)} (allows : ∀ k ∈ places, storeType.Allows n (dst + base + k))
    (inside : ∀ k ∈ places, base + k + n ≤ size) (all : AllHold start src base places vecs) :
    Triple (Progress start dst src done) (storeAll n storeType (dst + base) places vecs)
      fun _ => Progress start dst src (done ∪ Spans n base places) := by
  induction all generalizing done with
  | nil =>
    refine triple_pure fun m progress => progress.congr fun i => ?_
    simp [Spans]
  | @cons k vec places vecs holds all ih =>
    have first : Triple (Progress start dst src done) _ _ := vecStore_triple buffers (k := base + k)
      (by rw [← Nat.add_assoc]; exact allows k List.mem_cons_self) (inside k List.mem_cons_self) holds
    rw [← Nat.add_assoc] at first
    refine first.bind fun _ => ?_
    refine (ih (fun k' member => allows k' (List.mem_cons_of_mem k member))
      fun k' member => inside k' (List.mem_cons_of_mem k member)).imp fun _ m progress => ?_
    rwa [spans_cons, ← Set.union_assoc]

theorem loadStore_triple (base : Nat) (buffers : Buffers start dst src size)
    (loads : ∀ k ∈ places, loadType.Allows n (src + base + k))
    (stores : ∀ k ∈ places, storeType.Allows n (dst + base + k))
    (inside : ∀ k ∈ places, base + k + n ≤ size)
    (intact : Intact dst src done (Spans n base places)) :
    Triple (Progress start dst src done)
      (loadStore n loadType storeType (dst + base) (src + base) places)
      fun _ => Progress start dst src (done ∪ Spans n base places) :=
  (loadAll_triple base buffers loads inside intact).bind fun _ => triple_fact fun all =>
    storeAll_triple base buffers stores inside all

end Batches

section Macros
variable {start : Memory} {dst src size : Nat} {done : Set Nat} {n base count len offset : Nat}
variable {loadType storeType : Access}

theorem vecLoadStore_triple (base : Nat) (buffers : Buffers start dst src size)
    (loads : loadType.Allows n (src + base + offset)) (stores : storeType.Allows n (dst + base + offset))
    (inside : base + offset + count * n ≤ size)
    (intact : Intact dst src done (Set.Ico (base + offset) (base + offset + count * n))) :
    Triple (Progress start dst src done)
      (vecLoadStore n loadType storeType count (dst + base) (src + base) offset)
      fun _ => Progress start dst src
        (done ∪ Set.Ico (base + offset) (base + offset + count * n)) := by
  rw [← spans_upwards] at intact ⊢
  refine loadStore_triple base buffers (fun _ member => upwards_allows loads member)
    (fun _ member => upwards_allows stores member) (fun k member => ?_) intact
  have fits := upwards_fits member
  omega

theorem vecLoadStoreHeadTail_triple (base : Nat) (buffers : Buffers start dst src size)
    (room : count / 2 * n ≤ len) (inside : base + len ≤ size)
    (intact : Intact dst src done (Set.Ico base (base + len))) :
    Triple (Progress start dst src done)
      (vecLoadStoreHeadTail n .unaligned .unaligned count (dst + base) (src + base) len)
      fun _ => Progress start dst src (done ∪ (Set.Ico base (base + count / 2 * n) ∪
        Set.Ico (base + (len - count / 2 * n)) (base + len))) := by
  have region : Spans n base (upwards n (count / 2) 0 ++ upwards n (count / 2) (len - count / 2 * n)) =
      Set.Ico base (base + count / 2 * n) ∪
        Set.Ico (base + (len - count / 2 * n)) (base + len) := by
    rw [spans_append, spans_upwards, spans_upwards, Nat.add_zero, Nat.add_assoc base,
      Nat.sub_add_cancel room]
  rw [← region]
  refine loadStore_triple base buffers (fun _ _ => allows_unaligned) (fun _ _ => allows_unaligned) ?_ ?_
  · intro k member
    rcases List.mem_append.mp member with head | tail
    · have fits := upwards_fits head
      omega
    · have fits := upwards_fits tail
      omega
  · rw [region]
    rintro i (head | tail)
    · exact intact i ⟨head.1, Nat.lt_of_lt_of_le head.2 (Nat.add_le_add_left room base)⟩
    · exact intact i ⟨Nat.le_trans (Nat.le_add_right _ _) tail.1, tail.2⟩

theorem headTail_whole (base : Nat) (buffers : Buffers start dst src size)
    (room : count / 2 * n ≤ len) (covers : len ≤ count / 2 * n + count / 2 * n)
    (inside : base + len ≤ size) (intact : Intact dst src done (Set.Ico base (base + len))) :
    Triple (Progress start dst src done)
      (vecLoadStoreHeadTail n .unaligned .unaligned count (dst + base) (src + base) len)
      fun _ => Progress start dst src (done ∪ Set.Ico base (base + len)) := by
  refine (vecLoadStoreHeadTail_triple base buffers room inside intact).imp fun _ m progress => ?_
  refine progress.congr fun i => or_congr_right ?_
  simp only [Set.mem_union, Set.mem_Ico]
  omega

private theorem block_triple (buffers : Buffers start dst src size) {places : List Nat}
    {low high : Nat}
    (region : Spans n 0 places = Set.Ico low high) (inside : ∀ k ∈ places, k + n ≤ size)
    (loads : ∀ k ∈ places, loadType.Allows n (src + k))
    (stores : ∀ k ∈ places, storeType.Allows n (dst + k))
    (intact : Intact dst src done (Set.Ico low high)) :
    Triple (Progress start dst src done) (loadStore n loadType storeType dst src places)
      fun _ => Progress start dst src (done ∪ Set.Ico low high) := by
  rw [← region] at intact ⊢
  exact loadStore_triple 0 buffers loads stores (by simpa using inside) intact

/-- Whole blocks have been moved from `offset` on, until `bound` was passed. -/
abbrev Ascends (start : Memory) (dst src : Nat) (done : Set Nat) (offset bound block : Nat)
    (run : Kernel Nat) : Prop :=
  Triple (Progress start dst src done) run fun last m =>
    (offset ≤ last ∧ bound ≤ last ∧ (last = offset ∨ last < bound + block)) ∧
      Progress start dst src (done ∪ Set.Ico offset last) m

/-- Whole blocks have been moved up to `len`, the last ones first, until `offset` was reached. -/
abbrev Descends (start : Memory) (dst src : Nat) (done : Set Nat) (offset len block : Nat)
    (run : Kernel Nat) : Prop :=
  Triple (Progress start dst src done) run fun last m =>
    (last ≤ len ∧ last ≤ offset ∧ (last = len ∨ offset < last + block)) ∧
      Progress start dst src (done ∪ Set.Ico last len) m

def loopEnd (block p bound : Nat) : Nat := p + (bound - p + (block - 1)) / block * block

section LoopEnd
variable {block p bound : Nat}

private theorem loopEnd_done (passed : bound ≤ p) (positive : 0 < block) :
    loopEnd block p bound = p := by
  have none : (bound - p + (block - 1)) / block = 0 := Nat.div_eq_of_lt (by omega)
  rw [loopEnd, none, Nat.zero_mul, Nat.add_zero]

private theorem loopEnd_next (less : p < bound) (positive : 0 < block) :
    loopEnd block (p + block) bound = loopEnd block p bound := by
  have more : (bound - p + (block - 1)) / block = (bound - (p + block) + (block - 1)) / block + 1 := by
    rcases Nat.le_total (p + block) bound with whole | last
    · have split : bound - p + (block - 1) = bound - (p + block) + (block - 1) + block := by omega
      rw [split, Nat.add_div_right _ positive]
    · have none : (bound - (p + block) + (block - 1)) / block = 0 := Nat.div_eq_of_lt (by omega)
      rw [none]
      exact Nat.div_eq_of_lt_le (by omega) (by omega)
  rw [loopEnd, loopEnd, more, Nat.succ_mul]
  omega

private theorem le_loopEnd (less : p < bound) (positive : 0 < block) :
    p + block ≤ loopEnd block p bound := by
  rw [← loopEnd_next less positive]
  exact Nat.le_add_right _ _

theorem loopEnd_bounds (positive : 0 < block) :
    p ≤ loopEnd block p bound ∧ bound ≤ loopEnd block p bound ∧
      (loopEnd block p bound = p ∨ loopEnd block p bound < bound + block) := by
  rcases Nat.lt_or_ge p bound with less | passed
  · have split := Nat.div_add_mod (bound - p + (block - 1)) block
    have rest := Nat.mod_lt (bound - p + (block - 1)) positive
    rw [Nat.mul_comm] at split
    unfold loopEnd
    omega
  · rw [loopEnd_done passed positive]
    exact ⟨Nat.le_refl p, passed, .inl rfl⟩

end LoopEnd

/-- The forward loop, with rights up to where it stops. -/
theorem vecLoadStoreLoop_ends (buffers : Buffers start dst src size) {bound : Nat}
    (positive : 0 < count * n) (inside : offset < bound → loopEnd (count * n) offset bound ≤ size)
    (range : bound < sizeRange)
    (loads : loadType.Allows n (src + offset)) (stores : storeType.Allows n (dst + offset))
    (safe : ∀ p, offset ≤ p → p < bound → p + count * n ≤ loopEnd (count * n) offset bound →
      Intact dst src (done ∪ Set.Ico offset p) (Set.Ico p (p + count * n))) :
    Triple (Progress start dst src done)
      (vecLoadStoreLoop n loadType storeType count dst src bound offset) fun last m =>
        last = loopEnd (count * n) offset bound ∧
          Progress start dst src (done ∪ Set.Ico offset last) m := by
  refine Triple.from (loopM_triple (fun p m => (offset ≤ p ∧
      loopEnd (count * n) p bound = loopEnd (count * n) offset bound ∧
      loadType.Allows n (src + p) ∧ storeType.Allows n (dst + p)) ∧
      Progress start dst src (done ∪ Set.Ico offset p) m)
    (fun p => bound + 1 - p) (fun p => triple_fact ?_)
    (by rw [sizeRange_eq] at range; unfold budget; omega)) fun m progress => ?_
  · rintro ⟨above, same, load, store⟩
    refine triple_ite (fun less => ?_) fun passed => triple_pure fun m progress => ?_
    · have spans : Spans n 0 (upwards n count p) = Set.Ico p (p + count * n) := by
        rw [spans_upwards, Nat.zero_add]
      have fits := le_loopEnd less positive
      rw [same] at fits
      refine (block_triple buffers spans (fun k member => ?_)
        (fun _ member => upwards_allows load member) (fun _ member => upwards_allows store member)
        (safe p above less fits)).bind fun _ => triple_pure fun m progress => ?_
      · have last := upwards_fits member
        have total := inside (by omega)
        omega
      · refine ⟨⟨⟨by omega, ?_, ?_, ?_⟩, progress.congr fun i => ?_⟩, by omega⟩
        · rw [loopEnd_next less positive, same]
        · rw [← Nat.add_assoc]
          exact load.add_mul count
        · rw [← Nat.add_assoc]
          exact store.add_mul count
        · simp only [Set.mem_union, Set.mem_Ico, or_assoc]
          refine or_congr_right ?_
          omega
    · rw [loopEnd_done (Nat.le_of_not_lt passed) positive] at same
      exact ⟨same, progress⟩
  · refine ⟨⟨Nat.le_refl _, rfl, loads, stores⟩, progress.congr fun i => ?_⟩
    simp

private theorem vecLoadStoreLoop_triple (buffers : Buffers start dst src size) {bound : Nat}
    (positive : 0 < count * n) (inside : bound + count * n ≤ size) (range : size < sizeRange)
    (loads : loadType.Allows n (src + offset)) (stores : storeType.Allows n (dst + offset))
    (safe : ∀ p, offset ≤ p → p < bound →
      Intact dst src (done ∪ Set.Ico offset p) (Set.Ico p (p + count * n))) :
    Ascends start dst src done offset bound (count * n)
      (vecLoadStoreLoop n loadType storeType count dst src bound offset) := by
  have ends : offset ≤ _ ∧ bound ≤ _ ∧ _ := loopEnd_bounds positive
  refine (vecLoadStoreLoop_ends buffers positive (by omega) (by omega) loads stores
    fun p above less _ => safe p above less).imp ?_
  rintro _ m ⟨rfl, progress⟩
  exact ⟨ends, progress⟩

private theorem vecLoadStoreLoopBkwd_triple (buffers : Buffers start dst src size)
    (positive : 0 < count * n) (inside : len ≤ size) (range : size < sizeRange)
    (room : ∀ s, offset < s → s % n = len % n → count * n ≤ s)
    (loads : loadType.Allows n (src + len)) (stores : storeType.Allows n (dst + len))
    (safe : ∀ s, offset < s → s ≤ len →
      Intact dst src (done ∪ Set.Ico s len) (Set.Ico (s - count * n) s)) :
    Descends start dst src done offset len (count * n)
      (vecLoadStoreLoopBkwd n loadType storeType count dst src len offset) := by
  refine Triple.from (loopM_triple (fun s m => (s ≤ len ∧ (s = len ∨ offset < s + count * n) ∧
      s % n = len % n ∧ loadType.Allows n (src + s) ∧ storeType.Allows n (dst + s)) ∧
      Progress start dst src (done ∪ Set.Ico s len) m)
    (fun s => s) (fun s => triple_fact ?_)
    (by rw [sizeRange_eq] at range; unfold budget; omega)) fun m progress => ?_
  · rintro ⟨below, limit, phase, load, store⟩
    refine triple_ite (fun more => ?_) fun passed => triple_pure fun m progress => ?_
    · have whole := room s more phase
      have spans : Spans n 0 (downwards n count s) = Set.Ico (s - count * n) s := by
        rw [spans_downwards whole, Nat.zero_add, Nat.zero_add]
      rw [subSize_of_le whole (by omega)]
      refine (block_triple buffers spans (fun k member => ?_)
        (fun _ member => downwards_allows whole load member)
        (fun _ member => downwards_allows whole store member) (safe s more below)).bind
        fun _ => triple_pure fun m progress => ?_
      · have fits := downwards_fits whole member
        omega
      · refine ⟨⟨⟨by omega, .inr (by omega), ?_, load.sub_mul whole, store.sub_mul whole⟩,
          progress.congr fun i => ?_⟩, by omega⟩
        · rw [← phase, ← Nat.add_mul_mod_self_right (s - count * n) count n, Nat.sub_add_cancel whole]
        · simp only [Set.mem_union, Set.mem_Ico, or_assoc]
          refine or_congr_right ?_
          omega
    · exact ⟨⟨below, by omega, limit⟩, progress⟩
  · refine ⟨⟨Nat.le_refl _, .inl rfl, rfl, loads, stores⟩, progress.congr fun i => ?_⟩
    simp

section Directions
variable {bound : Nat}

theorem vecLoadStoreLoop_apart (buffers : Buffers start dst src size) (positive : 0 < count * n)
    (inside : bound + count * n ≤ size) (range : size < sizeRange)
    (loads : loadType.Allows n (src + offset)) (stores : storeType.Allows n (dst + offset))
    (apart : dst + size ≤ src ∨ src + size ≤ dst) (earlier : ∀ j ∈ done, j < size) :
    Ascends start dst src done offset bound (count * n)
      (vecLoadStoreLoop n loadType storeType count dst src bound offset) := by
  refine vecLoadStoreLoop_triple buffers positive inside range loads stores fun p _ less => ?_
  refine intact_of_apart apart ?_ fun i member => by have high := member.2; omega
  rintro j (before | here)
  · exact earlier j before
  · have high := here.2
    omega

theorem vecLoadStoreLoop_forward (buffers : Buffers start dst src size) (positive : 0 < count * n)
    (inside : bound + count * n ≤ size) (range : size < sizeRange)
    (loads : loadType.Allows n (src + offset)) (stores : storeType.Allows n (dst + offset))
    (down : dst ≤ src) (earlier : ∀ j ∈ done, j < offset) :
    Ascends start dst src done offset bound (count * n)
      (vecLoadStoreLoop n loadType storeType count dst src bound offset) := by
  refine vecLoadStoreLoop_triple buffers positive inside range loads stores fun p above _ => ?_
  refine intact_forward (k := p) down ?_ fun i member => member.1
  rintro j (before | here)
  · exact Nat.lt_of_lt_of_le (earlier j before) above
  · exact here.2

/-- Upwards, where no store reaches a byte that is still to be loaded. -/
theorem vecLoadStoreLoop_clear (buffers : Buffers start dst src size) (positive : 0 < count * n)
    (inside : bound + count * n ≤ size) (range : size < sizeRange)
    (loads : loadType.Allows n (src + offset)) (stores : storeType.Allows n (dst + offset))
    (clear : dst ≤ src ∨ src + size ≤ dst) :
    Ascends start dst src ∅ offset bound (count * n)
      (vecLoadStoreLoop n loadType storeType count dst src bound offset) := by
  rcases clear with down | apart
  · exact vecLoadStoreLoop_forward buffers positive inside range loads stores down
      fun j none => none.elim
  · exact vecLoadStoreLoop_apart buffers positive inside range loads stores (.inr apart)
      fun j none => none.elim

theorem vecLoadStoreLoopBkwd_backward (buffers : Buffers start dst src size)
    (positive : 0 < count * n) (inside : len ≤ size) (range : size < sizeRange)
    (room : ∀ s, offset < s → s % n = len % n → count * n ≤ s)
    (loads : loadType.Allows n (src + len)) (stores : storeType.Allows n (dst + len))
    (up : src ≤ dst) (later : ∀ j ∈ done, len ≤ j) :
    Descends start dst src done offset len (count * n)
      (vecLoadStoreLoopBkwd n loadType storeType count dst src len offset) := by
  refine vecLoadStoreLoopBkwd_triple buffers positive inside range room loads stores fun s _ below => ?_
  refine intact_backward (k := s) up ?_ fun i member => member.2
  rintro j (after | here)
  · exact Nat.le_trans below (later j after)
  · exact here.1

end Directions

end Macros

section Movers
variable {start : Memory} {dst src size : Nat} {done : Set Nat} {n base count len : Nat}

theorem scalarLoad_triple (buffers : Buffers start dst src size) {k : Nat} (inside : base + k + n ≤ size)
    (intact : Intact dst src done (Set.Ico (base + k) (base + k + n))) :
    Triple (Progress start dst src done) (vecLoad n .unaligned (src + base + k))
      fun v m => Holds start src (base + k) v ∧ Progress start dst src done m := by
  rw [Nat.add_assoc]
  exact vecLoad_triple buffers allows_unaligned inside intact

theorem scalarStore_triple (buffers : Buffers start dst src size) {k : Nat} {v : Lanes n}
    (inside : base + k + n ≤ size) (holds : Holds start src (base + k) v) :
    Triple (Progress start dst src done) (vecStore n .unaligned (dst + base + k) v)
      fun _ => Progress start dst src (done ∪ Set.Ico (base + k) (base + k + n)) := by
  rw [Nat.add_assoc]
  exact vecStore_triple buffers allows_unaligned inside holds

theorem intact_part {k : Nat} (intact : Intact dst src done (Set.Ico base (base + len)))
    (fits : k + n ≤ len) : Intact dst src done (Set.Ico (base + k) (base + k + n)) :=
  fun i member => intact i ⟨by have low := member.1; omega, by have high := member.2; omega⟩

private theorem endLoads_triple (buffers : Buffers start dst src size) (room : n ≤ len)
    (inside : base + len ≤ size) (intact : Intact dst src done (Set.Ico base (base + len)))
    {stores : Lanes n → Lanes n → Kernel Unit} {Post : Unit → Memory → Prop}
    (stored : ∀ head tail, Holds start src (base + 0) head → Holds start src (base + (len - n)) tail →
      Triple (Progress start dst src done) (stores head tail) Post) :
    Triple (Progress start dst src done)
      (do
        let head ← vecLoad n .unaligned (src + base)
        let tail ← vecLoad n .unaligned (src + base + (len - n))
        stores head tail) Post := by
  refine (scalarLoad_triple buffers (k := 0) (by omega) (intact_part intact (by omega))).bind fun head =>
    triple_fact fun first => ?_
  refine (scalarLoad_triple buffers (k := len - n) (by omega) (intact_part intact (by omega))).bind
    fun tail => triple_fact fun last => ?_
  exact stored head tail first last

/-- Two stores of `n` bytes, one at each end, cover up to `2 * n` bytes. -/
theorem ends_cover (room : n ≤ len) (covers : len ≤ 2 * n) :
    Set.Ico (base + 0) (base + 0 + n) ∪ Set.Ico (base + (len - n)) (base + (len - n) + n) =
      Set.Ico base (base + len) := by
  ext i
  simp only [Set.mem_union, Set.mem_Ico]
  omega

theorem headTailScalar_triple (buffers : Buffers start dst src size) (room : n ≤ len)
    (covers : len ≤ 2 * n) (inside : base + len ≤ size)
    (intact : Intact dst src done (Set.Ico base (base + len))) :
    Triple (Progress start dst src done) (headTailScalar (dst + base) (src + base) len n)
      fun _ => Progress start dst src (done ∪ Set.Ico base (base + len)) := by
  refine endLoads_triple buffers room inside intact fun head tail first last => ?_
  refine (scalarStore_triple buffers (k := 0) (by omega) first).bind fun _ => ?_
  rw [← ends_cover room covers, ← Set.union_assoc]
  exact scalarStore_triple buffers (by omega) last

theorem tailHeadScalar_triple (buffers : Buffers start dst src size) (room : n ≤ len)
    (covers : len ≤ 2 * n) (inside : base + len ≤ size)
    (intact : Intact dst src done (Set.Ico base (base + len))) :
    Triple (Progress start dst src done) (tailHeadScalar (dst + base) (src + base) len n)
      fun _ => Progress start dst src (done ∪ Set.Ico base (base + len)) := by
  refine endLoads_triple buffers room inside intact fun head tail first last => ?_
  refine (scalarStore_triple buffers (k := len - n) (by omega) last).bind fun _ => ?_
  rw [← ends_cover room covers, Set.union_comm (Set.Ico (base + 0) _), ← Set.union_assoc]
  exact scalarStore_triple buffers (by omega) first

theorem moveByte_triple (buffers : Buffers start dst src size) (short : len ≤ 1)
    (inside : base + len ≤ size) (intact : Intact dst src done (Set.Ico base (base + len))) :
    Triple (Progress start dst src done) (moveByte (dst + base) (src + base) len)
      fun _ => Progress start dst src (done ∪ Set.Ico base (base + len)) := by
  refine triple_ite (fun none => triple_pure fun m progress => ?_) fun some => ?_
  · refine progress.congr fun i => ?_
    simp [none]
  · have one : len = 1 := by omega
    subst one
    refine (vecLoad_triple buffers allows_unaligned inside intact).bind fun byte =>
      triple_fact fun holds => ?_
    exact vecStore_triple buffers allows_unaligned inside holds

/-- A mover moves its whole range and returns the address it stored to. -/
def Moves (start : Memory) (dst src : Nat) (done : Set Nat) (base len : Nat) (run : Kernel Nat) : Prop :=
  Triple (Progress start dst src done) run fun result m =>
    result = dst + base ∧ Progress start dst src (done ∪ Set.Ico base (base + len)) m

theorem moves_of_triple {run : Kernel Unit}
    (triple : Triple (Progress start dst src done) run
      fun _ => Progress start dst src (done ∪ Set.Ico base (base + len))) :
    Moves start dst src done base len (do run; return dst + base) :=
  triple.bind fun _ => triple_pure fun _ progress => ⟨rfl, progress⟩

theorem loadStoreLe2YmmVecOverlap_moves (buffers : Buffers start dst src size) (short : len ≤ 64)
    (inside : base + len ≤ size) (intact : Intact dst src done (Set.Ico base (base + len))) :
    Moves start dst src done base len (loadStoreLe2YmmVecOverlap (dst + base) (src + base) len) := by
  unfold loadStoreLe2YmmVecOverlap
  simp only [wordSz, dwordSz, qwordSz, xmmSz, ymmSz]
  refine triple_ite (fun upTo8 => ?_) fun over8 => triple_ite (fun below32 => ?_) fun from32 => ?_
  · refine triple_ite (fun upTo4 => triple_ite (fun upTo1 => ?_) fun over1 => ?_) fun over4 => ?_
    · exact moves_of_triple (moveByte_triple buffers upTo1 inside intact)
    · exact moves_of_triple (tailHeadScalar_triple buffers (by omega) (by omega) inside intact)
    · exact moves_of_triple (tailHeadScalar_triple buffers (by omega) (by omega) inside intact)
  · refine triple_ite (fun upTo16 => ?_) fun over16 => ?_
    · exact moves_of_triple (tailHeadScalar_triple buffers (by omega) (by omega) inside intact)
    · exact moves_of_triple (headTail_whole base buffers (by omega) (by omega) inside intact)
  · exact moves_of_triple (headTail_whole base buffers (by omega) (by omega) inside intact)

theorem loadStoreBleZmmVecHeadTail_moves (buffers : Buffers start dst src size) (short : len < 64)
    (inside : base + len ≤ size) (intact : Intact dst src done (Set.Ico base (base + len))) :
    Moves start dst src done base len (loadStoreBleZmmVecHeadTail (dst + base) (src + base) len) := by
  unfold loadStoreBleZmmVecHeadTail
  simp only [wordSz, dwordSz, qwordSz, xmmSz, ymmSz]
  refine triple_ite (fun from16 => ?_) fun below16 => ?_
  · refine triple_ite (fun below32 => ?_) fun from32 => ?_
    · exact moves_of_triple (headTail_whole base buffers (by omega) (by omega) inside intact)
    · exact moves_of_triple (headTail_whole base buffers (by omega) (by omega) inside intact)
  refine triple_ite (fun from8 => ?_) fun below8 => ?_
  · exact moves_of_triple (headTailScalar_triple buffers (by omega) (by omega) inside intact)
  refine triple_ite (fun from4 => ?_) fun below4 => ?_
  · exact moves_of_triple (headTailScalar_triple buffers (by omega) (by omega) inside intact)
  refine triple_ite (fun from2 => ?_) fun below2 => ?_
  · exact moves_of_triple (headTailScalar_triple buffers (by omega) (by omega) inside intact)
  · exact moves_of_triple (moveByte_triple buffers (by omega) inside intact)

theorem loadStoreBleZmmVec_moves (buffers : Buffers start dst src size) (short : len ≤ 64)
    (inside : base + len ≤ size) (intact : Intact dst src done (Set.Ico base (base + len))) :
    Moves start dst src done base len (loadStoreBleZmmVec (dst + base) (src + base) len) := by
  have lanes : ∀ i < 64, (bzhiOnes (len % 256) : BitVec 64).getLsbD i = true ↔ i < len := by
    intro i below
    rw [getLsbD_bzhiOnes below, decide_eq_true_eq]
    omega
  have load := maskLoad_triple buffers (k := base) lanes inside intact
  refine load.bind fun z0 => triple_fact fun holds => ?_
  exact moves_of_triple (maskStore_triple buffers lanes short inside holds)

theorem intact_last (apart : dst + size ≤ src ∨ src + size ≤ dst) (earlier : ∀ j ∈ done, j < size)
    {k : Nat} (room : k ≤ size) : Intact dst src done (Set.Ico (size - k) (size - k + k)) :=
  intact_of_apart apart earlier fun _ member =>
    Nat.lt_of_lt_of_eq member.2 (Nat.sub_add_cancel room)

/-- The last `k` bytes begin where a loop has ended, or before. -/
theorem lastBytes_triple {run : Kernel Unit} {k offset : Nat} (room : k ≤ size)
    (enough : size ≤ offset + k)
    (moves : Triple (Progress start dst src done) run
      fun _ => Progress start dst src (done ∪ Set.Ico (size - k) (size - k + k))) :
    Triple (Progress start dst src done) run
      fun _ m => ∃ low ≤ offset, Progress start dst src (done ∪ Set.Ico low size) m := by
  refine moves.imp fun _ m progress => ⟨size - k, by omega, ?_⟩
  rwa [Nat.sub_add_cancel room] at progress

end Movers

section Complete
variable {start : Memory} {dst src size : Nat}

/-- The copy is complete and the destination returned; the rights are those of the start. -/
def Complete (start : Memory) (dst src size result : Nat) (m : Memory) : Prop :=
  (result = dst ∧ Copied start m dst src size) ∧
    m.readable = start.readable ∧ m.writable = start.writable

/-- The last step of a kernel, when every byte has been moved. -/
theorem complete_return {done : Set Nat} (all : ∀ i, i ∈ done ↔ i < size) :
    Triple (Progress start dst src done) (pure dst : Kernel Nat) (Complete start dst src size) :=
  triple_pure fun _ progress =>
    ⟨⟨rfl, progress.copied all⟩, progress.readable, progress.writable⟩

theorem complete_of_triple {run : Kernel Unit} (triple : Triple (Progress start dst src ∅) run
      fun _ => Progress start dst src (∅ ∪ Set.Ico 0 (0 + size))) :
    Triple (Progress start dst src ∅) (do run; return dst) (Complete start dst src size) :=
  triple.bind fun _ => complete_return fun i => by simp

/-- What is saved before a move and stored after it, with the rest moved between. -/
private theorem saved_complete {α : Type} {n : Nat} {places : List Nat} {region : Set Nat}
    {move : Kernel α}
    {type : Access} (buffers : Buffers start dst src size) (spans : Spans n 0 places = region)
    (inside : ∀ k ∈ places, k + n ≤ size) (loads : ∀ k ∈ places, type.Allows n (src + k))
    (stores : ∀ k ∈ places, type.Allows n (dst + k))
    (moves : Triple (Progress start dst src ∅) move fun _ m =>
      ∃ done, (∀ i, i ∈ done ∪ region ↔ i < size) ∧ Progress start dst src done m) :
    Triple (Progress start dst src ∅)
      (do
        let saved ← loadAll n type src places
        let _ ← move
        storeAll n type dst places saved
        return dst)
      (Complete start dst src size) := by
  have inside : ∀ k ∈ places, 0 + k + n ≤ size := by simpa using inside
  refine (loadAll_triple 0 buffers loads inside intact_empty).bind
    fun saved => triple_fact fun all => ?_
  refine moves.bind fun _ => triple_exists fun done => triple_fact fun covers => ?_
  refine (storeAll_triple 0 buffers stores inside all).bind fun _ => complete_return fun i => ?_
  rw [spans]
  exact covers i

theorem savedFirst_complete {α : Type} (n count : Nat) {move : Kernel α} {type : Access}
    (buffers : Buffers start dst src size) (room : count * n ≤ size)
    (loads : type.Allows n src) (stores : type.Allows n dst)
    (moves : Triple (Progress start dst src ∅) move fun _ m =>
      ∃ done, (∀ i, i ∈ done ∪ Set.Ico 0 (count * n) ↔ i < size) ∧ Progress start dst src done m) :
    Triple (Progress start dst src ∅)
      (do
        let saved ← loadAll n type src (downwards n count (count * n))
        let _ ← move
        storeAll n type dst (downwards n count (count * n)) saved
        return dst)
      (Complete start dst src size) := by
  have spans : Spans n 0 (downwards n count (count * n)) = Set.Ico 0 (count * n) := by
    rw [spans_downwards (Nat.le_refl _), Nat.sub_self, Nat.zero_add, Nat.zero_add]
  refine saved_complete buffers spans (fun k member => ?_)
    (fun k member => downwards_allows (Nat.le_refl _) (loads.add_mul count) member)
    (fun k member => downwards_allows (Nat.le_refl _) (stores.add_mul count) member) moves
  have fits := downwards_fits (Nat.le_refl _) member
  omega

theorem savedLast_complete {α : Type} (n count : Nat) {move : Kernel α}
    (buffers : Buffers start dst src size) (room : count * n ≤ size)
    (moves : Triple (Progress start dst src ∅) move fun _ m =>
      ∃ done, (∀ i, i ∈ done ∪ Set.Ico (size - count * n) size ↔ i < size) ∧
        Progress start dst src done m) :
    Triple (Progress start dst src ∅)
      (do
        let saved ← loadAll n .unaligned src (upwards n count (size - count * n))
        let _ ← move
        storeAll n .unaligned dst (upwards n count (size - count * n)) saved
        return dst)
      (Complete start dst src size) := by
  have spans : Spans n 0 (upwards n count (size - count * n)) = Set.Ico (size - count * n) size := by
    rw [spans_upwards, Nat.zero_add, Nat.sub_add_cancel room]
  refine saved_complete buffers spans (fun k member => ?_) (fun _ _ => allows_unaligned)
    (fun _ _ => allows_unaligned) moves
  have fits := upwards_fits member
  omega

/-- A loop between buffers that lie apart, from inside the first `ends` bytes up to the last
`ends`, when both have been moved. -/
theorem between_complete (count ends : Nat) (buffers : Buffers start dst src size)
    (range : size < sizeRange) (apart : dst + size ≤ src ∨ src + size ≤ dst) {n offset : Nat}
    {loadType storeType : Access} (positive : 0 < count * n) (room : count * n ≤ ends)
    (large : 2 * ends ≤ size) (near : offset ≤ ends) (loads : loadType.Allows n (src + offset))
    (stores : storeType.Allows n (dst + offset)) :
    Triple (Progress start dst src
        (∅ ∪ (Set.Ico 0 (0 + ends) ∪ Set.Ico (0 + (size - ends)) (0 + size))))
      (do
        let _ ← vecLoadStoreLoop n loadType storeType count dst src (size - ends) offset
        return dst)
      (Complete start dst src size) := by
  refine (vecLoadStoreLoop_apart buffers positive (by omega) range loads stores apart ?_).bind
    fun last => triple_fact fun stop => complete_return fun i => ?_
  · simp only [Set.mem_union, Set.mem_Ico, Set.mem_empty_iff_false, false_or]
    omega
  · simp only [Set.mem_union, Set.mem_Ico, Set.mem_empty_iff_false, false_or] at stop ⊢
    omega

theorem Moves.complete {run : Kernel Nat} (moves : Moves start dst src ∅ 0 size run) :
    Triple (Progress start dst src ∅) run (Complete start dst src size) :=
  moves.imp fun _ _ done =>
    ⟨⟨done.1, done.2.copied fun i => by simp⟩, done.2.readable, done.2.writable⟩

theorem runs_of_returns {run : Kernel Nat} {value : Nat}
    (triple : Triple (Progress start dst src ∅) run fun result m =>
      result = value ∧ Copied start m dst src size) :
    ∃ after, run start = .ok (value, after) ∧ Copied start after dst src size := by
  obtain ⟨result, after, returned, rfl, copied⟩ := triple start (.refl start dst src)
  exact ⟨after, returned, copied⟩

theorem runs_of_complete {run : Kernel Nat}
    (complete : Triple (Progress start dst src ∅) run (Complete start dst src size)) :
    ∃ after, run start = .ok (dst, after) ∧ Copied start after dst src size :=
  runs_of_returns (complete.imp fun _ _ done => done.1)

/-- A complete copy of which another address is returned. -/
theorem returns_of_complete {run : Kernel Nat} {value : Nat}
    (triple : Triple (Progress start dst src ∅) run (Complete start dst src size)) :
    Triple (Progress start dst src ∅) (do let _ ← run; return value) fun result m =>
      result = value ∧ Copied start m dst src size :=
  triple.bind fun _ => triple_pure fun _ done => ⟨rfl, done.1.2⟩

end Complete

end AoclLibmem.Copy
