import AoclLibmem.Base.Occurrence
import Mathlib.Data.List.Infix
import Mathlib.Data.List.Lex
import Mathlib.Data.List.TakeWhile
import Mathlib.Order.Lattice

/-! Sequences that spell out lists, and the text in front of a stop symbol: what a comparison, a
search or a span of the sequence says about the lists. -/

namespace AoclLibmem.Base

universe u

section Spelling
variable {α : Type u} {seq : Nat → α} {start n : Nat} {list more : List α}

/-- From `start` on, the sequence goes through the list. -/
def Spells (seq : Nat → α) (start : Nat) (list : List α) : Prop :=
  ∀ i (inside : i < list.length), seq (start + i) = list[i]

theorem Spells.congr {other : Nat → α} (spells : Spells seq start list)
    (same : ∀ i < list.length, other (start + i) = seq (start + i)) : Spells other start list :=
  fun i inside => (same i inside).trans (spells i inside)

theorem Spells.take (spells : Spells seq start list) (n : Nat) : Spells seq start (list.take n) := by
  intro i inside
  rw [List.getElem_take]
  exact spells i _

theorem Spells.drop (spells : Spells seq start list) (n : Nat) :
    Spells seq (start + n) (list.drop n) := by
  intro i inside
  rw [List.getElem_drop, Nat.add_assoc]
  exact spells (n + i) _

theorem spells_append :
    Spells seq start (list ++ more) ↔
      Spells seq start list ∧ Spells seq (start + list.length) more := by
  constructor
  · intro spells
    refine ⟨?_, ?_⟩
    · have first := spells.take list.length
      rwa [List.take_left] at first
    · have second := spells.drop list.length
      rwa [List.drop_left] at second
  · rintro ⟨first, second⟩ i inside
    rw [List.getElem_append]
    split
    · rename_i below
      exact first i below
    · rename_i beyond
      rw [← second, Nat.add_assoc, Nat.add_sub_of_le (Nat.not_lt.mp beyond)]

theorem Spells.starts (spells : Spells seq start list) (isPrefix : more <+: list) :
    Spells seq start more := by
  rw [List.prefix_iff_eq_take.mp isPrefix]
  exact spells.take _

theorem Spells.map {β : Type u} (spells : Spells seq start list) (f : α → β) :
    Spells (fun i => f (seq i)) start (list.map f) := by
  intro i inside
  rw [List.length_map] at inside
  rw [List.getElem_map, ← spells i inside]

theorem Spells.unique (first : Spells seq start list) (second : Spells seq start more)
    (same : list.length = more.length) : list = more :=
  List.ext_getElem same fun i inside inside' => (first i inside).symm.trans (second i inside')

theorem Spells.findIdx?_eq (spells : Spells seq start list) {p : α → Bool} {i : Nat}
    (first : FirstHit (fun j => p (seq (start + j)) = true) i) (inside : i < list.length) :
    list.findIdx? p = some i := by
  rw [List.findIdx?_eq_some_iff_getElem]
  refine ⟨inside, ?_, fun j before => ?_⟩
  · rw [← spells i inside]
    exact first.1
  · rw [← spells j (Nat.lt_trans before inside)]
    exact first.2 j before

theorem Spells.findIdx?_none (spells : Spells seq start list) {p : α → Bool}
    (clear : ClearBelow (fun j => p (seq (start + j)) = true) list.length) :
    list.findIdx? p = none := by
  rw [List.findIdx?_eq_none_iff]
  intro a member
  obtain ⟨i, inside, rfl⟩ := List.getElem_of_mem member
  rw [← spells i inside]
  exact Bool.not_eq_true _ ▸ clear i inside

theorem Spells.length_takeWhile (spells : Spells seq start list) {p : α → Bool} {k : Nat}
    (holds : ∀ i < k, p (seq (start + i)) = true) (inside : k ≤ list.length)
    (stops : k < list.length → p (seq (start + k)) = false) : (list.takeWhile p).length = k := by
  have index : list.findIdx (fun a => !p a) = k := by
    rcases Nat.lt_or_eq_of_le inside with more | rfl
    · rw [List.findIdx_eq more, ← spells k more, stops more]
      refine ⟨rfl, fun j before => ?_⟩
      rw [← spells j (Nat.lt_trans before more), holds j before]
      rfl
    · refine List.findIdx_eq_length_of_false fun a member => ?_
      obtain ⟨i, below, rfl⟩ := List.getElem_of_mem member
      rw [← spells i below, holds i below]
      rfl
  rw [List.takeWhile_eq_take_findIdx_not, List.length_take, index, Nat.min_eq_left inside]

end Spelling

section Occurrences
variable {α : Type u} {text pattern : Nat → α} {first second : Nat}
variable {whole part : List α} {i : Nat} {answer : Option Nat}

theorem occursWithin_iff_starts (spells : Spells text first whole)
    (spells' : Spells pattern second part) :
    OccursWithin (fun k => text (first + k)) (fun j => pattern (second + j)) part.length whole.length i ↔
      i ≤ whole.length ∧ part <+: whole.drop i := by
  constructor
  · rintro ⟨fits, occurs⟩
    refine ⟨by omega, List.prefix_iff_getElem.mpr ⟨by rw [List.length_drop]; omega, ?_⟩⟩
    intro j inside
    rw [List.getElem_drop, ← spells (i + j) (by omega), ← spells' j inside]
    exact (occurs j inside).symm
  · rintro ⟨before, isPrefix⟩
    obtain ⟨shorter, same⟩ := List.prefix_iff_getElem.mp isPrefix
    rw [List.length_drop] at shorter
    refine ⟨by omega, fun j inside => ?_⟩
    have here := same j inside
    rw [List.getElem_drop, ← spells (i + j) (by omega), ← spells' j inside] at here
    exact here.symm

/-- A search for the first occurrence answers with the first suffix that begins with the pattern. -/
theorem picks_findIdx? [DecidableEq α] {base : Nat} (spells : Spells text first whole)
    (spells' : Spells pattern second part)
    (picks : Picks (OccursWithin (fun k => text (first + k)) (fun j => pattern (second + j))
      part.length whole.length) base answer) :
    answer = (whole.tails.findIdx? part.isPrefixOf).map (base + ·) := by
  refine picks.unique ?_
  cases found : whole.tails.findIdx? part.isPrefixOf with
  | none =>
    rw [List.findIdx?_eq_none_iff] at found
    refine .absent fun i occurs => ?_
    obtain ⟨before, isPrefix⟩ := (occursWithin_iff_starts spells spells').mp occurs
    have member : whole.drop i ∈ whole.tails := List.mem_tails _ _ |>.mpr (List.drop_suffix i whole)
    rw [← List.isPrefixOf_iff_prefix, found _ member] at isPrefix
    exact absurd isPrefix Bool.false_ne_true
  | some i =>
    obtain ⟨inside, here, earlier⟩ := List.findIdx?_eq_some_iff_getElem.mp found
    rw [List.length_tails] at inside
    rw [List.getElem_tails, List.isPrefixOf_iff_prefix] at here
    refine .found ⟨(occursWithin_iff_starts spells spells').mpr ⟨by omega, here⟩, ?_⟩
    intro j less occurs
    have other := earlier j less
    rw [List.getElem_tails, List.isPrefixOf_iff_prefix] at other
    exact other ((occursWithin_iff_starts spells spells').mp occurs).2

end Occurrences

section Comparison
variable {α : Type u} [LinearOrder α] {first second : Nat → α} {start start' k : Nat}
variable {list list' : List α}

def orderSign (a b : α) : Int := if a < b then -1 else if b < a then 1 else 0

theorem sign_sub (a b : Nat) : ((a : Int) - b).sign = orderSign a b := by
  unfold orderSign
  rcases lt_trichotomy a b with less | rfl | more
  · rw [if_pos less]
    exact Int.sign_eq_neg_one_of_neg (by omega)
  · rw [if_neg (lt_irrefl a), if_neg (lt_irrefl a), Int.sub_self]
    rfl
  · rw [if_neg (lt_asymm more), if_pos more]
    exact Int.sign_eq_one_of_pos (by omega)

theorem orderSign_self (a : α) : orderSign a a = 0 := by
  rw [orderSign, if_neg (lt_irrefl a), if_neg (lt_irrefl a)]

theorem Spells.lt_of_first (spells : Spells first start list) (spells' : Spells second start' list')
    (same : ∀ i < k, first (start + i) = second (start' + i)) (within : k ≤ list.length)
    (inside : k < list'.length) (less : k < list.length → first (start + k) < second (start' + k)) :
    list < list' := by
  have agree (i : Nat) (below : i < k) : list[i] = list'[i] := by
    rw [← spells i (by omega), ← spells' i (by omega)]
    exact same i below
  rw [List.lt_iff_exists]
  rcases Nat.lt_or_eq_of_le within with more | rfl
  · refine .inr ⟨k, more, inside, agree, ?_⟩
    rw [← spells k more, ← spells' k inside]
    exact less more
  · refine .inl ⟨List.ext_getElem ?_ fun i below _ => ?_, inside⟩
    · rw [List.length_take]
      omega
    · rw [List.getElem_take]
      exact agree i below

theorem Spells.orderSign_eq (spells : Spells first start list) (spells' : Spells second start' list')
    (same : ∀ i < k, first (start + i) = second (start' + i)) (inside : k < list.length)
    (inside' : k < list'.length) (differ : first (start + k) ≠ second (start' + k)) :
    orderSign list list' = orderSign (first (start + k)) (second (start' + k)) := by
  rcases lt_or_gt_of_ne differ with less | more
  · have lists := spells.lt_of_first spells' same (Nat.le_of_lt inside) inside' fun _ => less
    rw [orderSign, orderSign, if_pos lists, if_pos less]
  · have lists := spells'.lt_of_first spells (fun i below => (same i below).symm)
      (Nat.le_of_lt inside') inside fun _ => more
    rw [orderSign, orderSign, if_neg (lt_asymm lists), if_pos lists, if_neg (lt_asymm more), if_pos more]

end Comparison

section Text
variable {α : Type u} {stop : α} {seq : Nat → α} {start n i : Nat} {bound : Option Nat} {text : List α}

/-- The list is what stands in front of the first stop symbol, but no more of it than the bound
allows. -/
structure IsText (stop : α) (seq : Nat → α) (start : Nat) (bound : Option Nat) (text : List α) :
    Prop where
  spells : Spells seq start text
  free : stop ∉ text
  within : ∀ n ∈ bound, text.length ≤ n
  ends : (∀ n ∈ bound, text.length < n) → seq (start + text.length) = stop

theorem IsText.clear (isText : IsText stop seq start bound text) :
    ClearBelow (fun i => seq (start + i) = stop) text.length := by
  intro i inside same
  apply isText.free
  rw [← same, isText.spells i inside]
  exact List.getElem_mem inside

theorem IsText.firstHit (isText : IsText stop seq start none text) :
    FirstHit (fun i => seq (start + i) = stop) text.length :=
  ⟨isText.ends (by simp), isText.clear⟩

theorem IsText.spells_stop (isText : IsText stop seq start none text) :
    Spells seq start (text ++ [stop]) := by
  refine spells_append.mpr ⟨isText.spells, fun i inside => ?_⟩
  have zero : i = 0 := by simpa using inside
  subst zero
  exact isText.firstHit.1

/-- What has neither met the stop symbol nor the bound has not left the text. -/
theorem IsText.clear_le (isText : IsText stop seq start bound text)
    (clear : ClearBelow (fun i => seq (start + i) = stop) i) (inside : ∀ n ∈ bound, i ≤ n) :
    i ≤ text.length := by
  by_contra beyond
  have ends := isText.ends fun n member => by
    have := inside n member
    omega
  exact clear text.length (by omega) ends

theorem IsText.map {β : Type u} {f : α → β} (isText : IsText stop seq start bound text)
    (injective : Function.Injective f) :
    IsText (f stop) (fun i => f (seq i)) start bound (text.map f) where
  spells := isText.spells.map f
  free member := isText.free ((List.mem_map_of_injective injective).mp member)
  within n member := by
    rw [List.length_map]
    exact isText.within n member
  ends short := by
    rw [List.length_map] at short ⊢
    exact congrArg f (isText.ends short)

/-- The text a list begins with, unless the list breaks off before the text is complete. -/
def textIn [DecidableEq α] (stop : α) (bound : Option Nat) (list : List α) : Option (List α) :=
  let text := bound.elim id List.take (list.takeWhile (· ≠ stop))
  if text.length < list.length ∨ bound = some text.length then some text else none

/-- An unbounded text is what stands in front of a first stop symbol. -/
theorem textIn_none_iff [DecidableEq α] {list : List α} :
    textIn stop none list = some text ↔ stop ∉ text ∧ ∃ behind, list = text ++ stop :: behind := by
  rw [textIn, Option.ite_none_right_eq_some, Option.some.injEq]
  dsimp only [Option.elim_none, id_eq]
  constructor
  · rintro ⟨complete, rfl⟩
    refine ⟨fun member => by simpa using List.mem_takeWhile_imp member, ?_⟩
    have split := List.takeWhile_append_dropWhile (p := fun a => decide (a ≠ stop)) (l := list)
    cases rest : list.dropWhile (fun a => decide (a ≠ stop)) with
    | nil =>
      rw [rest, List.append_nil] at split
      rw [split] at complete
      exact absurd complete (by simp)
    | cons a behind =>
      have head : decide (a ≠ stop) = false := by
        have some : list.dropWhile (fun a => decide (a ≠ stop)) ≠ [] := rest ▸ List.cons_ne_nil a behind
        have first := List.head_dropWhile_not _ some
        simpa only [rest, List.head_cons] using first
      rw [rest, show a = stop by simpa using head] at split
      exact ⟨behind, split.symm⟩
  · rintro ⟨free, behind, rfl⟩
    have whole : (text ++ stop :: behind).takeWhile (· ≠ stop) = text := by
      rw [List.takeWhile_append_of_pos fun a member => ?_]
      · simp
      · simpa using fun same : a = stop => free (same ▸ member)
    exact ⟨.inl (by rw [whole]; simp), whole⟩

/-- A text is complete before the list ends, or it has as many symbols as it may have. -/
theorem textIn_complete [DecidableEq α] {list : List α} (found : textIn stop bound list = some text) :
    text.length < list.length ∨ bound = some text.length := by
  simp only [textIn, Option.ite_none_right_eq_some, Option.some.injEq] at found
  obtain ⟨complete, rfl⟩ := found
  exact complete

theorem textIn_starts [DecidableEq α] {list : List α} (found : textIn stop bound list = some text) :
    text <+: list := by
  simp only [textIn, Option.ite_none_right_eq_some, Option.some.injEq] at found
  obtain ⟨_, rfl⟩ := found
  cases bound with
  | none => exact List.takeWhile_prefix _
  | some n => exact ( List.take_prefix n _).trans ( List.takeWhile_prefix _)

theorem textIn_free [DecidableEq α] {list : List α} (found : textIn stop bound list = some text) :
    stop ∉ text := by
  simp only [textIn, Option.ite_none_right_eq_some, Option.some.injEq] at found
  obtain ⟨_, rfl⟩ := found
  intro member
  have inWhole : stop ∈ list.takeWhile (· ≠ stop) := by
    cases bound with
    | none => exact member
    | some n => exact List.mem_of_mem_take member
  simpa using List.mem_takeWhile_imp inWhole

theorem textIn_isText [DecidableEq α] {list : List α} (spells : Spells seq start list)
    (found : textIn stop bound list = some text) : IsText stop seq start bound text := by
  have complete := textIn_complete found
  have isPrefix := textIn_starts found
  have free := textIn_free found
  simp only [textIn, Option.ite_none_right_eq_some, Option.some.injEq] at found
  obtain ⟨_, shape⟩ := found
  refine ⟨spells.starts isPrefix, free, ?_, fun short => ?_⟩
  · rintro n rfl
    rw [← shape]
    exact List.length_take_le n _
  · have inside : text.length < list.length := by
      rcases complete with inside | full
      · exact inside
      · exact absurd (short text.length full) (Nat.lt_irrefl _)
    have whole : list.takeWhile (· ≠ stop) = text := by
      cases bound with
      | none => exact shape
      | some n =>
        have less := short n rfl
        rw [← shape]
        refine (List.take_of_length_le ?_).symm
        have length : (List.take n (list.takeWhile (· ≠ stop))).length < n := by
          rwa [show List.take n _ = text from shape]
        rw [List.length_take] at length
        omega
    have index : text.length = list.findIdx fun a => !decide (a ≠ stop) := by
      rw [← whole, List.takeWhile_eq_take_findIdx_not, List.length_take,
        Nat.min_eq_left List.findIdx_le_length]
    have stops := List.findIdx_getElem (w := index ▸ inside)
    rw [spells _ inside]
    simp only [← index] at stops
    simpa using stops

end Text

section Settled
variable {α : Type u} {stop : α} {first second : Nat → α} {start start' k n : Nat}
variable {bound : Option Nat} {text text' : List α}

/-- Index `i` settles a comparison: the sequences differ there, or both texts end. -/
def Settles (stop : α) (first second : Nat → α) (start start' i : Nat) : Prop :=
  first (start + i) ≠ second (start' + i) ∨ first (start + i) = stop

theorem settles_map {β : Type u} {f : α → β} (injective : Function.Injective f) :
    Settles (f stop) (fun i => f (first i)) (fun i => f (second i)) start start' k ↔
      Settles stop first second start start' k :=
  or_congr (not_congr injective.eq_iff) injective.eq_iff

theorem Settles.swap (settles : Settles stop first second start start' k) :
    Settles stop second first start' start k := by
  by_cases same : first (start + k) = second (start' + k)
  · exact .inr (same.symm.trans (settles.resolve_left fun other => other same))
  · exact .inl (Ne.symm same)

variable (isText : IsText stop first start bound text) (isText' : IsText stop second start' bound text')
include isText isText'

/-- Up to an index that nothing before it has settled, both texts go on. -/
theorem reach_of_unsettled (clear : ClearBelow (Settles stop first second start start') k)
    (inside : ∀ n ∈ bound, k ≤ n) : k ≤ text.length ∧ k ≤ text'.length := by
  refine ⟨isText.clear_le (fun i below same => clear i below (.inr same)) inside, ?_⟩
  exact isText'.clear_le (fun i below same => clear i below (Settles.swap (.inr same))) inside

/-- Texts that nothing before their end keeps apart are the same. -/
theorem text_eq_of_unsettled (clear : ClearBelow (Settles stop first second start start') k)
    (ends : text.length ≤ k) (ends' : text'.length ≤ k) (inside : ∀ n ∈ bound, k ≤ n) :
    text = text' := by
  have reach := reach_of_unsettled isText isText' clear inside
  refine isText.spells.unique (fun i below => ?_) (by omega)
  rw [not_not.mp (not_or.mp (clear i (by omega))).1]
  exact isText'.spells i below

section Order
variable [LinearOrder α] (least : ∀ a, stop ≤ a)
include least

theorem text_lt_of_settled (settled : FirstHit (Settles stop first second start start') k)
    (inside : ∀ n ∈ bound, k < n) (less : first (start + k) < second (start' + k)) : text < text' := by
  have reach := reach_of_unsettled isText isText' settled.2 fun n member =>
    Nat.le_of_lt (inside n member)
  have further : k < text'.length := by
    by_contra full
    have last : text'.length = k := Nat.le_antisymm (Nat.not_lt.mp full) reach.2
    have ends := isText'.ends fun n member => last ▸ inside n member
    rw [last] at ends
    exact absurd less (ends ▸ not_lt_of_ge (least _))
  exact isText.spells.lt_of_first isText'.spells
    (fun i below => not_not.mp (not_or.mp (settled.2 i below)).1) reach.1 further fun _ => less

/-- The first index that settles anything settles the order of the texts. -/
theorem orderSign_of_settled (settled : FirstHit (Settles stop first second start start') k)
    (inside : ∀ n ∈ bound, k < n) :
    orderSign text text' = orderSign (first (start + k)) (second (start' + k)) := by
  rcases lt_trichotomy (first (start + k)) (second (start' + k)) with less | same | more
  · have texts := text_lt_of_settled isText isText' least settled inside less
    rw [orderSign, orderSign, if_pos texts, if_pos less]
  · have ends : first (start + k) = stop := settled.1.resolve_left fun other => other same
    have last : text.length ≤ k := by
      by_contra beyond
      exact isText.clear k (Nat.not_le.mp beyond) ends
    have last' : text'.length ≤ k := by
      by_contra beyond
      exact isText'.clear k (Nat.not_le.mp beyond) (same.symm.trans ends)
    rw [text_eq_of_unsettled isText isText' settled.2 last last' fun n member =>
      Nat.le_of_lt (inside n member), same, orderSign_self, orderSign_self]
  · have swapped : FirstHit (Settles stop second first start' start) k :=
      ⟨settled.1.swap, fun i below other => settled.2 i below other.swap⟩
    have texts := text_lt_of_settled isText' isText least swapped inside more
    rw [orderSign, orderSign, if_neg (lt_asymm texts), if_pos texts, if_neg (lt_asymm more), if_pos more]

end Order

theorem orderSign_map_of_settled {β : Type u} [LinearOrder β] {f : α → β}
    (injective : Function.Injective f) (leastKey : ∀ a, f stop ≤ a)
    (settled : FirstHit (Settles stop first second start start') k) (inside : ∀ n ∈ bound, k < n) :
    orderSign (text.map f) (text'.map f) = orderSign (f (first (start + k))) (f (second (start' + k))) :=
  orderSign_of_settled (isText.map injective) (isText'.map injective) leastKey
    ⟨(settles_map injective).mpr settled.1, fun i below other =>
      settled.2 i below ((settles_map injective).mp other)⟩ inside

end Settled

end AoclLibmem.Base
