import AoclLibmem.Calls.ObjectsRefined

/-! Programs that call the functions again and again: a list of strings appended one by one, and pieces
of memory gathered each at the pointer that the last call returned. -/

namespace AoclLibmem.Calls

open Base Machine Strings

section Lists
variable {ι : Type} {objs : Objects ι} {p : Place ι} {before text behind bytes rest : List UInt8}

/-- A place by what stands in front of it in its object. -/
theorem Objects.behind_eq (shape : objs p.object = before ++ rest) (length : before.length = p.offset) :
    objs.behind p = some rest := by
  rw [Objects.behind, shape, ← length, if_pos (by rw [List.length_append]; omega), List.drop_left]

theorem Objects.text_eq (shape : objs p.object = before ++ (text ++ 0 :: behind))
    (length : before.length = p.offset) (free : 0 ∉ text) : objs.text p none = some text := by
  rw [Objects.text, Objects.behind_eq shape length]
  exact textIn_none_iff.mpr ⟨free, behind, rfl⟩

theorem Objects.write_eq [DecidableEq ι] {constant : ι → Bool} {old : List UInt8}
    (shape : objs p.object = before ++ (old ++ rest)) (length : before.length = p.offset)
    (same : old.length = bytes.length) (changes : constant p.object = false) :
    objs.write p constant bytes =
      some (Function.update objs p.object (before ++ (bytes ++ rest))) := by
  have room : constant p.object = false ∧ bytes.length ≤ (old ++ rest).length := by
    refine ⟨changes, ?_⟩
    rw [List.length_append]
    omega
  rw [Objects.write, Objects.behind_eq shape length]
  simp only [Option.bind_eq_bind, Option.bind_some, if_pos room, Option.pure_def]
  rw [← same, List.drop_left, shape, ← length, List.take_left]

theorem Objects.text_free {bound : Option Nat} (found : objs.text p bound = some text) : 0 ∉ text := by
  simp only [Objects.text, Option.bind_eq_bind, Option.bind_eq_some_iff] at found
  obtain ⟨_, _, inRest⟩ := found
  exact textIn_free inRest

theorem Objects.behind_update [DecidableEq ι] {i : ι} (other : p.object ≠ i) :
    Objects.behind (Function.update objs i bytes) p = objs.behind p := by
  rw [Objects.behind, Objects.behind, Function.update_of_ne other]

theorem Objects.bytes_update [DecidableEq ι] {i : ι} {n : Nat} (other : p.object ≠ i) :
    Objects.bytes (Function.update objs i bytes) p n = objs.bytes p n := by
  rw [Objects.bytes, Objects.bytes, Objects.behind_update other]

theorem Objects.text_update [DecidableEq ι] {i : ι} {bound : Option Nat} (other : p.object ≠ i) :
    Objects.text (Function.update objs i bytes) p bound = objs.text p bound := by
  rw [Objects.text, Objects.text, Objects.behind_update other]

end Lists

/-- Appends the strings one by one, and asks for the length of what has come about. -/
def concatAll {π : Type} (dst : π) : List π → Client (CallOf π) (ReplyOf π) Nat
  | [] => .call (.strlen dst) fun reply => .done reply.length
  | src :: rest => .call (.strcat dst src) fun _ => concatAll dst rest

theorem concatAll_renders {ι : Type} {start : PagedMemory} (layout : Layout ι start) (dst : Place ι)
    (srcs : List (Place ι)) : (concatAll dst srcs).Renders layout.call layout.reply
      (concatAll (layout.at dst) (srcs.map layout.at)) := by
  induction srcs with
  | nil =>
    refine .call _ fun reply => ?_
    rw [Layout.length_reply]
    exact .done _
  | cons src rest ih => exact .call _ fun _ => ih

section Concat
variable {ι : Type} [DecidableEq ι] {objs : Objects ι} {constant : ι → Bool} {dst src : Place ι}
variable {before text more behind : List UInt8}

private theorem perform_strcat (shape : objs dst.object = before ++ (text ++ 0 :: behind))
    (length : before.length = dst.offset) (free : 0 ∉ text) (found : objs.text src none = some more)
    (other : src.object ≠ dst.object) (room : more.length ≤ behind.length)
    (changes : constant dst.object = false) :
    perform objs constant (.strcat dst src) = some (.pointer (some dst),
      Function.update objs dst.object
        (before ++ ((text ++ more) ++ 0 :: behind.drop more.length))) := by
  have apart : Apart (dst.add text.length) (more.length + 1) src (more.length + 1) :=
    fun same => absurd same.symm other
  have pieces : objs (dst.add text.length).object =
      (before ++ text) ++ ((0 :: behind.take more.length) ++ behind.drop more.length) := by
    rw [List.cons_append, List.take_append_drop, List.append_assoc]
    exact shape
  have written : objs.write (dst.add text.length) constant (more ++ [0]) =
      some (Function.update objs dst.object
        ((before ++ text) ++ ((more ++ [0]) ++ behind.drop more.length))) := by
    refine Objects.write_eq pieces ?_ ?_ changes
    · rw [List.length_append, length]
      rfl
    · rw [List.length_cons, List.length_take, List.length_append, List.length_singleton]
      omega
  have lists : (before ++ text) ++ ((more ++ [0]) ++ behind.drop more.length) =
      before ++ ((text ++ more) ++ 0 :: behind.drop more.length) := by
    simp only [List.append_assoc, List.cons_append, List.nil_append]
  rw [lists] at written
  simp only [perform, Objects.text_eq shape length free, found, written, guard, apart, ↓reduceIte,
    Option.bind_eq_bind, Option.bind_some, Option.pure_def]

private theorem perform_strlen (found : objs.text dst none = some text) :
    perform objs constant (.strlen dst) = some (.size text.length, objs) := by
  simp only [perform, found, Option.bind_eq_bind, Option.bind_some, Option.pure_def]

/-- The strings to be appended are in other objects. -/
def Sources (objs : Objects ι) (dst : Place ι) : List (Place ι) → List (List UInt8) → Prop :=
  List.Forall₂ fun src more => src.object ≠ dst.object ∧ objs.text src none = some more

theorem Sources.update {srcs : List (Place ι)} {texts : List (List UInt8)} {bytes : List UInt8}
    (sources : Sources objs dst srcs texts) :
    Sources (Function.update objs dst.object bytes) dst srcs texts :=
  List.Forall₂.imp (fun _ _ found => ⟨found.1, (Objects.text_update found.1).trans found.2⟩) sources

theorem concatAll_yields {start : PagedMemory} {layout : Layout ι start} {fine : Memory → Call → Prop}
    {srcs : List (Place ι)} {texts : List (List UInt8)} (sources : Sources objs dst srcs texts)
    (appends : ∀ m dst src, fine m (.strcat dst src)) (counts : ∀ m str, fine m (.strlen str))
    (shape : objs dst.object = before ++ (text ++ 0 :: behind)) (length : before.length = dst.offset)
    (free : 0 ∉ text) (room : texts.flatten.length ≤ behind.length)
    (changes : layout.constant dst.object = false) :
    (objectFace layout fine).Yields (concatAll dst srcs) objs (text ++ texts.flatten).length
      (Function.update objs dst.object
        (before ++ ((text ++ texts.flatten) ++ 0 :: behind.drop texts.flatten.length))) := by
  have positive : 0 < sizeRange := by
    rw [sizeRange_eq]
    decide
  induction srcs generalizing objs text behind texts with
  | nil =>
    cases sources
    have done : perform objs layout.constant (.strlen dst) = some (.size text.length, objs) :=
      perform_strlen (Objects.text_eq shape length free)
    have same :
        Function.update objs dst.object (before ++ ((text ++ []) ++ 0 :: behind.drop 0)) = objs := by
      rw [List.append_nil, List.drop_zero, ← shape, Function.update_eq_self]
    rw [List.flatten_nil, List.length_nil, same, List.append_nil]
    exact .call ⟨positive, done ▸ rfl, fun m _ => counts m _⟩ done .done
  | cons src srcs ih =>
    obtain _ | @⟨_, more, _, texts, ⟨other, found⟩, rest⟩ := sources
    rw [List.flatten_cons, List.length_append] at room
    have done := perform_strcat shape length free found other (by omega) changes
    have shape' : Function.update objs dst.object
        (before ++ ((text ++ more) ++ 0 :: behind.drop more.length)) dst.object =
        before ++ ((text ++ more) ++ 0 :: behind.drop more.length) := Function.update_self ..
    have free' : 0 ∉ text ++ more := by
      rw [List.mem_append, not_or]
      exact ⟨free, Objects.text_free found⟩
    have room' : texts.flatten.length ≤ (behind.drop more.length).length := by
      rw [List.length_drop]
      omega
    have further := ih (Sources.update rest) shape' free' room'
    rw [Function.update_idem, List.drop_drop, ← List.length_append] at further
    rw [List.flatten_cons, ← List.append_assoc text]
    exact .call ⟨positive, done ▸ rfl, fun m _ => appends m _ _⟩ done further

end Concat

section Gather

/-- Copies the pieces one behind the other, each to where the last call returned; says whether every
call returned a pointer. -/
def gather {π : Type} (dst : π) : List (π × Nat) → Client (CallOf π) (ReplyOf π) Bool
  | [] => .done true
  | (src, size) :: rest => .call (.mempcpy dst src size) fun
    | .pointer (some next) => gather next rest
    | _ => .done false

theorem gather_renders {ι : Type} {start : PagedMemory} (layout : Layout ι start) (dst : Place ι)
    (pieces : List (Place ι × Nat)) : (gather dst pieces).Renders layout.call layout.reply
      (gather (layout.at dst) (pieces.map fun piece => (layout.at piece.1, piece.2))) := by
  induction pieces generalizing dst with
  | nil => exact .done true
  | cons piece rest ih =>
    refine .call _ fun reply => ?_
    cases reply with
    | pointer place =>
      cases place with
      | none => exact .done false
      | some next => exact ih next
    | size _ => exact .done false
    | order _ => exact .done false

variable {ι : Type} [DecidableEq ι] {objs : Objects ι} {constant : ι → Bool} {dst src : Place ι}
variable {before bytes old rest : List UInt8}

private theorem perform_mempcpy (shape : objs dst.object = before ++ (old ++ rest))
    (length : before.length = dst.offset) (same : old.length = bytes.length)
    (found : objs.bytes src bytes.length = some bytes) (other : src.object ≠ dst.object)
    (changes : constant dst.object = false) :
    perform objs constant (.mempcpy dst src bytes.length) = some
      (.pointer (some (dst.add bytes.length)),
        Function.update objs dst.object (before ++ (bytes ++ rest))) := by
  have apart : Apart dst bytes.length src bytes.length := fun same => absurd same.symm other
  simp only [perform, found, Objects.write_eq shape length same changes, guard, apart, ↓reduceIte,
    Option.bind_eq_bind, Option.bind_some, Option.pure_def]

/-- The pieces to be gathered are in other objects. -/
def Pieces (objs : Objects ι) (dst : Place ι) : List (Place ι × Nat) → List (List UInt8) → Prop :=
  List.Forall₂ fun piece bytes => piece.1.object ≠ dst.object ∧ piece.2 = bytes.length ∧
    bytes.length < sizeRange ∧ objs.bytes piece.1 bytes.length = some bytes

theorem Pieces.update {pieces : List (Place ι × Nat)} {lists : List (List UInt8)}
    (given : Pieces objs dst pieces lists) :
    Pieces (Function.update objs dst.object bytes) dst pieces lists :=
  List.Forall₂.imp (fun _ _ found => ⟨found.1, found.2.1, found.2.2.1,
    (Objects.bytes_update found.1).trans found.2.2.2⟩) given

theorem gather_yields {start : PagedMemory} {layout : Layout ι start} {fine : Memory → Call → Prop}
    {pieces : List (Place ι × Nat)} {lists : List (List UInt8)} (given : Pieces objs dst pieces lists)
    (copies : ∀ m dst src size, fine m (.mempcpy dst src size))
    (shape : objs dst.object = before ++ (old ++ rest)) (length : before.length = dst.offset)
    (same : old.length = lists.flatten.length) (changes : layout.constant dst.object = false) :
    (objectFace layout fine).Yields (gather dst pieces) objs true
      (Function.update objs dst.object (before ++ (lists.flatten ++ rest))) := by
  induction pieces generalizing objs dst before old lists with
  | nil =>
    cases given
    obtain rfl := List.length_eq_zero_iff.mp same
    have still : Function.update objs dst.object (before ++ ([] ++ rest)) = objs := by
      rw [← shape, Function.update_eq_self]
    rw [List.flatten_nil, still]
    exact .done
  | cons piece pieces ih =>
    obtain ⟨src, size⟩ := piece
    obtain _ | @⟨_, bytes, _, lists, ⟨other, rfl, range, found⟩, given⟩ := given
    rw [List.flatten_cons, List.length_append] at same
    have split : objs dst.object =
        before ++ (old.take bytes.length ++ (old.drop bytes.length ++ rest)) := by
      rw [shape, ← List.append_assoc (old.take _), List.take_append_drop]
    have done := perform_mempcpy split length (by rw [List.length_take]; omega) found other changes
    have shape' : Function.update objs dst.object
        (before ++ (bytes ++ (old.drop bytes.length ++ rest))) (dst.add bytes.length).object =
        (before ++ bytes) ++ (old.drop bytes.length ++ rest) := by
      rw [List.append_assoc]
      exact Function.update_self ..
    have given' : Pieces (Function.update objs dst.object
        (before ++ (bytes ++ (old.drop bytes.length ++ rest)))) (dst.add bytes.length) pieces lists :=
      Pieces.update given
    have further := ih given' shape' (by rw [List.length_append, length]; rfl)
      (by rw [List.length_drop]; omega) changes
    rw [show (dst.add bytes.length).object = dst.object from rfl, Function.update_idem,
      List.append_assoc before, ← List.append_assoc bytes lists.flatten] at further
    rw [List.flatten_cons]
    exact .call ⟨range, done ▸ rfl, fun m _ => copies m _ _ _⟩ done further

end Gather

end AoclLibmem.Calls
