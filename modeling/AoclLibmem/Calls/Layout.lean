import AoclLibmem.Calls.Objects

/-! Objects in the memory of a machine: where they lie, and what the bytes there say about the
lists. -/

namespace AoclLibmem.Calls

open Base Machine Strings

/-- The objects lie apart from each other in pages with the rights they need, and none of them in the
first page. -/
structure Layout (ι : Type) (start : PagedMemory) where
  base : ι → Nat
  size : ι → Nat
  constant : ι → Bool
  apart : ∀ i j, i ≠ j → base i + size i ≤ base j ∨ base j + size j ≤ base i
  low : ∀ i, pageSz ≤ base i
  high : ∀ i, base i + size i ≤ sizeRange
  readable : ∀ i, ∀ k < size i, start.readable (base i + k) = true
  writable : ∀ i, constant i = false → ∀ k < size i, start.writable (base i + k) = true

section Words
variable {ι : Type} {start : PagedMemory} (layout : Layout ι start)

def Layout.at (p : Place ι) : Nat := layout.base p.object + p.offset

def Layout.call : CallOf (Place ι) → Call
  | .memcpy dst src size => .memcpy (layout.at dst) (layout.at src) size
  | .mempcpy dst src size => .mempcpy (layout.at dst) (layout.at src) size
  | .memmove dst src size => .memmove (layout.at dst) (layout.at src) size
  | .memset mem val size => .memset (layout.at mem) val size
  | .memcmp mem1 mem2 size => .memcmp (layout.at mem1) (layout.at mem2) size
  | .memchr mem val size => .memchr (layout.at mem) val size
  | .strcpy dst src => .strcpy (layout.at dst) (layout.at src)
  | .strncpy dst src size => .strncpy (layout.at dst) (layout.at src) size
  | .strcmp str1 str2 => .strcmp (layout.at str1) (layout.at str2)
  | .strncmp str1 str2 size => .strncmp (layout.at str1) (layout.at str2) size
  | .strcat dst src => .strcat (layout.at dst) (layout.at src)
  | .strncat dst src n => .strncat (layout.at dst) (layout.at src) n
  | .strstr haystack needle => .strstr (layout.at haystack) (layout.at needle)
  | .strlen str => .strlen (layout.at str)
  | .strnlen str maxlen => .strnlen (layout.at str) maxlen
  | .strchr str c => .strchr (layout.at str) c
  | .strspn str accept => .strspn (layout.at str) (layout.at accept)

def Layout.reply : ReplyOf (Place ι) → Reply
  | .pointer place => .pointer (place.map layout.at)
  | .size count => .size count
  | .order value => .order value

@[simp] theorem Layout.length_reply (reply : ReplyOf (Place ι)) :
    (layout.reply reply).length = reply.length := by
  cases reply <;> rfl

/-- The bytes of the objects are where the layout has them; nothing else of the memory has changed
since the start, and no right has. -/
structure Layout.Holds (objs : Objects ι) (m : Memory) : Prop where
  size : ∀ i, (objs i).length = layout.size i
  bytes : ∀ i, Spells m.byte (layout.base i) (objs i)
  rights : m.rights = start.toMemory.rights
  frame : ∀ a, (∀ i, ¬ (layout.base i ≤ a ∧ a < layout.base i + layout.size i)) →
    m.byte a = start.byte a

end Words

section Places
variable {ι : Type} {start : PagedMemory} {layout : Layout ι start} {p q : Place ι} {n k : Nat}

theorem Layout.at_add : layout.at (p.add n) = layout.at p + n := (Nat.add_assoc _ _ _).symm

theorem Layout.range (fits : p.offset + n ≤ layout.size p.object) :
    pageSz ≤ layout.at p ∧ layout.at p + n ≤ sizeRange := by
  have low := layout.low p.object
  have high := layout.high p.object
  unfold Layout.at
  omega

/-- Apart in their objects, apart in the memory. -/
theorem Layout.apart_at (fits : p.offset + n ≤ layout.size p.object)
    (fits' : q.offset + k ≤ layout.size q.object) (apart : Apart p n q k) :
    layout.at p + n ≤ layout.at q ∨ layout.at q + k ≤ layout.at p := by
  unfold Layout.at
  by_cases same : p.object = q.object
  · have sides := apart same
    rw [same]
    omega
  · have sides := layout.apart _ _ same
    omega

end Places

section Reading
variable {ι : Type} {start : PagedMemory} {layout : Layout ι start} {objs : Objects ι} {m : Memory}
variable {p : Place ι} {rest bytes text : List UInt8} {bound : Option Nat} {n k : Nat}

structure Layout.Bytes (layout : Layout ι start) (m : Memory) (p : Place ι) (n : Nat)
    (bytes : List UInt8) : Prop where
  length : bytes.length = n
  spells : Spells m.byte (layout.at p) bytes
  readable : ∀ i < n, m.readable (layout.at p + i) = true
  fits : p.offset + n ≤ layout.size p.object

/-- The text at a place, and the right to read it with its end. -/
structure Layout.Text (layout : Layout ι start) (m : Memory) (p : Place ι) (bound : Option Nat)
    (text : List UInt8) : Prop where
  isText : IsText 0 m.byte (layout.at p) bound text
  readable : ∀ i ≤ text.length, (∀ n ∈ bound, i < n) → m.readable (layout.at p + i) = true
  fits : p.offset + text.length ≤ layout.size p.object
  further : (∀ n ∈ bound, text.length < n) → p.offset + (text.length + 1) ≤ layout.size p.object

section Holding
variable (holds : layout.Holds objs m)
include holds

theorem Layout.Holds.readable_eq : m.readable = start.readable := congrArg Prod.fst holds.rights

theorem Layout.Holds.writable_eq : m.writable = start.writable := congrArg Prod.snd holds.rights

theorem Layout.Holds.paged : ∃ paged : PagedMemory, paged.toMemory = m := by
  refine ⟨⟨m, fun a b same => ?_⟩, rfl⟩
  rw [holds.readable_eq]
  exact start.byPage a b same

theorem Layout.Holds.readable (inside : p.offset + k < layout.size p.object) :
    m.readable (layout.at p + k) = true := by
  rw [holds.readable_eq, Layout.at, Nat.add_assoc]
  exact layout.readable p.object (p.offset + k) inside

theorem Layout.Holds.behind (found : objs.behind p = some rest) :
    Spells m.byte (layout.at p) rest ∧ p.offset + rest.length = layout.size p.object := by
  rw [Objects.behind, Option.ite_none_right_eq_some, Option.some.injEq] at found
  obtain ⟨inside, rfl⟩ := found
  refine ⟨(holds.bytes p.object).drop p.offset, ?_⟩
  rw [List.length_drop]
  rw [holds.size] at *
  omega

theorem Layout.Holds.shows (found : objs.bytes p n = some bytes) : layout.Bytes m p n bytes := by
  simp only [Objects.bytes, Option.bind_eq_bind, Option.bind_eq_some_iff,
    Option.ite_none_right_eq_some, Option.pure_def, Option.some.injEq] at found
  obtain ⟨rest, behind, enough, rfl⟩ := found
  obtain ⟨spells, ends⟩ := holds.behind behind
  refine ⟨?_, spells.take n, fun i inside => holds.readable (by omega), by omega⟩
  rw [List.length_take, Nat.min_eq_left enough]

theorem Layout.Holds.reads (found : objs.text p bound = some text) : layout.Text m p bound text := by
  simp only [Objects.text, Option.bind_eq_bind, Option.bind_eq_some_iff] at found
  obtain ⟨rest, behind, inRest⟩ := found
  obtain ⟨spells, ends⟩ := holds.behind behind
  have shorter := (textIn_starts inRest).length_le
  have complete := textIn_complete inRest
  refine ⟨textIn_isText spells inRest, fun i inside below => holds.readable ?_, by omega,
    fun short => ?_⟩
  · rcases complete with less | full
    · omega
    · have := below text.length full
      omega
  · rcases complete with less | full
    · omega
    · exact absurd (short text.length full) (Nat.lt_irrefl _)

end Holding

section Writing
variable [DecidableEq ι] {after : Objects ι} {m' : Memory}

structure Layout.Room (layout : Layout ι start) (m : Memory) (p : Place ι) (n : Nat) : Prop where
  writable : ∀ i < n, m.writable (layout.at p + i) = true
  fits : p.offset + n ≤ layout.size p.object

theorem Layout.Holds.room (holds : layout.Holds objs m)
    (written : objs.write p layout.constant bytes = some after) : layout.Room m p bytes.length := by
  simp only [Objects.write, Option.bind_eq_bind, Option.bind_eq_some_iff,
    Option.ite_none_right_eq_some, Option.pure_def, Option.some.injEq] at written
  obtain ⟨rest, behind, ⟨changes, enough⟩, rfl⟩ := written
  have ends := (holds.behind behind).2
  refine ⟨fun i inside => ?_, by omega⟩
  rw [holds.writable_eq, Layout.at, Nat.add_assoc]
  exact layout.writable p.object changes (p.offset + i) (by omega)

/-- A memory in which just these bytes have changed holds the objects after the write. -/
theorem Layout.Holds.write (holds : layout.Holds objs m)
    (written : objs.write p layout.constant bytes = some after) (rights : m'.rights = m.rights)
    (new : Spells m'.byte (layout.at p) bytes)
    (frame : ∀ a, ¬ (layout.at p ≤ a ∧ a < layout.at p + bytes.length) → m'.byte a = m.byte a) :
    layout.Holds after m' := by
  have fits := (holds.room written).fits
  simp only [Objects.write, Option.bind_eq_bind, Option.bind_eq_some_iff,
    Option.ite_none_right_eq_some, Option.pure_def, Option.some.injEq] at written
  obtain ⟨rest, behind, ⟨_, enough⟩, rfl⟩ := written
  obtain ⟨old, ends⟩ := holds.behind behind
  have whole := holds.size p.object
  have length : ((objs p.object).take p.offset ++ (bytes ++ rest.drop bytes.length)).length =
      layout.size p.object := by
    simp only [List.length_append, List.length_take, List.length_drop]
    omega
  refine ⟨fun i => ?_, fun i => ?_, rights.trans holds.rights, fun a outside => ?_⟩
  · by_cases same : i = p.object
    · rw [same, Function.update_self, length]
    · rw [Function.update_of_ne same, holds.size]
  · by_cases same : i = p.object
    · rw [same, Function.update_self]
      have before : ((objs p.object).take p.offset).length = p.offset := by
        rw [List.length_take]
        omega
      rw [spells_append, spells_append, before]
      refine ⟨((holds.bytes p.object).take p.offset).congr fun k inside => frame _ ?_, new,
        (old.drop bytes.length).congr fun k inside => frame _ (by omega)⟩
      unfold Layout.at
      omega
    · rw [Function.update_of_ne same]
      refine (holds.bytes i).congr fun k inside => frame _ ?_
      have sides := layout.apart i p.object same
      rw [holds.size] at inside
      unfold Layout.at
      omega
  · rw [← holds.frame a outside]
    refine frame a fun inside => outside p.object ?_
    unfold Layout.at at inside
    omega

end Writing

end Reading

section Instance

/-- "hi" at the start of page 1, and else only NULs. -/
def greetingMemory : PagedMemory := .full fun a => if a = 4096 then 104 else if a = 4097 then 105 else 0

/-- The word is a constant; eight bytes of page 2 are a variable. -/
def greeting : Layout Bool greetingMemory where
  base i := if i then 4096 else 8192
  size i := if i then 3 else 8
  constant i := i
  apart := by decide
  low := by decide
  high i := by cases i <;> rw [sizeRange_eq] <;> decide
  readable _ _ _ := rfl
  writable _ _ _ _ := rfl

def greetingObjects : Objects Bool := fun i => if i then [104, 105, 0] else List.replicate 8 0

theorem greeting_holds : greeting.Holds greetingObjects greetingMemory.toMemory where
  size := by decide
  bytes i := by cases i <;> unfold Spells <;> decide
  rights := rfl
  frame _ _ := rfl

end Instance

end AoclLibmem.Calls
