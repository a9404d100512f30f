import AoclLibmem.Calls.Contract
import AoclLibmem.Base.Terminated
import Mathlib.Logic.Function.Basic

/-! The seventeen functions in the terms of the language: memory is a family of objects, a pointer is
an object and an offset, a string is a list. What the language leaves undefined has no result. -/

namespace AoclLibmem.Calls

open Base Machine Strings

/-- The sign of a comparison of bytes as unsigned chars. -/
def bytesSign (list list' : List UInt8) : Int :=
  orderSign (list.map UInt8.toNat) (list'.map UInt8.toNat)

structure Place (ι : Type) where
  object : ι
  offset : Nat
deriving DecidableEq, Repr

def Place.add {ι : Type} (p : Place ι) (n : Nat) : Place ι := ⟨p.object, p.offset + n⟩

abbrev Objects (ι : Type) := ι → List UInt8

def CallOf.count {π : Type} : CallOf π → Nat
  | .memcpy _ _ size | .mempcpy _ _ size | .memmove _ _ size | .memset _ _ size => size
  | .memcmp _ _ size | .memchr _ _ size | .strncpy _ _ size | .strncmp _ _ size => size
  | .strncat _ _ n => n
  | .strnlen _ maxlen => maxlen
  | _ => 0

def ReplyOf.length {π : Type} : ReplyOf π → Nat
  | .size count => count
  | _ => 0

section Machine
variable {ι : Type} (objs : Objects ι) (p : Place ι)

/-- The bytes from a place to the end of the object. A place is in the object or right behind it. -/
def Objects.behind : Option (List UInt8) :=
  if p.offset ≤ (objs p.object).length then some ((objs p.object).drop p.offset) else none

def Objects.bytes (n : Nat) : Option (List UInt8) := do
  let rest ← objs.behind p
  if n ≤ rest.length then return rest.take n else none

/-- The string at a place, or as much of it as the bound lets one look at. -/
def Objects.text (bound : Option Nat) : Option (List UInt8) := do
  let rest ← objs.behind p
  textIn 0 bound rest

/-- `n` bytes at the one place and `k` bytes at the other have no byte in common. -/
def Apart (p : Place ι) (n : Nat) (q : Place ι) (k : Nat) : Prop :=
  p.object = q.object → p.offset + n ≤ q.offset ∨ q.offset + k ≤ p.offset

variable [DecidableEq ι] (constant : ι → Bool)

instance (n : Nat) (q : Place ι) (k : Nat) : Decidable (Apart p n q k) :=
  inferInstanceAs (Decidable (_ → _))

/-- The bytes replace as many in the object, if that is no constant. -/
def Objects.write (bytes : List UInt8) : Option (Objects ι) := do
  let rest ← objs.behind p
  if constant p.object = false ∧ bytes.length ≤ rest.length then
    return Function.update objs p.object
      ((objs p.object).take p.offset ++ (bytes ++ rest.drop bytes.length))
  else none

/-- What a call returns, and the objects after it. -/
def perform : CallOf (Place ι) → Option (ReplyOf (Place ι) × Objects ι)
  | .memcpy dst src size => do
      let bytes ← objs.bytes src size
      guard (Apart dst size src size)
      let after ← objs.write dst constant bytes
      return (.pointer (some dst), after)
  | .mempcpy dst src size => do
      let bytes ← objs.bytes src size
      guard (Apart dst size src size)
      let after ← objs.write dst constant bytes
      return (.pointer (some (dst.add size)), after)
  | .memmove dst src size => do
      let bytes ← objs.bytes src size
      let after ← objs.write dst constant bytes
      return (.pointer (some dst), after)
  | .memset mem val size => do
      let after ← objs.write mem constant (List.replicate size (Fill.uchar val))
      return (.pointer (some mem), after)
  | .memcmp mem1 mem2 size => do
      let bytes1 ← objs.bytes mem1 size
      let bytes2 ← objs.bytes mem2 size
      return (.order (bytesSign bytes1 bytes2), objs)
  | .memchr mem val size => do
      let bytes ← objs.bytes mem size
      return (.pointer ((bytes.findIdx? (· == charOfInt val)).map mem.add), objs)
  | .strcpy dst src => do
      let text ← objs.text src none
      guard (Apart dst (text.length + 1) src (text.length + 1))
      let after ← objs.write dst constant (text ++ [0])
      return (.pointer (some dst), after)
  | .strncpy dst src size => do
      let text ← objs.text src (some size)
      guard (Apart dst size src (min (text.length + 1) size))
      let after ← objs.write dst constant (text ++ List.replicate (size - text.length) 0)
      return (.pointer (some dst), after)
  | .strcmp str1 str2 => do
      let text1 ← objs.text str1 none
      let text2 ← objs.text str2 none
      return (.order (bytesSign text1 text2), objs)
  | .strncmp str1 str2 size => do
      let text1 ← objs.text str1 (some size)
      let text2 ← objs.text str2 (some size)
      return (.order (bytesSign text1 text2), objs)
  | .strcat dst src => do
      let text ← objs.text dst none
      let more ← objs.text src none
      guard (Apart (dst.add text.length) (more.length + 1) src (more.length + 1))
      let after ← objs.write (dst.add text.length) constant (more ++ [0])
      return (.pointer (some dst), after)
  | .strncat dst src n => do
      let text ← objs.text dst none
      let more ← objs.text src (some n)
      -- the source may end where the text to be continued does
      guard (Apart (dst.add text.length) (more.length + 1) src more.length)
      let after ← objs.write (dst.add text.length) constant (more ++ [0])
      return (.pointer (some dst), after)
  | .strstr haystack needle => do
      let text ← objs.text haystack none
      let part ← objs.text needle none
      return (.pointer ((text.tails.findIdx? part.isPrefixOf).map haystack.add), objs)
  | .strlen str => do
      let text ← objs.text str none
      return (.size text.length, objs)
  | .strnlen str maxlen => do
      let text ← objs.text str (some maxlen)
      return (.size text.length, objs)
  | .strchr str c => do
      let text ← objs.text str none
      return (.pointer (((text ++ [0]).findIdx? (· == charOfInt c)).map str.add), objs)
  | .strspn str accept => do
      let text ← objs.text str none
      let letters ← objs.text accept none
      return (.size (text.takeWhile (· ∈ letters)).length, objs)

variable {objs constant} {p} {bytes : List UInt8} {call : CallOf (Place ι)} {reply : ReplyOf (Place ι)}
variable {after : Objects ι}

theorem perform_writes (done : perform objs constant call = some (reply, after)) :
    after = objs ∨ ∃ p bytes, objs.write p constant bytes = some after := by
  cases call with
  | memcpy dst src size | mempcpy dst src size | strcpy dst src | strncpy dst src size =>
    simp only [perform, Option.bind_eq_bind, Option.bind_eq_some_iff, Option.pure_def,
      Option.some.injEq, Prod.mk.injEq] at done
    obtain ⟨_, _, _, _, _, written, _, rfl⟩ := done
    exact .inr ⟨_, _, written⟩
  | memmove dst src size =>
    simp only [perform, Option.bind_eq_bind, Option.bind_eq_some_iff, Option.pure_def,
      Option.some.injEq, Prod.mk.injEq] at done
    obtain ⟨_, _, _, written, _, rfl⟩ := done
    exact .inr ⟨_, _, written⟩
  | memset mem val size =>
    simp only [perform, Option.bind_eq_bind, Option.bind_eq_some_iff, Option.pure_def,
      Option.some.injEq, Prod.mk.injEq] at done
    obtain ⟨_, written, _, rfl⟩ := done
    exact .inr ⟨_, _, written⟩
  | strcat dst src | strncat dst src n =>
    simp only [perform, Option.bind_eq_bind, Option.bind_eq_some_iff, Option.pure_def,
      Option.some.injEq, Prod.mk.injEq] at done
    obtain ⟨_, _, _, _, _, _, _, written, _, rfl⟩ := done
    exact .inr ⟨_, _, written⟩
  | memcmp _ _ _ | strcmp _ _ | strncmp _ _ _ | strstr _ _ | strspn _ _ =>
    simp only [perform, Option.bind_eq_bind, Option.bind_eq_some_iff, Option.pure_def,
      Option.some.injEq, Prod.mk.injEq] at done
    obtain ⟨_, _, _, _, _, rfl⟩ := done
    exact .inl rfl
  | memchr _ _ _ | strlen _ | strnlen _ _ | strchr _ _ =>
    simp only [perform, Option.bind_eq_bind, Option.bind_eq_some_iff, Option.pure_def,
      Option.some.injEq, Prod.mk.injEq] at done
    obtain ⟨_, _, _, rfl⟩ := done
    exact .inl rfl

theorem Objects.write_keeps (written : objs.write p constant bytes = some after) (o : ι) :
    (after o).length = (objs o).length ∧ (constant o = true → after o = objs o) := by
  simp only [Objects.write, Objects.behind, Option.bind_eq_bind, Option.bind_eq_some_iff,
    Option.ite_none_right_eq_some, Option.some.injEq, Option.pure_def] at written
  obtain ⟨rest, ⟨inside, rfl⟩, ⟨varies, fits⟩, rfl⟩ := written
  by_cases here : o = p.object
  · subst here
    rw [Function.update_self]
    refine ⟨?_, fun fixed => absurd fixed (by simp [varies])⟩
    simp only [List.length_append, List.length_take, List.length_drop] at fits ⊢
    omega
  · rw [Function.update_of_ne here]
    exact ⟨rfl, fun _ => rfl⟩

/-- No call changes the size of an object, nor anything in a constant one. -/
theorem perform_keeps (done : perform objs constant call = some (reply, after)) (o : ι) :
    (after o).length = (objs o).length ∧ (constant o = true → after o = objs o) := by
  rcases perform_writes done with rfl | ⟨p, bytes, written⟩
  · exact ⟨rfl, fun _ => rfl⟩
  · exact Objects.write_keeps written o

end Machine

/-- `strcat` behind "ab", and a search for "bc" in what it leaves. -/
example : (perform (fun i => if i = 0 then [97, 98, 0, 7, 7] else [98, 99, 0]) (· == 1)
      (.strcat ⟨0, 0⟩ ⟨1, 1⟩)).bind (fun out => (perform out.2 (· == 1) (.strstr ⟨0, 0⟩ ⟨1, 0⟩)).map
        fun found => (out.2 0, found.1)) =
    some ([97, 98, 99, 0, 7], .pointer (some ⟨0, 1⟩)) := by
  decide

end AoclLibmem.Calls
