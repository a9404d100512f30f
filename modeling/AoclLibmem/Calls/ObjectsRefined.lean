import AoclLibmem.Calls.Readings
import Mathlib.Data.Option.Basic

/-! A call in the words of the machine is legal wherever the objects are held, and the one right reply
to it is the one that the language defines. -/

namespace AoclLibmem.Calls

open Base Machine Strings

section Called
variable {ι : Type} {start : PagedMemory} {layout : Layout ι start} {objs after : Objects ι}
variable {paged : PagedMemory} {dst src : Place ι} {bytes text more : List UInt8} {n : Nat}

/-- A call that changes nothing is understood when its value is. -/
theorem Layout.Holds.told {m m' : Memory} (holds : layout.Holds objs m) {α : Type} {wrap : α → Reply}
    {right : α → Prop} {exact : Reply} (rights : m'.rights = m.rights)
    (tells : Tells m m' exact wrap right) :
    (∃ value, right value ∧ exact = wrap value) ∧ layout.Holds objs m' := by
  obtain ⟨same, value, rfl, told⟩ := tells
  rw [Memory.eq_of_rights same rights]
  exact ⟨⟨value, told, rfl⟩, holds⟩

section Writing
variable [DecidableEq ι] {m m' : Memory} (holds : layout.Holds objs m)
  (written : objs.write dst layout.constant bytes = some after) (rights : m'.rights = m.rights)
include holds written rights

theorem Layout.Holds.copied (spells : Spells m.byte (layout.at src) bytes)
    (copied : Copy.Copied m m' (layout.at dst) (layout.at src) bytes.length) :
    layout.Holds after m' :=
  holds.write written rights (fun i inside => (copied.1 i inside).trans (spells i inside)) copied.2

theorem Layout.Holds.filled {size : Nat} {value : UInt8} (shape : bytes = List.replicate size value)
    (filled : Fill.Filled m m' (layout.at dst) size value) : layout.Holds after m' := by
  subst shape
  refine holds.write written rights (fun i inside => ?_) ?_
  · rw [List.getElem_replicate]
    exact filled.1 i (by rwa [List.length_replicate] at inside)
  · rw [List.length_replicate]
    exact filled.2

theorem Layout.Holds.padded (reads : layout.Text m src (some n) text)
    (shape : bytes = text ++ List.replicate (n - text.length) 0)
    (padded : Padded m m' (layout.at dst) (layout.at src) n) : layout.Holds after m' := by
  subst shape
  have bounded := reads.boundedLength
  have within := bounded.within
  have length : (text ++ List.replicate (n - text.length) (0 : UInt8)).length = n := by
    rw [List.length_append, List.length_replicate]
    omega
  refine holds.write written rights (spells_append.mpr ⟨fun i inside => ?_, fun i inside => ?_⟩) ?_
  · rw [padded.copied i (by omega) (bounded.clear.mono (Nat.le_of_lt inside))]
    exact reads.isText.spells i inside
  · rw [List.length_replicate] at inside
    rw [List.getElem_replicate, Nat.add_assoc]
    have ends := bounded.ends (by omega)
    cases i with
    | zero => rw [Nat.add_zero, padded.copied _ (by omega) bounded.clear, ends]
    | succ i => exact padded.padded _ (by omega) text.length (by omega) ends
  · rw [length]
    exact padded.frame

end Writing

theorem Layout.Holds.appended [DecidableEq ι] {m m' : Memory} {dstLen : Nat}
    (holds : layout.Holds objs m)
    (written : objs.write (dst.add dstLen) layout.constant (more ++ [0]) = some after)
    (rights : m'.rights = m.rights) (spells : Spells m.byte (layout.at src) more)
    (appended : Appended m m' (layout.at dst) dstLen (layout.at src) more.length) :
    layout.Holds after m' := by
  refine holds.write written rights (spells_append.mpr ⟨fun i inside => ?_, fun i inside => ?_⟩) ?_
  · rw [Layout.at_add, appended.copied i inside]
    exact spells i inside
  · have zero : i = 0 := by simpa using inside
    subst zero
    rw [Layout.at_add]
    exact appended.ends
  · intro a outside
    refine appended.frame a fun inside => outside ?_
    rw [Layout.at_add, List.length_append, List.length_singleton]
    omega

/-- A string and a place for it elsewhere. -/
private theorem strcpyCall (reads : layout.Text paged.toMemory src none text)
    (room : layout.Room paged.toMemory dst (text.length + 1))
    (apart : Apart dst (text.length + 1) src (text.length + 1)) :
    StrcpyCall paged (layout.at dst) (layout.at src) text.length where
  ends := reads.isLength
  range := reads.length_lt
  source := reads.mapped
  target i inside := room.writable i (by omega)
  disjoint := by
    have sides := layout.apart_at room.fits reads.room apart
    omega

private theorem strncpyCall (reads : layout.Text paged.toMemory src (some n) text)
    (room : layout.Room paged.toMemory dst n) (range : n < sizeRange)
    (apart : Apart dst n src (min (text.length + 1) n)) :
    StrncpyCall paged (layout.at dst) (layout.at src) n := by
  have fits : src.offset + min (text.length + 1) n ≤ layout.size src.object := by
    have whole := reads.fits
    rcases Nat.lt_or_ge text.length n with short | full
    · have further := reads.further (by simpa using short)
      omega
    · omega
  have inside {k : Nat} (below : k < n) (clear : ClearBelow (Nul paged.byte (layout.at src)) k) :
      k < min (text.length + 1) n := by
    have le := reads.isText.clear_le clear (by simpa using Nat.le_of_lt below)
    omega
  refine ⟨range, reads.prefixMapped, Memory.canWrite_iff.mpr room.writable, ?_,
    (layout.range room.fits).2, fun k below clear => ?_⟩
  · intro k below clear
    have sides := layout.apart_at room.fits fits apart
    have := inside below clear
    omega
  · have range := (layout.range fits).2
    have := inside below clear
    omega

private theorem strncatCall (first : layout.Text paged.toMemory dst none text)
    (reads : layout.Text paged.toMemory src (some n) more)
    (room : layout.Room paged.toMemory (dst.add text.length) (more.length + 1)) (range : n < sizeRange)
    (apart : Apart (dst.add text.length) (more.length + 1) src more.length) :
    StrncatCall paged (layout.at dst) (layout.at src) n text.length more.length := by
  have sides := layout.apart_at room.fits reads.fits apart
  have below := (layout.range room.fits).2
  rw [Layout.at_add] at sides below
  refine ⟨first.isLength, first.mapped, range, reads.boundedLength, fun i less inside => ?_,
    fun i inside => ?_, by omega, by omega, (layout.range reads.fits).2⟩
  · exact reads.readable i inside (by simpa using less)
  · rw [← Layout.at_add]
    exact room.writable i (by omega)

private theorem strcatCall (first : layout.Text paged.toMemory dst none text)
    (reads : layout.Text paged.toMemory src none more)
    (room : layout.Room paged.toMemory (dst.add text.length) (more.length + 1))
    (apart : Apart (dst.add text.length) (more.length + 1) src (more.length + 1)) :
    StrcatCall paged (layout.at dst) (layout.at src) text.length more.length := by
  refine ⟨first.isLength, first.length_lt, first.mapped, ?_⟩
  rw [← Layout.at_add]
  exact strcpyCall reads room apart

private theorem strstrCall (reads : layout.Text paged.toMemory src none text)
    (reads' : layout.Text paged.toMemory dst none more) :
    StrstrCall paged (layout.at src) (layout.at dst) text.length more.length where
  ends := reads.isLength
  fits := by have := (layout.range reads.room).2; omega
  source := reads.mapped
  needleEnds := reads'.isLength
  needleFits := by have := (layout.range reads'.room).2; omega
  needleSource := reads'.mapped

private theorem spanCall (reads : layout.Text paged.toMemory src none text)
    (reads' : layout.Text paged.toMemory dst none more) :
    SpanCall paged (layout.at src) (layout.at dst) text.length more.length where
  ends := reads.isLength
  range := reads.length_lt
  source := reads.mapped
  acceptEnds := reads'.isLength
  acceptRange := reads'.length_lt
  acceptSource := reads'.mapped

end Called

section Performed
variable {ι : Type} [DecidableEq ι] {start paged : PagedMemory} {layout : Layout ι start}
variable {objs after : Objects ι} {reply : ReplyOf (Place ι)} {dst src p q : Place ι} {size : Nat}

/-- The call may be made, and whatever is right to reply and to leave then is this reply and leaves
these objects. -/
def Layout.Realises (layout : Layout ι start) (paged : PagedMemory) (call : CallOf (Place ι))
    (reply : ReplyOf (Place ι)) (after : Objects ι) : Prop :=
  Legal paged (layout.call call) ∧ ∀ exact m', m'.rights = paged.rights →
    Answers paged.toMemory (layout.call call) exact m' →
      layout.reply reply = exact.seen ∧ layout.Holds after m'

variable (holds : layout.Holds objs paged.toMemory)
include holds

section Bytes

private theorem memmove_realised (sized : size < sizeRange)
    (done : perform objs layout.constant (.memmove dst src size) = some (reply, after)) :
    layout.Realises paged (.memmove dst src size) reply after := by
  simp only [perform, Option.bind_eq_bind, Option.bind_eq_some_iff, Option.pure_def,
    Option.some.injEq, Prod.mk.injEq] at done
  obtain ⟨bytes, found, _, written, rfl, rfl⟩ := done
  have reads := holds.shows found
  have room := holds.room written
  have length := reads.length
  subst length
  refine ⟨⟨⟨reads.readable, room.writable⟩, sized⟩, fun exact m' rights right => ?_⟩
  obtain ⟨rfl, copied⟩ := right
  exact ⟨rfl, holds.copied written rights reads.spells copied⟩

private theorem memcpy_realised (sized : size < sizeRange)
    (done : perform objs layout.constant (.memcpy dst src size) = some (reply, after)) :
    layout.Realises paged (.memcpy dst src size) reply after := by
  simp only [perform, Option.bind_eq_bind, Option.bind_eq_some_iff, Option.guard_eq_some',
    Option.pure_def, Option.some.injEq, Prod.mk.injEq] at done
  obtain ⟨bytes, found, _, apart, _, written, rfl, rfl⟩ := done
  have reads := holds.shows found
  have room := holds.room written
  have length := reads.length
  subst length
  refine ⟨⟨⟨reads.readable, room.writable⟩, sized, layout.apart_at room.fits reads.fits apart⟩,
    fun exact m' rights right => ?_⟩
  obtain ⟨rfl, copied⟩ := right
  exact ⟨rfl, holds.copied written rights reads.spells copied⟩

private theorem mempcpy_realised (sized : size < sizeRange)
    (done : perform objs layout.constant (.mempcpy dst src size) = some (reply, after)) :
    layout.Realises paged (.mempcpy dst src size) reply after := by
  simp only [perform, Option.bind_eq_bind, Option.bind_eq_some_iff, Option.guard_eq_some',
    Option.pure_def, Option.some.injEq, Prod.mk.injEq] at done
  obtain ⟨bytes, found, _, apart, _, written, rfl, rfl⟩ := done
  have reads := holds.shows found
  have room := holds.room written
  have length := reads.length
  subst length
  refine ⟨⟨⟨reads.readable, room.writable⟩, sized, layout.apart_at room.fits reads.fits apart⟩,
    fun exact m' rights right => ?_⟩
  obtain ⟨rfl, copied⟩ := right
  exact ⟨congrArg (ReplyOf.pointer ∘ some) layout.at_add,
    holds.copied written rights reads.spells copied⟩

private theorem memset_realised {val : BitVec 32} (sized : size < sizeRange)
    (done : perform objs layout.constant (.memset dst val size) = some (reply, after)) :
    layout.Realises paged (.memset dst val size) reply after := by
  simp only [perform, Option.bind_eq_bind, Option.bind_eq_some_iff, Option.pure_def,
    Option.some.injEq, Prod.mk.injEq] at done
  obtain ⟨_, written, rfl, rfl⟩ := done
  have room := holds.room written
  rw [List.length_replicate] at room
  refine ⟨⟨room.writable, sized⟩, fun exact m' rights right => ?_⟩
  obtain ⟨rfl, filled⟩ := right
  exact ⟨rfl, holds.filled written rights rfl filled⟩

private theorem memcmp_realised (sized : size < sizeRange)
    (done : perform objs layout.constant (.memcmp p q size) = some (reply, after)) :
    layout.Realises paged (.memcmp p q size) reply after := by
  simp only [perform, Option.bind_eq_bind, Option.bind_eq_some_iff, Option.pure_def,
    Option.some.injEq, Prod.mk.injEq] at done
  obtain ⟨bytes1, found1, bytes2, found2, rfl, rfl⟩ := done
  have reads := holds.shows found1
  have reads' := holds.shows found2
  refine ⟨⟨sized, Memory.canRead_iff.mpr reads.readable, Memory.canRead_iff.mpr reads'.readable⟩,
    fun exact m' rights right => ?_⟩
  obtain ⟨⟨value, orders, rfl⟩, still⟩ := holds.told rights right
  exact ⟨congrArg ReplyOf.order (reads.orders reads' orders).symm, still⟩

private theorem memchr_realised {val : Int} (sized : size < sizeRange)
    (done : perform objs layout.constant (.memchr p val size) = some (reply, after)) :
    layout.Realises paged (.memchr p val size) reply after := by
  simp only [perform, Option.bind_eq_bind, Option.bind_eq_some_iff, Option.pure_def,
    Option.some.injEq, Prod.mk.injEq] at done
  obtain ⟨bytes, found, rfl, rfl⟩ := done
  have reads := holds.shows found
  refine ⟨⟨Memory.canRead_iff.mpr reads.readable, sized⟩, fun exact m' rights right => ?_⟩
  obtain ⟨⟨result, finds, rfl⟩, still⟩ := holds.told rights right
  exact ⟨congrArg ReplyOf.pointer (reads.finds finds).symm, still⟩

end Bytes

section Texts

private theorem strcpy_realised
    (done : perform objs layout.constant (.strcpy dst src) = some (reply, after)) :
    layout.Realises paged (.strcpy dst src) reply after := by
  simp only [perform, Option.bind_eq_bind, Option.bind_eq_some_iff, Option.guard_eq_some',
    Option.pure_def, Option.some.injEq, Prod.mk.injEq] at done
  obtain ⟨text, found, _, apart, _, written, rfl, rfl⟩ := done
  have reads := holds.reads found
  have room := holds.room written
  rw [List.length_append, List.length_singleton] at room
  refine ⟨⟨text.length, strcpyCall reads room apart⟩, fun exact m' rights right => ?_⟩
  obtain ⟨rfl, len, ends, copied⟩ := right
  rw [FirstHit.unique ends reads.isLength] at copied
  refine ⟨rfl, holds.copied written rights reads.isText.spells_stop ?_⟩
  rwa [List.length_append, List.length_singleton]

private theorem strncpy_realised (sized : size < sizeRange)
    (done : perform objs layout.constant (.strncpy dst src size) = some (reply, after)) :
    layout.Realises paged (.strncpy dst src size) reply after := by
  simp only [perform, Option.bind_eq_bind, Option.bind_eq_some_iff, Option.guard_eq_some',
    Option.pure_def, Option.some.injEq, Prod.mk.injEq] at done
  obtain ⟨text, found, _, apart, _, written, rfl, rfl⟩ := done
  have reads := holds.reads found
  have room := holds.room written
  rw [List.length_append, List.length_replicate,
    Nat.add_sub_of_le reads.boundedLength.within] at room
  refine ⟨strncpyCall reads room sized apart, fun exact m' rights right => ?_⟩
  obtain ⟨rfl, padded⟩ := right
  exact ⟨rfl, holds.padded written rights reads rfl padded⟩

private theorem strcat_realised
    (done : perform objs layout.constant (.strcat dst src) = some (reply, after)) :
    layout.Realises paged (.strcat dst src) reply after := by
  simp only [perform, Option.bind_eq_bind, Option.bind_eq_some_iff, Option.guard_eq_some',
    Option.pure_def, Option.some.injEq, Prod.mk.injEq] at done
  obtain ⟨text, found, more, found', _, apart, _, written, rfl, rfl⟩ := done
  have first := holds.reads found
  have reads := holds.reads found'
  have room := holds.room written
  rw [List.length_append, List.length_singleton] at room
  refine ⟨⟨text.length, more.length, strcatCall first reads room apart⟩, fun exact m' rights right => ?_⟩
  obtain ⟨rfl, dstLen, len, dstEnds, ends, appended⟩ := right
  rw [FirstHit.unique dstEnds first.isLength, FirstHit.unique ends reads.isLength] at appended
  exact ⟨rfl, holds.appended written rights reads.isText.spells appended⟩

private theorem strncat_realised (sized : size < sizeRange)
    (done : perform objs layout.constant (.strncat dst src size) = some (reply, after)) :
    layout.Realises paged (.strncat dst src size) reply after := by
  simp only [perform, Option.bind_eq_bind, Option.bind_eq_some_iff, Option.guard_eq_some',
    Option.pure_def, Option.some.injEq, Prod.mk.injEq] at done
  obtain ⟨text, found, more, found', _, apart, _, written, rfl, rfl⟩ := done
  have first := holds.reads found
  have reads := holds.reads found'
  have room := holds.room written
  rw [List.length_append, List.length_singleton] at room
  refine ⟨⟨text.length, more.length, strncatCall first reads room sized apart⟩,
    fun exact m' rights right => ?_⟩
  obtain ⟨rfl, dstLen, copyLen, dstEnds, bounded, appended⟩ := right
  rw [FirstHit.unique dstEnds first.isLength, bounded.unique reads.boundedLength] at appended
  exact ⟨rfl, holds.appended written rights reads.isText.spells appended⟩

private theorem strcmp_realised
    (done : perform objs layout.constant (.strcmp p q) = some (reply, after)) :
    layout.Realises paged (.strcmp p q) reply after := by
  simp only [perform, Option.bind_eq_bind, Option.bind_eq_some_iff, Option.pure_def,
    Option.some.injEq, Prod.mk.injEq] at done
  obtain ⟨text, found, text', found', rfl, rfl⟩ := done
  have reads := holds.reads found
  have reads' := holds.reads found'
  refine ⟨⟨reads.needs reads', text.length, reads.isLength.1, reads.length_lt⟩,
    fun exact m' rights right => ?_⟩
  obtain ⟨⟨value, compares, rfl⟩, still⟩ := holds.told rights right
  exact ⟨congrArg ReplyOf.order (reads.compares reads' compares).symm, still⟩

private theorem strncmp_realised (sized : size < sizeRange)
    (done : perform objs layout.constant (.strncmp p q size) = some (reply, after)) :
    layout.Realises paged (.strncmp p q size) reply after := by
  simp only [perform, Option.bind_eq_bind, Option.bind_eq_some_iff, Option.pure_def,
    Option.some.injEq, Prod.mk.injEq] at done
  obtain ⟨text, found, text', found', rfl, rfl⟩ := done
  have reads := holds.reads found
  have reads' := holds.reads found'
  refine ⟨⟨reads.needs reads', sized⟩, fun exact m' rights right => ?_⟩
  obtain ⟨⟨value, compares, rfl⟩, still⟩ := holds.told rights right
  exact ⟨congrArg ReplyOf.order (reads.compares reads' compares).symm, still⟩

private theorem strstr_realised
    (done : perform objs layout.constant (.strstr p q) = some (reply, after)) :
    layout.Realises paged (.strstr p q) reply after := by
  simp only [perform, Option.bind_eq_bind, Option.bind_eq_some_iff, Option.pure_def,
    Option.some.injEq, Prod.mk.injEq] at done
  obtain ⟨text, found, part, found', rfl, rfl⟩ := done
  have reads := holds.reads found
  have reads' := holds.reads found'
  refine ⟨⟨text.length, part.length, strstrCall reads reads'⟩, fun exact m' rights right => ?_⟩
  obtain ⟨⟨result, searches, rfl⟩, still⟩ := holds.told rights right
  exact ⟨congrArg ReplyOf.pointer (reads.searches reads' searches).symm, still⟩

private theorem strlen_realised
    (done : perform objs layout.constant (.strlen p) = some (reply, after)) :
    layout.Realises paged (.strlen p) reply after := by
  simp only [perform, Option.bind_eq_bind, Option.bind_eq_some_iff, Option.pure_def,
    Option.some.injEq, Prod.mk.injEq] at done
  obtain ⟨text, found, rfl, rfl⟩ := done
  have reads := holds.reads found
  refine ⟨⟨text.length, reads.isLength, reads.length_lt, reads.mapped⟩, fun exact m' rights right => ?_⟩
  obtain ⟨⟨len, ends, rfl⟩, still⟩ := holds.told rights right
  exact ⟨congrArg ReplyOf.size (FirstHit.unique reads.isLength ends), still⟩

private theorem strnlen_realised (sized : size < sizeRange)
    (done : perform objs layout.constant (.strnlen p size) = some (reply, after)) :
    layout.Realises paged (.strnlen p size) reply after := by
  simp only [perform, Option.bind_eq_bind, Option.bind_eq_some_iff, Option.pure_def,
    Option.some.injEq, Prod.mk.injEq] at done
  obtain ⟨text, found, rfl, rfl⟩ := done
  have reads := holds.reads found
  have range := layout.range reads.fits
  refine ⟨⟨sized, text.length, reads.boundedLength, by omega, fun i below inside => ?_⟩,
    fun exact m' rights right => ?_⟩
  · exact reads.readable i inside (by simpa using below)
  · obtain ⟨⟨len, bounded, rfl⟩, still⟩ := holds.told rights right
    exact ⟨congrArg ReplyOf.size (reads.boundedLength.unique bounded), still⟩

private theorem strchr_realised {c : Int}
    (done : perform objs layout.constant (.strchr p c) = some (reply, after)) :
    layout.Realises paged (.strchr p c) reply after := by
  simp only [perform, Option.bind_eq_bind, Option.bind_eq_some_iff, Option.pure_def,
    Option.some.injEq, Prod.mk.injEq] at done
  obtain ⟨text, found, rfl, rfl⟩ := done
  have reads := holds.reads found
  refine ⟨⟨text.length, reads.isLength, reads.length_lt, reads.mapped⟩, fun exact m' rights right => ?_⟩
  obtain ⟨⟨result, locates, rfl⟩, still⟩ := holds.told rights right
  exact ⟨congrArg ReplyOf.pointer (reads.locates locates).symm, still⟩

private theorem strspn_realised
    (done : perform objs layout.constant (.strspn p q) = some (reply, after)) :
    layout.Realises paged (.strspn p q) reply after := by
  simp only [perform, Option.bind_eq_bind, Option.bind_eq_some_iff, Option.pure_def,
    Option.some.injEq, Prod.mk.injEq] at done
  obtain ⟨text, found, letters, found', rfl, rfl⟩ := done
  have reads := holds.reads found
  have reads' := holds.reads found'
  refine ⟨⟨text.length, letters.length, spanCall reads reads'⟩, fun exact m' rights right => ?_⟩
  obtain ⟨⟨idx, span, rfl⟩, still⟩ := holds.told rights right
  exact ⟨congrArg ReplyOf.size (reads.spans reads' span).symm, still⟩

end Texts

/-- Whatever the language defines may be asked of the machine, and is what the machine does. -/
theorem perform_realised {call : CallOf (Place ι)} (sized : call.count < sizeRange)
    (done : perform objs layout.constant call = some (reply, after)) :
    layout.Realises paged call reply after := by
  cases call with
  | memcpy dst src size => exact memcpy_realised holds sized done
  | mempcpy dst src size => exact mempcpy_realised holds sized done
  | memmove dst src size => exact memmove_realised holds sized done
  | memset mem val size => exact memset_realised holds sized done
  | memcmp mem1 mem2 size => exact memcmp_realised holds sized done
  | memchr mem val size => exact memchr_realised holds sized done
  | strcpy dst src => exact strcpy_realised holds done
  | strncpy dst src size => exact strncpy_realised holds sized done
  | strcmp str1 str2 => exact strcmp_realised holds done
  | strncmp str1 str2 size => exact strncmp_realised holds sized done
  | strcat dst src => exact strcat_realised holds done
  | strncat dst src n => exact strncat_realised holds sized done
  | strstr haystack needle => exact strstr_realised holds done
  | strlen str => exact strlen_realised holds done
  | strnlen str maxlen => exact strnlen_realised holds sized done
  | strchr str c => exact strchr_realised holds done
  | strspn str accept => exact strspn_realised holds done

end Performed

section Interface
variable {ι : Type} [DecidableEq ι] {start : PagedMemory}

/-- The calls that have a result, where the code behind them answers as it should. -/
def objectFace (layout : Layout ι start) (fine : Memory → Call → Prop) :
    Interface (Objects ι) (CallOf (Place ι)) (ReplyOf (Place ι)) where
  pre objs call := call.count < sizeRange ∧ (perform objs layout.constant call).isSome = true ∧
    ∀ m, layout.Holds objs m → fine m (layout.call call)
  post objs call reply after := perform objs layout.constant call = some (reply, after)

variable {layout : Layout ι start} {fine : Memory → Call → Prop}

theorem objectFace_functional : (objectFace layout fine).Functional := by
  intro objs call reply after reply' after' _ done done'
  have same := done.symm.trans done'
  rw [Option.some.injEq, Prod.mk.injEq] at same
  exact same

/-- No object has another size, and a constant one has its bytes. -/
def Layout.Keeps (layout : Layout ι start) (objs objs' : Objects ι) : Prop :=
  ∀ o, (objs' o).length = (objs o).length ∧ (layout.constant o = true → objs' o = objs o)

/-- Nor does any program change the size of an object, or anything in a constant one. -/
theorem objectFace_keeps {α : Type} {client : Client (CallOf (Place ι)) (ReplyOf (Place ι)) α}
    {objs objs' : Objects ι} {result : α}
    (yields : (objectFace layout fine).Yields client objs result objs') : layout.Keeps objs objs' := by
  induction yields with
  | done => exact fun _ => ⟨rfl, fun _ => rfl⟩
  | call _ right _ ih =>
    intro o
    obtain ⟨length, same⟩ := perform_keeps right o
    obtain ⟨length', same'⟩ := ih o
    exact ⟨length'.trans length, fun fixed => (same' fixed).trans (same fixed)⟩

/-- The calls on objects are refined by the calls on memory. -/
theorem objects_refinedBy : (objectFace layout fine).RefinedBy
    ((contract.only fine).seen Reply.seen) layout.Holds layout.call layout.reply where
  asks := by
    rintro objs m call holds ⟨sized, done, safe⟩
    obtain ⟨out, done⟩ := Option.isSome_iff_exists.mp done
    obtain ⟨paged, rfl⟩ := holds.paged
    exact ⟨⟨paged, rfl, (perform_realised holds sized done).1⟩, safe _ holds⟩
  answers := by
    rintro objs m call _ after holds ⟨sized, done, _⟩ ⟨exact, rfl, rights, right⟩
    obtain ⟨⟨reply, objs'⟩, done⟩ := Option.isSome_iff_exists.mp done
    obtain ⟨paged, rfl⟩ := holds.paged
    obtain ⟨same, still⟩ := (perform_realised holds sized done).2 exact after rights right
    exact ⟨reply, objs', done, same, still⟩

end Interface

end AoclLibmem.Calls
