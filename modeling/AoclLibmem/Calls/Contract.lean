import AoclLibmem.Dispatch.Dispatcher
import AoclLibmem.Base.Interface
import AoclLibmem.Strings.StrstrPages
import AoclLibmem.Strings.StrspnSpec
import AoclLibmem.Search.MemchrSpec
import AoclLibmem.Compare.MemcmpMapped
import AoclLibmem.Fill.MemsetErms

/-! The seventeen functions as their callers know them: when a call is allowed, and which reply
and which memory are right then. -/

namespace AoclLibmem.Calls

open Base Machine Dispatch Strings

/-- A call, by the prototypes of the functions; `π` are the pointers. -/
inductive CallOf (π : Type) where
  | memcpy (dst src : π) (size : Nat)
  | mempcpy (dst src : π) (size : Nat)
  | memmove (dst src : π) (size : Nat)
  | memset (mem : π) (val : BitVec 32) (size : Nat)
  | memcmp (mem1 mem2 : π) (size : Nat)
  | memchr (mem : π) (val : Int) (size : Nat)
  | strcpy (dst src : π)
  | strncpy (dst src : π) (size : Nat)
  | strcmp (str1 str2 : π)
  | strncmp (str1 str2 : π) (size : Nat)
  | strcat (dst src : π)
  | strncat (dst src : π) (n : Nat)
  | strstr (haystack needle : π)
  | strlen (str : π)
  | strnlen (str : π) (maxlen : Nat)
  | strchr (str : π) (c : Int)
  | strspn (str accept : π)
deriving DecidableEq, Repr

inductive ReplyOf (π : Type) where
  | pointer (address : Option π)
  | size (count : Nat)
  | order (value : Int)
deriving DecidableEq, Repr

/-- A call with the addresses of a machine. -/
abbrev Call := CallOf Nat

abbrev Reply := ReplyOf Nat

def CallOf.func {π : Type} : CallOf π → FuncIndex
  | .memcpy .. => .memcpy
  | .mempcpy .. => .mempcpy
  | .memmove .. => .memmove
  | .memset .. => .memset
  | .memcmp .. => .memcmp
  | .memchr .. => .memchr
  | .strcpy .. => .strcpy
  | .strncpy .. => .strncpy
  | .strcmp .. => .strcmp
  | .strncmp .. => .strncmp
  | .strcat .. => .strcat
  | .strncat .. => .strncat
  | .strstr .. => .strstr
  | .strlen .. => .strlen
  | .strnlen .. => .strnlen
  | .strchr .. => .strchr
  | .strspn .. => .strspn

/-- All that the standards promise of a comparison is its sign. -/
def Reply.seen : Reply → Reply
  | .order value => .order value.sign
  | reply => reply

section Contract

/-- What the caller has to provide. -/
def Legal (start : PagedMemory) : Call → Prop
  | .memcpy dst src size | .mempcpy dst src size =>
      Copy.Buffers start.toMemory dst src size ∧ size < sizeRange ∧
        (dst + size ≤ src ∨ src + size ≤ dst)
  | .memmove dst src size => Copy.Buffers start.toMemory dst src size ∧ size < sizeRange
  | .memset mem _ size => Fill.Buffer start.toMemory mem size ∧ size < sizeRange
  | .memcmp mem1 mem2 size => Compare.MemcmpCall start.toMemory mem1 mem2 size
  | .memchr mem _ size => start.canRead mem size = true ∧ size < sizeRange
  | .strcpy dst src => ∃ len, StrcpyCall start dst src len
  | .strncpy dst src size => StrncpyCall start dst src size
  | .strcmp str1 str2 => Needs start.toMemory str1 str2 none ∧
      ∃ len, start.byte (str1 + len) = 0 ∧ len < sizeRange
  | .strncmp str1 str2 size => Needs start.toMemory str1 str2 (some size) ∧ size < sizeRange
  | .strcat dst src => ∃ dstLen len, StrcatCall start dst src dstLen len
  | .strncat dst src n => ∃ dstLen copyLen, StrncatCall start dst src n dstLen copyLen
  | .strstr haystack needle => ∃ T L, StrstrCall start haystack needle T L
  | .strlen str | .strchr str _ => ∃ len, IsLength start.byte str len ∧ len < sizeRange ∧
      ∀ i ≤ len, start.readable (str + i) = true
  | .strnlen str maxlen => maxlen < sizeRange ∧ ∃ len, IsBoundedLength start.byte str maxlen len ∧
      len + pageSz ≤ sizeRange ∧ ∀ i < maxlen, i ≤ len → start.readable (str + i) = true
  | .strspn str accept => ∃ len acceptLen, SpanCall start str accept len acceptLen

/-- A function that writes nothing tells something of the bytes. -/
def Tells {α : Type} (before after : Memory) (reply : Reply) (wrap : α → Reply) (right : α → Prop) :
    Prop :=
  after.byte = before.byte ∧ ∃ value, reply = wrap value ∧ right value

/-- Which reply is right, and which bytes. -/
def Answers (before : Memory) : Call → Reply → Memory → Prop
  | .memcpy dst src size, reply, after | .memmove dst src size, reply, after =>
      reply = .pointer (some dst) ∧ Copy.Copied before after dst src size
  | .mempcpy dst src size, reply, after =>
      reply = .pointer (some (dst + size)) ∧ Copy.Copied before after dst src size
  | .memset mem val size, reply, after =>
      reply = .pointer (some mem) ∧ Fill.Filled before after mem size (Fill.uchar val)
  | .memcmp mem1 mem2 size, reply, after =>
      Tells before after reply .order (Compare.Orders before.byte mem1 mem2 size)
  | .memchr mem val size, reply, after =>
      Tells before after reply .pointer (Search.FindsChar before.byte mem size (charOfInt val))
  | .strcpy dst src, reply, after => reply = .pointer (some dst) ∧
      ∃ len, IsLength before.byte src len ∧ Copy.Copied before after dst src (len + 1)
  | .strncpy dst src size, reply, after =>
      reply = .pointer (some dst) ∧ Padded before after dst src size
  | .strcmp str1 str2, reply, after =>
      Tells before after reply .order (Compares before.byte str1 str2 none)
  | .strncmp str1 str2 size, reply, after =>
      Tells before after reply .order (Compares before.byte str1 str2 (some size))
  | .strcat dst src, reply, after => reply = .pointer (some dst) ∧
      ∃ dstLen len, IsLength before.byte dst dstLen ∧ IsLength before.byte src len ∧
        Appended before after dst dstLen src len
  | .strncat dst src n, reply, after => reply = .pointer (some dst) ∧
      ∃ dstLen copyLen, IsLength before.byte dst dstLen ∧
        IsBoundedLength before.byte src n copyLen ∧ Appended before after dst dstLen src copyLen
  | .strstr haystack needle, reply, after =>
      Tells before after reply .pointer (Searches before.byte haystack needle)
  | .strlen str, reply, after => Tells before after reply .size (IsLength before.byte str)
  | .strnlen str maxlen, reply, after =>
      Tells before after reply .size (IsBoundedLength before.byte str maxlen)
  | .strchr str c, reply, after =>
      Tells before after reply .pointer (Locates before.byte str (charOfInt c))
  | .strspn str accept, reply, after =>
      Tells before after reply .size (IsSpan before.byte str accept)

/-- No call changes a right. -/
def contract : Interface Memory Call Reply where
  pre m call := ∃ start : PagedMemory, start.toMemory = m ∧ Legal start call
  post before call reply after := after.rights = before.rights ∧ Answers before call reply after

end Contract

section Unique
variable {before after after' : Memory} {byte : Nat → UInt8} {dst src size : Nat}

theorem Tells.unique {α : Type} {reply reply' : Reply} {wrap : α → Reply} {right : α → Prop}
    (tells : Tells before after reply wrap right) (tells' : Tells before after' reply' wrap right)
    (unique : ∀ value value', right value → right value' → value = value') :
    reply = reply' ∧ after.byte = after'.byte := by
  obtain ⟨bytes, value, rfl, holds⟩ := tells
  obtain ⟨bytes', value', rfl, holds'⟩ := tells'
  exact ⟨congrArg wrap (unique value value' holds holds'), bytes.trans bytes'.symm⟩

private theorem findsChar_unique {ch : UInt8} {result result' : Option Nat}
    (finds : Search.FindsChar byte dst size ch result)
    (finds' : Search.FindsChar byte dst size ch result') : result = result' := by
  cases finds with
  | found first inside =>
    cases finds' with
    | found first' _ => rw [first.unique first']
    | absent clear => exact absurd first.1 (clear _ inside)
  | absent clear =>
    cases finds' with
    | found first inside => exact absurd first.1 (clear _ inside)
    | absent _ => rfl

private theorem padded_unique (padded : Padded before after dst src size)
    (padded' : Padded before after' dst src size) : after.byte = after'.byte := by
  funext a
  by_cases inside : dst ≤ a ∧ a < dst + size
  · obtain ⟨i, rfl⟩ := Nat.exists_eq_add_of_le inside.1
    have below : i < size := by omega
    by_cases clear : ClearBelow (Nul before.byte src) i
    · rw [padded.copied i below clear, padded'.copied i below clear]
    · simp only [ClearBelow, not_forall, not_not] at clear
      obtain ⟨j, behind, nul⟩ := clear
      rw [padded.padded i below j behind nul, padded'.padded i below j behind nul]
  · rw [padded.frame a inside, padded'.frame a inside]

private theorem appended_unique {dstLen : Nat}
    (appended : Appended before after dst dstLen src size)
    (appended' : Appended before after' dst dstLen src size) : after.byte = after'.byte := by
  funext a
  by_cases inside : dst + dstLen ≤ a ∧ a ≤ dst + dstLen + size
  · obtain ⟨i, rfl⟩ := Nat.exists_eq_add_of_le inside.1
    by_cases last : i = size
    · rw [last, appended.ends, appended'.ends]
    · rw [appended.copied i (by omega), appended'.copied i (by omega)]
  · rw [appended.frame a inside, appended'.frame a inside]

private theorem searches_unique {result result' : Option Nat}
    (searches : Searches byte dst src result)
    (searches' : Searches byte dst src result') : result = result' := by
  obtain ⟨T, L, ends, needleEnds, picks⟩ := searches
  obtain ⟨T', L', ends', needleEnds', picks'⟩ := searches'
  rw [ends'.unique ends, needleEnds'.unique needleEnds] at picks'
  exact picks.unique picks'

end Unique

theorem answers_unique {before after after' : Memory} {call : Call} {reply reply' : Reply}
    (right : Answers before call reply after) (right' : Answers before call reply' after') :
    reply = reply' ∧ after.byte = after'.byte := by
  cases call with
  | memcpy dst src size | mempcpy dst src size | memmove dst src size =>
    exact ⟨right.1.trans right'.1.symm, Copy.copied_unique right.2 right'.2⟩
  | memset mem val size => exact ⟨right.1.trans right'.1.symm, Fill.filled_unique right.2 right'.2⟩
  | strncpy dst src size => exact ⟨right.1.trans right'.1.symm, padded_unique right.2 right'.2⟩
  | strcpy dst src =>
    obtain ⟨reply, len, ends, copied⟩ := right
    obtain ⟨reply', len', ends', copied'⟩ := right'
    rw [FirstHit.unique ends' ends] at copied'
    exact ⟨reply.trans reply'.symm, Copy.copied_unique copied copied'⟩
  | strcat dst src =>
    obtain ⟨reply, dstLen, len, dstEnds, ends, appended⟩ := right
    obtain ⟨reply', dstLen', len', dstEnds', ends', appended'⟩ := right'
    rw [FirstHit.unique dstEnds' dstEnds, FirstHit.unique ends' ends] at appended'
    exact ⟨reply.trans reply'.symm, appended_unique appended appended'⟩
  | strncat dst src n =>
    obtain ⟨reply, dstLen, copyLen, dstEnds, bounded, appended⟩ := right
    obtain ⟨reply', dstLen', copyLen', dstEnds', bounded', appended'⟩ := right'
    rw [FirstHit.unique dstEnds' dstEnds, bounded'.unique bounded] at appended'
    exact ⟨reply.trans reply'.symm, appended_unique appended appended'⟩
  | memcmp mem1 mem2 size => exact right.unique right' fun _ _ => Compare.Orders.unique
  | memchr mem val size => exact right.unique right' fun _ _ => findsChar_unique
  | strcmp str1 str2 | strncmp str1 str2 size => exact right.unique right' fun _ _ => Compares.unique
  | strstr haystack needle => exact right.unique right' fun _ _ => searches_unique
  | strlen str => exact right.unique right' fun _ _ first second => FirstHit.unique first second
  | strnlen str maxlen => exact right.unique right' fun _ _ => IsBoundedLength.unique
  | strchr str c => exact right.unique right' fun _ _ => Locates.unique
  | strspn str accept => exact right.unique right' fun _ _ first second => FirstHit.unique first second

theorem contract_functional : contract.Functional := by
  rintro before call reply after reply' after' _ ⟨rights, right⟩ ⟨rights', right'⟩
  obtain ⟨same, bytes⟩ := answers_unique right right'
  exact ⟨same, Memory.eq_of_rights bytes (rights.trans rights'.symm)⟩

end AoclLibmem.Calls
