import AoclLibmem.Validator.ReferencesCorrect
import AoclLibmem.Calls.RowsCorrect

/-! The library against the functions that its validator takes for right. -/

namespace AoclLibmem.Validator

open Base Machine Strings Calls Dispatch

private theorem testStrcatCommon_some {n : Nat} (bound : 0 < n) (dst src : Nat) :
    testStrcatCommon dst src n = testStrncat dst src n := by
  simp only [testStrcatCommon, testStrncat, Nat.ne_of_gt bound, ↓reduceIte]

def references : Call → Kernel Reply
  | .memcpy dst src size => pointing (testMemcpy dst src size)
  | .memcmp mem1 mem2 size => telling .order fun m => testMemcmp m mem1 mem2 size
  | .memchr mem val size => telling .pointer fun m => testMemchr m mem val size
  | .strcpy dst src => pointing (testStrcpy dst src)
  | .strcmp str1 str2 => telling .order fun m => testStrcmp m str1 str2
  | .strncmp str1 str2 size => telling .order fun m => stringCmp m str1 str2 size
  | .strcat dst src => pointing (testStrcatCommon dst src 0)
  | .strncat dst src n => pointing (testStrcatCommon dst src n)
  | .strstr haystack needle => telling .pointer fun m => testStrstr m haystack needle
  | .strchr str c => telling .pointer fun m => testStrchr m str c
  | .strspn str accept => telling .size fun m => testStrspn m str accept
  | .mempcpy .. | .memmove .. | .memset .. | .strncpy .. | .strlen .. | .strnlen .. => throw .fault

/-- The calls that they are right for. -/
def ReferenceFine (m : Memory) : Call → Prop
  | .memcpy .. | .memcmp .. | .strcpy .. | .strcmp .. | .strcat .. => True
  | .strstr .. | .strchr .. | .strspn .. => True
  -- a `char` is never equal to another `int`
  | .memchr _ val _ => -128 ≤ val ∧ val < 128
  -- a bound of zero is none
  | .strncmp _ _ size => 0 < size
  -- nor must the first byte written be the terminator of the source
  | .strncat dst src n => 0 < n ∧ ∀ dstLen copyLen, IsLength m.byte dst dstLen →
      IsBoundedLength m.byte src n copyLen → copyLen < n → src + copyLen ≠ dst + dstLen
  | .mempcpy .. | .memmove .. | .memset .. | .strncpy .. | .strlen .. | .strnlen .. => False

private theorem references_met : (contract.only ReferenceFine).MetBy references := by
  rintro _ call ⟨⟨start, rfl, legal⟩, fine⟩
  cases call with
  | memcpy dst src size =>
    obtain ⟨_, after, returned, rfl, all⟩ :=
      testMemcpy_copies legal.1 legal.2.1 legal.2.2 start.toMemory rfl
    exact ⟨_, after, pointing_returned returned, Prod.ext all.readable all.writable, rfl,
      fun i below => all.text i below, all.frame⟩
  | memcmp mem1 mem2 size => exact telling_served (testMemcmp_orders legal) fun _ _ tells => tells
  | memchr mem val size =>
    exact telling_served (testMemchr_finds fine legal.1 legal.2) fun _ _ tells => tells
  | strcpy dst src =>
    obtain ⟨len, given⟩ := legal
    exact strcpy_served given (testStrcpy_copiesTo given)
  | strcmp str1 str2 =>
    obtain ⟨needs, len, null, range⟩ := legal
    exact telling_served (testStrcmp_compares needs null range) fun _ _ tells => tells
  | strncmp str1 str2 size =>
    exact telling_served (stringCmp_compares legal.1 fine legal.2) fun _ _ tells => tells
  | strcat dst src =>
    obtain ⟨dstLen, len, given⟩ := legal
    exact strcat_served given (endOf_eq given.dstEnds given.dstRange given.dstSource)
      (testStrcpy_copiesTo given.copies)
  | strncat dst src n =>
    obtain ⟨dstLen, copyLen, given⟩ := legal
    have apart := fine.2 dstLen copyLen given.dstEnds given.bounded
    obtain ⟨_, after, returned, rfl, all⟩ := testStrncat_appends given apart start.toMemory rfl
    rw [← testStrcatCommon_some fine.1] at returned
    exact ⟨_, after, pointing_returned returned, Prod.ext all.readable all.writable, rfl, dstLen,
      copyLen, given.dstEnds, given.bounded, appended_of_written all⟩
  | strstr haystack needle =>
    obtain ⟨T, L, given⟩ := legal
    exact telling_served (testStrstr_searches given) fun _ _ tells => tells
  | strchr str c =>
    obtain ⟨len, ends, range, mapped⟩ := legal
    exact telling_served (testStrchr_locates ends range mapped) fun _ _ tells => tells
  | strspn str accept =>
    obtain ⟨len, acceptLen, given⟩ := legal
    exact telling_served (testStrspn_spans given) fun _ _ tells => tells
  | _ => exact absurd fine id

/-- A program comes to the same result and leaves the same memory whether its calls are answered by the
functions of any build or, byte by byte, by those of the validator. -/
theorem references_agree (target : Target) (strict : Bool) (cacheInfo : CacheInfo)
    (thresholds : Thresholds) {α : Type} (client : Client Call Reply α) (before after : Memory)
    (result : α)
    (yields : (contract.only fun m call => target.Fine strict m call ∧ ReferenceFine m call).Yields
      client before result after) :
    client.run references before = .ok (result, after) ∧
      client.run (target.code strict cacheInfo thresholds) before = .ok (result, after) :=
  ⟨(yields.only fun _ _ fine => fine.2).run_eq contract_functional.only references_met,
    (yields.only fun _ _ fine => fine.1).run_eq contract_functional.only
      (target.met strict cacheInfo thresholds)⟩

theorem references_agree_word :
    (Client.call (.strcmp 8184 8184) .done).run references lastWord.toMemory =
        .ok (ReplyOf.order 0, lastWord.toMemory) ∧
      (Client.call (.strcmp 8184 8184) .done).run
          (Target.zen4.code false ⟨0, 0, 0⟩ ⟨0, 0, 0, 0, 0, 0⟩) lastWord.toMemory =
        .ok (ReplyOf.order 0, lastWord.toMemory) := by
  have ends : IsLength lastWord.byte 8184 7 := lastWord_isLength rfl
  have settled : FirstHit (Decides lastWord.byte 8184 8184) 7 := by
    refine ⟨.inr ends.1, fun i below hit => ?_⟩
    exact ends.2 i below (hit.resolve_left fun differ => differ rfl)
  have needs : Needs lastWord.toMemory 8184 8184 none := by
    intro k clear _
    have le : k ≤ 7 := clear.le_hit settled.1
    have mapped : lastWord.readable (8184 + k) = true := lastWord_mapped (by decide) (by omega)
    exact ⟨mapped, mapped⟩
  have range : 7 < sizeRange := by
    rw [sizeRange_eq]
    decide
  have compares : Compares lastWord.byte 8184 8184 none 0 := .differ settled (by simp)
  refine references_agree .zen4 false _ _ (.call (.strcmp 8184 8184) .done) lastWord.toMemory
    lastWord.toMemory (.order 0) ?_
  exact .call ⟨⟨lastWord, rfl, needs, 7, ends.1, range⟩, trivial, trivial⟩
    ⟨rfl, rfl, 0, rfl, compares⟩ .done

end AoclLibmem.Validator
