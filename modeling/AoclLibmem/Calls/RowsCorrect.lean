import AoclLibmem.Calls.Rows

/-! Every column answers every call as the contract says, but for those that it is known not to. -/

namespace AoclLibmem.Calls

open Base Machine Dispatch Strings Compare Search

section Replies
variable {start after : Memory} {dst src size value : Nat}

theorem pointing_returned {run : Kernel Nat} (returned : run start = .ok (value, after)) :
    pointing run start = .ok (.pointer (some value), after) := by
  rw [pointing, bind_returned returned]
  rfl

theorem readOnly_returned {α : Type} {run : Memory → Exec α} {value : α}
    (returned : run start = .ok value) : readOnly run start = .ok (value, start) := by
  rw [readOnly, returned]
  rfl

theorem telling_returned {α : Type} {wrap : α → Reply} {run : Memory → Exec α} {value : α}
    (returned : run start = .ok value) : telling wrap run start = .ok (wrap value, start) := by
  rw [telling, bind_returned (readOnly_returned returned)]
  rfl

theorem telling_served {α : Type} {wrap : α → Reply} {run : Memory → Exec α} {right : α → Prop}
    {call : Call} (returns : ∃ value, run start = .ok value ∧ right value)
    (answers : ∀ reply after, Tells start after reply wrap right → Answers start call reply after) :
    contract.Served start call (telling wrap run) := by
  obtain ⟨value, returned, holds⟩ := returns
  exact ⟨wrap value, start, telling_returned returned, rfl, answers _ _ ⟨rfl, value, rfl, holds⟩⟩

theorem memcpy_served {run : Kernel Nat}
    (complete : Triple (Copy.Progress start dst src ∅) run (Copy.Complete start dst src size)) :
    contract.Served start (.memcpy dst src size) (pointing run) := by
  obtain ⟨_, after, returned, ⟨rfl, copied⟩, readable, writable⟩ :=
    complete start (.refl start dst src)
  exact ⟨_, after, pointing_returned returned, Prod.ext readable writable, rfl, copied⟩

/-- The text of all `mempcpy`s. -/
private theorem mempcpy_served {run : Kernel Nat}
    (complete : Triple (Copy.Progress start dst src ∅) run (Copy.Complete start dst src size)) :
    contract.Served start (.mempcpy dst src size) (pointing (do let _ ← run; return dst + size)) := by
  obtain ⟨_, after, returned, ⟨_, copied⟩, readable, writable⟩ := complete start (.refl start dst src)
  have next : (do let _ ← run; return dst + size) start = .ok (dst + size, after) := by
    rw [bind_returned returned]
    rfl
  exact ⟨_, after, pointing_returned next, Prod.ext readable writable, rfl, copied⟩

theorem memset_served {run : Kernel Nat} {val : BitVec 32}
    (complete : Triple (Fill.Progress start dst (fun _ => Fill.uchar val) ∅) run
      (Fill.Complete start dst size (Fill.uchar val))) (keeps : Keeps Memory.rights run) :
    contract.Served start (.memset dst val size) (pointing run) := by
  obtain ⟨_, after, returned, ⟨rfl, filled⟩, rights⟩ :=
    complete.keeping keeps start (.refl start dst _)
  exact ⟨_, after, pointing_returned returned, rights, rfl, filled⟩

end Replies

section Texts
variable {start : PagedMemory} {dst src size len dstLen copyLen : Nat}

theorem strcpy_served (call : StrcpyCall start dst src len) {run : Kernel Nat}
    (copies : Triple (CopiedTo start.toMemory dst src (len + 1) 0) run
      fun result m => result = dst ∧ CopiedTo start.toMemory dst src (len + 1) (len + 1) m) :
    contract.Served start.toMemory (.strcpy dst src) (pointing run) := by
  obtain ⟨_, after, returned, rfl, all⟩ := copies start.toMemory (copiedTo_start _ _ _ _)
  exact ⟨_, after, pointing_returned returned, Prod.ext all.readable all.writable, rfl, len, call.ends,
    all.copied call.clear⟩

private theorem strncpy_served {run : Kernel Nat}
    (copies : Triple (CopiedTo start.toMemory dst src size 0) run
      fun result m => result = dst ∧ CopiedTo start.toMemory dst src size size m) :
    contract.Served start.toMemory (.strncpy dst src size) (pointing run) := by
  obtain ⟨_, after, returned, rfl, all⟩ := copies start.toMemory (copiedTo_start _ _ _ _)
  exact ⟨_, after, pointing_returned returned, Prod.ext all.readable all.writable, rfl, all.padded⟩

/-- The strict build may read too much, the default build does not. -/
private theorem strncpyAvx2_served {strict : Bool} (call : StrncpyCall start dst src size)
    (fine : strict = true → ¬ Overruns start.toMemory src size) :
    contract.Served start.toMemory (.strncpy dst src size)
      (pointing (if strict then strncpyAvx2 dst src size else strncpyAvx2Default dst src size)) := by
  cases strict with
  | false => exact strncpy_served (strncpyAvx2Default_copiesTo call)
  | true =>
    refine strncpy_served ?_
    by_cases none : size = 0
    · subst none
      exact triple_ite (fun _ => triple_pure fun m written => ⟨rfl, written⟩) fun some => absurd rfl some
    · exact strncpyAvx2_copiesTo (Nat.pos_of_ne_zero none) call (fine rfl)

theorem strcat_served (call : StrcatCall start dst src dstLen len) {strlen : Memory → Nat → Exec Nat}
    {strcpy : Nat → Nat → Kernel Nat} (found : strlen start.toMemory dst = .ok dstLen)
    (copies : Triple (CopiedTo start.toMemory (dst + dstLen) src (len + 1) 0)
      (strcpy (dst + dstLen) src) fun result m => result = dst + dstLen ∧
        CopiedTo start.toMemory (dst + dstLen) src (len + 1) (len + 1) m) :
    contract.Served start.toMemory (.strcat dst src) (pointing (strcatBy strlen strcpy dst src)) := by
  obtain ⟨_, after, returned, rfl, all⟩ := strcatBy_writes found copies start.toMemory rfl
  exact ⟨_, after, pointing_returned returned, Prod.ext all.readable all.writable, rfl, dstLen, len,
    call.dstEnds, call.copies.ends, call.appended all⟩

private theorem strncat_served (call : StrncatCall start dst src size dstLen copyLen)
    {strlen : Memory → Nat → Exec Nat} {strnlen : Memory → Nat → Nat → Exec Nat}
    {memcpy : Nat → Nat → Nat → Kernel Nat} (found : strlen start.toMemory dst = .ok dstLen)
    (counted : strnlen start.toMemory src size = .ok copyLen)
    (copies : Triple (Copy.Progress start.toMemory (dst + dstLen) src ∅)
      (memcpy (dst + dstLen) src copyLen)
      (Copy.Complete start.toMemory (dst + dstLen) src copyLen)) :
    contract.Served start.toMemory (.strncat dst src size)
      (pointing (strncatBy strlen strnlen memcpy dst src size)) := by
  obtain ⟨_, after, returned, rfl, all⟩ :=
    strncatBy_writes call found counted copies start.toMemory rfl
  exact ⟨_, after, pointing_returned returned, Prod.ext all.readable all.writable, rfl, dstLen,
    copyLen, call.dstEnds, call.bounded, appended_of_written all⟩

private theorem strncatAvx2_served (call : StrncatCall start dst src size dstLen copyLen)
    (l1dPerCore ntStartThreshold : Nat) :
    contract.Served start.toMemory (.strncat dst src size)
      (pointing (strncatAvx2 l1dPerCore ntStartThreshold dst src size)) :=
  strncat_served call (strlenAvx2_eq call.dstEnds call.dstRange call.dstSource) call.strnlenAvx2_eq
    (Copy.memcpyAvx2_complete call.buffers call.copyRange (call.apart.imp_left Nat.le_of_lt))

private theorem strncatAvx512_served (call : StrncatCall start dst src size dstLen copyLen)
    (l1dPerCore ntStartThreshold : Nat) :
    contract.Served start.toMemory (.strncat dst src size)
      (pointing (strncatAvx512 l1dPerCore ntStartThreshold dst src size)) :=
  strncat_served call (strlenAvx512_eq call.dstEnds call.dstRange call.dstSource) call.strnlenAvx512_eq
    (Copy.memcpyAvx512Erms_complete call.buffers call.copyRange
      (.inr (call.apart.imp_left Nat.le_of_lt)))

end Texts

section Comparisons
variable {start : PagedMemory} {str1 str2 size len : Nat}

private theorem strcmp_served {run : Memory → Exec Int} {overread : Nat → Prop}
    (ends : Ends (run start.toMemory)
      (fun value => Compares start.byte str1 str2 none value ∧ ¬ ∃ n ∈ (none : Option Nat), overread n)
      fun trap => trap = .fault ∧ ∃ n ∈ (none : Option Nat), overread n) :
    contract.Served start.toMemory (.strcmp str1 str2) (telling .order run) :=
  telling_served (compares_of_fine ends (by simp)) fun _ _ tells => tells

private theorem strncmp_served {run : Memory → Exec Int} {text : Exec Int} {overread : Nat → Prop}
    (shape : run start.toMemory = if size = 0 then return 0 else text)
    (ends : 0 < size → Ends text
      (fun value => Compares start.byte str1 str2 (some size) value ∧ ¬ ∃ n ∈ some size, overread n)
      fun trap => trap = .fault ∧ ∃ n ∈ some size, overread n) (fine : ¬ overread size) :
    contract.Served start.toMemory (.strncmp str1 str2 size) (telling .order run) := by
  refine telling_served ?_ fun _ _ tells => tells
  rw [shape]
  split
  · rename_i none
    exact ⟨0, rfl, .same rfl (none ▸ clearBelow_zero)⟩
  · rename_i some
    refine compares_of_fine (ends (Nat.pos_of_ne_zero some)) ?_
    rintro ⟨n, same, overreads⟩
    cases same
    exact fine overreads

private theorem strncmpZen4_served (range : size < sizeRange)
    (needs : Needs start.toMemory str1 str2 (some size)) :
    contract.Served start.toMemory (.strncmp str1 str2 size)
      (telling .order fun m => strncmpZen4 m str1 str2 size) := by
  refine telling_served ?_ fun _ _ tells => tells
  rw [strncmpZen4]
  split
  · rename_i none
    exact ⟨0, rfl, .same rfl (none ▸ clearBelow_zero)⟩
  · rename_i some
    have live : sizeLe (.some size) 0 = false :=
      sizeLe_false.mpr fun _ bound => by cases bound; exact Nat.pos_of_ne_zero some
    have run : Ends (strcmpZen4Text start.toMemory (.some size) str1 str2) _ fun _ => False :=
      strcmpZen4Text_ends needs (Nat.lt_of_succ_lt (budget_of_range range)) endsBelow_bound live
    exact run.returns

end Comparisons

section Searches
variable {start : PagedMemory} {str size len acceptLen T L : Nat}

private theorem memchrAvx2_served (strict : Bool) (val : Int)
    (whole : start.canRead str size = true) (range : size < sizeRange) :
    contract.Served start.toMemory (.memchr str val size)
      (telling .pointer fun m => memchrAvx2 strict m str val size) := by
  refine telling_served ?_ fun _ _ tells => tells
  by_cases none : size = 0
  · subst none
    exact ⟨_, rfl, .absent clearBelow_zero⟩
  rw [memchrAvx2, if_neg none]
  cases strict with
  | false => exact returns_char (memchrAvx2Default_ends whole range none)
  | true => exact returns_char (memchrAvx2Strict_ends whole range none)

private theorem memchrAvx512_served (strict : Bool) (val : Int)
    (whole : start.canRead str size = true) (range : size < sizeRange) :
    contract.Served start.toMemory (.memchr str val size)
      (telling .pointer fun m => memchrAvx512 strict m str val size) := by
  refine telling_served ?_ fun _ _ tells => tells
  by_cases none : size = 0
  · subst none
    exact ⟨_, rfl, .absent clearBelow_zero⟩
  rw [memchrAvx512, if_neg none]
  by_cases small : size ≤ 64
  · simp only [zmmSz, if_pos small]
    cases strict with
    | false => exact returns_char (memchrLeZmm_default_ends whole small none)
    | true => exact returns_char (memchrLeZmm_strict_ends whole small)
  · simp only [zmmSz, if_neg small]
    exact returns_char (memchrGtZmm_ends whole range (Nat.not_le.mp small))

private theorem strlen_served {run : Memory → Exec Nat}
    (ends : Ends (run start.toMemory) (IsLength start.byte str) fun _ => False) :
    contract.Served start.toMemory (.strlen str) (telling .size run) :=
  telling_served ends.returns fun _ _ tells => tells

private theorem strnlen_served {run : Memory → Exec Nat}
    (ends : Ends (run start.toMemory) (IsBoundedLength start.byte str size) fun _ => False) :
    contract.Served start.toMemory (.strnlen str size) (telling .size run) :=
  telling_served ends.returns fun _ _ tells => tells

private theorem strchr_served {run : Memory → Exec (Option Nat)} {c : Int}
    (ends : Ends (run start.toMemory) (Locates start.byte str (charOfInt c)) fun _ => False) :
    contract.Served start.toMemory (.strchr str c) (telling .pointer run) :=
  telling_served ends.returns fun _ _ tells => tells

private theorem strchrAvx512_served {c : Int} (ends : IsLength start.byte str len)
    (range : len < sizeRange) (mapped : ∀ i ≤ len, start.readable (str + i) = true)
    (visible : ¬ SentinelHides start.byte str (charOfInt c)) :
    contract.Served start.toMemory (.strchr str c) (telling .pointer fun m => strchrAvx512 m str c) :=
  strchr_served <| (strchrAvx512_ends (scanNeeds_of_hit (.inr ends.1) mapped) ends range).imp
    fun _ right => right.2 visible

private theorem strspnAvx2_served (call : SpanCall start str size len acceptLen) :
    contract.Served start.toMemory (.strspn str size) (telling .size fun m => strspnAvx2 m str size) := by
  have ends : Ends (strspnAvx2 start.toMemory str size) (IsSpan start.byte str size) fun _ => False := by
    refine call.strspnBy_ends (fun some one => ?_) call.loadAcceptAvx2_ends call.tableAvx2 ?_
    · exact call.single some one (by decide) (marks_neqOrNulYmm _)
    · intro v register
      exact call.cmpistri_ends register fun _ => call.edgeAvx2_ends
  exact telling_served ends.returns fun _ _ tells => tells

private theorem strspnAvx512_served (call : SpanCall start str size len acceptLen) :
    contract.Served start.toMemory (.strspn str size)
      (telling .size fun m => strspnAvx512 m str size) := by
  have ends : Ends (strspnAvx512 start.toMemory str size) (IsSpan start.byte str size)
      fun _ => False := by
    refine call.strspnBy_ends (fun some one => ?_) call.loadAcceptAvx512_ends call.tableAvx512 ?_
    · exact call.single some one (by decide) (marks_neqOrNulZmm _)
    · intro v register
      exact call.cmpistri_ends register fun pageEnd => edgeAvx512_ends register call.needs pageEnd
  exact telling_served ends.returns fun _ _ tells => tells

private theorem strstrAvx2_served (call : StrstrCall start str size T L)
    (fine : FindsNeedle start.toMemory str size ymmSz
      (start.byte (str + ymmSz - str % ymmSz - 1) = start.byte size)) :
    contract.Served start.toMemory (.strstr str size)
      (telling .pointer fun m => strstrAvx2 m str size) := by
  obtain ⟨ghosts, right⟩ := fine T L call.ends call.needleEnds
  have ends : Ends (strstrAvx2 start.toMemory str size) (Searches start.byte str size) fun _ => False :=
    (call.strstrAvx2_ends ghosts).imp fun _ exact' => exact'.mpr right
  exact telling_served ends.returns fun _ _ tells => tells

private theorem strstrAvx512_served (call : StrstrCall start str size T L)
    (fine : FindsNeedle512 start.toMemory str size) :
    contract.Served start.toMemory (.strstr str size)
      (telling .pointer fun m => strstrAvx512 m str size) := by
  obtain ⟨ghosts, right⟩ := fine.1 T L call.ends call.needleEnds
  have ends : Ends (strstrAvx512 start.toMemory str size) (Searches start.byte str size)
      fun _ => False := by
    refine (call.strstrAvx512_ends ghosts).imp fun _ found => found right ?_
    rintro ⟨rfl, hides⟩
    exact fine.2 call.needleEnds hides
  exact telling_served ends.returns fun _ _ tells => tells

end Searches

section Columns
variable (strict : Bool) (cacheInfo : CacheInfo) (thresholds : Thresholds)

theorem avx2_met : (contract.only (avx2Fine · strict)).MetBy (avx2 strict cacheInfo thresholds) := by
  rintro _ call ⟨⟨start, rfl, legal⟩, fine⟩
  cases call with
  | memcpy dst src size => exact memcpy_served (Copy.memcpyAvx2_complete legal.1 legal.2.1 legal.2.2)
  | mempcpy dst src size => exact mempcpy_served (Copy.memcpyAvx2_complete legal.1 legal.2.1 legal.2.2)
  | memmove dst src size => exact memcpy_served (Copy.memmoveAvx2_complete legal.1 legal.2)
  | memset mem val size =>
    exact memset_served (Fill.memsetAvx2_complete legal.1 legal.2) (Fill.memsetAvx2_keeps mem val size _)
  | memcmp mem1 mem2 size => exact telling_served (legal.orders_avx2 fine) fun _ _ tells => tells
  | memchr mem val size => exact memchrAvx2_served strict val legal.1 legal.2
  | strcpy dst src =>
    obtain ⟨len, given⟩ := legal
    exact strcpy_served given (strcpyAvx2_copiesTo given)
  | strncpy dst src size => exact strncpyAvx2_served legal fine
  | strcmp str1 str2 =>
    obtain ⟨needs, len, null, range⟩ := legal
    exact strcmp_served (strcmpAvx2Text_ends needs (budget_of_range range) (endsBelow_of_nul null)
      (by simp))
  | strncmp str1 str2 size =>
    obtain ⟨needs, range⟩ := legal
    refine strncmp_served rfl (fun some => ?_) fine
    exact strcmpAvx2Text_ends needs (Nat.lt_of_succ_lt (budget_of_range range)) endsBelow_bound
      fun n bound => by cases bound; exact ⟨some, range⟩
  | strcat dst src =>
    obtain ⟨dstLen, len, given⟩ := legal
    exact strcat_served given (strlenAvx2_eq given.dstEnds given.dstRange given.dstSource)
      (strcpyAvx2_copiesTo given.copies)
  | strncat dst src n =>
    obtain ⟨dstLen, copyLen, given⟩ := legal
    exact strncatAvx2_served given _ _
  | strstr haystack needle =>
    obtain ⟨T, L, given⟩ := legal
    exact strstrAvx2_served given fine
  | strlen str =>
    obtain ⟨len, ends, range, mapped⟩ := legal
    exact strlen_served (strlenAvx2_ends (scanNeeds_of_hit ends.1 mapped) ends range)
  | strnlen str maxlen =>
    obtain ⟨range, len, bounded, room, mapped⟩ := legal
    exact strnlen_served (strnlenAvx2_ends (bounded.needs mapped) (bounded.room room) range)
  | strchr str c =>
    obtain ⟨len, ends, range, mapped⟩ := legal
    exact strchr_served (strchrAvx2_ends (scanNeeds_of_hit (.inr ends.1) mapped) ends range)
  | strspn str accept =>
    obtain ⟨len, acceptLen, given⟩ := legal
    exact strspnAvx2_served given

theorem zen4_met : (contract.only zen4Fine).MetBy (zen4 strict cacheInfo thresholds) := by
  rintro _ call ⟨⟨start, rfl, legal⟩, fine⟩
  cases call with
  | memcpy dst src size =>
    exact memcpy_served (Copy.memcpyZen4Impl_complete legal.1 legal.2.1 (.inr legal.2.2))
  | mempcpy dst src size =>
    exact mempcpy_served (Copy.memcpyZen4Impl_complete legal.1 legal.2.1 (.inr legal.2.2))
  | memmove dst src size =>
    exact memcpy_served (Copy.memcpyZen4Impl_complete legal.1 legal.2 (.inl rfl))
  | memset mem val size =>
    exact memset_served (Fill.memsetZen4_complete legal.1 legal.2) (Fill.memsetZen4_keeps mem val size _)
  | memcmp mem1 mem2 size => exact telling_served (legal.orders_zen4 fine) fun _ _ tells => tells
  | memchr mem val size => exact memchrAvx512_served strict val legal.1 legal.2
  | strcpy dst src =>
    obtain ⟨len, given⟩ := legal
    exact strcpy_served given (strcpyZmm_copiesTo given masksTail_bzhi)
  | strncpy dst src size => exact strncpy_served (strncpyAvx512_copiesTo legal)
  | strcmp str1 str2 =>
    obtain ⟨needs, len, null, range⟩ := legal
    have ends : Ends (strcmpZen4 start.toMemory str1 str2) _ fun _ => False :=
      strcmpZen4Text_ends needs (budget_of_range range) (endsBelow_of_nul null) sizeLe_none
    exact telling_served ends.returns fun _ _ tells => tells
  | strncmp str1 str2 size => exact strncmpZen4_served legal.2 legal.1
  | strcat dst src =>
    obtain ⟨dstLen, len, given⟩ := legal
    exact strcat_served given (strlenAvx512_eq given.dstEnds given.dstRange given.dstSource)
      (strcpyZmm_copiesTo given.copies masksTail_headMask)
  | strncat dst src n =>
    obtain ⟨dstLen, copyLen, given⟩ := legal
    exact strncatAvx2_served given _ _
  | strstr haystack needle =>
    obtain ⟨T, L, given⟩ := legal
    exact strstrAvx512_served given fine
  | strlen str =>
    obtain ⟨len, ends, range, mapped⟩ := legal
    exact strlen_served (strlenZen4_ends (scanNeeds_of_hit ends.1 mapped) ends range)
  | strnlen str maxlen =>
    obtain ⟨range, len, bounded, room, mapped⟩ := legal
    exact strnlen_served (strnlenAvx512_ends (bounded.needs mapped) (bounded.room room) range)
  | strchr str c =>
    obtain ⟨len, ends, range, mapped⟩ := legal
    exact strchrAvx512_served ends range mapped fine
  | strspn str accept =>
    obtain ⟨len, acceptLen, given⟩ := legal
    exact strspnAvx512_served given

private theorem avx512With_met {memcpy mempcpy memmove : Nat → Nat → Nat → Kernel Nat}
    {memset : Nat → BitVec 32 → Nat → Kernel Nat}
    (copies : ∀ start dst src size, contract.pre start (.memcpy dst src size) →
      contract.Served start (.memcpy dst src size) (pointing (memcpy dst src size)))
    (copiesTo : ∀ start dst src size, contract.pre start (.mempcpy dst src size) →
      contract.Served start (.mempcpy dst src size) (pointing (mempcpy dst src size)))
    (moves : ∀ start dst src size, contract.pre start (.memmove dst src size) →
      contract.Served start (.memmove dst src size) (pointing (memmove dst src size)))
    (fills : ∀ start mem val size, contract.pre start (.memset mem val size) →
      contract.Served start (.memset mem val size) (pointing (memset mem val size))) :
    (contract.only avx512Fine).MetBy
      (avx512With strict cacheInfo thresholds memcpy mempcpy memmove memset) := by
  rintro _ call ⟨⟨start, rfl, legal⟩, fine⟩
  cases call with
  | memcpy dst src size => exact copies _ dst src size ⟨start, rfl, legal⟩
  | mempcpy dst src size => exact copiesTo _ dst src size ⟨start, rfl, legal⟩
  | memmove dst src size => exact moves _ dst src size ⟨start, rfl, legal⟩
  | memset mem val size => exact fills _ mem val size ⟨start, rfl, legal⟩
  | memcmp mem1 mem2 size =>
    exact telling_served (legal.orders_avx512 cacheInfo.l1dPerCore) fun _ _ tells => tells
  | memchr mem val size => exact memchrAvx512_served strict val legal.1 legal.2
  | strcpy dst src =>
    obtain ⟨len, given⟩ := legal
    exact strcpy_served given (strcpyZmm_copiesTo given masksTail_headMask)
  | strncpy dst src size => exact strncpy_served (strncpyAvx512_copiesTo legal)
  | strcmp str1 str2 =>
    obtain ⟨needs, len, null, range⟩ := legal
    exact strcmp_served (strcmpAvx512Text_ends needs (budget_of_range range) (endsBelow_of_nul null)
      (by simp))
  | strncmp str1 str2 size =>
    obtain ⟨needs, range⟩ := legal
    refine strncmp_served rfl (fun some => ?_) fine
    exact strcmpAvx512Text_ends needs (Nat.lt_of_succ_lt (budget_of_range range)) endsBelow_bound
      fun n bound => by cases bound; exact ⟨some, range⟩
  | strcat dst src =>
    obtain ⟨dstLen, len, given⟩ := legal
    exact strcat_served given (strlenAvx512_eq given.dstEnds given.dstRange given.dstSource)
      (strcpyZmm_copiesTo given.copies masksTail_headMask)
  | strncat dst src n =>
    obtain ⟨dstLen, copyLen, given⟩ := legal
    exact strncatAvx512_served given _ _
  | strstr haystack needle =>
    obtain ⟨T, L, given⟩ := legal
    exact strstrAvx512_served given fine
  | strlen str =>
    obtain ⟨len, ends, range, mapped⟩ := legal
    exact strlen_served (strlenAvx512_ends (scanNeeds_of_hit ends.1 mapped) ends range)
  | strnlen str maxlen =>
    obtain ⟨range, len, bounded, room, mapped⟩ := legal
    exact strnlen_served (strnlenAvx512_ends (bounded.needs mapped) (bounded.room room) range)
  | strchr str c =>
    obtain ⟨len, ends, range, mapped⟩ := legal
    exact strchrAvx512_served ends range mapped fine
  | strspn str accept =>
    obtain ⟨len, acceptLen, given⟩ := legal
    exact strspnAvx512_served given

private theorem zen5_met : (contract.only avx512Fine).MetBy (zen5 strict cacheInfo thresholds) := by
  refine avx512With_met strict cacheInfo thresholds ?_ ?_ ?_ ?_
  · rintro _ dst src size ⟨start, rfl, buffers, range, apart⟩
    exact memcpy_served (Copy.memcpyAvx512Erms_complete buffers range (.inr apart))
  · rintro _ dst src size ⟨start, rfl, buffers, range, apart⟩
    exact mempcpy_served (Copy.memcpyAvx512Erms_complete buffers range (.inr apart))
  · rintro _ dst src size ⟨start, rfl, buffers, range⟩
    exact memcpy_served (Copy.memcpyAvx512Erms_complete buffers range (.inl rfl))
  · rintro _ mem val size ⟨start, rfl, buffer, range⟩
    exact memset_served (Fill.memsetAvx512Erms_complete buffer range)
      (Fill.memsetAvx512Erms_keeps mem val size _ _)

theorem avx512_met : (contract.only avx512Fine).MetBy (avx512 strict cacheInfo thresholds) := by
  refine avx512With_met strict cacheInfo thresholds ?_ ?_ ?_ ?_
  · rintro _ dst src size ⟨start, rfl, buffers, range, apart⟩
    exact memcpy_served (Copy.memcpyAvx512_complete buffers range (.inr apart))
  · rintro _ dst src size ⟨start, rfl, buffers, range, apart⟩
    exact mempcpy_served (Copy.memcpyAvx512_complete buffers range (.inr apart))
  · rintro _ dst src size ⟨start, rfl, buffers, range⟩
    exact memcpy_served (Copy.memcpyAvx512_complete buffers range (.inl rfl))
  · rintro _ mem val size ⟨start, rfl, buffer, range⟩
    exact memset_served (Fill.memsetAvx512_complete buffer range) (Fill.memsetAvx512_keeps mem val size)

end Columns

/-- What a build for one kind of processor is made of: Zen1 to Zen3 and the AVX2 instruction set,
Zen4, Zen5 and the AVX512 instruction set. -/
inductive Target where
  | avx2
  | zen4
  | zen5
  | avx512
deriving DecidableEq, Repr

def Target.code (target : Target) (strict : Bool) (cacheInfo : CacheInfo) (thresholds : Thresholds) :
    Call → Kernel Reply :=
  match target with
  | .avx2 => Calls.avx2 strict cacheInfo thresholds
  | .zen4 => Calls.zen4 strict cacheInfo thresholds
  | .zen5 => Calls.zen5 strict cacheInfo thresholds
  | .avx512 => Calls.avx512 strict cacheInfo thresholds

def Target.Fine (target : Target) (strict : Bool) (m : Memory) (call : Call) : Prop :=
  match target with
  | .avx2 => avx2Fine m strict call
  | .zen4 => zen4Fine m call
  | .zen5 => avx512Fine m call
  | .avx512 => avx512Fine m call

theorem Target.met (target : Target) (strict : Bool) (cacheInfo : CacheInfo) (thresholds : Thresholds) :
    (contract.only (target.Fine strict)).MetBy (target.code strict cacheInfo thresholds) := by
  cases target with
  | avx2 => exact avx2_met strict cacheInfo thresholds
  | zen4 => exact zen4_met strict cacheInfo thresholds
  | zen5 => exact zen5_met strict cacheInfo thresholds
  | avx512 => exact avx512_met strict cacheInfo thresholds

/-- Two builds do the same for every program that makes no call which one of them answers wrongly: not
only the memory but every `int` is the same, whatever the caches and the thresholds. -/
theorem targets_agree (first second : Target) (strict strict' : Bool) (cacheInfo cacheInfo' : CacheInfo)
    (thresholds thresholds' : Thresholds) {α : Type} (client : Client Call Reply α)
    (before after : Memory) (result : α)
    (yields : (contract.only fun m call => first.Fine strict m call ∧ second.Fine strict' m call).Yields
      client before result after) :
    client.run (first.code strict cacheInfo thresholds) before = .ok (result, after) ∧
      client.run (second.code strict' cacheInfo' thresholds') before = .ok (result, after) :=
  ⟨(yields.only fun _ _ fine => fine.1).run_eq contract_functional.only
      (first.met strict cacheInfo thresholds),
    (yields.only fun _ _ fine => fine.2).run_eq contract_functional.only
      (second.met strict' cacheInfo' thresholds')⟩

theorem targets_agree_strlen :
    (Client.call (.strlen 8184) .done).run (Target.avx2.code true ⟨0, 0, 0⟩ ⟨0, 0, 0, 0, 0, 0⟩)
        lastWord.toMemory = .ok (ReplyOf.size 7, lastWord.toMemory) ∧
      (Client.call (.strlen 8184) .done).run (Target.zen5.code false ⟨0, 0, 0⟩ ⟨0, 0, 0, 0, 0, 0⟩)
        lastWord.toMemory = .ok (ReplyOf.size 7, lastWord.toMemory) := by
  refine targets_agree .avx2 .zen5 true false _ _ _ _ (.call (.strlen 8184) .done) lastWord.toMemory
    lastWord.toMemory (.size 7) ?_
  refine .call ⟨⟨lastWord, rfl, 7, lastWord_isLength rfl, ?_, fun i inside =>
    lastWord_mapped (by decide) (by omega)⟩, trivial, trivial⟩
    ⟨rfl, rfl, 7, rfl, lastWord_isLength rfl⟩ .done
  rw [sizeRange_eq]
  decide

end AoclLibmem.Calls
