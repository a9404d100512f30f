import AoclLibmem.Calls.RowsCorrect

/-! `src/system`: the functions that pass a call on to the C library, and the contract as it holds
of either. -/

namespace AoclLibmem.Calls

open Base Machine Dispatch Strings

/-- The C library: whether `dlopen` finds it, and the code that `dlsym` finds under a name. -/
structure Libc where
  dlopen : Bool
  dlsym : String → Option (Call → Kernel Reply)

/-- The text of all functions of `src/system`. -/
def systemCall (libc : Libc) (name : String) (failure : Reply) (call : Call) : Kernel Reply :=
  if libc.dlopen then
    match libc.dlsym name with
    | some code => code call
    | none => return failure
  else return failure

/-- `STRCMP_ERROR` and `STRNCMP_ERROR`: `__INT32_MAX__`. -/
def strcmpError : Int := 2147483647

def CallOf.name {π : Type} : CallOf π → String
  | .memcpy .. => "memcpy"
  | .mempcpy .. => "mempcpy"
  | .memmove .. => "memmove"
  | .memset .. => "memset"
  | .memcmp .. => "memcmp"
  | .memchr .. => "memchr"
  | .strcpy .. => "strcpy"
  | .strncpy .. => "strncpy"
  | .strcmp .. => "strcmp"
  | .strncmp .. => "strncmp"
  | .strcat .. => "strcat"
  | .strncat .. => "strncat"
  | .strstr .. => "strstr"
  | .strlen .. => "strlen"
  | .strnlen .. => "strnlen"
  | .strchr .. => "strchr"
  | .strspn .. => "strspn"

/-- What is returned when the C library is not there. -/
def failure : Call → Reply
  | .memcpy .. | .mempcpy .. | .memmove .. | .memset .. | .memchr .. => .pointer none
  | .strcpy .. | .strncpy .. | .strcat .. | .strncat .. | .strstr .. | .strchr .. => .pointer none
  | .memcmp .. => .order (-1)
  | .strcmp .. | .strncmp .. => .order strcmpError
  | .strlen .. => .size (sizeRange - 1)
  | .strnlen _ maxlen => .size maxlen
  | .strspn .. => .size 0

/-- `__<func>_system`. -/
def system (libc : Libc) (call : Call) : Kernel Reply := systemCall libc call.name (failure call) call

/-- The C library is there, exports all seventeen functions, and they keep the contract, as far as
a caller may rely on what they return. -/
structure Libc.Conforms (libc : Libc) : Prop where
  opens : libc.dlopen = true
  exports : ∀ call, ∃ code, libc.dlsym call.name = some code ∧ ∀ m, contract.pre m call →
    (contract.seen Reply.seen).Served m call (Reply.seen <$> code call)

section Targets
variable (strict : Bool) (cacheInfo : CacheInfo) (thresholds : Thresholds) (libc : Libc)

/-- What the functions of a column of the CPU table were built for; `none` passes calls on. -/
def targetOf : CpuVariantIdx → Option Target
  | .archZen1 | .archZen2 | .archZen3 => some .avx2
  | .archZen4 => some .zen4
  | .archZen5 => some .zen5
  | .system => none

/-- The functions built for a target, or those that pass a call on. -/
def codeFor (target? : Option Target) : Call → Kernel Reply :=
  match target? with
  | some target => target.code strict cacheInfo thresholds
  | none => system libc

def FineFor (target? : Option Target) (m : Memory) (call : Call) : Prop :=
  ∀ target ∈ target?, target.Fine strict m call

def contractFor (target? : Option Target) : Interface Memory Call Reply :=
  (contract.only (FineFor strict target?)).seen Reply.seen

theorem contractFor_functional (target? : Option Target) : (contractFor strict target?).Functional :=
  contract_functional.only.seen

variable {libc}

theorem system_served (conforms : libc.Conforms) {m : Memory} {call : Call}
    (may : contract.pre m call) :
    (contract.seen Reply.seen).Served m call (Reply.seen <$> system libc call) := by
  obtain ⟨code, found, serves⟩ := conforms.exports call
  have same : system libc call = code call := by
    simp only [system, systemCall, conforms.opens, found, ↓reduceIte]
  rw [same]
  exact serves m may

theorem codeFor_met (conforms : libc.Conforms) (target? : Option Target) :
    (contractFor strict target?).MetBy
      fun call => Reply.seen <$> codeFor strict cacheInfo thresholds libc target? call := by
  cases target? with
  | some target =>
    intro m call may
    exact ((target.met strict cacheInfo thresholds).seen) m call ⟨may.1, may.2 target rfl⟩
  | none => exact fun m call may => system_served conforms may.1

end Targets

section Instance

/-- The search that `strstr` stands for, place by place. -/
def plainStrstr (m : Memory) (haystack needle : Nat) : Exec (Option Nat) := do
  let T ← strlenAvx2 m haystack
  let L ← strlenAvx2 m needle
  return ((List.range (T + 1)).find? fun i =>
    decide (∀ j < L, m.byte (haystack + (i + j)) = m.byte (needle + j))).map (haystack + ·)

/-- A C library made of functions that are right for every call. -/
def plainLibc : Libc where
  dlopen := true
  dlsym _ := some fun
    | .memcmp mem1 mem2 size => avx512 false ⟨0, 0, 0⟩ ⟨0, 0, 0, 0, 0, 0⟩ (.memcmp mem1 mem2 size)
    | .strncmp str1 str2 size => zen4 false ⟨0, 0, 0⟩ ⟨0, 0, 0, 0, 0, 0⟩ (.strncmp str1 str2 size)
    | .strstr haystack needle => telling .pointer fun m => plainStrstr m haystack needle
    | call => avx2 false ⟨0, 0, 0⟩ ⟨0, 0, 0, 0, 0, 0⟩ call

private theorem plainStrstr_searches {start : PagedMemory} {haystack needle T L : Nat}
    (call : StrstrCall start haystack needle T L) :
    ∃ result, plainStrstr start.toMemory haystack needle = .ok result ∧
      Searches start.byte haystack needle result := by
  have first := strlenAvx2_eq call.ends call.range call.source
  have second := strlenAvx2_eq call.needleEnds
    (Nat.lt_of_le_of_lt (Nat.le_add_left L needle) call.needleFits) call.needleSource
  refine ⟨_, by rw [plainStrstr, first, ok_bind, second, ok_bind]; rfl, ?_⟩
  rw [searches_iff call.ends call.needleEnds]
  cases found : (List.range (T + 1)).find? fun i =>
      decide (∀ j < L, start.byte (haystack + (i + j)) = start.byte (needle + j)) with
  | none =>
    simp only [List.find?_eq_none, List.mem_range, decide_eq_true_iff] at found
    exact .absent fun i hit => found i (Nat.lt_succ_of_le hit.1) hit.2
  | some i =>
    simp only [List.find?_range_eq_some, List.mem_range, decide_eq_true_iff, Bool.not_eq_true',
      decide_eq_false_iff_not] at found
    obtain ⟨here, inside, before⟩ := found
    exact .found ⟨⟨Nat.le_of_lt_succ inside, here⟩, fun j less hit => before j less hit.2⟩

theorem plainLibc_conforms : plainLibc.Conforms where
  opens := rfl
  exports call := by
    refine ⟨_, rfl, fun m may => Interface.Served.seen ?_⟩
    have served (fine : avx2Fine m false call) :=
      avx2_met false ⟨0, 0, 0⟩ ⟨0, 0, 0, 0, 0, 0⟩ m call ⟨may, fine⟩
    cases call with
    | memcmp mem1 mem2 size => exact avx512_met false ⟨0, 0, 0⟩ ⟨0, 0, 0, 0, 0, 0⟩ m _ ⟨may, trivial⟩
    | strncmp str1 str2 size => exact zen4_met false ⟨0, 0, 0⟩ ⟨0, 0, 0, 0, 0, 0⟩ m _ ⟨may, trivial⟩
    | strstr haystack needle =>
      obtain ⟨start, rfl, T, L, given⟩ := may
      exact telling_served (plainStrstr_searches given) fun _ _ tells => tells
    | strncpy dst src size => exact served fun strict => absurd strict (by simp)
    | _ => exact served trivial

end Instance

end AoclLibmem.Calls
