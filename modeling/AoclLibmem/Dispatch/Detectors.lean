import AoclLibmem.Dispatch.DispatcherChoice
import AoclLibmem.Copy.MemcpyAvx512Erms

/-! `libmem_ifunc_dispatcher.c` and `detect_cpu_info.c`: the other two places that look at the
processor, for the symbols of a build without tunables and for the build itself. -/

namespace AoclLibmem.Dispatch

section Definitions
variable (cpuid : Cpuid)

/-- `libmem_<func>_resolver` by `AMD_ZEN_CPU_RESOLVER`. It does not ask who made the processor. -/
def libmemResolver (func : FuncIndex) : Impl :=
  let regs := cpuid 0x7 0
  if regs.ebx &&& avx512Mask != 0 then
    if regs.ecx &&& movdiriMask != 0 then ⟨func, .zen5⟩ else ⟨func, .zen4⟩
  else if regs.ebx &&& avx2Mask != 0 then
    if regs.ecx &&& vpclmulqdqMask != 0 then ⟨func, .zen3⟩
    else if regs.ecx &&& rdpidMask != 0 then ⟨func, .zen2⟩
    else if regs.ecx &&& rdseedMask != 0 then ⟨func, .zen1⟩
    else ⟨func, .system⟩
  else ⟨func, .system⟩

/-- The same where the compiler knows all architectures by name. -/
def libmemBuiltinResolver (builtinCpuIs : String → Bool) (func : FuncIndex) : Impl :=
  if builtinCpuIs "znver5" then ⟨func, .zen5⟩
  else if builtinCpuIs "znver4" then ⟨func, .zen4⟩
  else if builtinCpuIs "znver3" then ⟨func, .zen3⟩
  else if builtinCpuIs "znver2" then ⟨func, .zen2⟩
  else if builtinCpuIs "znver1" then ⟨func, .zen1⟩
  else ⟨func, .system⟩

def getCacheBytes (level : BitVec 32) : Nat :=
  let regs := cpuid 0x8000001D level
  (((regs.ebx >>> 22 &&& 0x3ff) + 1) * (((regs.ebx &&& 0xfff) + 1) * (regs.ecx + 1))).toNat

def toInt (n : Nat) : Int := (BitVec.ofNat 32 n).toInt

/-- `COMPUTE_NT_MOV_THRESHOLD`. -/
def ntMovThreshold (l3Bytes : Nat) : Nat := l3Bytes / 4 * 3

/-- The command `arch`, which looks for RDSEED in EBX. -/
def archOf : Int :=
  let regs := cpuid 0x7 0
  if regs.ebx &&& avx512Mask != 0 then
    if regs.ecx &&& movdiriMask != 0 then 5 else 4
  else if regs.ebx &&& avx2Mask != 0 then
    if regs.ecx &&& vpclmulqdqMask != 0 then 3
    else if regs.ecx &&& rdpidMask != 0 then 2
    else if regs.ebx &&& rdseedMask != 0 then 1
    else 255
  else 255

/-- The command `nt_threshold`. -/
def ntThresholdOf : Int :=
  let l3Bytes := getCacheBytes cpuid 0x3
  if (cpuid 0x7 0).ecx &&& movdiriMask != 0 then toInt (l3Bytes >>> 20)
  else toInt (ntMovThreshold l3Bytes >>> 20)

/-- `main`: what the process returns. -/
def detectCpuInfo (argv : List String) : Int :=
  match argv[1]? with
  | none => -1
  | some cmd =>
    if cmd = "arch" then archOf cpuid
    else if cmd = "vendor" then
      let regs := cpuid 0x0 0
      if (regs.ebx ^^^ 0x68747541) ||| (regs.edx ^^^ 0x69746E65) ||| (regs.ecx ^^^ 0x444D4163) != 0
      then 0 else 1
    else if cmd = "feature_avx2" then ((cpuid 0x7 0).ebx &&& avx2Mask != 0).toInt
    else if cmd = "feature_avx512" then ((cpuid 0x7 0).ebx &&& avx512Mask != 0).toInt
    else if cmd = "feature_erms" then ((cpuid 0x7 0).ebx &&& ermsMask != 0).toInt
    else if cmd = "feature_fsrm" then ((cpuid 0x7 0).edx &&& fsrmMask != 0).toInt
    else if cmd = "feature_movdiri" then ((cpuid 0x7 0).ecx &&& movdiriMask != 0).toInt
    else if cmd = "l1_dcache" then toInt (getCacheBytes cpuid 0x0 >>> 10)
    else if cmd = "l2_cache" then toInt (getCacheBytes cpuid 0x2 >>> 19)
    else if cmd = "l3_cache" then toInt (getCacheBytes cpuid 0x3 >>> 20)
    else if cmd = "nt_threshold" then ntThresholdOf cpuid
    else if cmd = "aligned_vec_cpy_threshold" then
      toInt (Copy.alignedVecMovThreshold (getCacheBytes cpuid 0x0) >>> 10)
    else if cmd = "aligned_vec_set_threshold" then toInt (getCacheBytes cpuid 0x0 >>> 10)
    else if cmd = "zen5_nt_store_threshold" then toInt (getCacheBytes cpuid 0x3 >>> 20)
    else -1

end Definitions

section Detection
variable {cpuid : Cpuid} {env : Environment} {lib : Library} {f : FuncIndex}

def detected (cpuid : Cpuid) : CpuFeatures := getCpuCapabilities cpuid Library.initial.zenCpuFeatures

theorem getCpuCapabilities_detected (cpuid : Cpuid) :
    getCpuCapabilities cpuid (detected cpuid) = detected cpuid := by
  simp [detected, getCpuCapabilities, Library.initial]

def chosenColumn (cpuid : Cpuid) : CpuVariantIdx :=
  if isAmd cpuid then libmemCpuResolver (detected cpuid) else .system

/-- The two ladders are one. -/
theorem libmemResolver_eq (cpuid : Cpuid) (f : FuncIndex) :
    libmemResolver cpuid f = ⟨f, (libmemCpuResolver (detected cpuid)).suffix⟩ := by
  simp only [libmemResolver, libmemCpuResolver, detected, getCpuCapabilities, Library.initial,
    Bool.false_or]
  split_ifs <;> rfl

private theorem configureThresholds_features (lib : Library) :
    (configureThresholds lib).zenCpuFeatures = lib.zenCpuFeatures := by
  unfold configureThresholds
  split <;> rfl

theorem libmemInit_features (cpuid : Cpuid) (env : Environment) :
    (libmemInit cpuid env .initial).zenCpuFeatures =
      if isAmd cpuid then detected cpuid else Library.initial.zenCpuFeatures := by
  unfold libmemInit
  dsimp only
  rw [dispatcherInit_features]
  split_ifs
  · exact configureThresholds_features _
  · exact configureThresholds_features _
  · rfl

theorem libmemInit_variant (cpuid : Cpuid) (env : Environment) (f : FuncIndex) :
    (libmemInit cpuid env .initial).variant f = some ⟨f, (chosenColumn cpuid).suffix⟩ := by
  have features := libmemInit_features cpuid env
  unfold libmemInit at features ⊢
  dsimp only at features ⊢
  rw [dispatcherInit_features] at features
  rw [dispatcherInit_variant, features, cpuImpl_eq, chosenColumn]
  split <;> rfl

/-- A build that dispatches through pointers and one whose symbols the loader resolves end with the
same function, except that the latter also serves other makers' processors. -/
theorem resolvers_agree_iff (cpuid : Cpuid) (env : Environment) (f : FuncIndex) :
    (libmemInit cpuid env .initial).variant f = some (libmemResolver cpuid f) ↔
      isAmd cpuid = true ∨ libmemResolver cpuid f = ⟨f, .system⟩ := by
  rw [libmemInit_variant, libmemResolver_eq, chosenColumn]
  by_cases amd : isAmd cpuid = true
  · simp [amd]
  · simp [amd, CpuVariantIdx.suffix, eq_comm]

/-- The column under the name that the compiler's test answers to. -/
def namedColumn (builtinCpuIs : String → Bool) : CpuVariantIdx :=
  if builtinCpuIs "znver5" then .archZen5
  else if builtinCpuIs "znver4" then .archZen4
  else if builtinCpuIs "znver3" then .archZen3
  else if builtinCpuIs "znver2" then .archZen2
  else if builtinCpuIs "znver1" then .archZen1
  else .system

/-- Where the names of architectures are asked for, all symbols still come from one column. -/
theorem libmemBuiltinResolver_eq (builtinCpuIs : String → Bool) (func : FuncIndex) :
    libmemBuiltinResolver builtinCpuIs func = ⟨func, (namedColumn builtinCpuIs).suffix⟩ := by
  unfold libmemBuiltinResolver namedColumn
  split_ifs <;> rfl

/-- The number of the architecture; `ARCH_UNDF` where there is none. -/
def CpuVariantIdx.arch : CpuVariantIdx → Int
  | .archZen1 => 1
  | .archZen2 => 2
  | .archZen3 => 3
  | .archZen4 => 4
  | .archZen5 => 5
  | .system => 255

/-- Only RDSEED tells a Zen1 processor from one that is not known. -/
def RdseedDecides (features : CpuFeatures) : Prop :=
  features.avx512 = false ∧ features.avx2 = true ∧ features.vpclmul = false ∧ features.rdpid = false

theorem rdseedMask_bit (reg : BitVec 32) : (reg &&& rdseedMask != 0) = reg.getLsbD 18 := by
  have mask : rdseedMask = BitVec.twoPow 32 18 := rfl
  rw [mask, BitVec.and_twoPow]
  cases reg.getLsbD 18 <;> decide

/-- The build finds the architecture that the library finds, unless RDSEED decides and its bit is not
the same in the register that each of them looks at. -/
theorem arch_agrees_iff (cpuid : Cpuid) (program : String) (others : List String) :
    detectCpuInfo cpuid (program :: "arch" :: others) = (libmemCpuResolver (detected cpuid)).arch ↔
      (RdseedDecides (detected cpuid) →
        (cpuid 0x7 0).ebx.getLsbD 18 = (cpuid 0x7 0).ecx.getLsbD 18) := by
  have first : detectCpuInfo cpuid (program :: "arch" :: others) = archOf cpuid := rfl
  rw [first]
  simp only [archOf, libmemCpuResolver, detected, getCpuCapabilities, Library.initial, RdseedDecides,
    Bool.false_or, rdseedMask_bit]
  split_ifs <;> simp_all [CpuVariantIdx.arch]

end Detection

end AoclLibmem.Dispatch
