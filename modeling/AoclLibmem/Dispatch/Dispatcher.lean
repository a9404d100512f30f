import AoclLibmem.Dispatch.CpuInfo
import AoclLibmem.Dispatch.EnvParser

/-! `libmem.h`, `threshold.c`, `libmem_dispatcher.c` and `libmem.c` of a build with
tunables: the dispatching tables, the resolvers and the library's constructor. -/

namespace AoclLibmem.Dispatch

inductive FuncIndex where
  | memcpy
  | mempcpy
  | memmove
  | memset
  | memcmp
  | memchr
  | strcpy
  | strncpy
  | strcmp
  | strncmp
  | strcat
  | strncat
  | strstr
  | strlen
  | strnlen
  | strchr
  | strspn
deriving DecidableEq, Repr

/-- `tunable_variant_idx`; `tunVariantCount` is the number of those before it. -/
inductive TunableVariantIdx where
  | avx2Unaligned
  | avx2Aligned
  | avx2AlignedLoad
  | avx2AlignedStore
  | avx2NonTemporal
  | avx2NonTemporalLoad
  | avx2NonTemporalStore
  | avx512Unaligned
  | avx512Aligned
  | avx512AlignedLoad
  | avx512AlignedStore
  | avx512NonTemporal
  | avx512NonTemporalLoad
  | avx512NonTemporalStore
  | ermsMovsb
  | ermsMovsw
  | ermsMovsd
  | ermsMovsq
  | threshold
  | tunVariantCount
  | unknown
deriving DecidableEq, Repr

inductive CpuVariantIdx where
  | archZen1
  | archZen2
  | archZen3
  | archZen4
  | archZen5
  | system
deriving DecidableEq, Repr

/-- The suffixes of the implementations' names. -/
inductive Suffix where
  | avx2Unaligned
  | avx2Aligned
  | avx2AlignedLoad
  | avx2AlignedStore
  | avx2Nt
  | avx2NtLoad
  | avx2NtStore
  | avx512Unaligned
  | avx512Aligned
  | avx512AlignedLoad
  | avx512AlignedStore
  | avx512Nt
  | avx512NtLoad
  | avx512NtStore
  | ermsBAligned
  | ermsWAligned
  | ermsDAligned
  | ermsQAligned
  | threshold
  | zen1
  | zen2
  | zen3
  | zen4
  | zen5
  | system
deriving DecidableEq, Repr

/-- The function `__<func>_<suffix>`. -/
structure Impl where
  func : FuncIndex
  suffix : Suffix
deriving DecidableEq, Repr

section Tables
variable (func : FuncIndex)

def generateAvx2Variants : List Impl :=
  [⟨func, .avx2Unaligned⟩, ⟨func, .avx2Aligned⟩, ⟨func, .avx2AlignedLoad⟩,
    ⟨func, .avx2AlignedStore⟩, ⟨func, .avx2Nt⟩, ⟨func, .avx2NtLoad⟩, ⟨func, .avx2NtStore⟩]

def generateAvx512Variants : List Impl :=
  [⟨func, .avx512Unaligned⟩, ⟨func, .avx512Aligned⟩, ⟨func, .avx512AlignedLoad⟩,
    ⟨func, .avx512AlignedStore⟩, ⟨func, .avx512Nt⟩, ⟨func, .avx512NtLoad⟩,
    ⟨func, .avx512NtStore⟩]

def generateErmsVariants : List Impl :=
  [⟨func, .ermsBAligned⟩, ⟨func, .ermsWAligned⟩, ⟨func, .ermsDAligned⟩,
    ⟨func, .ermsQAligned⟩]

def generateThresholdVariant : List Impl := [⟨func, .threshold⟩]

def addTunFuncVariants : List Impl :=
  generateAvx2Variants func ++ generateAvx512Variants func ++ generateErmsVariants func ++
    generateThresholdVariant func

def generateArchVariants : List Impl :=
  [⟨func, .zen1⟩, ⟨func, .zen2⟩, ⟨func, .zen3⟩, ⟨func, .zen4⟩, ⟨func, .zen5⟩]

def generateSystemVariant : List Impl := [⟨func, .system⟩]

def addCpuFuncVariants : List Impl := generateArchVariants func ++ generateSystemVariant func

end Tables

def libmemTunImpls : List (List Impl) :=
  [addTunFuncVariants .memcpy, addTunFuncVariants .mempcpy, addTunFuncVariants .memmove,
    addTunFuncVariants .memset, addTunFuncVariants .memcmp]

def libmemCpuImpls : List (List Impl) :=
  [addCpuFuncVariants .memcpy, addCpuFuncVariants .mempcpy, addCpuFuncVariants .memmove,
    addCpuFuncVariants .memset, addCpuFuncVariants .memcmp, addCpuFuncVariants .memchr,
    addCpuFuncVariants .strcpy, addCpuFuncVariants .strncpy, addCpuFuncVariants .strcmp,
    addCpuFuncVariants .strncmp, addCpuFuncVariants .strcat, addCpuFuncVariants .strncat,
    addCpuFuncVariants .strstr, addCpuFuncVariants .strlen, addCpuFuncVariants .strnlen,
    addCpuFuncVariants .strchr, addCpuFuncVariants .strspn]

def entryAt (table : List (List Impl)) (row column : Nat) : Option Impl :=
  table[row]?.bind fun entries => entries[column]?

/-- `libmem_tun_impls[f][idx]`. -/
def tunImpl (f : FuncIndex) (idx : TunableVariantIdx) : Option Impl :=
  entryAt libmemTunImpls f.ctorIdx idx.ctorIdx

/-- `libmem_cpu_impls[f][idx]`. -/
def cpuImpl (f : FuncIndex) (idx : CpuVariantIdx) : Option Impl :=
  entryAt libmemCpuImpls f.ctorIdx idx.ctorIdx

/-- The library's globals that its constructor writes. -/
structure Library where
  zenCpuFeatures : CpuFeatures
  zenCacheInfo : CacheInfo
  zenThresholds : Thresholds
  settings : Settings
  thresholds : Thresholds
  variant : FuncIndex → Option Impl

section Resolvers

def libmemCpuResolver (features : CpuFeatures) : CpuVariantIdx :=
  if features.avx512 then
    if features.movdiri then .archZen5 else .archZen4
  else if features.avx2 then
    if features.vpclmul then .archZen3
    else if features.rdpid then .archZen2
    else if features.rdseed then .archZen1
    else .system
  else .system

/-- The ladder over the two alignments, the same for AVX2 and AVX512 operations. -/
def vectorVariant (nonTemporal nonTemporalLoad nonTemporalStore aligned alignedLoad alignedStore
    unaligned : TunableVariantIdx) (srcAln dstAln : Alignment) : TunableVariantIdx :=
  if srcAln = .nAlign then
    if dstAln = .nAlign then nonTemporal else nonTemporalLoad
  else if dstAln = .nAlign then nonTemporalStore
  else if srcAln = .yAlign then
    if dstAln = .yAlign then aligned else alignedLoad
  else if dstAln = .yAlign then alignedStore
  else unaligned

def ermsVariant (srcAln dstAln : Alignment) : TunableVariantIdx :=
  if srcAln = dstAln then
    if srcAln = .qAlign ∨ srcAln = .xAlign ∨ srcAln = .yAlign then .ermsMovsq
    else if srcAln = .dAlign then .ermsMovsd
    else if srcAln = .wAlign then .ermsMovsw
    else .ermsMovsb
  else .ermsMovsb

def libmemTunableResolver (settings : Settings) : TunableVariantIdx :=
  let config := settings.userConfig
  if settings.activeOperationCfg = .usrCfg then
    if config.userOperation.avx2 then
      vectorVariant .avx2NonTemporal .avx2NonTemporalLoad .avx2NonTemporalStore .avx2Aligned
        .avx2AlignedLoad .avx2AlignedStore .avx2Unaligned config.srcAln config.dstAln
    else if config.userOperation.avx512 then
      vectorVariant .avx512NonTemporal .avx512NonTemporalLoad .avx512NonTemporalStore .avx512Aligned
        .avx512AlignedLoad .avx512AlignedStore .avx512Unaligned config.srcAln config.dstAln
    else if config.userOperation.erms then ermsVariant config.srcAln config.dstAln
    else .unknown
  else if settings.activeThresholdCfg = .usrCfg then .threshold
  else .unknown

end Resolvers

def Library.install (lib : Library) (f : FuncIndex) (impl : Option Impl) : Library :=
  { lib with variant := fun other => if other = f then impl else lib.variant other }

def Library.installCpu (lib : Library) (idx : CpuVariantIdx) (funcs : List FuncIndex) : Library :=
  funcs.foldl (fun lib f => lib.install f (cpuImpl f idx)) lib

/-- `dispatcher_init`: both groups of assignments read the CPU table. -/
def dispatcherInit (lib : Library) : Library :=
  let cpuVarIdx := libmemCpuResolver lib.zenCpuFeatures
  let lib := lib.installCpu cpuVarIdx [.memcpy, .mempcpy, .memmove, .memset, .memcmp, .memchr,
    .strcpy, .strncpy, .strcmp, .strncmp, .strcat, .strncat, .strstr, .strlen, .strnlen, .strchr,
    .strspn]
  let tunVarIdx := libmemTunableResolver lib.settings
  if tunVarIdx ≠ .unknown then
    lib.installCpu cpuVarIdx [.memcpy, .mempcpy, .memmove, .memset, .memcmp]
  else lib

def computeSysThresholds (cpuid : Cpuid) (lib : Library) : Library :=
  let cache := getCacheInfo cpuid
  let erms := lib.zenCpuFeatures.erms
  { lib with
    zenCacheInfo := cache
    zenThresholds :=
      { repmovStartThreshold := if erms then 2 * 1024 else 0
        repmovStopThreshold := if erms then cache.l2PerCore else 0
        repstoreStartThreshold := if erms then cache.l2PerCore else 0
        repstoreStopThreshold := if erms then cache.l3PerCcx else 0
        ntStartThreshold :=
          if lib.zenCpuFeatures.movdiri then cache.l3PerCcx else cache.l3PerCcx / 4 * 3
        ntStopThreshold := 2 ^ 64 - 1 } }

def configureThresholds (lib : Library) : Library :=
  match lib.settings.activeThresholdCfg with
  | .sysCfg => { lib with thresholds := lib.zenThresholds }
  | .usrCfg =>
    let user := lib.settings.userConfig.userThreshold
    { lib with
      thresholds :=
        { lib.thresholds with
          repmovStartThreshold := user.repmovStartThreshold
          repmovStopThreshold := user.repmovStopThreshold
          ntStartThreshold := user.ntStartThreshold
          ntStopThreshold := user.ntStopThreshold } }
  | _ => lib

def parseEnv (env : Environment) (settings : Settings) : Settings :=
  let settings := parseEnvOperationCfg env settings
  if settings.activeOperationCfg = .sysCfg then parseEnvThresholdCfg env settings else settings

def libmemInit (cpuid : Cpuid) (env : Environment) (lib : Library) : Library :=
  let lib :=
    if isAmd cpuid then
      let lib :=
        { lib with
          zenCpuFeatures := getCpuCapabilities cpuid lib.zenCpuFeatures
          settings := parseEnv env lib.settings }
      let lib :=
        if lib.settings.activeOperationCfg = .sysCfg ∧ lib.settings.activeThresholdCfg = .sysCfg then
          computeSysThresholds cpuid lib
        else lib
      configureThresholds lib
    else lib
  dispatcherInit lib

def Library.initial : Library where
  zenCpuFeatures := ⟨false, false, false, false, false, false, false, false⟩
  zenCacheInfo := ⟨0, 0, 0⟩
  zenThresholds := ⟨0, 0, 0, 0, 0, 0⟩
  settings :=
    { userConfig :=
        { userOperation := ⟨false, false, false⟩
          userThreshold := ⟨0, 0, 0, 0, 0, 0⟩
          srcAln := .uAlign
          dstAln := .uAlign }
      activeOperationCfg := .sysCfg
      activeThresholdCfg := .sysCfg }
  thresholds :=
    ⟨0xffffffff, 0xffffffff, 0xffffffff, 0xffffffff, 0xffffffff, 0xffffffff⟩
  variant := fun f => some ⟨f, .system⟩

end AoclLibmem.Dispatch
