import Mathlib.Data.BitVec

/-! `cpu_features.c` and `cache_info.c`: what the library learns from `cpuid`. -/

namespace AoclLibmem.Dispatch

structure CpuidRegisters where
  ebx : BitVec 32
  ecx : BitVec 32
  edx : BitVec 32
deriving DecidableEq, Repr

/-- `cpuid` by leaf and subleaf. -/
abbrev Cpuid := BitVec 32 → BitVec 32 → CpuidRegisters

structure CpuFeatures where
  fsrm : Bool
  erms : Bool
  avx2 : Bool
  avx512 : Bool
  movdiri : Bool
  vpclmul : Bool
  rdpid : Bool
  rdseed : Bool
deriving DecidableEq, Repr

structure CacheInfo where
  l1dPerCore : Nat
  l2PerCore : Nat
  l3PerCcx : Nat
deriving DecidableEq, Repr

def avx2Mask : BitVec 32 := 1 <<< 5
def avx512Mask : BitVec 32 := 1 <<< 16
def ermsMask : BitVec 32 := 1 <<< 9
def fsrmMask : BitVec 32 := 1 <<< 4
def rdseedMask : BitVec 32 := 1 <<< 18
def rdpidMask : BitVec 32 := 1 <<< 22
def vpclmulqdqMask : BitVec 32 := 1 <<< 10
def movdiriMask : BitVec 32 := 1 <<< 27

/-- `is_amd`: the vendor string of leaf 0. -/
def isAmd (cpuid : Cpuid) : Bool :=
  let regs := cpuid 0x0 0
  (regs.ebx ^^^ 0x68747541) ||| (regs.edx ^^^ 0x69746E65) ||| (regs.ecx ^^^ 0x444D4163) = 0

/-- `get_cpu_capabilities`: RDSEED is looked up in ECX, among the others. -/
def getCpuCapabilities (cpuid : Cpuid) (features : CpuFeatures) : CpuFeatures :=
  let regs := cpuid 0x7 0
  { avx512 := features.avx512 || regs.ebx &&& avx512Mask != 0
    avx2 := features.avx2 || regs.ebx &&& avx2Mask != 0
    erms := features.erms || regs.ebx &&& ermsMask != 0
    fsrm := features.fsrm || regs.edx &&& fsrmMask != 0
    movdiri := features.movdiri || regs.ecx &&& movdiriMask != 0
    vpclmul := features.vpclmul || regs.ecx &&& vpclmulqdqMask != 0
    rdpid := features.rdpid || regs.ecx &&& rdpidMask != 0
    rdseed := features.rdseed || regs.ecx &&& rdseedMask != 0 }

/-- Ways, line size and sets of one cache, multiplied as `unsigned int`s. -/
def cacheBytes (regs : CpuidRegisters) : Nat :=
  (((regs.ebx >>> 22 &&& 0x3ff) + 1) * ((regs.ebx &&& 0xfff) + 1) * (regs.ecx + 1)).toNat

def getCacheInfo (cpuid : Cpuid) : CacheInfo where
  l1dPerCore := cacheBytes (cpuid 0x8000001D 0x0)
  l2PerCore := cacheBytes (cpuid 0x8000001D 0x2)
  l3PerCcx := cacheBytes (cpuid 0x8000001D 0x3)

end AoclLibmem.Dispatch
