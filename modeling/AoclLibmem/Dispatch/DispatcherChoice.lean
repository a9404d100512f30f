import AoclLibmem.Dispatch.Dispatcher

/-! Whether the dispatched pointers follow the user's choice: what the tables hold, what
the parsers activate, and what the constructor leaves in the pointers. -/

namespace AoclLibmem.Dispatch

section Tables

/-- The implementations that an index of the CPU table stands for. -/
def CpuVariantIdx.suffix : CpuVariantIdx → Suffix
  | .archZen1 => .zen1
  | .archZen2 => .zen2
  | .archZen3 => .zen3
  | .archZen4 => .zen4
  | .archZen5 => .zen5
  | .system => .system

/-- The implementations that an index of the tunable table stands for. -/
def TunableVariantIdx.suffix? : TunableVariantIdx → Option Suffix
  | .avx2Unaligned => some .avx2Unaligned
  | .avx2Aligned => some .avx2Aligned
  | .avx2AlignedLoad => some .avx2AlignedLoad
  | .avx2AlignedStore => some .avx2AlignedStore
  | .avx2NonTemporal => some .avx2Nt
  | .avx2NonTemporalLoad => some .avx2NtLoad
  | .avx2NonTemporalStore => some .avx2NtStore
  | .avx512Unaligned => some .avx512Unaligned
  | .avx512Aligned => some .avx512Aligned
  | .avx512AlignedLoad => some .avx512AlignedLoad
  | .avx512AlignedStore => some .avx512AlignedStore
  | .avx512NonTemporal => some .avx512Nt
  | .avx512NonTemporalLoad => some .avx512NtLoad
  | .avx512NonTemporalStore => some .avx512NtStore
  | .ermsMovsb => some .ermsBAligned
  | .ermsMovsw => some .ermsWAligned
  | .ermsMovsd => some .ermsDAligned
  | .ermsMovsq => some .ermsQAligned
  | .threshold => some .threshold
  | .tunVariantCount => none
  | .unknown => none

/-- The functions up to `MEMCMP`. -/
def tunableFuncs : List FuncIndex := [.memcpy, .mempcpy, .memmove, .memset, .memcmp]

/-- Every entry of the CPU table is the function its two indices name. -/
theorem cpuImpl_eq (f : FuncIndex) (idx : CpuVariantIdx) : cpuImpl f idx = some ⟨f, idx.suffix⟩ := by
  have row : libmemCpuImpls[f.ctorIdx]? = some (addCpuFuncVariants f) := by cases f <;> rfl
  rw [cpuImpl, entryAt, row, Option.bind_some]
  cases idx <;> rfl

/-- So is every entry of the tunable table, in its five rows. -/
theorem tunImpl_eq {f : FuncIndex} (tunable : f ∈ tunableFuncs) (idx : TunableVariantIdx) :
    tunImpl f idx = idx.suffix?.map (Impl.mk f) := by
  have row : libmemTunImpls[f.ctorIdx]? = some (addTunFuncVariants f) := by
    simp only [tunableFuncs, List.mem_cons, List.not_mem_nil, or_false] at tunable
    rcases tunable with rfl | rfl | rfl | rfl | rfl <;> rfl
  rw [tunImpl, entryAt, row, Option.bind_some]
  cases idx <;> rfl

private theorem suffix_apart (idx : TunableVariantIdx) (cpu : CpuVariantIdx) :
    idx.suffix? ≠ some cpu.suffix := by
  cases idx <;> cases cpu <;> exact of_decide_eq_true rfl

/-- The two tables have no function in common. -/
theorem tunImpl_ne_cpuImpl {f : FuncIndex} (tunable : f ∈ tunableFuncs) (idx : TunableVariantIdx)
    (cpu : CpuVariantIdx) : tunImpl f idx ≠ cpuImpl f cpu := by
  rw [tunImpl_eq tunable, cpuImpl_eq]
  cases named : idx.suffix? with
  | none => exact nofun
  | some suffix =>
    intro same
    refine suffix_apart idx cpu (named.trans ?_)
    exact congrArg some (congrArg Impl.suffix (Option.some.inj same))

end Tables

section Install
variable {lib : Library} {idx : CpuVariantIdx} {funcs : List FuncIndex} {f : FuncIndex}

theorem installCpu_variant : (lib.installCpu idx funcs).variant f =
    if f ∈ funcs then cpuImpl f idx else lib.variant f := by
  unfold Library.installCpu
  induction funcs generalizing lib with
  | nil => simp
  | cons first funcs ih =>
    rw [List.foldl_cons, ih]
    by_cases later : f ∈ funcs
    · simp [later]
    · by_cases now : f = first <;> simp [later, now, Library.install]

theorem installCpu_settings : (lib.installCpu idx funcs).settings = lib.settings := by
  unfold Library.installCpu
  induction funcs generalizing lib with
  | nil => rfl
  | cons first funcs ih => exact ih

theorem installCpu_features : (lib.installCpu idx funcs).zenCpuFeatures = lib.zenCpuFeatures := by
  unfold Library.installCpu
  induction funcs generalizing lib with
  | nil => rfl
  | cons first funcs ih => exact ih

end Install

section Dispatcher
variable {lib : Library}

structure FollowsChoice (lib : Library) : Prop where
  tuned : libmemTunableResolver lib.settings ≠ .unknown → ∀ f, lib.variant f =
    if f ∈ tunableFuncs then tunImpl f (libmemTunableResolver lib.settings)
    else cpuImpl f (libmemCpuResolver lib.zenCpuFeatures)
  untuned : libmemTunableResolver lib.settings = .unknown →
    ∀ f, lib.variant f = cpuImpl f (libmemCpuResolver lib.zenCpuFeatures)

private theorem dispatcherInit_settings : (dispatcherInit lib).settings = lib.settings := by
  unfold dispatcherInit
  dsimp only
  split
  · rw [installCpu_settings, installCpu_settings]
  · rw [installCpu_settings]

theorem dispatcherInit_features : (dispatcherInit lib).zenCpuFeatures = lib.zenCpuFeatures := by
  unfold dispatcherInit
  dsimp only
  split
  · rw [installCpu_features, installCpu_features]
  · rw [installCpu_features]

/-- Whatever the tunable resolver says, every pointer comes from the CPU table. -/
theorem dispatcherInit_variant (f : FuncIndex) :
    (dispatcherInit lib).variant f = cpuImpl f (libmemCpuResolver lib.zenCpuFeatures) := by
  have all : f ∈ [FuncIndex.memcpy, .mempcpy, .memmove, .memset, .memcmp, .memchr, .strcpy, .strncpy,
      .strcmp, .strncmp, .strcat, .strncat, .strstr, .strlen, .strnlen, .strchr, .strspn] := by
    cases f <;> decide
  unfold dispatcherInit
  dsimp only
  split
  · rw [installCpu_variant, installCpu_variant, if_pos all, ite_self]
  · rw [installCpu_variant, if_pos all]

private theorem dispatcherInit_follows_iff :
    FollowsChoice (dispatcherInit lib) ↔ libmemTunableResolver lib.settings = .unknown := by
  constructor
  · intro follows
    by_contra tuned
    have chosen := follows.tuned (by rwa [dispatcherInit_settings]) .memcpy
    rw [if_pos (by decide), dispatcherInit_variant] at chosen
    exact tunImpl_ne_cpuImpl (by decide) _ _ chosen.symm
  · intro unknown
    refine ⟨fun tuned => absurd unknown ?_, fun _ f => ?_⟩
    · rwa [dispatcherInit_settings] at tuned
    · rw [dispatcherInit_variant, dispatcherInit_features]

end Dispatcher

section Resolver
variable {settings : Settings}

private theorem vectorVariant_ne {idx a b c d e f g : TunableVariantIdx} {src dst : Alignment}
    (others : ∀ choice ∈ [a, b, c, d, e, f, g], choice ≠ idx) :
    vectorVariant a b c d e f g src dst ≠ idx := by
  unfold vectorVariant
  refine others _ ?_
  simp only [List.mem_cons]
  split_ifs <;> simp

private theorem ermsVariant_ne {src dst : Alignment} : ermsVariant src dst ≠ .unknown := by
  unfold ermsVariant
  split_ifs <;> decide

def CpuOperation.Some (operation : CpuOperation) : Prop :=
  operation.avx2 = true ∨ operation.avx512 = true ∨ operation.erms = true

private theorem libmemTunableResolver_unknown_iff :
    libmemTunableResolver settings = .unknown ↔
      if settings.activeOperationCfg = .usrCfg then ¬ settings.userConfig.userOperation.Some
      else settings.activeThresholdCfg ≠ .usrCfg := by
  unfold libmemTunableResolver CpuOperation.Some
  dsimp only
  by_cases user : settings.activeOperationCfg = .usrCfg
  · rw [if_pos user, if_pos user]
    split
    · next avx2 => simp [avx2, vectorVariant_ne]
    split
    · next avx512 => simp [avx512, vectorVariant_ne]
    split
    · next erms => simp [erms, ermsVariant_ne]
    · simp_all
  · rw [if_neg user, if_neg user]
    split
    · next active => simp [active]
    · next idle => simp [idle]

end Resolver

section Parser
variable {env : Environment} {settings : Settings}

/-- The tokens of `LIBMEM_OPERATION`, when there are three. -/
def operationTokens (env : Environment) : Option (List UInt8 × List UInt8 × List UInt8) := do
  let value ← env.libmemOperation
  let (operation, rest) ← strtok comma value.chars
  let (src, rest) ← strtok comma rest
  let (dst, _) ← strtok colon rest
  return (operation, src, dst)

/-- `string_compare` takes the token for one of the three operations. -/
def NamesOperation (beyond : List UInt8 → UInt8) (token : List UInt8) : Prop :=
  ∃ name ∈ [avx512Name, avx2Name, ermsName], stringCompare beyond token name = 0

def OperationAccepted (env : Environment) : Prop :=
  ∃ operation src dst, operationTokens env = some (operation, src, dst) ∧
    NamesOperation env.beyond operation

/-- The tokens of `LIBMEM_THRESHOLD`, when there are four. -/
def thresholdTokens (env : Environment) :
    Option (List UInt8 × List UInt8 × List UInt8 × List UInt8) := do
  let value ← env.libmemThreshold
  let (repmovStart, rest) ← strtok comma value.chars
  let (repmovStop, rest) ← strtok comma rest
  let (ntStart, rest) ← strtok comma rest
  let (ntStop, _) ← strtok colon rest
  return (repmovStart, repmovStop, ntStart, ntStop)

def ThresholdAccepted (env : Environment) : Prop := (thresholdTokens env).isSome

private theorem operationOf_isSome {beyond : List UInt8 → UInt8} {token : List UInt8}
    (before : CpuOperation) :
    (operationOf beyond token before).isSome ↔ NamesOperation beyond token := by
  simp only [NamesOperation, List.mem_cons, List.not_mem_nil, or_false, exists_eq_or_imp,
    exists_eq_left]
  unfold operationOf
  split_ifs <;> simp [*]

private theorem operationOf_some {beyond : List UInt8 → UInt8} {token : List UInt8}
    {before after : CpuOperation} (named : operationOf beyond token before = some after) :
    after.Some := by
  unfold operationOf at named
  split_ifs at named <;> cases named
  · exact .inr (.inl rfl)
  · exact .inl rfl
  · exact .inr (.inr rfl)

theorem parseEnvOperationCfg_threshold :
    (parseEnvOperationCfg env settings).activeThresholdCfg = settings.activeThresholdCfg := by
  unfold parseEnvOperationCfg
  repeat' split
  all_goals rfl

/-- An accepted value activates the user's operation, and only that does. -/
theorem parseEnvOperationCfg_accepts (settings : Settings) (accepted : OperationAccepted env) :
    (parseEnvOperationCfg env settings).activeOperationCfg = .usrCfg ∧
      (parseEnvOperationCfg env settings).userConfig.userOperation.Some := by
  obtain ⟨operation, src, dst, tokens, named⟩ := accepted
  simp only [operationTokens, Option.bind_eq_bind, Option.bind_eq_some_iff, Option.pure_def,
    Option.some.injEq, Prod.mk.injEq, Prod.exists] at tokens
  obtain ⟨value, set, _, _, first, _, _, second, _, _, third, rfl, rfl, rfl⟩ := tokens
  obtain ⟨after, flags⟩ := Option.isSome_iff_exists.mp
    ((operationOf_isSome settings.userConfig.userOperation).mpr named)
  simp only [parseEnvOperationCfg, set, first, flags, second, third, true_and]
  exact operationOf_some flags

theorem parseEnvOperationCfg_rejects (settings : Settings) (rejected : ¬ OperationAccepted env) :
    (parseEnvOperationCfg env settings).activeOperationCfg = settings.activeOperationCfg := by
  unfold parseEnvOperationCfg
  split
  · rfl
  next value set =>
  split
  · rfl
  next operation _ first =>
  split
  · rfl
  next after flags =>
  dsimp only
  split
  · rfl
  next src _ second =>
  split
  · rfl
  next dst _ third =>
  have named := (operationOf_isSome _).mp (Option.isSome_iff_exists.mpr ⟨after, flags⟩)
  have tokens : operationTokens env = some (operation, src, dst) := by
    simp [operationTokens, set, first, second, third]
  exact absurd ⟨operation, src, dst, tokens, named⟩ rejected

theorem parseEnvThresholdCfg_operation :
    (parseEnvThresholdCfg env settings).activeOperationCfg = settings.activeOperationCfg := by
  unfold parseEnvThresholdCfg
  dsimp only
  repeat' split
  all_goals rfl

theorem parseEnvThresholdCfg_accepts (accepted : ThresholdAccepted env) :
    (parseEnvThresholdCfg env settings).activeThresholdCfg = .usrCfg := by
  obtain ⟨⟨repmovStart, repmovStop, ntStart, ntStop⟩, tokens⟩ := Option.isSome_iff_exists.mp accepted
  simp only [thresholdTokens, Option.bind_eq_bind, Option.bind_eq_some_iff, Option.pure_def,
    Option.some.injEq, Prod.mk.injEq, Prod.exists] at tokens
  obtain ⟨value, set, _, _, first, _, _, second, _, _, third, _, _, fourth, _⟩ := tokens
  simp only [parseEnvThresholdCfg, set, first, second, third, fourth]

theorem parseEnvThresholdCfg_rejects (rejected : ¬ ThresholdAccepted env) :
    (parseEnvThresholdCfg env settings).activeThresholdCfg = settings.activeThresholdCfg := by
  unfold parseEnvThresholdCfg
  dsimp only
  split
  · rfl
  next value set =>
  split
  · rfl
  next repmovStart _ first =>
  split
  · rfl
  next repmovStop _ second =>
  split
  · rfl
  next ntStart _ third =>
  split
  · rfl
  next ntStop _ fourth =>
  have tokens : thresholdTokens env = some (repmovStart, repmovStop, ntStart, ntStop) := by
    simp [thresholdTokens, set, first, second, third, fourth]
  exact absurd (Option.isSome_iff_exists.mpr ⟨_, tokens⟩) rejected

/-- From inactive configurations the parsers reach a tunable variant exactly when they
accept one of the two variables. -/
private theorem parseEnv_unknown_iff (operation : settings.activeOperationCfg = .sysCfg)
    (threshold : settings.activeThresholdCfg = .sysCfg) :
    libmemTunableResolver (parseEnv env settings) = .unknown ↔
      ¬ OperationAccepted env ∧ ¬ ThresholdAccepted env := by
  rw [libmemTunableResolver_unknown_iff]
  unfold parseEnv
  dsimp only
  by_cases accepted : OperationAccepted env
  · obtain ⟨active, flags⟩ := parseEnvOperationCfg_accepts settings accepted
    simp [active, flags, accepted]
  · have idle := (parseEnvOperationCfg_rejects settings accepted).trans operation
    rw [if_pos idle, parseEnvThresholdCfg_operation, idle, if_neg (by decide)]
    by_cases tuned : ThresholdAccepted env
    · simp [parseEnvThresholdCfg_accepts tuned, tuned]
    · simp [parseEnvThresholdCfg_rejects tuned, parseEnvOperationCfg_threshold, threshold, tuned,
        accepted]

end Parser

section Constructor

private theorem configureThresholds_settings (lib : Library) :
    (configureThresholds lib).settings = lib.settings := by
  unfold configureThresholds
  split <;> rfl

/-- The pointers follow the user's choice exactly when there is none: on another maker's
processor, or with both variables rejected. -/
theorem libmemInit_follows_iff (cpuid : Cpuid) (env : Environment) :
    FollowsChoice (libmemInit cpuid env .initial) ↔
      ¬ (isAmd cpuid = true ∧ (OperationAccepted env ∨ ThresholdAccepted env)) := by
  unfold libmemInit
  dsimp only
  rw [dispatcherInit_follows_iff]
  by_cases amd : isAmd cpuid = true
  · rw [if_pos amd, configureThresholds_settings]
    have settings {condition : Prop} [Decidable condition] (lib : Library) :
        (if condition then computeSysThresholds cpuid lib else lib).settings = lib.settings := by
      split <;> rfl
    rw [settings, parseEnv_unknown_iff rfl rfl]
    simp [amd]
  · rw [if_neg amd]
    exact iff_of_true rfl fun both => amd both.1

def zen4Cpuid : Cpuid := fun leaf _ =>
  if leaf = 0x0 then ⟨0x68747541, 0x444D4163, 0x69746E65⟩
  else if leaf = 0x7 then ⟨avx512Mask ||| avx2Mask ||| ermsMask, vpclmulqdqMask ||| rdpidMask, fsrmMask⟩
  else ⟨0, 0, 0⟩

def avx2AlignedStoreEnv : Environment where
  libmemOperation := some ⟨[97, 118, 120, 50, 44, 98, 44, 121], by decide⟩
  libmemThreshold := none
  beyond := fun _ => 0

/-- The resolver asks for `__memcpy_avx2_aligned_store`, and `__memcpy_zen4` stays. -/
theorem libmemInit_ignores_avx2_aligned_store :
    ¬ FollowsChoice (libmemInit zen4Cpuid avx2AlignedStoreEnv .initial) := by
  intro follows
  have chosen := follows.tuned (by decide +kernel) .memcpy
  exact absurd chosen (by decide +kernel)

end Constructor

end AoclLibmem.Dispatch
