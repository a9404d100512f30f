import AoclLibmem.Dispatch.Detectors
import AoclLibmem.Dispatch.RejectedTunable

/-! The numbers that are in force once the constructor has run, and the numbers that the build's
detection tool takes them to be. -/

namespace AoclLibmem.Dispatch

section Dispatcher
variable {lib : Library} {idx : CpuVariantIdx} {funcs : List FuncIndex}

def Library.numbers (lib : Library) : Thresholds × CacheInfo := (lib.thresholds, lib.zenCacheInfo)

theorem installCpu_numbers : (lib.installCpu idx funcs).numbers = lib.numbers := by
  unfold Library.installCpu
  induction funcs generalizing lib with
  | nil => rfl
  | cons first funcs ih => exact ih

private theorem dispatcherInit_numbers : (dispatcherInit lib).numbers = lib.numbers := by
  unfold dispatcherInit
  dsimp only
  split
  · rw [installCpu_numbers, installCpu_numbers]
  · rw [installCpu_numbers]

end Dispatcher

section Parsers
variable {env : Environment} {settings : Settings}

/-- `LIBMEM_THRESHOLD` as it is stored when it has all its tokens. -/
def userThresholds (env : Environment) : Option (Nat × Nat × Nat × Nat) :=
  (thresholdTokens env).map fun (repmovStart, repmovStop, ntStart, ntStop) =>
    (strtoull repmovStart 10, strtoull repmovStop 10, strtoull ntStart 0, strtoull ntStop 0)

private theorem thresholdAccepted_iff : ThresholdAccepted env ↔ userThresholds env ≠ none := by
  rw [ThresholdAccepted, userThresholds, ← Option.isSome_iff_ne_none, Option.isSome_map]

private theorem parseEnvThresholdCfg_stores {repmovStart repmovStop ntStart ntStop : Nat}
    (given : userThresholds env = some (repmovStart, repmovStop, ntStart, ntStop)) :
    (parseEnvThresholdCfg env settings).userConfig.userThreshold =
      { settings.userConfig.userThreshold with
        repmovStartThreshold := repmovStart
        repmovStopThreshold := repmovStop
        ntStartThreshold := ntStart
        ntStopThreshold := ntStop } := by
  simp only [userThresholds, thresholdTokens, Option.map_eq_some_iff, Option.bind_eq_bind,
    Option.bind_eq_some_iff, Option.pure_def, Option.some.injEq, Prod.mk.injEq, Prod.exists] at given
  obtain ⟨a, b, c, d, tokens, rfl, rfl, rfl, rfl⟩ := given
  obtain ⟨value, set, _, _, first, _, _, second, _, _, third, _, _, fourth, rfl, rfl, rfl, rfl⟩ := tokens
  simp only [parseEnvThresholdCfg, set, first, second, third, fourth]

/-- What `libmem_init` finds in the environment, from inactive configurations. -/
private theorem parseEnv_accepts_operation (settings : Settings) (accepted : OperationAccepted env)
    (untouched : settings.activeThresholdCfg = .sysCfg) :
    (parseEnv env settings).activeOperationCfg = .usrCfg ∧
      (parseEnv env settings).activeThresholdCfg = .sysCfg := by
  have active := (parseEnvOperationCfg_accepts settings accepted).1
  have same : parseEnv env settings = parseEnvOperationCfg env settings := by
    simp [parseEnv, active]
  exact ⟨same ▸ active, same ▸ parseEnvOperationCfg_threshold.trans untouched⟩

private theorem parseEnv_rejects_operation (settings : Settings)
    (rejected : ¬ OperationAccepted env) (idle : settings.activeOperationCfg = .sysCfg) :
    parseEnv env settings = parseEnvThresholdCfg env (parseEnvOperationCfg env settings) ∧
      (parseEnv env settings).activeOperationCfg = .sysCfg := by
  have idle' := (parseEnvOperationCfg_rejects settings rejected).trans idle
  have same : parseEnv env settings = parseEnvThresholdCfg env (parseEnvOperationCfg env settings) :=
    if_pos idle'
  exact ⟨same, by rw [same, parseEnvThresholdCfg_operation, idle']⟩

end Parsers

section Constructor
variable {cpuid : Cpuid} {env : Environment}

/-- What `compute_sys_thresholds` computes for an AMD processor. -/
def systemThresholds (cpuid : Cpuid) : Thresholds :=
  (computeSysThresholds cpuid { Library.initial with zenCpuFeatures := detected cpuid }).zenThresholds

def parsedLibrary (cpuid : Cpuid) (env : Environment) : Library :=
  { Library.initial with
    zenCpuFeatures := detected cpuid
    settings := parseEnv env Library.initial.settings }

theorem libmemInit_amd (amd : isAmd cpuid = true) :
    (libmemInit cpuid env .initial).numbers = (configureThresholds
      (if (parsedLibrary cpuid env).settings.activeOperationCfg = .sysCfg ∧
          (parsedLibrary cpuid env).settings.activeThresholdCfg = .sysCfg then
        computeSysThresholds cpuid (parsedLibrary cpuid env)
      else parsedLibrary cpuid env)).numbers := by
  unfold libmemInit
  dsimp only
  rw [dispatcherInit_numbers, if_pos amd]
  rfl

/-- Another maker's processor keeps what the image was made with. -/
theorem numbers_of_other (other : isAmd cpuid = false) :
    (libmemInit cpuid env .initial).numbers = (Library.initial.thresholds, ⟨0, 0, 0⟩) := by
  unfold libmemInit
  dsimp only
  rw [dispatcherInit_numbers, if_neg (by simp [other])]
  rfl

/-- A chosen operation leaves every threshold and every cache size zero. -/
theorem numbers_of_operation (amd : isAmd cpuid = true) (accepted : OperationAccepted env) :
    (libmemInit cpuid env .initial).numbers = (⟨0, 0, 0, 0, 0, 0⟩, ⟨0, 0, 0⟩) := by
  obtain ⟨operation, threshold⟩ := parseEnv_accepts_operation Library.initial.settings accepted rfl
  have idle : (parsedLibrary cpuid env).settings.activeThresholdCfg = .sysCfg := threshold
  rw [libmemInit_amd amd, if_neg fun both => by rw [parsedLibrary, operation] at both; simp at both]
  simp only [configureThresholds, idle, Library.numbers]
  rfl

/-- Chosen thresholds replace the initial ones, all but those for stores, and the caches are not looked
at. -/
theorem numbers_of_thresholds (amd : isAmd cpuid = true) (rejected : ¬ OperationAccepted env)
    {repmovStart repmovStop ntStart ntStop : Nat}
    (given : userThresholds env = some (repmovStart, repmovStop, ntStart, ntStop)) :
    (libmemInit cpuid env .initial).numbers =
      (⟨repmovStart, repmovStop, 0xffffffff, 0xffffffff, ntStart, ntStop⟩, ⟨0, 0, 0⟩) := by
  obtain ⟨same, operation⟩ := parseEnv_rejects_operation Library.initial.settings rejected rfl
  have active : (parsedLibrary cpuid env).settings.activeThresholdCfg = .usrCfg := by
    rw [parsedLibrary, same]
    exact parseEnvThresholdCfg_accepts (thresholdAccepted_iff.mpr (by simp [given]))
  have stored : (parsedLibrary cpuid env).settings.userConfig.userThreshold =
      ⟨repmovStart, repmovStop, 0, 0, ntStart, ntStop⟩ := by
    rw [parsedLibrary, same, parseEnvThresholdCfg_stores given, parseEnvOperationCfg_userThreshold]
    rfl
  rw [libmemInit_amd amd, if_neg fun both => by rw [active] at both; exact absurd both.2 (by decide)]
  simp only [configureThresholds, active, stored, Library.numbers]
  rfl

/-- Only without a choice is anything computed. -/
theorem numbers_of_none (amd : isAmd cpuid = true) (rejected : ¬ OperationAccepted env)
    (none : userThresholds env = none) :
    (libmemInit cpuid env .initial).numbers = (systemThresholds cpuid, getCacheInfo cpuid) := by
  obtain ⟨same, operation⟩ := parseEnv_rejects_operation Library.initial.settings rejected rfl
  have idle : (parsedLibrary cpuid env).settings.activeThresholdCfg = .sysCfg := by
    rw [parsedLibrary, same, parseEnvThresholdCfg_rejects fun accepted =>
      thresholdAccepted_iff.mp accepted none, parseEnvOperationCfg_threshold]
    rfl
  have computed : (computeSysThresholds cpuid (parsedLibrary cpuid env)).settings.activeThresholdCfg =
      .sysCfg := idle
  rw [libmemInit_amd amd, if_pos ⟨operation, idle⟩]
  simp only [configureThresholds, computed, Library.numbers]
  rfl

/-- All that can be in force once the constructor has run. -/
theorem libmemInit_numbers (cpuid : Cpuid) (env : Environment) :
    (isAmd cpuid = false →
      (libmemInit cpuid env .initial).numbers = (Library.initial.thresholds, ⟨0, 0, 0⟩)) ∧
    (isAmd cpuid = true → OperationAccepted env →
      (libmemInit cpuid env .initial).numbers = (⟨0, 0, 0, 0, 0, 0⟩, ⟨0, 0, 0⟩)) ∧
    (isAmd cpuid = true → ¬ OperationAccepted env → ∀ repmovStart repmovStop ntStart ntStop,
      userThresholds env = some (repmovStart, repmovStop, ntStart, ntStop) →
        (libmemInit cpuid env .initial).numbers =
          (⟨repmovStart, repmovStop, 0xffffffff, 0xffffffff, ntStart, ntStop⟩, ⟨0, 0, 0⟩)) ∧
    (isAmd cpuid = true → ¬ OperationAccepted env → userThresholds env = none →
      (libmemInit cpuid env .initial).numbers = (systemThresholds cpuid, getCacheInfo cpuid)) :=
  ⟨numbers_of_other, numbers_of_operation, fun amd rejected _ _ _ _ given =>
    numbers_of_thresholds amd rejected given, numbers_of_none⟩

end Constructor

section Tool
variable {cpuid : Cpuid} {env : Environment}

end Tool

end AoclLibmem.Dispatch
