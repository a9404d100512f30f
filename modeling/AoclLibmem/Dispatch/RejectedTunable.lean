import AoclLibmem.Dispatch.DispatcherChoice

/-! A rejected environment variable changes nothing: two runs of the constructor whose
parsers agree on the active part of the settings leave the same library behind. -/

namespace AoclLibmem.Dispatch

/-- What the constructor decides for the rest of the library. -/
structure Outcome where
  activeOperationCfg : Cfg
  activeThresholdCfg : Cfg
  thresholds : Thresholds
  variant : FuncIndex → Option Impl

def Library.outcome (lib : Library) : Outcome where
  activeOperationCfg := lib.settings.activeOperationCfg
  activeThresholdCfg := lib.settings.activeThresholdCfg
  thresholds := lib.thresholds
  variant := lib.variant

/-- The settings differ at most in parts that no active configuration refers to. -/
structure Agree (one other : Settings) : Prop where
  operation : one.activeOperationCfg = other.activeOperationCfg
  threshold : one.activeThresholdCfg = other.activeThresholdCfg
  chosen : one.activeOperationCfg = .usrCfg →
    one.userConfig.userOperation = other.userConfig.userOperation ∧
      one.userConfig.srcAln = other.userConfig.srcAln ∧ one.userConfig.dstAln = other.userConfig.dstAln
  limits : one.activeThresholdCfg = .usrCfg →
    one.userConfig.userThreshold = other.userConfig.userThreshold

theorem Agree.refl (settings : Settings) : Agree settings settings :=
  ⟨rfl, rfl, fun _ => ⟨rfl, rfl, rfl⟩, fun _ => rfl⟩

section Constructor
variable {one other : Library}

private theorem libmemTunableResolver_congr {one other : Settings} (agree : Agree one other) :
    libmemTunableResolver one = libmemTunableResolver other := by
  unfold libmemTunableResolver
  dsimp only
  rw [← agree.operation, ← agree.threshold]
  by_cases user : one.activeOperationCfg = .usrCfg
  · obtain ⟨flags, src, dst⟩ := agree.chosen user
    rw [if_pos user, if_pos user, flags, src, dst]
  · rw [if_neg user, if_neg user]

structure Alike (one other : Library) : Prop where
  features : one.zenCpuFeatures = other.zenCpuFeatures
  computed : one.zenThresholds = other.zenThresholds
  settings : Agree one.settings other.settings
  thresholds : one.thresholds = other.thresholds
  variant : one.variant = other.variant

theorem installCpu_alike (alike : Alike one other) (idx : CpuVariantIdx) (funcs : List FuncIndex) :
    Alike (one.installCpu idx funcs) (other.installCpu idx funcs) := by
  unfold Library.installCpu
  induction funcs generalizing one other with
  | nil => exact alike
  | cons first funcs ih =>
    refine ih ⟨alike.features, alike.computed, alike.settings, alike.thresholds, ?_⟩
    funext f
    simp only [Library.install, alike.variant]

private theorem dispatcherInit_alike (alike : Alike one other) :
    Alike (dispatcherInit one) (dispatcherInit other) := by
  unfold dispatcherInit
  dsimp only
  rw [installCpu_settings, installCpu_settings, alike.features,
    libmemTunableResolver_congr alike.settings]
  split
  · exact installCpu_alike (installCpu_alike alike _ _) _ _
  · exact installCpu_alike alike _ _

private theorem computeSysThresholds_alike (alike : Alike one other) (cpuid : Cpuid) :
    Alike (computeSysThresholds cpuid one) (computeSysThresholds cpuid other) := by
  refine ⟨alike.features, ?_, alike.settings, alike.thresholds, alike.variant⟩
  simp only [computeSysThresholds, alike.features]

private theorem configureThresholds_alike (alike : Alike one other) :
    Alike (configureThresholds one) (configureThresholds other) := by
  unfold configureThresholds
  rw [← alike.settings.threshold]
  cases active : one.settings.activeThresholdCfg with
  | sysCfg => exact ⟨alike.features, alike.computed, alike.settings, alike.computed, alike.variant⟩
  | usrCfg =>
    refine ⟨alike.features, alike.computed, alike.settings, ?_, alike.variant⟩
    simp only [alike.settings.limits active, alike.thresholds]
  | unkCfg => exact alike
  | chkCfg => exact alike

theorem Alike.outcome (alike : Alike one other) : one.outcome = other.outcome := by
  unfold Library.outcome
  rw [alike.settings.operation, alike.settings.threshold, alike.thresholds, alike.variant]

/-- The constructor's outcome depends on the environment through the settings only, and on
these through what is active. -/
private theorem libmemInit_outcome_congr (cpuid : Cpuid) {env env' : Environment} {lib : Library}
    (agree : Agree (parseEnv env lib.settings) (parseEnv env' lib.settings)) :
    (libmemInit cpuid env lib).outcome = (libmemInit cpuid env' lib).outcome := by
  refine Alike.outcome (dispatcherInit_alike ?_)
  split
  · have parsed : Alike
        { lib with
          zenCpuFeatures := getCpuCapabilities cpuid lib.zenCpuFeatures
          settings := parseEnv env lib.settings }
        { lib with
          zenCpuFeatures := getCpuCapabilities cpuid lib.zenCpuFeatures
          settings := parseEnv env' lib.settings } := ⟨rfl, rfl, agree, rfl, rfl⟩
    dsimp only
    rw [← agree.operation, ← agree.threshold]
    refine configureThresholds_alike ?_
    split
    · exact computeSysThresholds_alike parsed cpuid
    · exact parsed
  · exact ⟨rfl, rfl, .refl _, rfl, rfl⟩

end Constructor

section Parsers
variable {env : Environment} {settings : Settings}

theorem parseEnvOperationCfg_userThreshold :
    (parseEnvOperationCfg env settings).userConfig.userThreshold =
      settings.userConfig.userThreshold := by
  unfold parseEnvOperationCfg
  repeat' split
  all_goals rfl

/-- The threshold parser reads of the settings only what it writes. -/
private theorem parseEnvThresholdCfg_congr (env : Environment) (one other : Settings)
    (limits : one.userConfig.userThreshold = other.userConfig.userThreshold)
    (active : one.activeThresholdCfg = other.activeThresholdCfg) :
    (parseEnvThresholdCfg env one).userConfig.userThreshold =
        (parseEnvThresholdCfg env other).userConfig.userThreshold ∧
      (parseEnvThresholdCfg env one).activeThresholdCfg =
        (parseEnvThresholdCfg env other).activeThresholdCfg := by
  unfold parseEnvThresholdCfg
  dsimp only
  rw [limits]
  split
  · exact ⟨limits, active⟩
  split
  · exact ⟨limits, active⟩
  split
  · exact ⟨rfl, active⟩
  split
  · exact ⟨rfl, active⟩
  split
  · exact ⟨rfl, active⟩
  · exact ⟨rfl, rfl⟩

/-- An operation that is not activated leaves no trace in the settings that are read. -/
private theorem parseEnv_operation_rejected (idle : settings.activeOperationCfg = .sysCfg)
    (rejected : (parseEnvOperationCfg env settings).activeOperationCfg ≠ .usrCfg) :
    Agree (parseEnv env settings) (parseEnv { env with libmemOperation := none } settings) := by
  have refused : ¬ OperationAccepted env := fun accepted =>
    rejected (parseEnvOperationCfg_accepts settings accepted).1
  have stays := (parseEnvOperationCfg_rejects settings refused).trans idle
  have unset : parseEnvOperationCfg { env with libmemOperation := none } settings = settings := rfl
  have limits := parseEnvThresholdCfg_congr env (parseEnvOperationCfg env settings) settings
    parseEnvOperationCfg_userThreshold parseEnvOperationCfg_threshold
  unfold parseEnv
  dsimp only
  rw [if_pos stays, unset, if_pos idle]
  have operation : (parseEnvThresholdCfg env (parseEnvOperationCfg env settings)).activeOperationCfg =
      .sysCfg := parseEnvThresholdCfg_operation.trans stays
  refine ⟨?_, limits.2, fun user => ?_, fun _ => limits.1⟩
  · rw [operation, parseEnvThresholdCfg_operation, idle]
  · rw [operation] at user
    cases user

/-- Nor does an incomplete list of thresholds. -/
private theorem parseEnv_threshold_rejected (untouched : settings.activeThresholdCfg = .sysCfg)
    (rejected : ¬ ThresholdAccepted env) :
    Agree (parseEnv env settings) (parseEnv { env with libmemThreshold := none } settings) := by
  have unset : parseEnv { env with libmemThreshold := none } settings =
      parseEnvOperationCfg env settings := ite_self _
  rw [unset]
  unfold parseEnv
  dsimp only
  split
  · next stays =>
    have threshold : (parseEnvThresholdCfg env (parseEnvOperationCfg env settings)).activeThresholdCfg =
        .sysCfg := by
      rw [parseEnvThresholdCfg_rejects rejected, parseEnvOperationCfg_threshold, untouched]
    refine ⟨parseEnvThresholdCfg_operation, ?_, fun user => ?_, fun user => ?_⟩
    · rw [threshold, parseEnvOperationCfg_threshold, untouched]
    · rw [parseEnvThresholdCfg_operation, stays] at user
      cases user
    · rw [threshold] at user
      cases user
  · exact .refl _

end Parsers

/-- Whatever the processor and the other variable: an operation that is not activated, and a
list of less than four thresholds, leave the outcome as if the variable were unset. -/
theorem libmemInit_rejected (cpuid : Cpuid) (env : Environment) :
    ((parseEnvOperationCfg env Library.initial.settings).activeOperationCfg ≠ .usrCfg →
      (libmemInit cpuid env .initial).outcome =
        (libmemInit cpuid { env with libmemOperation := none } .initial).outcome) ∧
    (thresholdTokens env = none →
      (libmemInit cpuid env .initial).outcome =
        (libmemInit cpuid { env with libmemThreshold := none } .initial).outcome) := by
  refine ⟨fun rejected => ?_, fun missing => ?_⟩
  · exact libmemInit_outcome_congr cpuid (parseEnv_operation_rejected rfl rejected)
  · refine libmemInit_outcome_congr cpuid (parseEnv_threshold_rejected rfl ?_)
    rw [ThresholdAccepted, missing]
    exact Bool.false_ne_true

/-- `LIBMEM_OPERATION=avx512,n` and `LIBMEM_THRESHOLD=1,2`, both incomplete. -/
def incompleteEnv : Environment where
  libmemOperation := some ⟨[97, 118, 120, 53, 49, 50, 44, 110], by decide⟩
  libmemThreshold := some ⟨[49, 44, 50], by decide⟩
  beyond := fun _ => 0

theorem libmemInit_rejected_incomplete :
    (libmemInit zen4Cpuid incompleteEnv .initial).outcome =
        (libmemInit zen4Cpuid { incompleteEnv with libmemOperation := none } .initial).outcome ∧
      (libmemInit zen4Cpuid incompleteEnv .initial).outcome =
        (libmemInit zen4Cpuid { incompleteEnv with libmemThreshold := none } .initial).outcome :=
  ⟨(libmemInit_rejected zen4Cpuid incompleteEnv).1 (by decide),
    (libmemInit_rejected zen4Cpuid incompleteEnv).2 (by decide)⟩

end AoclLibmem.Dispatch
