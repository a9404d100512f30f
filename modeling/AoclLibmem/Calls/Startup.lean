import AoclLibmem.Calls.Entries
import AoclLibmem.Dispatch.Detectors

/-! Calls while the constructor is at work, in every kind of build: it writes features, thresholds
and, where there are any, function pointers one after another, and a call that comes in between finds
any of the states it leaves. -/

namespace AoclLibmem.Calls

open Base Machine Dispatch Strings

section Constructor

/-- `_<func>_variant = libmem_cpu_impls[<FUNC>][cpu_var_idx]`. -/
def assignVariant (f : FuncIndex) (lib : Library) : Library :=
  lib.install f (cpuImpl f (libmemCpuResolver lib.zenCpuFeatures))

/-- The same among the assignments for a valid tunable configuration. -/
def assignTunedVariant (f : FuncIndex) (lib : Library) : Library :=
  if libmemTunableResolver lib.settings ≠ .unknown then assignVariant f lib else lib

/-- There is a choice in the environment neither for the operation nor for the thresholds. -/
def Untuned (lib : Library) : Prop :=
  lib.settings.activeOperationCfg = .sysCfg ∧ lib.settings.activeThresholdCfg = .sysCfg

instance (lib : Library) : Decidable (Untuned lib) := inferInstanceAs (Decidable (_ ∧ _))

/-- `get_cache_info` stores one size after the other, and `compute_sys_thresholds` goes on from there
with numbers that no other function reads. -/
def cacheWrites (cpuid : Cpuid) : List (Library → Library) :=
  [fun lib => { lib with zenCacheInfo.l1dPerCore := cacheBytes (cpuid 0x8000001D 0x0) },
    fun lib => { lib with zenCacheInfo.l2PerCore := cacheBytes (cpuid 0x8000001D 0x2) },
    fun lib => { lib with zenCacheInfo.l3PerCcx := cacheBytes (cpuid 0x8000001D 0x3) },
    computeSysThresholds cpuid]

/-- One assignment of `configure_thresholds`; those for stores have no counterpart by the user. -/
def assignThreshold (assign : Thresholds → Thresholds → Thresholds) (byUser : Bool) (lib : Library) :
    Library :=
  match lib.settings.activeThresholdCfg with
  | .sysCfg => { lib with thresholds := assign lib.zenThresholds lib.thresholds }
  | .usrCfg =>
    if byUser then
      { lib with thresholds := assign lib.settings.userConfig.userThreshold lib.thresholds }
    else lib
  | _ => lib

def thresholdWrites : List (Library → Library) :=
  [assignThreshold (fun source t => { t with repmovStartThreshold := source.repmovStartThreshold }) true,
    assignThreshold (fun source t => { t with repmovStopThreshold := source.repmovStopThreshold }) true,
    assignThreshold (fun source t => { t with repstoreStartThreshold := source.repstoreStartThreshold })
      false,
    assignThreshold (fun source t => { t with repstoreStopThreshold := source.repstoreStopThreshold })
      false,
    assignThreshold (fun source t => { t with ntStartThreshold := source.ntStartThreshold }) true,
    assignThreshold (fun source t => { t with ntStopThreshold := source.ntStopThreshold }) true]

/-- What the constructor writes on an AMD processor before it dispatches, each number that a function
of the library reads by itself. -/
def configurationWrites (cpuid : Cpuid) (parse : Settings → Settings) : List (Library → Library) :=
  [fun lib => { lib with zenCpuFeatures := getCpuCapabilities cpuid lib.zenCpuFeatures },
      fun lib => { lib with settings := parse lib.settings }] ++
    (cacheWrites cpuid).map (fun write lib => if Untuned lib then write lib else lib) ++ thresholdWrites

def allFuncs : List FuncIndex := [.memcpy, .mempcpy, .memmove, .memset, .memcmp, .memchr, .strcpy,
  .strncpy, .strcmp, .strncmp, .strcat, .strncat, .strstr, .strlen, .strnlen, .strchr, .strspn]

/-- The constructor's writes in a build with tunables, in their order. -/
def tunablesWrites (cpuid : Cpuid) (env : Environment) : List (Library → Library) :=
  (if isAmd cpuid then configurationWrites cpuid (parseEnv env) else []) ++
    (allFuncs.map assignVariant ++ tunableFuncs.map assignTunedVariant)

/-- Those of a build without: there is no environment to parse, and no pointer to write. -/
def plainWrites (cpuid : Cpuid) : List (Library → Library) :=
  if isAmd cpuid then configurationWrites cpuid id else []

def performed (writes : List (Library → Library)) (lib : Library) : Library :=
  writes.foldl (fun lib write => write lib) lib

theorem performed_append (first second : List (Library → Library)) (lib : Library) :
    performed (first ++ second) lib = performed second (performed first lib) :=
  List.foldl_append

private theorem performed_cacheWrites (cpuid : Cpuid) (lib : Library) :
    performed ((cacheWrites cpuid).map fun write lib => if Untuned lib then write lib else lib) lib =
      if Untuned lib then computeSysThresholds cpuid lib else lib := by
  by_cases untuned : Untuned lib
  · have still (cache : CacheInfo) : Untuned { lib with zenCacheInfo := cache } := untuned
    simp only [cacheWrites, performed, List.map_cons, List.map_nil, List.foldl_cons, List.foldl_nil,
      untuned, still, ↓reduceIte]
    rfl
  · simp only [cacheWrites, performed, List.map_cons, List.map_nil, List.foldl_cons, List.foldl_nil,
      untuned, ↓reduceIte]

private theorem performed_thresholdWrites (lib : Library) :
    performed thresholdWrites lib = configureThresholds lib := by
  simp only [thresholdWrites, performed, List.foldl_cons, List.foldl_nil, configureThresholds]
  cases active : lib.settings.activeThresholdCfg <;> simp [assignThreshold, active]

/-- The settings are there before the numbers that depend on them. -/
private theorem performed_configurationWrites (cpuid : Cpuid) (parse : Settings → Settings)
    (lib : Library) : performed (configurationWrites cpuid parse) lib =
      let lib := { lib with
        zenCpuFeatures := getCpuCapabilities cpuid lib.zenCpuFeatures
        settings := parse lib.settings }
      configureThresholds (if Untuned lib then computeSysThresholds cpuid lib else lib) := by
  rw [configurationWrites, performed_append, performed_append, performed_cacheWrites,
    performed_thresholdWrites]
  rfl

private theorem performed_assignVariant (funcs : List FuncIndex) (lib : Library) :
    performed (funcs.map assignVariant) lib =
      lib.installCpu (libmemCpuResolver lib.zenCpuFeatures) funcs := by
  induction funcs generalizing lib with
  | nil => rfl
  | cons f funcs ih => exact ih (assignVariant f lib)

private theorem performed_assignTunedVariant (funcs : List FuncIndex) (lib : Library) :
    performed (funcs.map assignTunedVariant) lib =
      if libmemTunableResolver lib.settings ≠ .unknown then
        lib.installCpu (libmemCpuResolver lib.zenCpuFeatures) funcs
      else lib := by
  induction funcs generalizing lib with
  | nil => exact (ite_self lib).symm
  | cons f funcs ih =>
    by_cases tuned : libmemTunableResolver lib.settings ≠ .unknown
    · have first : assignTunedVariant f lib = assignVariant f lib := if_pos tuned
      calc performed ((f :: funcs).map assignTunedVariant) lib
          = performed (funcs.map assignTunedVariant) (assignVariant f lib) := by
            rw [← first]
            rfl
        _ = (assignVariant f lib).installCpu (libmemCpuResolver lib.zenCpuFeatures) funcs :=
            (ih _).trans (if_pos tuned)
        _ = _ := (if_pos tuned).symm
    · have first : assignTunedVariant f lib = lib := if_neg tuned
      calc performed ((f :: funcs).map assignTunedVariant) lib
          = performed (funcs.map assignTunedVariant) lib := by
            rw [List.map_cons, performed, List.foldl_cons, first]
            rfl
        _ = lib := (ih lib).trans (if_neg tuned)
        _ = _ := (if_neg tuned).symm

private theorem performed_dispatching (lib : Library) :
    performed (allFuncs.map assignVariant ++ tunableFuncs.map assignTunedVariant) lib =
      dispatcherInit lib := by
  rw [performed_append, performed_assignVariant, performed_assignTunedVariant, installCpu_features]
  simp only [dispatcherInit, allFuncs, tunableFuncs, installCpu_settings]

private theorem performed_tunablesWrites (cpuid : Cpuid) (env : Environment) (lib : Library) :
    performed (tunablesWrites cpuid env) lib = libmemInit cpuid env lib := by
  rw [tunablesWrites, performed_append, performed_dispatching, libmemInit]
  by_cases amd : isAmd cpuid = true
  · rw [if_pos amd, if_pos amd, performed_configurationWrites]
    rfl
  · rw [if_neg amd, if_neg amd]
    rfl

/-- `libmem_init` of a build without tunables. -/
def plainLibmemInit (cpuid : Cpuid) (lib : Library) : Library :=
  if isAmd cpuid then
    let lib := { lib with zenCpuFeatures := getCpuCapabilities cpuid lib.zenCpuFeatures }
    let lib :=
      if lib.settings.activeOperationCfg = .sysCfg ∧ lib.settings.activeThresholdCfg = .sysCfg then
        computeSysThresholds cpuid lib
      else lib
    configureThresholds lib
  else lib

private theorem performed_plainWrites (cpuid : Cpuid) (lib : Library) :
    performed (plainWrites cpuid) lib = plainLibmemInit cpuid lib := by
  rw [plainWrites, plainLibmemInit]
  by_cases amd : isAmd cpuid = true
  · rw [if_pos amd, if_pos amd, performed_configurationWrites]
    rfl
  · rw [if_neg amd, if_neg amd]
    rfl

/-- How a build binds its symbols: to pointers that the constructor writes, to what the loader is told
by the resolvers, which ask `cpuid` or, made by a newer compiler, its `__builtin_cpu_is`, or to the
functions of the one target it was made for. -/
inductive Binding where
  | tunables
  | ifunc
  | ifuncBuiltin (builtinCpuIs : String → Bool)
  | fixed (target : Target)

def Binding.writes (binding : Binding) (cpuid : Cpuid) (env : Environment) : List (Library → Library) :=
  match binding with
  | .tunables => tunablesWrites cpuid env
  | .ifunc | .ifuncBuiltin _ | .fixed _ => plainWrites cpuid

/-- `libmem_init`. -/
def Binding.init (binding : Binding) (cpuid : Cpuid) (env : Environment) : Library → Library :=
  match binding with
  | .tunables => libmemInit cpuid env
  | .ifunc | .ifuncBuiltin _ | .fixed _ => plainLibmemInit cpuid

private theorem performed_writes (binding : Binding) (cpuid : Cpuid) (env : Environment)
    (lib : Library) : performed (binding.writes cpuid env) lib = binding.init cpuid env lib := by
  cases binding with
  | tunables => exact performed_tunablesWrites cpuid env lib
  | ifunc | ifuncBuiltin | fixed => exact performed_plainWrites cpuid lib

def Binding.target (binding : Binding) (cpuid : Cpuid) : Option Target :=
  match binding with
  | .tunables => targetOf (chosenColumn cpuid)
  | .ifunc => targetOf (libmemCpuResolver (detected cpuid))
  | .ifuncBuiltin builtinCpuIs => targetOf (namedColumn builtinCpuIs)
  | .fixed target => some target

end Constructor

section Invariant
variable {cpuid : Cpuid} {env : Environment} {lib : Library} {f : FuncIndex}

/-- At every moment the features are unknown or those of the processor, and a pointer is still the
initial one or already that of the column chosen. -/
structure Coherent (cpuid : Cpuid) (lib : Library) : Prop where
  features : lib.zenCpuFeatures = Library.initial.zenCpuFeatures ∨
    isAmd cpuid = true ∧ lib.zenCpuFeatures = detected cpuid
  variant : ∀ f, lib.variant f = some ⟨f, CpuVariantIdx.system.suffix⟩ ∨
    lib.variant f = some ⟨f, (chosenColumn cpuid).suffix⟩

private theorem coherent_initial (cpuid : Cpuid) : Coherent cpuid .initial :=
  ⟨.inl rfl, fun _ => .inl rfl⟩

/-- The resolver asked early finds no features, and says `SYSTEM`. -/
theorem Coherent.resolver (coherent : Coherent cpuid lib) :
    libmemCpuResolver lib.zenCpuFeatures = .system ∨
      libmemCpuResolver lib.zenCpuFeatures = chosenColumn cpuid := by
  rcases coherent.features with initial | ⟨amd, known⟩
  · exact .inl (by rw [initial]; rfl)
  · exact .inr (by rw [known, chosenColumn, if_pos amd])

theorem Coherent.assignVariant (coherent : Coherent cpuid lib) (f : FuncIndex) :
    Coherent cpuid (assignVariant f lib) := by
  refine ⟨coherent.features, fun other => ?_⟩
  by_cases same : other = f
  · subst same
    have written : (Calls.assignVariant other lib).variant other =
        cpuImpl other (libmemCpuResolver lib.zenCpuFeatures) := if_pos rfl
    rw [written, cpuImpl_eq]
    rcases coherent.resolver with system | chosen
    · exact .inl (by rw [system])
    · exact .inr (by rw [chosen])
  · have untouched : (Calls.assignVariant f lib).variant other = lib.variant other := if_neg same
    rw [untouched]
    exact coherent.variant other

theorem Coherent.of_same {after : Library} (coherent : Coherent cpuid lib)
    (features : after.zenCpuFeatures = lib.zenCpuFeatures) (variant : after.variant = lib.variant) :
    Coherent cpuid after := by
  refine ⟨?_, ?_⟩
  · rw [features]
    exact coherent.features
  · rw [variant]
    exact coherent.variant

theorem Coherent.assignThreshold (coherent : Coherent cpuid lib)
    (assign : Thresholds → Thresholds → Thresholds) (byUser : Bool) :
    Coherent cpuid (assignThreshold assign byUser lib) := by
  unfold Calls.assignThreshold
  split
  · exact coherent.of_same rfl rfl
  · split
    · exact coherent.of_same rfl rfl
    · exact coherent
  · exact coherent

theorem Coherent.cacheWrite {write : Library → Library} (coherent : Coherent cpuid lib)
    (member : write ∈ cacheWrites cpuid) : Coherent cpuid (write lib) := by
  simp only [cacheWrites, List.mem_cons, List.not_mem_nil, or_false] at member
  rcases member with rfl | rfl | rfl | rfl <;> exact coherent.of_same rfl rfl

theorem Coherent.configurationWrite {write : Library → Library} {parse : Settings → Settings}
    (amd : isAmd cpuid = true) (coherent : Coherent cpuid lib)
    (member : write ∈ configurationWrites cpuid parse) : Coherent cpuid (write lib) := by
  rw [configurationWrites, List.mem_append, List.mem_append, List.mem_map] at member
  rcases member with (first | ⟨compute, among, rfl⟩) | last
  · simp only [List.mem_cons, List.not_mem_nil, or_false] at first
    rcases first with rfl | rfl
    · refine ⟨.inr ⟨amd, ?_⟩, coherent.variant⟩
      rcases coherent.features with initial | ⟨_, known⟩
      · exact congrArg (getCpuCapabilities cpuid) initial
      · exact (congrArg (getCpuCapabilities cpuid) known).trans (getCpuCapabilities_detected cpuid)
    · exact coherent.of_same rfl rfl
  · dsimp only
    split
    · exact coherent.cacheWrite among
    · exact coherent
  · simp only [thresholdWrites, List.mem_cons, List.not_mem_nil, or_false] at last
    rcases last with rfl | rfl | rfl | rfl | rfl | rfl <;> exact coherent.assignThreshold _ _

theorem Coherent.write {binding : Binding} {write : Library → Library} (coherent : Coherent cpuid lib)
    (member : write ∈ binding.writes cpuid env) : Coherent cpuid (write lib) := by
  have configures {parse : Settings → Settings}
      (among : write ∈ if isAmd cpuid then configurationWrites cpuid parse else []) :
      Coherent cpuid (write lib) := by
    split at among
    · next amd => exact coherent.configurationWrite amd among
    · exact absurd among List.not_mem_nil
  cases binding with
  | tunables =>
    change write ∈ tunablesWrites cpuid env at member
    rw [tunablesWrites, List.mem_append, List.mem_append, List.mem_map, List.mem_map] at member
    rcases member with among | ⟨f, _, rfl⟩ | ⟨f, _, rfl⟩
    · exact configures among
    · exact coherent.assignVariant f
    · unfold assignTunedVariant
      split
      · exact coherent.assignVariant f
      · exact coherent
  | ifunc | ifuncBuiltin | fixed => exact configures member

end Invariant

section Calling
variable (strict : Bool) (libc : Libc) (asm : CmpsAsm)

/-- What a call runs, with the library as it is at that moment. -/
def Binding.respond (binding : Binding) (cpuid : Cpuid) (lib : Library) (call : Call) : Kernel Reply :=
  match binding with
  | .tunables => callVariant strict libc asm lib call
  | .ifunc => implCode strict libc asm lib (libmemResolver cpuid call.func) call
  | .ifuncBuiltin builtinCpuIs =>
    implCode strict libc asm lib (libmemBuiltinResolver builtinCpuIs call.func) call
  | .fixed target => target.code strict lib.zenCacheInfo lib.thresholds call

/-- The library while its constructor runs, and what it has yet to write. -/
structure Startup where
  library : Library
  pending : List (Library → Library)

/-- Calls go where the symbols are bound to, and between two calls the constructor may write. -/
def startupMachine (binding : Binding) (cpuid : Cpuid) : Machine Startup Memory Call Reply Trap where
  respond startup call :=
    Reply.seen <$> binding.respond strict libc asm cpuid startup.library call
  changes before after := ∃ write, before.pending = write :: after.pending ∧
    after.library = write before.library

def Binding.loaded (binding : Binding) (cpuid : Cpuid) (env : Environment) : Startup :=
  ⟨.initial, binding.writes cpuid env⟩

/-- At any moment of the constructor's run. -/
structure Starting (binding : Binding) (cpuid : Cpuid) (env : Environment) (startup : Startup) :
    Prop where
  coherent : Coherent cpuid startup.library
  pending : ∀ write ∈ startup.pending, write ∈ binding.writes cpuid env
  ends : performed startup.pending startup.library = binding.init cpuid env .initial

variable {strict libc asm} {binding : Binding}

/-- A call finds the functions that the C library stands behind, or those of the target. -/
theorem respond_codeFor {cpuid : Cpuid} {lib : Library} (coherent : Coherent cpuid lib) (call : Call) :
    ∃ target?, (target? = none ∨ target? = binding.target cpuid) ∧
      binding.respond strict libc asm cpuid lib call =
        codeFor strict lib.zenCacheInfo lib.thresholds libc target? call := by
  cases binding with
  | tunables =>
    rcases coherent.variant call.func with initial | chosen
    · exact ⟨_, .inl rfl, callVariant_column initial⟩
    · exact ⟨_, .inr rfl, callVariant_column chosen⟩
  | ifunc =>
    refine ⟨_, .inr rfl, ?_⟩
    rw [Binding.respond, libmemResolver_eq, implCode_column]
    rfl
  | ifuncBuiltin builtinCpuIs =>
    refine ⟨_, .inr rfl, ?_⟩
    rw [Binding.respond, libmemBuiltinResolver_eq, implCode_column]
    rfl
  | fixed target => exact ⟨_, .inr rfl, rfl⟩

theorem startupMachine_serves (cpuid : Cpuid) (env : Environment) (conforms : libc.Conforms) :
    (startupMachine strict libc asm binding cpuid).Serves (contractFor strict (binding.target cpuid))
      (Starting binding cpuid env) where
  keeps := by
    rintro ⟨lib, _⟩ ⟨_, rest⟩ starting ⟨write, shape, rfl⟩
    dsimp only at shape
    subst shape
    obtain ⟨first, others⟩ := List.forall_mem_cons.mp starting.pending
    exact ⟨starting.coherent.write first, others, starting.ends⟩
  meets := by
    intro startup starting m call may
    have responds : ∃ target?, (target? = none ∨ target? = binding.target cpuid) ∧
        binding.respond strict libc asm cpuid startup.library call = _ :=
      respond_codeFor starting.coherent call
    obtain ⟨target?, which, same⟩ := responds
    dsimp only [startupMachine]
    rw [same]
    rcases which with rfl | rfl
    · exact system_served conforms may.1
    · exact codeFor_met strict _ _ conforms _ m call may

private theorem starting_loaded (cpuid : Cpuid) (env : Environment) :
    Starting binding cpuid env (binding.loaded cpuid env) :=
  ⟨coherent_initial cpuid, fun _ member => member, performed_writes binding cpuid env .initial⟩

theorem startup_onTrack {cpuid : Cpuid} {env : Environment} (conforms : libc.Conforms) {α : Type}
    {client : Client Call Reply α} {before after : Memory} {result : α}
    (yields : (contractFor strict (binding.target cpuid)).Yields client before result after)
    {later : Process Startup Memory Call Reply α}
    (steps : Relation.ReflTransGen (startupMachine strict libc asm binding cpuid).Step
      ⟨binding.loaded cpuid env, before, client⟩ later) :
    OnTrack (contractFor strict (binding.target cpuid)) (Starting binding cpuid env) result after
      later := by
  have start : OnTrack (contractFor strict (binding.target cpuid)) (Starting binding cpuid env) result
      after ⟨binding.loaded cpuid env, before, client⟩ := ⟨starting_loaded cpuid env, yields⟩
  exact start.steps (contractFor_functional strict _) (startupMachine_serves cpuid env conforms) steps

/-- In a build of any kind, a program that calls the library before, while and after the constructor
runs, and makes only calls that the functions bound to answer rightly, never gets stuck and comes to
the one result and the one memory that the contract allows it, whatever the moment of each call. -/
theorem startup_unseen (binding : Binding) (cpuid : Cpuid) (env : Environment)
    (conforms : libc.Conforms) {α : Type} (client : Client Call Reply α) (before after : Memory)
    (result : α) (yields : (contractFor strict (binding.target cpuid)).Yields client before result after)
    (later : Process Startup Memory Call Reply α)
    (steps : Relation.ReflTransGen (startupMachine strict libc asm binding cpuid).Step
      ⟨binding.loaded cpuid env, before, client⟩ later) :
    Relation.ReflTransGen (startupMachine strict libc asm binding cpuid).Step later
        ⟨later.config, after, .done result⟩ ∧
      (∀ call next, later.client = .call call next → ∃ reply m,
        (startupMachine strict libc asm binding cpuid).respond later.config call later.state =
          .ok (reply, m)) ∧
      (∀ value, later.client = .done value → value = result ∧ later.state = after) ∧
      (later.config.pending = [] → later.config.library = binding.init cpuid env .initial) := by
  have serves : (startupMachine strict libc asm binding cpuid).Serves _ _ :=
    startupMachine_serves cpuid env conforms
  have track := startup_onTrack conforms yields steps
  refine ⟨track.finishes (contractFor_functional strict _) serves,
    fun call next waits => track.answered serves waits, fun value ended => track.ended ended,
    fun none => ?_⟩
  have ends := track.config.ends
  rwa [none] at ends

/-- One `strlen` at the end of a page, on a Zen4 processor, before the constructor starts. -/
theorem startup_unseen_strlen :
    Relation.ReflTransGen
      (startupMachine false plainLibc ⟨false, fun _ => 0⟩ .tunables zen4Cpuid).Step
      ⟨Binding.tunables.loaded zen4Cpuid avx2AlignedStoreEnv, lastWord.toMemory,
        .call (.strlen 8184) .done⟩
      ⟨Binding.tunables.loaded zen4Cpuid avx2AlignedStoreEnv, lastWord.toMemory, .done (.size 7)⟩ := by
  have chosen : Binding.tunables.target zen4Cpuid = some .zen4 := by decide +kernel
  refine (startup_unseen .tunables zen4Cpuid avx2AlignedStoreEnv plainLibc_conforms
    (.call (.strlen 8184) .done) lastWord.toMemory lastWord.toMemory (.size 7) ?_ _ .refl).1
  rw [chosen]
  refine .call ⟨⟨lastWord, rfl, 7, lastWord_isLength rfl, ?_, fun i inside =>
    lastWord_mapped (by decide) (by omega)⟩, ?_⟩
    ⟨.size 7, rfl, rfl, rfl, 7, rfl, lastWord_isLength rfl⟩ .done
  · rw [sizeRange_eq]
    decide
  · rintro _ ⟨⟩
    exact trivial

end Calling

end AoclLibmem.Calls
