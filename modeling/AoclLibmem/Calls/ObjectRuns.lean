import AoclLibmem.Calls.Programs
import AoclLibmem.Calls.Startup

/-! Whole programs over objects: what the language defines of a run is what comes out on every kind
of processor that answers its calls rightly, wherever the objects lie and whenever the constructor of
the library runs. -/

namespace AoclLibmem.Calls

open Base Machine Dispatch Strings

section Runs
variable {ι : Type} [DecidableEq ι] {start : PagedMemory} {layout : Layout ι start}
variable {α : Type} {client : Client (CallOf (Place ι)) (ReplyOf (Place ι)) α}
variable {client' : Client Call Reply α} {objs objs' : Objects ι} {before : Memory} {result : α}

/-- A program over objects, run by the functions of a build that answers its calls rightly, on a memory
that holds the objects; no object changes its size, and a constant one keeps its bytes. -/
theorem objects_on_target (target : Target) (strict : Bool) (cacheInfo : CacheInfo)
    (thresholds : Thresholds) (renders : client.Renders layout.call layout.reply client')
    (yields : (objectFace layout (target.Fine strict)).Yields client objs result objs')
    (holds : layout.Holds objs before) :
    (∃ after, client'.run (fun call => Reply.seen <$> target.code strict cacheInfo thresholds call)
      before = .ok (result, after) ∧ layout.Holds objs' after) ∧ layout.Keeps objs objs' :=
  ⟨objects_refinedBy.run_eq objectFace_functional contract_functional.only.seen
    (target.met strict cacheInfo thresholds).seen renders yields holds, objectFace_keeps yields⟩

theorem objects_on_target_greeting :
    ∃ after, (concatAll 8192 [4096]).run
        (fun call => Reply.seen <$> Target.zen4.code true ⟨0, 0, 0⟩ ⟨0, 0, 0, 0, 0, 0⟩ call)
        greetingMemory.toMemory = .ok (2, after) ∧
      greeting.Holds (Function.update greetingObjects false [104, 105, 0, 0, 0, 0, 0, 0]) after := by
  have sources : Sources greetingObjects ⟨false, 0⟩ [⟨true, 0⟩] [[104, 105]] :=
    .cons ⟨by decide, rfl⟩ .nil
  have shape : greetingObjects false = [] ++ ([] ++ 0 :: List.replicate 7 0) := rfl
  have yields : (objectFace greeting (Target.zen4.Fine true)).Yields
      (concatAll ⟨false, 0⟩ [⟨true, 0⟩]) greetingObjects 2
      (Function.update greetingObjects false [104, 105, 0, 0, 0, 0, 0, 0]) :=
    concatAll_yields sources (fun _ _ _ => trivial) (fun _ _ => trivial) shape rfl (by decide)
      (by decide) rfl
  exact (objects_on_target .zen4 true ⟨0, 0, 0⟩ ⟨0, 0, 0, 0, 0, 0⟩
    (concatAll_renders greeting ⟨false, 0⟩ [⟨true, 0⟩]) yields greeting_holds).1

/-- The same while the library starts: wherever the constructor has got to, the program goes on to the
result and the objects that the language defines, if the functions bound to answer its calls rightly. -/
theorem objects_at_startup (binding : Binding) (cpuid : Cpuid) (env : Environment) {libc : Libc}
    (conforms : libc.Conforms) (strict : Bool) (asm : CmpsAsm)
    (renders : client.Renders layout.call layout.reply client')
    (yields : (objectFace layout (FineFor strict (binding.target cpuid))).Yields client objs result objs')
    (holds : layout.Holds objs before) (later : Process Startup Memory Call Reply α)
    (steps : Relation.ReflTransGen (startupMachine strict libc asm binding cpuid).Step
      ⟨binding.loaded cpuid env, before, client'⟩ later) :
    (∃ after, layout.Holds objs' after ∧ Relation.ReflTransGen
      (startupMachine strict libc asm binding cpuid).Step later ⟨later.config, after, .done result⟩) ∧
    (∀ value, later.client = .done value → value = result ∧ layout.Holds objs' later.state) ∧
    layout.Keeps objs objs' := by
  have met := codeFor_met strict ⟨0, 0, 0⟩ ⟨0, 0, 0, 0, 0, 0⟩ conforms (binding.target cpuid)
  obtain ⟨after, yields', ends⟩ :=
    objects_refinedBy.yields objectFace_functional met renders yields holds
  have track := startup_onTrack conforms yields' steps
  refine ⟨⟨after, ends, track.finishes (contractFor_functional strict _)
    (startupMachine_serves cpuid env conforms)⟩, fun value ended => ?_, objectFace_keeps yields⟩
  obtain ⟨same, state⟩ := track.ended ended
  exact ⟨same, state ▸ ends⟩

/-- The word appended and counted on a Zen4 processor, before the constructor starts, in a build whose
symbols the loader resolves. -/
theorem objects_at_startup_greeting :
    ∃ after, greeting.Holds
        (Function.update greetingObjects false [104, 105, 0, 0, 0, 0, 0, 0]) after ∧
      Relation.ReflTransGen
        (startupMachine true plainLibc ⟨false, fun _ => 0⟩ .ifunc zen4Cpuid).Step
        ⟨Binding.ifunc.loaded zen4Cpuid avx2AlignedStoreEnv, greetingMemory.toMemory,
          concatAll 8192 [4096]⟩
        ⟨Binding.ifunc.loaded zen4Cpuid avx2AlignedStoreEnv, after, .done 2⟩ := by
  have sources : Sources greetingObjects ⟨false, 0⟩ [⟨true, 0⟩] [[104, 105]] :=
    .cons ⟨by decide, rfl⟩ .nil
  have shape : greetingObjects false = [] ++ ([] ++ 0 :: List.replicate 7 0) := rfl
  have yields : (objectFace greeting (FineFor true (Binding.ifunc.target zen4Cpuid))).Yields
      (concatAll ⟨false, 0⟩ [⟨true, 0⟩]) greetingObjects 2
      (Function.update greetingObjects false [104, 105, 0, 0, 0, 0, 0, 0]) := by
    refine concatAll_yields sources (fun _ _ _ => ?_) (fun _ _ => ?_) shape rfl (by decide)
      (by decide) rfl
    · rintro target _
      cases target <;> trivial
    · rintro target _
      cases target <;> trivial
  exact (objects_at_startup .ifunc zen4Cpuid avx2AlignedStoreEnv plainLibc_conforms true
    ⟨false, fun _ => 0⟩ (concatAll_renders greeting ⟨false, 0⟩ [⟨true, 0⟩]) yields greeting_holds
    _ .refl).1

section Programs
variable {dst : Place ι} {lists : List (List UInt8)} {first old text behind : List UInt8}

/-- Strings appended one by one stand one behind the other, on every build, and `strlen` counts them. -/
theorem strcats_concatenate (target : Target) (strict : Bool) (cacheInfo : CacheInfo)
    (thresholds : Thresholds) {srcs : List (Place ι)} (sources : Sources objs dst srcs lists)
    (shape : objs dst.object = first ++ (text ++ 0 :: behind)) (length : first.length = dst.offset)
    (free : 0 ∉ text) (room : lists.flatten.length ≤ behind.length)
    (changes : layout.constant dst.object = false) (holds : layout.Holds objs before) :
    ∃ after, (concatAll (layout.at dst) (srcs.map layout.at)).run
        (fun call => Reply.seen <$> target.code strict cacheInfo thresholds call) before =
          .ok ((text ++ lists.flatten).length, after) ∧
      layout.Holds (Function.update objs dst.object
        (first ++ ((text ++ lists.flatten) ++ 0 :: behind.drop lists.flatten.length))) after := by
  refine objects_refinedBy.run_eq objectFace_functional contract_functional.only.seen
    (target.met strict cacheInfo thresholds).seen (concatAll_renders layout dst srcs) ?_ holds
  refine concatAll_yields sources (fun _ _ _ => ?_) (fun _ _ => ?_) shape length free room changes
  · cases target <;> trivial
  · cases target <;> trivial

theorem strcats_concatenate_greeting :
    ∃ after, (concatAll 8192 [4096, 4096]).run
        (fun call => Reply.seen <$> Target.avx2.code true ⟨0, 0, 0⟩ ⟨0, 0, 0, 0, 0, 0⟩ call)
        greetingMemory.toMemory = .ok (4, after) ∧
      greeting.Holds (Function.update greetingObjects false [104, 105, 104, 105, 0, 0, 0, 0]) after := by
  have sources : Sources greetingObjects ⟨false, 0⟩ [⟨true, 0⟩, ⟨true, 0⟩] [[104, 105], [104, 105]] :=
    .cons ⟨by decide, rfl⟩ (.cons ⟨by decide, rfl⟩ .nil)
  have shape : greetingObjects false = [] ++ ([] ++ 0 :: List.replicate 7 0) := rfl
  have run := strcats_concatenate .avx2 true ⟨0, 0, 0⟩ ⟨0, 0, 0, 0, 0, 0⟩ sources shape rfl
    (by decide) (by decide) rfl greeting_holds
  exact run

/-- Pieces copied each to where the last `mempcpy` returned stand one behind the other, and nothing
else is written. -/
theorem mempcpys_gather (target : Target) (strict : Bool) (cacheInfo : CacheInfo)
    (thresholds : Thresholds) {pieces : List (Place ι × Nat)} (given : Pieces objs dst pieces lists)
    (shape : objs dst.object = first ++ (old ++ behind)) (length : first.length = dst.offset)
    (same : old.length = lists.flatten.length) (changes : layout.constant dst.object = false)
    (holds : layout.Holds objs before) :
    ∃ after, (gather (layout.at dst) (pieces.map fun piece => (layout.at piece.1, piece.2))).run
        (fun call => Reply.seen <$> target.code strict cacheInfo thresholds call) before =
          .ok (true, after) ∧
      layout.Holds (Function.update objs dst.object (first ++ (lists.flatten ++ behind))) after := by
  refine objects_refinedBy.run_eq objectFace_functional contract_functional.only.seen
    (target.met strict cacheInfo thresholds).seen (gather_renders layout dst pieces) ?_ holds
  refine gather_yields given (fun _ _ _ _ => ?_) shape length same changes
  cases target <;> trivial

theorem mempcpys_gather_greeting :
    ∃ after, (gather 8192 [(4096, 2), (4097, 1)]).run
        (fun call => Reply.seen <$> Target.zen5.code false ⟨0, 0, 0⟩ ⟨0, 0, 0, 0, 0, 0⟩ call)
        greetingMemory.toMemory = .ok (true, after) ∧
      greeting.Holds (Function.update greetingObjects false [104, 105, 105, 0, 0, 0, 0, 0]) after := by
  have range (n : Nat) (small : n < 3) : n < sizeRange := by
    rw [sizeRange_eq]
    omega
  have given : Pieces greetingObjects ⟨false, 0⟩ [(⟨true, 0⟩, 2), (⟨true, 1⟩, 1)] [[104, 105], [105]] :=
    .cons ⟨by decide, rfl, range 2 (by decide), rfl⟩
      (.cons ⟨by decide, rfl, range 1 (by decide), rfl⟩ .nil)
  have shape : greetingObjects false = [] ++ ([0, 0, 0] ++ List.replicate 5 0) := rfl
  have run := mempcpys_gather .zen5 false ⟨0, 0, 0⟩ ⟨0, 0, 0, 0, 0, 0⟩ given shape rfl rfl rfl
    greeting_holds
  exact run

end Programs

end Runs

end AoclLibmem.Calls
