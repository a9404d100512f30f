import AoclLibmem.Calls.Tuned
import AoclLibmem.Dispatch.DispatcherChoice

/-! The code behind the function pointers, whichever entries of the two tables they hold, and programs
whose calls find now the one and now the other. -/

namespace AoclLibmem.Calls

open Base Machine Dispatch

/-- What the suffix of an implementation stands for: the functions of a column of the CPU table, or
a tuning. -/
inductive Kind where
  | column (target? : Option Target)
  | tuned (tuning : Tuning)

def kindOf : Suffix → Kind
  | .avx2Unaligned => .tuned (.vector .avx2 .unaligned)
  | .avx2Aligned => .tuned (.vector .avx2 .aligned)
  | .avx2AlignedLoad => .tuned (.vector .avx2 .alignedLoad)
  | .avx2AlignedStore => .tuned (.vector .avx2 .alignedStore)
  | .avx2Nt => .tuned (.vector .avx2 .nt)
  | .avx2NtLoad => .tuned (.vector .avx2 .ntLoad)
  | .avx2NtStore => .tuned (.vector .avx2 .ntStore)
  | .avx512Unaligned => .tuned (.vector .avx512 .unaligned)
  | .avx512Aligned => .tuned (.vector .avx512 .aligned)
  | .avx512AlignedLoad => .tuned (.vector .avx512 .alignedLoad)
  | .avx512AlignedStore => .tuned (.vector .avx512 .alignedStore)
  | .avx512Nt => .tuned (.vector .avx512 .nt)
  | .avx512NtLoad => .tuned (.vector .avx512 .ntLoad)
  | .avx512NtStore => .tuned (.vector .avx512 .ntStore)
  | .ermsBAligned => .tuned (.erms .b)
  | .ermsWAligned => .tuned (.erms .w)
  | .ermsDAligned => .tuned (.erms .d)
  | .ermsQAligned => .tuned (.erms .q)
  | .threshold => .tuned .threshold
  | .zen1 | .zen2 | .zen3 => .column (some .avx2)
  | .zen4 => .column (some .zen4)
  | .zen5 => .column (some .zen5)
  | .system => .column none

private theorem kindOf_column (idx : CpuVariantIdx) :
    kindOf idx.suffix = .column (targetOf idx) := by
  cases idx <;> rfl

section Code
variable (strict : Bool) (libc : Libc) (asm : CmpsAsm) (lib : Library)

def Kind.code (kind : Kind) : Call → Kernel Reply :=
  match kind with
  | .column target? => codeFor strict lib.zenCacheInfo lib.thresholds libc target?
  | .tuned tuning => tuning.code asm lib.thresholds lib.zenCpuFeatures.avx512

def Kind.Fine (kind : Kind) (m : Memory) (call : Call) : Prop :=
  match kind with
  | .column target? => FineFor strict target? m call
  | .tuned tuning => tuning.Fine asm lib.thresholds lib.zenCpuFeatures.avx512 m call

/-- The code of an implementation, called with arguments of its function. -/
def implCode (impl : Impl) (call : Call) : Kernel Reply :=
  if impl.func = call.func then (kindOf impl.suffix).code strict libc asm lib call else throw .fault

/-- `jmp *_<func>_variant`. -/
def callVariant (call : Call) : Kernel Reply :=
  match lib.variant call.func with
  | some impl => implCode strict libc asm lib impl call
  | none => throw .fault

/-- The pointer is to an implementation of the function called, which answers this call as it should. -/
def VariantFine (m : Memory) (call : Call) : Prop :=
  ∃ impl, lib.variant call.func = some impl ∧ impl.func = call.func ∧
    (kindOf impl.suffix).Fine strict asm lib m call

theorem implCode_column (call : Call) (idx : CpuVariantIdx) :
    implCode strict libc asm lib ⟨call.func, idx.suffix⟩ call =
      codeFor strict lib.zenCacheInfo lib.thresholds libc (targetOf idx) call := by
  simp only [implCode, ↓reduceIte, kindOf_column, Kind.code]

variable {strict libc asm lib}

theorem callVariant_column {call : Call} {idx : CpuVariantIdx}
    (points : lib.variant call.func = some ⟨call.func, idx.suffix⟩) :
    callVariant strict libc asm lib call =
      codeFor strict lib.zenCacheInfo lib.thresholds libc (targetOf idx) call := by
  simp only [callVariant, points, implCode_column]

theorem Kind.met (conforms : libc.Conforms) (kind : Kind) :
    ((contract.only (kind.Fine strict asm lib)).seen Reply.seen).MetBy
      fun call => Reply.seen <$> kind.code strict libc asm lib call := by
  cases kind with
  | column target? => exact codeFor_met strict _ _ conforms target?
  | tuned tuning => exact tuning.met asm _ _

private theorem callVariant_served (conforms : libc.Conforms) {m : Memory} {call : Call}
    (may : contract.pre m call) (fine : VariantFine strict asm lib m call) :
    (contract.seen Reply.seen).Served m call (Reply.seen <$> callVariant strict libc asm lib call) := by
  obtain ⟨impl, points, own, fits⟩ := fine
  have runs : callVariant strict libc asm lib call =
      (kindOf impl.suffix).code strict libc asm lib call := by
    simp only [callVariant, points, implCode, own, ↓reduceIte]
  rw [runs]
  exact Kind.met conforms _ m call ⟨may, fits⟩

end Code

section Wandering
variable (strict : Bool) (libc : Libc) (asm : CmpsAsm) (among : Library → Prop)

/-- Between two calls the globals of the library become any of some states. -/
def wanderingMachine : Machine Library Memory Call Reply Trap where
  respond lib call := Reply.seen <$> callVariant strict libc asm lib call
  changes _ after := among after

/-- What a caller may rely on: the calls that are fine in all of them. -/
def wanderingFace : Interface Memory Call Reply :=
  (contract.only fun m call => ∀ lib, among lib → VariantFine strict asm lib m call).seen Reply.seen

private theorem wanderingFace_functional : (wanderingFace strict asm among).Functional :=
  contract_functional.only.seen

variable {strict libc asm among}

private theorem wanderingMachine_serves (conforms : libc.Conforms) :
    (wanderingMachine strict libc asm among).Serves (wanderingFace strict asm among) among where
  keeps _ _ _ after := after
  meets lib here _ _ may := callVariant_served conforms may.1 (may.2 lib here)

/-- Pointers, thresholds, cache sizes and features may change from call to call, and each pointer may
hold any entry of its row in either table: a program whose calls are fine for all of them never gets
stuck, and comes to the one result and the one memory that the contract allows it. -/
theorem tables_unseen (conforms : libc.Conforms) {α : Type} (client : Client Call Reply α)
    (before after : Memory) (result : α)
    (yields : (wanderingFace strict asm among).Yields client before result after) (lib : Library)
    (here : among lib) (later : Process Library Memory Call Reply α)
    (steps : Relation.ReflTransGen (wanderingMachine strict libc asm among).Step
      ⟨lib, before, client⟩ later) :
    Relation.ReflTransGen (wanderingMachine strict libc asm among).Step later
        ⟨later.config, after, .done result⟩ ∧
      (∀ call next, later.client = .call call next → ∃ reply m,
        (wanderingMachine strict libc asm among).respond later.config call later.state =
          .ok (reply, m)) ∧
      (∀ value, later.client = .done value → value = result ∧ later.state = after) := by
  have functional := wanderingFace_functional strict asm among
  have serves : (wanderingMachine strict libc asm among).Serves _ _ := wanderingMachine_serves conforms
  have start : OnTrack (wanderingFace strict asm among) among result after ⟨lib, before, client⟩ :=
    ⟨here, yields⟩
  have track := start.steps functional serves steps
  exact ⟨track.finishes functional serves, fun call next waits => track.answered serves waits,
    fun value ended => track.ended ended⟩

/-- Two equal buffers, and before they are compared the pointer turns from an entry of the CPU table to
one of the tunable table. -/
theorem tables_unseen_memcmp :
    let cpu := Library.initial.install .memcmp (cpuImpl .memcmp .archZen4)
    let tuned := Library.initial.install .memcmp (tunImpl .memcmp .threshold)
    let zeros := (PagedMemory.full fun _ => 0).toMemory
    Relation.ReflTransGen
      (wanderingMachine true plainLibc ⟨false, fun _ => 0⟩ fun lib => lib = cpu ∨ lib = tuned).Step
      ⟨tuned, zeros, .call (.memcmp 64 192 9) .done⟩ ⟨tuned, zeros, .done (.order 0)⟩ := by
  intro cpu tuned zeros
  have clear : ClearBelow (Compare.Differs zeros.byte 64 192) 9 := fun k _ differs => differs rfl
  have equal (P : Nat → Prop) : ∀ k < 9, FirstHit (Compare.Differs zeros.byte 64 192) k → P k :=
    fun k inside first => absurd first.1 (clear k inside)
  have mapped (addr : Nat) : zeros.canRead addr 9 = true := Memory.canRead_iff.mpr fun _ _ => rfl
  have legal : Compare.MemcmpCall zeros 64 192 9 := ⟨by rw [sizeRange_eq]; decide, mapped 64, mapped 192⟩
  have yields : (wanderingFace true ⟨false, fun _ => 0⟩ fun lib => lib = cpu ∨ lib = tuned).Yields
      (.call (.memcmp 64 192 9) .done) zeros (.order 0) zeros := by
    refine .call ⟨⟨_, rfl, legal⟩, ?_⟩ ⟨.order 0, rfl, rfl, rfl, 0, rfl, .same clear⟩ .done
    rintro lib (rfl | rfl)
    · exact ⟨_, rfl, rfl, fun target same => Option.some.inj same ▸ equal _⟩
    · exact ⟨_, rfl, rfl, fun inside => absurd inside (by decide), fun _ _ => equal _⟩
  have steps : Relation.ReflTransGen
      (wanderingMachine true plainLibc ⟨false, fun _ => 0⟩ fun lib => lib = cpu ∨ lib = tuned).Step
      ⟨cpu, zeros, .call (.memcmp 64 192 9) .done⟩ ⟨tuned, zeros, .call (.memcmp 64 192 9) .done⟩ :=
    .single (.change (.inr rfl))
  exact (tables_unseen plainLibc_conforms _ zeros zeros _ yields cpu (.inl rfl) _ steps).1

end Wandering

end AoclLibmem.Calls
