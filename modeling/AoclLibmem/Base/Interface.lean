import AoclLibmem.Base.Stateful
import Mathlib.Logic.Relation

/-! Clients of a component that is known by contract, and what they cannot see of it: which of
several implementations answers a call, and when the one is exchanged for another. -/

namespace AoclLibmem.Base

universe u v w x

/-- When an operation may be asked for, and which answers and next states are right. -/
structure Interface (σ : Type u) (ω : Type v) (ρ : Type u) where
  pre : σ → ω → Prop
  post : σ → ω → ρ → σ → Prop

/-- A client is done, or it asks for an operation and goes on with the answer. -/
inductive Client (ω : Type v) (ρ : Type u) (α : Type u) where
  | done (result : α)
  | call (op : ω) (next : ρ → Client ω ρ α)

section Contract
variable {σ ρ τ α : Type u} {ω : Type v} {ε : Type w} {face : Interface σ ω ρ}
variable {impl : ω → StateT σ (Except ε) ρ}

/-- There is only one right answer and next state. -/
def Interface.Functional (face : Interface σ ω ρ) : Prop :=
  ∀ state op result final result' final', face.pre state op → face.post state op result final →
    face.post state op result' final' → result = result' ∧ final = final'

/-- The run returns, with a right answer and next state. -/
def Interface.Served (face : Interface σ ω ρ) (state : σ) (op : ω) (run : StateT σ (Except ε) ρ) :
    Prop :=
  ∃ result final, run state = .ok (result, final) ∧ face.post state op result final

/-- Every operation is served where it may be asked for. -/
def Interface.MetBy (face : Interface σ ω ρ) (impl : ω → StateT σ (Except ε) ρ) : Prop :=
  ∀ state op, face.pre state op → face.Served state op (impl op)

/-- Fewer occasions to ask. -/
def Interface.only (face : Interface σ ω ρ) (fine : σ → ω → Prop) : Interface σ ω ρ where
  pre state op := face.pre state op ∧ fine state op
  post := face.post

/-- What is left of an answer when it is seen through `see`. -/
def Interface.seen (face : Interface σ ω ρ) (see : ρ → τ) : Interface σ ω τ where
  pre := face.pre
  post state op result final := ∃ exact, see exact = result ∧ face.post state op exact final

/-- The client comes to its result and leaves the final state, every operation asked for where it
may be and answered rightly. -/
inductive Interface.Yields (face : Interface σ ω ρ) : Client ω ρ α → σ → α → σ → Prop where
  | done {result : α} {state : σ} : Yields face (.done result) state result state
  | call {op : ω} {next : ρ → Client ω ρ α} {answer : ρ} {result : α} {state middle final : σ}
      (may : face.pre state op) (right : face.post state op answer middle)
      (rest : Yields face (next answer) middle result final) :
      Yields face (.call op next) state result final

def Client.run (impl : ω → StateT σ (Except ε) ρ) : Client ω ρ α → StateT σ (Except ε) α
  | .done result => pure result
  | .call op next => impl op >>= fun answer => (next answer).run impl

theorem Interface.Functional.only {fine : σ → ω → Prop} (functional : face.Functional) :
    (face.only fine).Functional :=
  fun state op result final result' final' may right right' =>
    functional state op result final result' final' may.1 right right'

theorem Interface.Functional.seen {see : ρ → τ} (functional : face.Functional) :
    (face.seen see).Functional := by
  rintro state op _ final _ final' may ⟨exact, rfl, right⟩ ⟨exact', rfl, right'⟩
  obtain ⟨rfl, rfl⟩ := functional state op exact final exact' final' may right right'
  exact ⟨rfl, rfl⟩

theorem Interface.Served.seen {see : ρ → τ} {state : σ} {op : ω} {run : StateT σ (Except ε) ρ}
    (served : face.Served state op run) : (face.seen see).Served state op (see <$> run) := by
  obtain ⟨result, final, returned, right⟩ := served
  refine ⟨see result, final, ?_, result, rfl, right⟩
  calc (see <$> run) state = (run state >>= fun out => pure (see out.1, out.2)) := rfl
    _ = .ok (see result, final) := by rw [returned, ok_bind]; rfl

theorem Interface.MetBy.seen {see : ρ → τ} (met : face.MetBy impl) :
    (face.seen see).MetBy fun op => see <$> impl op :=
  fun state op may => (met state op may).seen

/-- What may be asked for under a stricter contract may be asked for under a laxer one. -/
theorem Interface.Yields.only {fine fine' : σ → ω → Prop} {client : Client ω ρ α} {state final : σ}
    {result : α} (yields : (face.only fine).Yields client state result final)
    (laxer : ∀ state op, fine state op → fine' state op) :
    (face.only fine').Yields client state result final := by
  induction yields with
  | done => exact .done
  | call may right _ ih => exact .call ⟨may.1, laxer _ _ may.2⟩ right ih

/-- Every implementation that meets the contract takes a client to the same end. -/
theorem Interface.Yields.run_eq {client : Client ω ρ α} {state final : σ} {result : α}
    (functional : face.Functional) (met : face.MetBy impl)
    (yields : face.Yields client state result final) :
    client.run impl state = .ok (result, final) := by
  induction yields with
  | done => rfl
  | call may right _ ih =>
    obtain ⟨answer, middle, returned, right'⟩ := met _ _ may
    obtain ⟨rfl, rfl⟩ := functional _ _ _ _ _ _ may right right'
    rw [Client.run, bind_returned returned]
    exact ih

end Contract

section Refinement
variable {σ σ' ρ ρ' α : Type u} {ω ω' : Type v} {ε : Type w} {face : Interface σ ω ρ}
variable {below : Interface σ' ω' ρ'} {related : σ → σ' → Prop} {word : ω → ω'} {sense : ρ → ρ'}
variable {impl : ω' → StateT σ' (Except ε) ρ'}

/-- The second client asks for the operations of the first in its own words, and takes the answers in
the same sense. -/
inductive Client.Renders (word : ω → ω') (sense : ρ → ρ') : Client ω ρ α → Client ω' ρ' α → Prop where
  | done (result : α) : Renders word sense (.done result) (.done result)
  | call (op : ω) {next : ρ → Client ω ρ α} {next' : ρ' → Client ω' ρ' α}
      (rest : ∀ answer, Renders word sense (next answer) (next' (sense answer))) :
      Renders word sense (.call op next) (.call (word op) next')

/-- What may be asked for above may be asked for below, and every right answer below is a right
one above. -/
structure Interface.RefinedBy (face : Interface σ ω ρ) (below : Interface σ' ω' ρ')
    (related : σ → σ' → Prop) (word : ω → ω') (sense : ρ → ρ') : Prop where
  asks : ∀ state state' op, related state state' → face.pre state op → below.pre state' (word op)
  answers : ∀ state state' op result' final', related state state' → face.pre state op →
    below.post state' (word op) result' final' →
      ∃ result final, face.post state op result final ∧ sense result = result' ∧ related final final'

/-- A client of the one interface, in the words of the other, comes to the same result there. -/
theorem Interface.RefinedBy.yields (refined : face.RefinedBy below related word sense)
    (functional : face.Functional) (met : below.MetBy impl) {client : Client ω ρ α}
    {client' : Client ω' ρ' α} {state final : σ} {state' : σ'} {result : α}
    (renders : client.Renders word sense client') (yields : face.Yields client state result final)
    (start : related state state') :
    ∃ final', below.Yields client' state' result final' ∧ related final final' := by
  induction yields generalizing client' state' with
  | done =>
    cases renders
    exact ⟨state', .done, start⟩
  | call may right _ ih =>
    cases renders with
    | call _ rest =>
      have may' := refined.asks _ _ _ start may
      obtain ⟨answer', middle', _, right'⟩ := met _ _ may'
      obtain ⟨answer, middle, also, rfl, next⟩ := refined.answers _ _ _ _ _ start may right'
      obtain ⟨rfl, rfl⟩ := functional _ _ _ _ _ _ may right also
      obtain ⟨final', further, ends⟩ := ih (rest _) next
      exact ⟨final', .call may' right' further, ends⟩

theorem Interface.RefinedBy.run_eq (refined : face.RefinedBy below related word sense)
    (functional : face.Functional) (functional' : below.Functional) (met : below.MetBy impl)
    {client : Client ω ρ α} {client' : Client ω' ρ' α} {state final : σ} {state' : σ'} {result : α}
    (renders : client.Renders word sense client') (yields : face.Yields client state result final)
    (start : related state state') :
    ∃ final', client'.run impl state' = .ok (result, final') ∧ related final final' := by
  obtain ⟨final', yields', ends⟩ := refined.yields functional met renders yields start
  exact ⟨final', yields'.run_eq functional' met, ends⟩

end Refinement

/-- Implementations by configuration, and how the configuration can change between calls. -/
structure Machine (κ : Type x) (σ : Type u) (ω : Type v) (ρ : Type u) (ε : Type w) where
  respond : κ → ω → StateT σ (Except ε) ρ
  changes : κ → κ → Prop

/-- A client on its way. -/
structure Process (κ : Type x) (σ : Type u) (ω : Type v) (ρ : Type u) (α : Type u) where
  config : κ
  state : σ
  client : Client ω ρ α

section Machines
variable {κ : Type x} {σ ρ α : Type u} {ω : Type v} {ε : Type w} {machine : Machine κ σ ω ρ ε}
variable {face : Interface σ ω ρ} {inv : κ → Prop}

/-- The configuration changes, or the call the client waits for is answered. -/
inductive Machine.Step (machine : Machine κ σ ω ρ ε) : Process κ σ ω ρ α → Process κ σ ω ρ α → Prop where
  | change {config config' : κ} {state : σ} {client : Client ω ρ α}
      (changes : machine.changes config config') :
      Step machine ⟨config, state, client⟩ ⟨config', state, client⟩
  | answer {config : κ} {state final : σ} {op : ω} {next : ρ → Client ω ρ α} {result : ρ}
      (responds : machine.respond config op state = .ok (result, final)) :
      Step machine ⟨config, state, .call op next⟩ ⟨config, final, next result⟩

/-- In every configuration that can come up, the machine meets the contract. -/
structure Machine.Serves (machine : Machine κ σ ω ρ ε) (face : Interface σ ω ρ) (inv : κ → Prop) :
    Prop where
  keeps : ∀ config config', inv config → machine.changes config config' → inv config'
  meets : ∀ config, inv config → face.MetBy (machine.respond config)

/-- The process is in such a configuration, and what is left of its client yields what the client
as a whole was to. -/
structure OnTrack (face : Interface σ ω ρ) (inv : κ → Prop) (result : α) (final : σ)
    (process : Process κ σ ω ρ α) : Prop where
  config : inv process.config
  yields : face.Yields process.client process.state result final

variable {result : α} {final : σ} {process later : Process κ σ ω ρ α}

theorem OnTrack.step (functional : face.Functional) (serves : machine.Serves face inv)
    (track : OnTrack face inv result final process) (step : machine.Step process later) :
    OnTrack face inv result final later := by
  obtain ⟨config, yields⟩ := track
  cases step with
  | change changes => exact ⟨serves.keeps _ _ config changes, yields⟩
  | answer responds =>
    refine ⟨config, ?_⟩
    cases yields with
    | call may right rest =>
      obtain ⟨answer, middle, returned, right'⟩ := serves.meets _ config _ _ may
      rw [responds, Except.ok.injEq, Prod.mk.injEq] at returned
      obtain ⟨rfl, rfl⟩ := returned
      obtain ⟨rfl, rfl⟩ := functional _ _ _ _ _ _ may right right'
      exact rest

theorem OnTrack.steps (functional : face.Functional) (serves : machine.Serves face inv)
    (track : OnTrack face inv result final process)
    (steps : Relation.ReflTransGen machine.Step process later) :
    OnTrack face inv result final later := by
  induction steps with
  | refl => exact track
  | tail _ step ih => exact ih.step functional serves step

/-- From everywhere on the track the client can be answered to its end. -/
theorem OnTrack.finishes (functional : face.Functional) (serves : machine.Serves face inv)
    (track : OnTrack face inv result final process) :
    Relation.ReflTransGen machine.Step process ⟨process.config, final, .done result⟩ := by
  obtain ⟨config, state, client⟩ := process
  obtain ⟨holds, yields⟩ := track
  dsimp only at holds yields
  induction yields with
  | done => exact .refl
  | call may right _ ih =>
    obtain ⟨answer, middle, returned, right'⟩ := serves.meets _ holds _ _ may
    obtain ⟨rfl, rfl⟩ := functional _ _ _ _ _ _ may right right'
    exact .head (.answer returned) ih

theorem OnTrack.answered (serves : machine.Serves face inv)
    (track : OnTrack face inv result final process) {op : ω} {next : ρ → Client ω ρ α}
    (waits : process.client = .call op next) :
    ∃ answer middle, machine.respond process.config op process.state = .ok (answer, middle) := by
  obtain ⟨config, yields⟩ := track
  rw [waits] at yields
  cases yields with
  | call may _ _ =>
    obtain ⟨answer, middle, returned, _⟩ := serves.meets _ config _ _ may
    exact ⟨answer, middle, returned⟩

theorem OnTrack.ended {other : α} (track : OnTrack face inv result final process)
    (ends : process.client = .done other) : other = result ∧ process.state = final := by
  have yields := track.yields
  rw [ends] at yields
  cases yields
  exact ⟨rfl, rfl⟩

end Machines

end AoclLibmem.Base
