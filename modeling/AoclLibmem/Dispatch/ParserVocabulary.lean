import AoclLibmem.Dispatch.DispatcherChoice
import Mathlib.Data.List.GetD

/-! What the parser of `LIBMEM_OPERATION` accepts. `string_compare` steps past the first
difference before it compares once more, so it is no test for equality. -/

namespace AoclLibmem.Dispatch

section Comparison
variable {token name : List UInt8} {beyond : List UInt8 → UInt8}

/-- The token goes on after the name. -/
def Extends (token name : List UInt8) : Prop := name <+: token ∧ name ≠ token

/-- The first difference lies inside both, and both have the same byte right after it. -/
def SlipsPast (token name : List UInt8) : Prop :=
  ∃ i, (i < token.length ∧ i < name.length) ∧ token.take i = name.take i ∧
    token.getD i 0 ≠ name.getD i 0 ∧ token.getD (i + 1) 0 = name.getD (i + 1) 0

private theorem compareStop_common (whole : token <+: name) :
    compareStop token name = token.length := by
  induction token generalizing name with
  | nil => rfl
  | cons a token ih =>
    cases name with
    | nil => simp at whole
    | cons b name =>
      obtain ⟨rfl, rest⟩ := List.cons_prefix_cons.mp whole
      simp [compareStop, ih rest]

private theorem compareStop_extends (more : Extends token name) :
    compareStop token name = name.length + 1 := by
  obtain ⟨whole, other⟩ := more
  induction name generalizing token with
  | nil =>
    cases token with
    | nil => exact absurd rfl other
    | cons a token => rfl
  | cons b name ih =>
    cases token with
    | nil => simp at whole
    | cons a token =>
      obtain ⟨rfl, rest⟩ := List.cons_prefix_cons.mp whole
      simp [compareStop, ih rest fun same => other (congrArg _ same)]

theorem compareStop_differs {i : Nat} (inside : i < token.length ∧ i < name.length)
    (same : token.take i = name.take i) (differ : token.getD i 0 ≠ name.getD i 0) :
    compareStop token name = i + 1 := by
  induction i generalizing token name with
  | zero =>
    cases token with
    | nil => simp at inside
    | cons a token =>
      cases name with
      | nil => simp at inside
      | cons b name => exact if_neg (by simpa using differ)
  | succ i ih =>
    cases token with
    | nil => simp at inside
    | cons a token =>
      cases name with
      | nil => simp at inside
      | cons b name =>
        simp only [List.take_succ_cons, List.cons.injEq, List.length_cons, Nat.add_lt_add_iff_right,
          List.getD_cons_succ] at inside same differ
        exact (if_pos same.1).trans (congrArg (· + 1) (ih inside same.2 differ))

/-- Two strings are one the start of the other, or differ first inside both. -/
private theorem compare_cases (token name : List UInt8) : token <+: name ∨ Extends token name ∨
    ∃ i, (i < token.length ∧ i < name.length) ∧ token.take i = name.take i ∧
      token.getD i 0 ≠ name.getD i 0 := by
  induction token generalizing name with
  | nil => exact .inl List.nil_prefix
  | cons a token ih =>
    cases name with
    | nil => exact .inr (.inl ⟨List.nil_prefix, (List.cons_ne_nil a token).symm⟩)
    | cons b name =>
      by_cases head : a = b
      · subst head
        rcases ih name with whole | more | ⟨i, inside, same, differ⟩
        · exact .inl (List.cons_prefix_cons.mpr ⟨rfl, whole⟩)
        · refine .inr (.inl ⟨List.cons_prefix_cons.mpr ⟨rfl, more.1⟩, fun same => more.2 ?_⟩)
          exact (List.cons.inj same).2
        · refine .inr (.inr ⟨i + 1, ?_, ?_, differ⟩)
          · simpa using inside
          · simpa using same
      · exact .inr (.inr ⟨0, by simp, rfl, by simpa using head⟩)

/-- The first string is never read past its terminator; the second one is exactly when the
token goes on after it. -/
theorem compareStop_within :
    compareStop token name ≤ token.length ∧
      (compareStop token name ≤ name.length ↔ ¬ Extends token name) := by
  rcases compare_cases token name with whole | more | ⟨i, inside, same, differ⟩
  · have below := whole.length_le
    rw [compareStop_common whole]
    refine ⟨Nat.le_refl _, iff_of_true below fun more => more.2 ?_⟩
    exact more.1.eq_of_length (Nat.le_antisymm more.1.length_le below)
  · have longer : name.length < token.length :=
      Nat.lt_of_le_of_ne more.1.length_le fun same => more.2 (more.1.eq_of_length same)
    rw [compareStop_extends more]
    exact ⟨longer, iff_of_false (by omega) (not_not_intro more)⟩
  · rw [compareStop_differs inside same differ]
    refine ⟨inside.1, iff_of_true inside.2 fun more => differ ?_⟩
    obtain ⟨rest, rfl⟩ := more.1
    exact List.getD_append _ _ _ _ inside.2

theorem sub_toNat_eq_zero {a b : UInt8} : ((a.toNat : Int) - b.toNat = 0) ↔ a = b := by
  rw [← UInt8.toNat_inj]
  omega

private theorem stringCompare_slips (slips : SlipsPast token name) :
    stringCompare beyond token name = 0 := by
  obtain ⟨i, inside, same, differ, next⟩ := slips
  rw [stringCompare, compareStop_differs inside same differ]
  rw [if_pos (by omega), sub_toNat_eq_zero]
  exact next

/-- Without a longer token, the comparison accepts the name and what slips past it. -/
private theorem stringCompare_eq_zero (clean : 0 ∉ name) (short : ¬ Extends token name) :
    stringCompare beyond token name = 0 ↔ token = name ∨ SlipsPast token name := by
  rw [stringCompare, if_pos (compareStop_within.2.mpr short), sub_toNat_eq_zero]
  constructor
  · intro equal
    rcases compare_cases token name with whole | more | ⟨i, inside, same, differ⟩
    · -- the token has ended: the name must have, since only its terminator is zero
      rw [compareStop_common whole, List.getD_eq_default _ _ (Nat.le_refl _)] at equal
      refine .inl (whole.eq_of_length (Nat.le_antisymm whole.length_le ?_))
      by_contra longer
      rw [List.getD_eq_getElem _ _ (by omega)] at equal
      exact clean (equal ▸ List.getElem_mem _)
    · exact absurd more short
    · rw [compareStop_differs inside same differ] at equal
      exact .inr ⟨i, inside, same, differ, equal⟩
  · rintro (rfl | ⟨i, inside, same, differ, next⟩)
    · rfl
    · rw [compareStop_differs inside same differ]
      exact next

end Comparison

section Vocabulary
variable {token name : List UInt8} {beyond : List UInt8 → UInt8}

/-- The documented operations, each with the flag it sets. -/
def operationNames : List (List UInt8 × CpuOperation) :=
  [(avx512Name, ⟨false, true, false⟩), (avx2Name, ⟨true, false, false⟩),
    (ermsName, ⟨false, false, true⟩)]

def alignmentNames : List (UInt8 × Alignment) :=
  [(119, .wAlign), (100, .dAlign), (113, .qAlign), (120, .xAlign), (121, .yAlign), (110, .nAlign)]

/-- The operations that the token is compared with: up to the first that accepts it. -/
def comparedNames (beyond : List UInt8 → UInt8) (token : List UInt8) : List (List UInt8) :=
  if stringCompare beyond token avx512Name = 0 then [avx512Name]
  else if stringCompare beyond token avx2Name = 0 then [avx512Name, avx2Name]
  else [avx512Name, avx2Name, ermsName]

private theorem alignmentOf_eq (token : List UInt8) :
    alignmentOf token = (alignmentNames.lookup (token.headD 0)).getD .uAlign := by
  unfold alignmentOf
  generalize token.headD 0 = first
  split
  · rfl
  · rfl
  · rfl
  · rfl
  · rfl
  · rfl
  · next w d q x y n =>
    have none : alignmentNames.lookup first = none := by
      have others : first ≠ 119 ∧ first ≠ 100 ∧ first ≠ 113 ∧ first ≠ 120 ∧ first ≠ 121 ∧
          first ≠ 110 := ⟨w, d, q, x, y, n⟩
      rw [List.lookup_eq_none_iff]
      simpa [alignmentNames] using others
    rw [none]
    rfl

/-- A name is accepted as itself, whatever lies behind the literals. -/
private theorem operationOf_name {flags : CpuOperation} (member : (name, flags) ∈ operationNames) :
    operationOf beyond name ⟨false, false, false⟩ = some flags := by
  simp only [operationNames, List.mem_cons, Prod.mk.injEq, List.not_mem_nil, or_false] at member
  rcases member with ⟨rfl, rfl⟩ | ⟨rfl, rfl⟩ | ⟨rfl, rfl⟩ <;> rfl

/-- No name slips past another. -/
private theorem name_not_slips {flags others : CpuOperation}
    (member : (name, flags) ∈ operationNames)
    {other : List UInt8} (against : (other, others) ∈ operationNames) : ¬ SlipsPast name other := by
  intro slips
  have apart : ∀ a ∈ operationNames, ∀ b ∈ operationNames,
      a.1 ≠ b.1 → stringCompare (fun _ => 0) a.1 b.1 ≠ 0 := by decide
  refine apart _ member _ against ?_ (stringCompare_slips slips)
  rintro rfl
  obtain ⟨_, _, _, differ, _⟩ := slips
  exact differ rfl

/-- A token that goes on after `avx2` is compared with it, unless `1` comes next. -/
theorem stringCompare_avx512_of_extends (more : Extends token avx2Name) :
    stringCompare beyond token avx512Name = 0 ↔ token.getD 4 0 = 49 := by
  obtain ⟨rest, rfl⟩ := more.1
  exact sub_toNat_eq_zero

/-- A token that goes on after `erms` is compared with it. -/
private theorem comparedNames_of_extends_erms (more : Extends token ermsName) :
    ermsName ∈ comparedNames beyond token := by
  obtain ⟨rest, rfl⟩ := more.1
  have avx512 : stringCompare beyond (ermsName ++ rest) avx512Name ≠ 0 := of_decide_eq_true rfl
  have avx2 : stringCompare beyond (ermsName ++ rest) avx2Name ≠ 0 := of_decide_eq_true rfl
  simp [comparedNames, avx512, avx2]

private theorem avx512_mem_comparedNames : avx512Name ∈ comparedNames beyond token := by
  unfold comparedNames
  split_ifs <;> simp

private theorem avx2_mem_comparedNames (less : stringCompare beyond token avx512Name ≠ 0) :
    avx2Name ∈ comparedNames beyond token := by
  unfold comparedNames
  rw [if_neg less]
  split_ifs <;> simp

private theorem avx2_mem_comparedNames_iff :
    avx2Name ∈ comparedNames beyond token ↔ stringCompare beyond token avx512Name ≠ 0 := by
  refine ⟨fun member zero => ?_, avx2_mem_comparedNames⟩
  rw [comparedNames, if_pos zero] at member
  revert member
  decide

/-- Every comparison made with the token stays inside the name. -/
private theorem comparedNames_within_iff :
    (∀ name ∈ comparedNames beyond token, compareStop token name ≤ name.length) ↔
      ¬ Extends token avx512Name ∧ ¬ Extends token ermsName ∧
        (Extends token avx2Name → token.getD 4 0 = 49) := by
  constructor
  · intro within
    refine ⟨compareStop_within.2.mp (within _ avx512_mem_comparedNames), fun more => ?_, fun more => ?_⟩
    · exact compareStop_within.2.mp (within _ (comparedNames_of_extends_erms more)) more
    · have zero : stringCompare beyond token avx512Name = 0 := by
        by_contra less
        exact compareStop_within.2.mp (within _ (avx2_mem_comparedNames less)) more
      exact (stringCompare_avx512_of_extends more).mp zero
  · rintro ⟨avx512, erms, avx2⟩ name member
    refine compareStop_within.2.mpr fun more => ?_
    have names : name = avx512Name ∨ name = avx2Name ∨ name = ermsName := by
      unfold comparedNames at member
      split_ifs at member
      all_goals
        simp only [List.mem_cons, List.not_mem_nil, or_false] at member
        tauto
    rcases names with rfl | rfl | rfl
    · exact avx512 more
    · exact avx2_mem_comparedNames_iff.mp member
        ((stringCompare_avx512_of_extends more).mpr (avx2 more))
    · exact erms more

end Vocabulary

section Parser
variable {env : Environment} {value : CString} {settings : Settings}

/-- The parser takes exactly the documented operations, stores what the tokens name, and
no comparison leaves its two strings. -/
structure AcceptsVocabulary (env : Environment) (value : CString) (settings : Settings) : Prop where
  active : (parseEnvOperationCfg env settings).activeOperationCfg = .usrCfg ↔
    ∃ operation src dst, operationTokens env = some (operation, src, dst) ∧
      ∃ flags, (operation, flags) ∈ operationNames
  stored : ∀ operation src dst flags, operationTokens env = some (operation, src, dst) →
    (operation, flags) ∈ operationNames →
    (parseEnvOperationCfg env settings).userConfig =
      { settings.userConfig with
        userOperation := flags
        srcAln := (alignmentNames.lookup (src.headD 0)).getD .uAlign
        dstAln := (alignmentNames.lookup (dst.headD 0)).getD .uAlign }
  within : ∀ token rest, strtok comma value.chars = some (token, rest) →
    ∀ name ∈ comparedNames env.beyond token,
      compareStop token name ≤ token.length ∧ compareStop token name ≤ name.length

/-- No comparison with the first token runs past a name, and with three tokens none slips
past a difference. -/
structure Unmistakable (env : Environment) (value : CString) : Prop where
  short : ∀ token rest, strtok comma value.chars = some (token, rest) →
    ¬ Extends token avx512Name ∧ ¬ Extends token ermsName ∧
      (Extends token avx2Name → token.getD 4 0 = 49)
  exact : ∀ operation src dst, operationTokens env = some (operation, src, dst) →
    ∀ name flags, (name, flags) ∈ operationNames → ¬ SlipsPast operation name

private theorem parseEnvOperationCfg_active_iff (idle : settings.activeOperationCfg = .sysCfg) :
    (parseEnvOperationCfg env settings).activeOperationCfg = .usrCfg ↔ OperationAccepted env := by
  by_cases accepted : OperationAccepted env
  · exact iff_of_true (parseEnvOperationCfg_accepts settings accepted).1 accepted
  · refine iff_of_false ?_ accepted
    rw [parseEnvOperationCfg_rejects settings accepted, idle]
    decide

/-- What an accepted value leaves in the user's configuration. -/
private theorem parseEnvOperationCfg_stores {operation src dst : List UInt8} {flags : CpuOperation}
    (clear : settings.userConfig.userOperation = ⟨false, false, false⟩)
    (tokens : operationTokens env = some (operation, src, dst))
    (member : (operation, flags) ∈ operationNames) :
    (parseEnvOperationCfg env settings).userConfig =
      { settings.userConfig with
        userOperation := flags, srcAln := alignmentOf src, dstAln := alignmentOf dst } := by
  simp only [operationTokens, Option.bind_eq_bind, Option.bind_eq_some_iff, Option.pure_def,
    Option.some.injEq, Prod.mk.injEq, Prod.exists] at tokens
  obtain ⟨value, set, _, _, first, _, _, second, _, _, third, rfl, rfl, rfl⟩ := tokens
  simp only [parseEnvOperationCfg, set, first, clear, operationOf_name member, second, third]

theorem operationNames_iff {name : List UInt8} :
    (∃ flags, (name, flags) ∈ operationNames) ↔ name ∈ [avx512Name, avx2Name, ermsName] := by
  simp [operationNames, exists_or]

private theorem operationTokens_first {operation src dst : List UInt8}
    (set : env.libmemOperation = some value)
    (tokens : operationTokens env = some (operation, src, dst)) :
    ∃ rest, strtok comma value.chars = some (operation, rest) := by
  simp only [operationTokens, set, Option.bind_eq_bind, Option.bind_some, Option.bind_eq_some_iff,
    Option.pure_def, Option.some.injEq, Prod.mk.injEq, Prod.exists] at tokens
  obtain ⟨_, rest, first, _, _, _, _, _, _, rfl, _⟩ := tokens
  exact ⟨rest, first⟩

/-- Of three unmistakable tokens the first is accepted exactly when it is one of the names. -/
private theorem namesOperation_iff {operation src dst : List UInt8}
    (set : env.libmemOperation = some value) (unmistakable : Unmistakable env value)
    (tokens : operationTokens env = some (operation, src, dst)) :
    NamesOperation env.beyond operation ↔ ∃ flags, (operation, flags) ∈ operationNames := by
  obtain ⟨rest, first⟩ := operationTokens_first set tokens
  obtain ⟨avx512, erms, avx2⟩ := unmistakable.short operation rest first
  have exact := unmistakable.exact operation src dst tokens
  have avx2 : ¬ Extends operation avx2Name := by
    intro more
    have zero : stringCompare env.beyond operation avx512Name = 0 :=
      (stringCompare_avx512_of_extends more).mpr (avx2 more)
    rcases (stringCompare_eq_zero (by decide) avx512).mp zero with same | slips
    · have missing : ¬ avx2Name <+: avx512Name := by decide
      exact missing (same ▸ more.1)
    · exact exact avx512Name _ List.mem_cons_self slips
  rw [operationNames_iff]
  constructor
  · rintro ⟨name, member, zero⟩
    obtain ⟨flags, listed⟩ := operationNames_iff.mpr member
    have short : ¬ Extends operation name := by
      simp only [List.mem_cons, List.not_mem_nil, or_false] at member
      rcases member with rfl | rfl | rfl
      · exact avx512
      · exact avx2
      · exact erms
    have clean : 0 ∉ name := by
      have all : ∀ name ∈ [avx512Name, avx2Name, ermsName], (0 : UInt8) ∉ name := by decide
      exact all name member
    rcases (stringCompare_eq_zero clean short).mp zero with rfl | slips
    · exact member
    · exact absurd slips (exact name flags listed)
  · intro member
    refine ⟨operation, member, ?_⟩
    have equal : ∀ name ∈ [avx512Name, avx2Name, ermsName], stringCompare env.beyond name name = 0 := by
      simp only [List.mem_cons, List.not_mem_nil, or_false, forall_eq_or_imp, forall_eq]
      exact ⟨rfl, rfl, rfl⟩
    exact equal operation member

/-- With the flags clear, a value is treated as documented exactly when its first token is
unmistakable. -/
theorem parseEnvOperationCfg_vocabulary_iff (env : Environment) (value : CString) (settings : Settings)
    (set : env.libmemOperation = some value)
    (clear : settings.userConfig.userOperation = ⟨false, false, false⟩)
    (idle : settings.activeOperationCfg = .sysCfg) :
    AcceptsVocabulary env value settings ↔ Unmistakable env value := by
  constructor
  · intro accepts
    refine ⟨fun token rest first => ?_, fun operation src dst tokens name flags member slips => ?_⟩
    · exact comparedNames_within_iff.mp fun name member =>
        (accepts.within token rest first name member).2
    · have named : NamesOperation env.beyond operation :=
        ⟨name, operationNames_iff.mp ⟨flags, member⟩, stringCompare_slips slips⟩
      have active := (parseEnvOperationCfg_active_iff idle).mpr ⟨operation, src, dst, tokens, named⟩
      obtain ⟨found, _, _, again, flags', listed⟩ := accepts.active.mp active
      obtain ⟨rfl, _⟩ := Prod.mk.inj (Option.some.inj (again.symm.trans tokens))
      exact name_not_slips listed member slips
  · intro unmistakable
    refine ⟨?_, fun operation src dst flags tokens member => ?_, fun token rest first name member => ?_⟩
    · rw [parseEnvOperationCfg_active_iff idle]
      constructor
      · rintro ⟨operation, src, dst, tokens, named⟩
        exact ⟨operation, src, dst, tokens, (namesOperation_iff set unmistakable tokens).mp named⟩
      · rintro ⟨operation, src, dst, tokens, listed⟩
        exact ⟨operation, src, dst, tokens, (namesOperation_iff set unmistakable tokens).mpr listed⟩
    · rw [parseEnvOperationCfg_stores clear tokens member, alignmentOf_eq, alignmentOf_eq]
    · exact ⟨compareStop_within.1,
        comparedNames_within_iff.mpr (unmistakable.short token rest first) name member⟩

def operationEnv (value : CString) : Environment where
  libmemOperation := some value
  libmemThreshold := none
  beyond := fun _ => 0

def ermsValue : CString := ⟨[101, 114, 109, 115, 44, 119, 44, 113], by decide⟩

def bvx512Value : CString := ⟨[98, 118, 120, 53, 49, 50, 44, 98, 44, 98], by decide⟩

theorem parseEnvOperationCfg_vocabulary_erms :
    AcceptsVocabulary (operationEnv ermsValue) ermsValue Library.initial.settings := by
  refine (parseEnvOperationCfg_vocabulary_iff _ _ _ rfl rfl rfl).mpr ⟨?_, ?_⟩
  · intro token rest first
    have token_eq : strtok comma ermsValue.chars = some (ermsName, [119, 44, 113]) := by decide
    obtain ⟨rfl, _⟩ := Prod.mk.inj (Option.some.inj (token_eq.symm.trans first))
    exact ⟨fun more => absurd more.1 (by decide), fun more => more.2 rfl,
      fun more => absurd more.1 (by decide)⟩
  · intro operation src dst tokens name flags member
    have tokens_eq : operationTokens (operationEnv ermsValue) = some (ermsName, [119], [113]) := by
      decide
    obtain ⟨rfl, _⟩ := Prod.mk.inj (Option.some.inj (tokens_eq.symm.trans tokens))
    have listed : (ermsName, (⟨false, false, true⟩ : CpuOperation)) ∈ operationNames := by decide
    exact name_not_slips listed member

/-- It is taken for `avx512`: the comparison goes on after the first difference. -/
theorem parseEnvOperationCfg_takes_bvx512 :
    ¬ AcceptsVocabulary (operationEnv bvx512Value) bvx512Value Library.initial.settings := by
  intro accepts
  obtain ⟨operation, src, dst, tokens, flags, listed⟩ := accepts.active.mp (by decide)
  have tokens_eq : operationTokens (operationEnv bvx512Value) =
      some ([98, 118, 120, 53, 49, 50], [98], [98]) := by decide
  obtain ⟨rfl, _⟩ := Prod.mk.inj (Option.some.inj (tokens_eq.symm.trans tokens))
  exact absurd (operationNames_iff.mp ⟨flags, listed⟩) (by decide)

end Parser

end AoclLibmem.Dispatch
