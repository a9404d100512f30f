import Mathlib.Algebra.Group.Nat.Defs
import Mathlib.Data.List.Basic

/-! `env_parser.c`: the two environment variables, with the string functions it uses. -/

namespace AoclLibmem.Dispatch

/-- A C string, without its terminator. -/
structure CString where
  chars : List UInt8
  noNul : 0 ∉ chars

section Library

/-! The C library's part. A call of `strtok` takes what the call before left to read. -/

def strtok (delim : UInt8) (rest : List UInt8) : Option (List UInt8 × List UInt8) :=
  match rest.dropWhile (· == delim) with
  | [] => none
  | start => some (start.takeWhile (· != delim), (start.dropWhile (· != delim)).tail)

def isSpace (c : UInt8) : Bool := c == 32 || (9 ≤ c && c ≤ 13)

/-- The value of a digit or letter, when it is below the base. -/
def digitValue (base : Nat) (c : UInt8) : Option Nat :=
  let value :=
    if 48 ≤ c ∧ c ≤ 57 then c.toNat - 48
    else if 65 ≤ c ∧ c ≤ 90 then c.toNat - 55
    else if 97 ≤ c ∧ c ≤ 122 then c.toNat - 87
    else base
  if value < base then some value else none

def digitsValue (base : Nat) : List UInt8 → Nat → Nat
  | [], value => value
  | c :: rest, value =>
    match digitValue base c with
    | some digit => digitsValue base rest (value * base + digit)
    | none => value

/-- Base 0 and base 16 take a prefix; base 0 takes the base from it. -/
def strtoullBase (base : Nat) (chars : List UInt8) : Nat × List UInt8 :=
  match chars with
  | 48 :: x :: c :: rest =>
    if (x = 120 ∨ x = 88) ∧ (base = 0 ∨ base = 16) ∧ (digitValue 16 c).isSome then (16, c :: rest)
    else (if base = 0 then 8 else base, chars)
  | 48 :: _ => (if base = 0 then 8 else base, chars)
  | _ => (if base = 0 then 10 else base, chars)

/-- `strtoull`: saturating, and a minus sign negates in 64 bits. -/
def strtoull (chars : List UInt8) (base : Nat) : Nat :=
  let magnitude (chars : List UInt8) : Nat :=
    let (base, digits) := strtoullBase base chars
    digitsValue base digits 0
  match chars.dropWhile isSpace with
  | 45 :: rest =>
    if magnitude rest < 2 ^ 64 then (2 ^ 64 - magnitude rest) % 2 ^ 64 else 2 ^ 64 - 1
  | 43 :: rest => min (magnitude rest) (2 ^ 64 - 1)
  | rest => min (magnitude rest) (2 ^ 64 - 1)

end Library

structure CpuOperation where
  avx2 : Bool
  avx512 : Bool
  erms : Bool
deriving DecidableEq, Repr

structure Thresholds where
  repmovStartThreshold : Nat
  repmovStopThreshold : Nat
  repstoreStartThreshold : Nat
  repstoreStopThreshold : Nat
  ntStartThreshold : Nat
  ntStopThreshold : Nat
deriving DecidableEq, Repr

inductive Alignment where
  | uAlign
  | wAlign
  | dAlign
  | qAlign
  | xAlign
  | yAlign
  | zAlign
  | nAlign
deriving DecidableEq, Repr

structure UserCfg where
  userOperation : CpuOperation
  userThreshold : Thresholds
  srcAln : Alignment
  dstAln : Alignment
deriving DecidableEq, Repr

/-- `config`. -/
inductive Cfg where
  | unkCfg
  | sysCfg
  | usrCfg
  | chkCfg
deriving DecidableEq, Repr

/-- The environment of the process, and the byte that follows each string literal's
terminator in the image. -/
structure Environment where
  libmemOperation : Option CString
  libmemThreshold : Option CString
  beyond : List UInt8 → UInt8

/-- Where `string_compare` stops, counted from the start of both strings: at the end of the
first one, or one past the first difference. -/
def compareStop : List UInt8 → List UInt8 → Nat
  | [], _ => 0
  | _ :: _, [] => 1
  | a :: str1, b :: str2 => if a = b then compareStop str1 str2 + 1 else 1

/-- `string_compare`: a difference at the terminator of `str2` leads one byte past it. -/
def stringCompare (beyond : List UInt8 → UInt8) (str1 str2 : List UInt8) : Int :=
  let stop := compareStop str1 str2
  let byte1 := str1.getD stop 0
  let byte2 := if stop ≤ str2.length then str2.getD stop 0 else beyond str2
  (byte1.toNat : Int) - byte2.toNat

def avx512Name : List UInt8 := [97, 118, 120, 53, 49, 50]
def avx2Name : List UInt8 := [97, 118, 120, 50]
def ermsName : List UInt8 := [101, 114, 109, 115]

def comma : UInt8 := 44
def colon : UInt8 := 58

def alignmentOf (token : List UInt8) : Alignment :=
  match token.headD 0 with
  | 119 => .wAlign
  | 100 => .dAlign
  | 113 => .qAlign
  | 120 => .xAlign
  | 121 => .yAlign
  | 110 => .nAlign
  | _ => .uAlign

def operationOf (beyond : List UInt8 → UInt8) (token : List UInt8) (operation : CpuOperation) :
    Option CpuOperation :=
  if stringCompare beyond token avx512Name = 0 then some { operation with avx512 := true }
  else if stringCompare beyond token avx2Name = 0 then some { operation with avx2 := true }
  else if stringCompare beyond token ermsName = 0 then some { operation with erms := true }
  else none

/-- What the parsers write: the user's configuration and which configurations are active. -/
structure Settings where
  userConfig : UserCfg
  activeOperationCfg : Cfg
  activeThresholdCfg : Cfg
deriving DecidableEq, Repr

/-- `parse_env_operation_cfg`: what was written before a failure stays. -/
def parseEnvOperationCfg (env : Environment) (settings : Settings) : Settings :=
  match env.libmemOperation with
  | none => settings
  | some userOperationCfgs =>
    match strtok comma userOperationCfgs.chars with
    | none => settings
    | some (token, rest) =>
      match operationOf env.beyond token settings.userConfig.userOperation with
      | none => settings
      | some operation =>
        let config := { settings.userConfig with userOperation := operation }
        match strtok comma rest with
        | none => { settings with userConfig := config }
        | some (token, rest) =>
          let config := { config with srcAln := alignmentOf token }
          match strtok colon rest with
          | none => { settings with userConfig := config }
          | some (token, _) =>
            { settings with
              userConfig := { config with dstAln := alignmentOf token }
              activeOperationCfg := .usrCfg }

def parseEnvThresholdCfg (env : Environment) (settings : Settings) : Settings :=
  let store (threshold : Thresholds) : Settings :=
    { settings with userConfig := { settings.userConfig with userThreshold := threshold } }
  match env.libmemThreshold with
  | none => settings
  | some userThresholdCfg =>
    match strtok comma userThresholdCfg.chars with
    | none => settings
    | some (token, rest) =>
      let threshold :=
        { settings.userConfig.userThreshold with repmovStartThreshold := strtoull token 10 }
      match strtok comma rest with
      | none => store threshold
      | some (token, rest) =>
        let threshold := { threshold with repmovStopThreshold := strtoull token 10 }
        match strtok comma rest with
        | none => store threshold
        | some (token, rest) =>
          let threshold := { threshold with ntStartThreshold := strtoull token 0 }
          match strtok colon rest with
          | none => store threshold
          | some (token, _) =>
            { store { threshold with ntStopThreshold := strtoull token 0 } with
              activeThresholdCfg := .usrCfg }

end AoclLibmem.Dispatch
