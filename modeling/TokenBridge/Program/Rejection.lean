import TokenBridge.Address
/-!
The bridge program's error codes, and how a rejected instruction is reported and classified.

A rejection names the instruction's index, the code, the program that failed and whether that
is the bridge program. Only the bridge program's codes have names: `InvalidAmount` and
`InvalidInput` are limit violations, `InvalidOwner` and `InvalidAuthority` unauthorised signers,
all else other.
-/

namespace TokenBridge

/-- The bridge program's error codes, numbered from 0. -/
inductive ErrorCode where
  | invalidInstruction
  | alreadyInUse
  | invalidProgramAddress
  | incorrectTokenProgramId
  | expectedMint
  | expectedAccount
  | invalidToken
  | invalidInput
  | invalidOwner
  | invalidConfig
  | invalidMint
  | invalidAuthority
  | invalidFeeCollector
  | invalidAmount
  deriving DecidableEq, Repr

namespace ErrorCode

/-- All codes in order. -/
def all : List ErrorCode :=
  [.invalidInstruction, .alreadyInUse, .invalidProgramAddress, .incorrectTokenProgramId,
    .expectedMint, .expectedAccount, .invalidToken, .invalidInput, .invalidOwner, .invalidConfig,
    .invalidMint, .invalidAuthority, .invalidFeeCollector, .invalidAmount]

/-- The code's number. -/
def code : ErrorCode → UInt32
  | .invalidInstruction => 0
  | .alreadyInUse => 1
  | .invalidProgramAddress => 2
  | .incorrectTokenProgramId => 3
  | .expectedMint => 4
  | .expectedAccount => 5
  | .invalidToken => 6
  | .invalidInput => 7
  | .invalidOwner => 8
  | .invalidConfig => 9
  | .invalidMint => 10
  | .invalidAuthority => 11
  | .invalidFeeCollector => 12
  | .invalidAmount => 13

/-- The code with a number, if any. -/
def ofCode? (n : UInt32) : Option ErrorCode := all.find? (·.code == n)

/-- The code's name. -/
def name : ErrorCode → String
  | .invalidInstruction => "InvalidInstruction"
  | .alreadyInUse => "AlreadyInUse"
  | .invalidProgramAddress => "InvalidProgramAddress"
  | .incorrectTokenProgramId => "IncorrectTokenProgramId"
  | .expectedMint => "ExpectedMint"
  | .expectedAccount => "ExpectedAccount"
  | .invalidToken => "InvalidToken"
  | .invalidInput => "InvalidInput"
  | .invalidOwner => "InvalidOwner"
  | .invalidConfig => "InvalidConfig"
  | .invalidMint => "InvalidMint"
  | .invalidAuthority => "InvalidAuthority"
  | .invalidFeeCollector => "InvalidFeeCollector"
  | .invalidAmount => "InvalidAmount"

theorem ofCode?_code (e : ErrorCode) : ofCode? e.code = some e := by
  cases e <;> rfl

end ErrorCode

/-- The lower-case hexadecimal of a number after `0x`. -/
def hexNumber (n : Nat) : String := "0x" ++ String.ofList (Nat.toDigits 16 n)

/-- How a rejection is classified. -/
inductive RejectionKind where
  | limitViolation
  | unauthorizedSigner
  | staleIndex
  | other
  deriving DecidableEq, Repr

/-- The kind's name. -/
def RejectionKind.name : RejectionKind → String
  | .limitViolation => "LimitViolation"
  | .unauthorizedSigner => "UnauthorizedSigner"
  | .staleIndex => "StaleIndex"
  | .other => "Other"

/-- An instruction that a program refused with a custom error code. -/
structure Rejection where
  instructionIndex : UInt8
  code : UInt32
  programId : Address
  bridgeProgram : Bool
  deriving DecidableEq

namespace Rejection

/-- The named error, for a code of the bridge program. -/
def error? (r : Rejection) : Option ErrorCode :=
  if r.bridgeProgram then ErrorCode.ofCode? r.code else none

/-- Limits, signers, or other. -/
def kind (r : Rejection) : RejectionKind :=
  match r.error? with
  | some .invalidAmount | some .invalidInput => .limitViolation
  | some .invalidOwner | some .invalidAuthority => .unauthorizedSigner
  | _ => .other

/-- The rejection in words. -/
def message (r : Rejection) : String :=
  let at_ := " at instruction " ++ toString r.instructionIndex.toNat
  match r.bridgeProgram, r.error? with
  | true, some e =>
    "bridge program error " ++ toString r.code.toNat ++ " (" ++ e.name
      ++ " or a token program error)" ++ at_
  | true, none => "bridge program error " ++ hexNumber r.code.toNat ++ at_
  | false, _ => "program " ++ r.programId.toBase58 ++ " error " ++ toString r.code.toNat ++ at_

end Rejection

end TokenBridge
