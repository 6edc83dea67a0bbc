import TokenBridge.Wire.Layout
import TokenBridge.Tx.Instruction
/-!
Commands of the system program, which creates accounts and moves lamports.

Their data is a `u32` variant number followed by the variant's fields, integers little-endian
and texts as a `u64` length and UTF-8 bytes. Reading ignores bytes after the fields.
-/

namespace TokenBridge

/-- The system program's commands. -/
inductive SystemCommand where
  | createAccount (lamports space : UInt64) (owner : Address)
  | assign (owner : Address)
  | transfer (lamports : UInt64)
  | createAccountWithSeed (base : Address) (seed : String) (lamports space : UInt64)
      (owner : Address)
  | advanceNonceAccount
  | withdrawNonceAccount (lamports : UInt64)
  | initializeNonceAccount (authority : Address)
  | authorizeNonceAccount (authority : Address)
  | allocate (space : UInt64)
  | allocateWithSeed (base : Address) (seed : String) (space : UInt64) (owner : Address)
  | assignWithSeed (base : Address) (seed : String) (owner : Address)
  | transferWithSeed (lamports : UInt64) (fromSeed : String) (fromOwner : Address)
  | upgradeNonceAccount
  deriving DecidableEq

namespace SystemCommand

/-- A text as a `u64` length and its UTF-8 bytes. -/
def text64 (s : String) : Bytes :=
  let b := Utf8.encode s
  Wire.u64 b.length.toUInt64 ++ b

/-- The command's data. -/
def encode : SystemCommand → Bytes
  | .createAccount lamports space owner =>
    Wire.u32 0 ++ Wire.u64 lamports ++ Wire.u64 space ++ owner.bytes
  | .assign owner => Wire.u32 1 ++ owner.bytes
  | .transfer lamports => Wire.u32 2 ++ Wire.u64 lamports
  | .createAccountWithSeed base seed lamports space owner =>
    Wire.u32 3 ++ base.bytes ++ text64 seed ++ Wire.u64 lamports ++ Wire.u64 space ++ owner.bytes
  | .advanceNonceAccount => Wire.u32 4
  | .withdrawNonceAccount lamports => Wire.u32 5 ++ Wire.u64 lamports
  | .initializeNonceAccount authority => Wire.u32 6 ++ authority.bytes
  | .authorizeNonceAccount authority => Wire.u32 7 ++ authority.bytes
  | .allocate space => Wire.u32 8 ++ Wire.u64 space
  | .allocateWithSeed base seed space owner =>
    Wire.u32 9 ++ base.bytes ++ text64 seed ++ Wire.u64 space ++ owner.bytes
  | .assignWithSeed base seed owner => Wire.u32 10 ++ base.bytes ++ text64 seed ++ owner.bytes
  | .transferWithSeed lamports fromSeed fromOwner =>
    Wire.u32 11 ++ Wire.u64 lamports ++ text64 fromSeed ++ fromOwner.bytes
  | .upgradeNonceAccount => Wire.u32 12

/-- Reads a text stored after a `u64` length. -/
def readText64 : Wire.Reader String := do
  let n ← Wire.readU64 "seed"
  let bs ← Wire.take n.toNat "seed"
  match Utf8.decode bs with
  | .ok s => pure s
  | .error e => throw (.notText "seed" e)

/-- Reads the fields of variant `v`. -/
def fieldsReader (v : Nat) : Wire.Reader (Option SystemCommand) := do
  let u64 := Wire.readU64 "field"
  let key := Wire.readAddress "field"
  match v with
  | 0 => return some (.createAccount (← u64) (← u64) (← key))
  | 1 => return some (.assign (← key))
  | 2 => return some (.transfer (← u64))
  | 3 => return some (.createAccountWithSeed (← key) (← readText64) (← u64) (← u64) (← key))
  | 4 => return some .advanceNonceAccount
  | 5 => return some (.withdrawNonceAccount (← u64))
  | 6 => return some (.initializeNonceAccount (← key))
  | 7 => return some (.authorizeNonceAccount (← key))
  | 8 => return some (.allocate (← u64))
  | 9 => return some (.allocateWithSeed (← key) (← readText64) (← u64) (← key))
  | 10 => return some (.assignWithSeed (← key) (← readText64) (← key))
  | 11 => return some (.transferWithSeed (← u64) (← readText64) (← key))
  | 12 => return some .upgradeNonceAccount
  | _ => return none

/-- The command that `data` carries, if any; bytes after its fields are ignored. -/
def decode? (data : Bytes) : Option SystemCommand :=
  let reader : Wire.Reader (Option SystemCommand) := do
    let v ← Wire.readU32 "variant"
    fieldsReader v.toNat
  match reader (Wire.Cursor.start data) with
  | .ok (c, _) => c
  | .error _ => none

end SystemCommand

namespace Builder

/-- Creates the account `created`, funded by `funder`; both sign. -/
def createAccount (funder created : Address) (lamports space : UInt64) (owner : Address) :
    Instruction :=
  ⟨Address.systemProgram, [AccountRef.mutable funder true, AccountRef.mutable created true],
    (SystemCommand.createAccount lamports space owner).encode⟩

/-- Creates the account `created` at the address derived from `base` and `seed`, funded by
`funder`; `funder` and `base` sign. -/
def createAccountWithSeed (funder created base : Address) (seed : String)
    (lamports space : UInt64) (owner : Address) : Instruction :=
  ⟨Address.systemProgram,
    [AccountRef.mutable funder true, AccountRef.mutable created false,
      AccountRef.readonly base true],
    (SystemCommand.createAccountWithSeed base seed lamports space owner).encode⟩

end Builder

end TokenBridge
