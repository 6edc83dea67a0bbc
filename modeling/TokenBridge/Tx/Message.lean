import TokenBridge.Tx.Instruction
/-!
The message of a transaction: every key it names, once, in a fixed order; a header that says
how many of them sign; and the instructions, with keys replaced by their positions.

Keys are merged over all instructions, permissions joined by "or"; a program that only runs
counts as a read-only key that does not sign. The payer signs and is writable, and comes first.
The rest come in four groups (writable signers, read-only signers, writable others, read-only
others), each in byte order.
-/

namespace TokenBridge

/-- How many keys sign, and how many signing and non-signing keys are read-only. -/
structure Header where
  requiredSignatures : Nat
  readonlySigned : Nat
  readonlyUnsigned : Nat
  deriving DecidableEq

/-- An instruction whose program and accounts are positions in the key list. -/
structure CompiledInstruction where
  programIndex : Nat
  accounts : List Nat
  data : Bytes
  deriving DecidableEq

/-- A transaction's message. -/
structure Message where
  header : Header
  keys : List Address
  recentBlockhash : Bytes
  instructions : List CompiledInstruction
  deriving DecidableEq

/-- A key with the joined permissions of every place it is named. -/
structure KeyUse where
  key : Address
  signer : Bool
  writable : Bool

namespace Message

/-- Joins one more use of a key into the list. -/
def noteUse (uses : List KeyUse) (key : Address) (signer writable : Bool) : List KeyUse :=
  if uses.any (·.key == key) then
    uses.map fun u => if u.key == key then ⟨key, u.signer || signer, u.writable || writable⟩ else u
  else uses ++ [⟨key, signer, writable⟩]

/-- Every key the instructions name, with joined permissions. -/
def keyUses (instructions : List Instruction) : List KeyUse :=
  instructions.foldl
    (fun uses ix =>
      ix.accounts.foldl (fun uses r => noteUse uses r.key r.signer r.writable)
        (noteUse uses ix.program false false))
    []

/-- Inserts a key into a list in byte order. -/
def insertSorted (a : Address) : List Address → List Address
  | [] => [a]
  | b :: rest => if Address.lt a b then a :: b :: rest else b :: insertSorted a rest

/-- Keys in byte order. -/
def sortKeys (keys : List Address) : List Address := keys.foldr insertSorted []

/-- The keys of one group, in byte order. -/
def group (uses : List KeyUse) (signer writable : Bool) : List Address :=
  sortKeys ((uses.filter fun u => u.signer == signer && u.writable == writable).map (·.key))

/-- The position of a key in the list. -/
def position (keys : List Address) (key : Address) : Nat := keys.idxOf key

/-- The message of `instructions` paid by `payer`, with an all-zero blockhash. -/
def compile (payer : Address) (instructions : List Instruction) : Message :=
  let uses := (keyUses instructions).filter (·.key != payer)
  let writableSigners := payer :: group uses true true
  let readonlySigners := group uses true false
  let writableOthers := group uses false true
  let readonlyOthers := group uses false false
  let keys := writableSigners ++ readonlySigners ++ writableOthers ++ readonlyOthers
  { header := ⟨writableSigners.length + readonlySigners.length, readonlySigners.length,
      readonlyOthers.length⟩
    keys
    recentBlockhash := List.replicate 32 0
    instructions := instructions.map fun ix =>
      ⟨position keys ix.program, ix.accounts.map (position keys ·.key), ix.data⟩ }

/-- Whether the key at position `i` signs. -/
def isSigner (m : Message) (i : Nat) : Bool := i < m.header.requiredSignatures

/-- The keys that sign, in order. -/
def signerKeys (m : Message) : List Address := m.keys.take m.header.requiredSignatures

/-- A length in one to three bytes, seven bits each, low bits first. -/
def shortLength (n : Nat) : Bytes :=
  if n < 0x80 then [n.toUInt8]
  else if n < 0x4000 then [(n % 0x80 + 0x80).toUInt8, (n / 0x80).toUInt8]
  else [(n % 0x80 + 0x80).toUInt8, (n / 0x80 % 0x80 + 0x80).toUInt8, (n / 0x4000).toUInt8]

/-- The bytes that are signed. -/
def serialize (m : Message) : Bytes :=
  [m.header.requiredSignatures.toUInt8, m.header.readonlySigned.toUInt8,
    m.header.readonlyUnsigned.toUInt8]
    ++ shortLength m.keys.length ++ m.keys.flatMap (·.bytes) ++ m.recentBlockhash
    ++ shortLength m.instructions.length
    ++ m.instructions.flatMap fun ix =>
      [ix.programIndex.toUInt8] ++ shortLength ix.accounts.length ++ ix.accounts.map Nat.toUInt8
        ++ shortLength ix.data.length ++ ix.data

/-- The program that runs the instruction at position `k`. -/
def programAt? (m : Message) (k : Nat) : Option Address := do
  let ix ← m.instructions[k]?
  m.keys[ix.programIndex]?

end Message

end TokenBridge
