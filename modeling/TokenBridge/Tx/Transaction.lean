import TokenBridge.Curve.Signature
import TokenBridge.Tx.Message
/-!
Assembling and signing transactions.

Assembling checks that the instruction list is not empty and that every required key, the payer
first and then every signing account in order, has a signer; it keeps the supplied signers that
are required, each once, in the order supplied. Signing sets the blockhash and lets each kept
signer sign the message; a key pair signs with its secret key (Ed25519 for a key pair made from a
seed), a signer that knows only its key gives an all-zero signature, and a
transaction with an all-zero signature is refused as short of signers.
-/

namespace TokenBridge

/-- A key pair: its public key, and how it signs a message with its secret key. -/
structure Keypair where
  key : Address
  sign : Bytes → Bytes

/-- The Ed25519 key pair of a 32-byte seed. -/
def Keypair.ofSeed (seed : Bytes) : Keypair :=
  ⟨Address.ofBytes (Ed25519.publicKey seed), Ed25519.sign seed⟩

/-- Something that can sign for a key. -/
inductive Signer where
  /-- A real key pair. -/
  | keypair (k : Keypair)
  /-- A signer that knows only its key and signs with zeros. -/
  | keyOnly (key : Address)

namespace Signer

/-- The key a signer signs for. -/
def key : Signer → Address
  | .keypair k => k.key
  | .keyOnly key => key

/-- The signature of a message. -/
def signMessage : Signer → Bytes → Bytes
  | .keypair k, m => k.sign m
  | .keyOnly _, _ => List.replicate 64 0

end Signer

/-- Why a transaction cannot be put together or signed. -/
inductive AssembleError where
  | missingSigner (operation : String) (signer : Address)
  | empty (operation : String)
  | approval (operation : String) (reason : String)
  | signing (operation : String) (reason : String)

namespace AssembleError

/-- The error's name. -/
def name : AssembleError → String
  | .missingSigner .. => "MissingSigner"
  | .empty .. => "Empty"
  | .approval .. => "Approval"
  | .signing .. => "Signing"

/-- The error in words. -/
def message : AssembleError → String
  | .missingSigner op signer =>
    op ++ ": account " ++ signer.toBase58 ++ " must sign but no key was supplied"
  | .empty op => op ++ ": transaction has no instructions"
  | .approval op reason => op ++ ": token approval rejected: " ++ reason
  | .signing op reason => op ++ ": signing failed: " ++ reason

end AssembleError

/-- A signed transaction: one signature per signing key, and the message. -/
structure Transaction where
  signatures : List Bytes
  message : Message

namespace Transaction

/-- Whether every signature is a valid signature of the message by its key, each checked by
`check` (of a public key, a message and a signature). -/
def verifyWith (check : Bytes → Bytes → Bytes → Bool) (t : Transaction) : Bool :=
  let data := t.message.serialize
  (t.signatures.zip t.message.keys).all fun (s, k) => check k.bytes data s

/-- Whether every signature is a valid Ed25519 signature of the message by its key. -/
def verify (t : Transaction) : Bool := t.verifyWith Ed25519.verify

end Transaction

/-- A transaction put together but not yet signed. -/
structure Assembled where
  operation : String
  message : Message
  signers : List Signer

namespace Assembled

/-- The keys of the kept signers. -/
def signerKeys (a : Assembled) : List Address := a.signers.map Signer.key

/-- Signs with the kept signers under `blockhash`. -/
def sign (a : Assembled) (blockhash : Bytes) : Except AssembleError Transaction :=
  let message := { a.message with recentBlockhash := blockhash }
  let data := message.serialize
  let signatures := message.signerKeys.map fun k =>
    match a.signers.find? (·.key == k) with
    | some s => s.signMessage data
    | none => List.replicate 64 0
  if signatures.any (· == List.replicate 64 0) then
    .error (.signing a.operation "not enough signers")
  else .ok ⟨signatures, message⟩

end Assembled

/-- The keys that must sign: the payer, then each signing account in order, each once. -/
def requiredSigners (payer : Address) (instructions : List Instruction) : List Address :=
  (instructions.flatMap (·.accounts)).foldl
    (fun req r => if r.signer && !req.contains r.key then req ++ [r.key] else req) [payer]

/-- The supplied signers that are required, each key once, in the order supplied. -/
def keptSigners (required : List Address) (signers : List Signer) : List Signer :=
  (signers.foldl
    (fun (acc : List Signer × List Address) s =>
      if required.contains s.key && !acc.2.contains s.key then (acc.1 ++ [s], acc.2 ++ [s.key])
      else acc)
    ([], [])).1

/-- Puts a transaction together for `operation`. -/
def assemble (operation : String) (payer : Address) (instructions : List Instruction)
    (signers : List Signer) : Except AssembleError Assembled :=
  if instructions.isEmpty then .error (.empty operation)
  else
    let required := requiredSigners payer instructions
    match required.find? (fun k => !signers.any (·.key == k)) with
    | some missing => .error (.missingSigner operation missing)
    | none =>
      .ok ⟨operation, Message.compile payer instructions, keptSigners required signers⟩

end TokenBridge
