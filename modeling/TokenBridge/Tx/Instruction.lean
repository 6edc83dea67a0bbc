import TokenBridge.Address
/-!
Instructions: a program to run, the accounts it may touch with what it may do to each, and its
data.

Each account reference says whether the account must sign the transaction and whether the
instruction may write to it.
-/

namespace TokenBridge

/-- An account that an instruction names, with its permissions. -/
structure AccountRef where
  key : Address
  signer : Bool := false
  writable : Bool := false
  deriving DecidableEq, Inhabited

namespace AccountRef

/-- An account the instruction may write. -/
def mutable (key : Address) (signer : Bool) : AccountRef := ⟨key, signer, true⟩

/-- An account the instruction only reads. -/
def readonly (key : Address) (signer : Bool) : AccountRef := ⟨key, signer, false⟩

end AccountRef

/-- An instruction for one program. -/
structure Instruction where
  program : Address
  accounts : List AccountRef
  data : Bytes
  deriving DecidableEq, Inhabited

end TokenBridge
