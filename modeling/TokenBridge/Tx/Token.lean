import TokenBridge.Wire.Layout
import TokenBridge.Tx.Instruction
/-!
The one token-program command the bridge's clients build: approving a delegate to move an
amount out of a token account.

Its data is the tag 4 and the amount (`u64`); its accounts are the source (w), the delegate and
the owner (signer). Only the two token programs accept it.
-/

namespace TokenBridge

/-- The tag of the approve command. -/
def approveTag : UInt8 := 4

/-- The data of an approval of `amount`. -/
def approveData (amount : UInt64) : Bytes := approveTag :: Wire.u64 amount

/-- A program that is not a token program was asked to build a token instruction. -/
def incorrectProgramIdMessage : String := "The account did not have the expected program id"

namespace Builder

/-- Lets `delegate` move up to `amount` out of `source`, on the owner's signature. -/
def approve (tokenProgram source delegate owner : Address) (amount : UInt64) :
    Except String Instruction :=
  if tokenProgram == Address.tokenProgram2022 || tokenProgram == Address.tokenProgram then
    .ok ⟨tokenProgram,
      [AccountRef.mutable source false, AccountRef.readonly delegate false,
        AccountRef.readonly owner true], approveData amount⟩
  else .error incorrectProgramIdMessage

end Builder

end TokenBridge
