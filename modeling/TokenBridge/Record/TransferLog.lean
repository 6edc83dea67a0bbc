import TokenBridge.Wire.Layout
import TokenBridge.Text.Hex
/-!
The record of one transfer out of a route: which token, its index on the route, who sent it, to
whom on the other chain, how much, the fee paid, the destination chain and a free payload.

It is laid out as the token, the index, the sender, the recipient (text), the amount, the fee,
the destination and the payload (bytes). At least 76 bytes are needed; a record that ends right
after the destination is an older form and reads with an empty payload. Its text is the
hexadecimal of its bytes.
-/

namespace TokenBridge

/-- One transfer out of a route. -/
structure TransferLog where
  token : Address := Address.zero
  index : UInt64 := 0
  sender : Address := Address.zero
  recipient : String := ""
  amount : UInt64 := 0
  fee : UInt64 := 0
  destination : UInt32 := 0
  payload : Bytes := []
  deriving DecidableEq, Inhabited

namespace TransferLog

/-- The least encoded length: token, index, sender and the recipient's length prefix. -/
def minSize : Nat := 76

/-- The record's bytes. -/
def encode (l : TransferLog) : Bytes :=
  Wire.address l.token ++ Wire.u64 l.index ++ Wire.address l.sender ++ Wire.text l.recipient
    ++ Wire.u64 l.amount ++ Wire.u64 l.fee ++ Wire.u32 l.destination ++ Wire.bytes l.payload

/-- Reads the fields in layout order; the payload only when bytes remain. -/
def reader : Wire.Reader TransferLog := do
  let token ← Wire.readAddress "token"
  let index ← Wire.readU64 "index"
  let sender ← Wire.readAddress "sender"
  let recipient ← Wire.readText "recipient"
  let amount ← Wire.readU64 "amount"
  let fee ← Wire.readU64 "fee"
  let destination ← Wire.readU32 "destination"
  let payload ← if (← Wire.atEnd) then pure [] else Wire.readBytes "payload"
  pure { token, index, sender, recipient, amount, fee, destination, payload }

/-- The transfer log that `input` encodes. -/
def decode (input : Bytes) : Except CodecError TransferLog :=
  Wire.decodeRecord .transferLog minSize reader input

/-- The text of a log: the hexadecimal of its bytes. -/
def display (l : TransferLog) : String := Hex.encode l.encode

end TransferLog

end TokenBridge
