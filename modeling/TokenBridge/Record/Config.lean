import TokenBridge.Wire.Layout
/-!
The bridge's configuration record: who owns the bridge, who may settle, and the fee that each
bridge-out pays to the fee collector.

It is laid out as the initialized flag, the owner, the authority, the fee (`u64`) and the fee
collector, 105 bytes in all; decoding wants exactly these bytes.
-/

namespace TokenBridge

/-- The bridge's configuration. -/
structure Config where
  initialized : Bool := false
  owner : Address := Address.zero
  authority : Address := Address.zero
  fee : UInt64 := 0
  feeCollector : Address := Address.zero
  deriving DecidableEq, Inhabited

namespace Config

/-- The encoded length, `1 + 32 + 32 + 8 + 32`. -/
def size : Nat := 105

/-- The record's bytes. -/
def encode (c : Config) : Bytes :=
  Wire.bool c.initialized ++ Wire.address c.owner ++ Wire.address c.authority ++ Wire.u64 c.fee
    ++ Wire.address c.feeCollector

/-- Reads the fields in layout order. -/
def reader : Wire.Reader Config := do
  let initialized ← Wire.readBool "initialized"
  let owner ← Wire.readAddress "owner"
  let authority ← Wire.readAddress "authority"
  let fee ← Wire.readU64 "fee"
  let feeCollector ← Wire.readAddress "fee_collector"
  pure { initialized, owner, authority, fee, feeCollector }

/-- The configuration that `input` encodes. -/
def decode (input : Bytes) : Except CodecError Config :=
  Wire.decodeRecord .config size reader input

end Config

end TokenBridge
