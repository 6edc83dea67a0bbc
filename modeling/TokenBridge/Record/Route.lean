import TokenBridge.Wire.Layout
/-!
A route: one token bridged to one chain, with the escrow that holds it, the limits on each
bridged amount, and the index of the last transfer out.

It is laid out as the initialized flag, the bump seed of its token authority, the token program,
the config, the escrow token account, the mint, the destination chain (`u32`), then the index,
the maximum and the minimum (`u64` each), 158 bytes in all. Chain 0 is the home chain, where
tokens are burnt and minted instead of held in escrow.
-/

namespace TokenBridge

/-- Where a route leads: the home chain, or another chain by number. -/
inductive Destination where
  | homeChain
  | chain (id : UInt32)
  deriving DecidableEq, Repr

namespace Destination

/-- The destination that a stored chain number stands for; 0 is the home chain. -/
def ofU32 (n : UInt32) : Destination := if n = 0 then .homeChain else .chain n

/-- The stored chain number of a destination. -/
def toU32 : Destination → UInt32
  | .homeChain => 0
  | .chain id => id

theorem toU32_ofU32 (n : UInt32) : (ofU32 n).toU32 = n := by
  unfold ofU32
  split <;> simp_all [toU32]

end Destination

/-- A route of the bridge. -/
structure Route where
  initialized : Bool := false
  bumpSeed : UInt8 := 0
  tokenProgram : Address := Address.zero
  config : Address := Address.zero
  escrow : Address := Address.zero
  mint : Address := Address.zero
  destination : UInt32 := 0
  index : UInt64 := 0
  max : UInt64 := 0
  min : UInt64 := 0
  deriving DecidableEq, Inhabited

namespace Route

/-- The encoded length, `1 + 1 + 4 * 32 + 4 + 3 * 8`. -/
def size : Nat := 158

/-- Where the route leads. -/
def target (r : Route) : Destination := Destination.ofU32 r.destination

/-- An amount may be bridged when it lies within the route's limits. -/
def acceptsAmount (r : Route) (amount : UInt64) : Bool := r.min ≤ amount && amount ≤ r.max

/-- The record's bytes. -/
def encode (r : Route) : Bytes :=
  Wire.bool r.initialized ++ Wire.u8 r.bumpSeed ++ Wire.address r.tokenProgram
    ++ Wire.address r.config ++ Wire.address r.escrow ++ Wire.address r.mint
    ++ Wire.u32 r.destination ++ Wire.u64 r.index ++ Wire.u64 r.max ++ Wire.u64 r.min

/-- Reads the fields in layout order. -/
def reader : Wire.Reader Route := do
  let initialized ← Wire.readBool "initialized"
  let bumpSeed ← Wire.readU8 "bump_seed"
  let tokenProgram ← Wire.readAddress "token_program_id"
  let config ← Wire.readAddress "config"
  let escrow ← Wire.readAddress "token"
  let mint ← Wire.readAddress "token_mint"
  let destination ← Wire.readU32 "destination"
  let index ← Wire.readU64 "index"
  let max ← Wire.readU64 "max"
  let min ← Wire.readU64 "min"
  pure { initialized, bumpSeed, tokenProgram, config, escrow, mint, destination, index, max, min }

/-- The route that `input` encodes. -/
def decode (input : Bytes) : Except CodecError Route :=
  Wire.decodeRecord .route size reader input

end Route

end TokenBridge
