import TokenBridge.Wire.Layout
/-!
The commands of the bridge program, carried as an instruction's data.

A command is a tag byte followed by its arguments in the shared layout: `config` (0) with the
fee, `transferOwner` (1), `changeAuthority` (2), `changeFee` (3) with the fee, `create` (4) with
the destination, maximum and minimum, `changeLimit` (5) with maximum and minimum, `bridge` (6)
with amount, recipient and payload, and `settle` (7) with the amount. Unpacking refuses an empty
input, an unknown tag, arguments that run short, and bytes after the arguments.
-/

namespace TokenBridge

/-- The kinds of command, in tag order. -/
inductive Tag where
  | config
  | transferOwner
  | changeAuthority
  | changeFee
  | create
  | changeLimit
  | bridge
  | settle
  deriving DecidableEq, Repr

namespace Tag

/-- The tag byte. -/
def toU8 : Tag → UInt8
  | .config => 0
  | .transferOwner => 1
  | .changeAuthority => 2
  | .changeFee => 3
  | .create => 4
  | .changeLimit => 5
  | .bridge => 6
  | .settle => 7

/-- The tag a byte stands for. -/
def ofU8? (b : UInt8) : Option Tag :=
  [Tag.config, .transferOwner, .changeAuthority, .changeFee, .create, .changeLimit, .bridge,
    .settle].find? (·.toU8 == b)

/-- The tag's name as a type name. -/
def name : Tag → String
  | .config => "Config"
  | .transferOwner => "TransferOwner"
  | .changeAuthority => "ChangeAuthority"
  | .changeFee => "ChangeFee"
  | .create => "Create"
  | .changeLimit => "ChangeLimit"
  | .bridge => "Bridge"
  | .settle => "Settle"

/-- The tag's name as a word of the command line. -/
def word : Tag → String
  | .config => "config"
  | .transferOwner => "transfer_owner"
  | .changeAuthority => "change_authority"
  | .changeFee => "change_fee"
  | .create => "create"
  | .changeLimit => "change_limit"
  | .bridge => "bridge"
  | .settle => "settle"

theorem ofU8?_toU8 (t : Tag) : ofU8? t.toU8 = some t := by
  cases t <;> rfl

end Tag

/-- A command of the bridge program. -/
inductive Command where
  | config (fee : UInt64)
  | transferOwner
  | changeAuthority
  | changeFee (fee : UInt64)
  | create (destination : UInt32) (max min : UInt64)
  | changeLimit (max min : UInt64)
  | bridge (amount : UInt64) (recipient : String) (payload : Bytes)
  | settle (amount : UInt64)
  deriving DecidableEq, Inhabited

namespace Command

/-- The command's tag. -/
def tag : Command → Tag
  | .config .. => .config
  | .transferOwner => .transferOwner
  | .changeAuthority => .changeAuthority
  | .changeFee .. => .changeFee
  | .create .. => .create
  | .changeLimit .. => .changeLimit
  | .bridge .. => .bridge
  | .settle .. => .settle

/-- The command's name. -/
def name (c : Command) : String := c.tag.word

/-- The arguments' bytes. -/
def args : Command → Bytes
  | .config fee | .changeFee fee => Wire.u64 fee
  | .transferOwner | .changeAuthority => []
  | .create destination max min => Wire.u32 destination ++ Wire.u64 max ++ Wire.u64 min
  | .changeLimit max min => Wire.u64 max ++ Wire.u64 min
  | .bridge amount recipient payload => Wire.u64 amount ++ Wire.text recipient ++ Wire.bytes payload
  | .settle amount => Wire.u64 amount

/-- The instruction data: the tag byte, then the arguments. -/
def pack (c : Command) : Bytes := c.tag.toU8 :: c.args

/-- Reads the arguments of a command of tag `t`. -/
def argsReader : Tag → Wire.Reader Command
  | .config => return .config (← Wire.readU64 "fee")
  | .transferOwner => pure .transferOwner
  | .changeAuthority => pure .changeAuthority
  | .changeFee => return .changeFee (← Wire.readU64 "fee")
  | .create => do
    let destination ← Wire.readU32 "destination"
    let max ← Wire.readU64 "max"
    let min ← Wire.readU64 "min"
    pure (.create destination max min)
  | .changeLimit => do
    let max ← Wire.readU64 "max"
    let min ← Wire.readU64 "min"
    pure (.changeLimit max min)
  | .bridge => do
    let amount ← Wire.readU64 "amount"
    let recipient ← Wire.readText "recipient"
    let payload ← Wire.readBytes "payload"
    pure (.bridge amount recipient payload)
  | .settle => return .settle (← Wire.readU64 "amount")

/-- Reads the tag, then the arguments. -/
def reader : Wire.Reader Command := do
  let b ← Wire.readU8 "tag"
  match Tag.ofU8? b with
  | none => throw (.unknownTag b)
  | some t => argsReader t

/-- The command that instruction data carries. -/
def unpack (input : Bytes) : Except CodecError Command :=
  match reader (Wire.Cursor.start input) with
  | .error f => .error ⟨.command, f⟩
  | .ok (c, rest) =>
    if rest.rest.isEmpty then .ok c
    else .error ⟨.command, .trailingAfter rest.rest.length c.name⟩

end Command

end TokenBridge
