import TokenBridge.Bytes
/-!
Base-58 text of byte strings, in the alphabet that leaves out `0`, `O`, `I` and `l`.

The text is the big-endian number of the bytes in base 58, after one `1` for each leading zero
byte; reading reverses both steps, so leading `1`s become zero bytes.
-/

namespace TokenBridge.Base58

/-- The 58 digits in order of value. -/
def alphabet : List Char :=
  "123456789ABCDEFGHJKLMNPQRSTUVWXYZabcdefghijkmnopqrstuvwxyz".toList

/-- The digits of `n` in base `b`, most significant first; none for zero. -/
def digits (b : Nat) (hb : 1 < b) : Nat → List Nat
  | 0 => []
  | n + 1 => digits b hb ((n + 1) / b) ++ [(n + 1) % b]
termination_by n => n
decreasing_by exact Nat.div_lt_self (Nat.succ_pos n) hb

/-- The base-58 text of a byte string. -/
def encode (bytes : Bytes) : String :=
  let zeros := (bytes.takeWhile (· == 0)).length
  String.ofList (List.replicate zeros '1'
    ++ (digits 58 (by decide) (Bytes.toNatBE bytes)).map fun d => alphabet.getD d '1')

/-- The bytes a base-58 text spells, or `none` when a character is not a digit. -/
def decode? (s : String) : Option Bytes := do
  let values ← s.toList.mapM fun c => alphabet.idxOf? c
  let zeros := (values.takeWhile (· == 0)).length
  let n := values.foldl (fun acc d => acc * 58 + d) 0
  pure (List.replicate zeros 0 ++ (digits 256 (by decide) n).map Nat.toUInt8)

end TokenBridge.Base58
