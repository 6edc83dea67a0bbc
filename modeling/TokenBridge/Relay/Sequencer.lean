import TokenBridge.Record.TransferLog
/-!
The relayer's check that each route's transfers arrive as 1, 2, 3, … with no gap or repeat.

A route is keyed by token and destination chain. Each route remembers the last index relayed
(0 when none); a transfer is accepted when its index is one more than that, the count stopping
at the largest `u64`, and then becomes the last. A refused transfer changes nothing. Resuming sets
a route's last index outright.
-/

namespace TokenBridge

/-- A route as the relayer knows it: token and destination chain. -/
structure RouteKey where
  token : Address
  destination : UInt32
  deriving DecidableEq

/-- A transfer whose index is not the one expected next on its route. -/
structure StaleIndex where
  token : Address
  destination : UInt32
  expected : UInt64
  found : UInt64
  deriving DecidableEq

/-- The error in words. -/
def StaleIndex.message (e : StaleIndex) : String :=
  "stale index for token " ++ e.token.toBase58 ++ " to chain " ++ toString e.destination.toNat
    ++ ": expected " ++ toString e.expected.toNat ++ ", found " ++ toString e.found.toNat

/-- The last index relayed on each route that has one. -/
structure Sequencer where
  last : List (RouteKey × UInt64) := []

namespace Sequencer

/-- The last index relayed on a route, 0 for a route not seen. -/
def lastIndex (s : Sequencer) (k : RouteKey) : UInt64 := (s.last.lookup k).getD 0

/-- Sets a route's last index. -/
def resume (s : Sequencer) (k : RouteKey) (n : UInt64) : Sequencer :=
  ⟨(k, n) :: s.last.filter (fun e => e.1 != k)⟩

/-- The index expected after `n`: one more, but never past the largest `u64`. -/
def successor (n : UInt64) : UInt64 := if n = UInt64.ofNat (UInt64.size - 1) then n else n + 1

/-- Accepts a transfer whose index is the next on its route, or says what was expected. -/
def observe (s : Sequencer) (l : TransferLog) : Except StaleIndex Sequencer :=
  let k : RouteKey := ⟨l.token, l.destination⟩
  let expected := successor (s.lastIndex k)
  if l.index = expected then .ok (s.resume k l.index)
  else .error ⟨l.token, l.destination, expected, l.index⟩

end Sequencer

end TokenBridge
