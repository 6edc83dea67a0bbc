import TokenBridge.Address
import TokenBridge.Digest.Sha256
import TokenBridge.Curve.Point
import TokenBridge.Text.Utf8
/-!
Addresses derived from others by hashing.

A seeded address is `sha256(base ‖ seed ‖ owner)`; the seed has at most 32 bytes, and an owner
whose bytes end in the program-address marker is refused. A program address is
`sha256(seeds ‖ program ‖ marker)` and must not be a curve point, so that no key can sign for
it; the search tries the bump seeds 255, 254, … 1 in turn and takes the first that gives one.
-/

namespace TokenBridge

/-- Why an address cannot be derived. -/
inductive DeriveError where
  | maxSeedLengthExceeded
  | invalidSeeds
  | illegalOwner
  deriving DecidableEq, Repr

namespace DeriveError

/-- The error's name. -/
def name : DeriveError → String
  | .maxSeedLengthExceeded => "MaxSeedLengthExceeded"
  | .invalidSeeds => "InvalidSeeds"
  | .illegalOwner => "IllegalOwner"

/-- The error in words. -/
def message : DeriveError → String
  | .maxSeedLengthExceeded => "Length of the seed is too long for address generation"
  | .invalidSeeds => "Provided seeds do not result in a valid address"
  | .illegalOwner => "Provided owner is not allowed"

end DeriveError

namespace Address

/-- The most bytes a seed may have. -/
def maxSeedLength : Nat := 32

/-- The most seeds a program address may have. -/
def maxSeeds : Nat := 16

/-- The marker that ends the hashed text of a program address. -/
def programAddressMarker : Bytes := Utf8.encode "ProgramDerivedAddress"

/-- The address derived from `base`, a text seed and the owning program. -/
def withSeed (base : Address) (seed : String) (owner : Address) : Except DeriveError Address :=
  let seedBytes := Utf8.encode seed
  if seedBytes.length > maxSeedLength then .error .maxSeedLengthExceeded
  else if owner.bytes.drop (32 - programAddressMarker.length) == programAddressMarker then
    .error .illegalOwner
  else .ok (ofBytes (Sha256.digest (base.bytes ++ seedBytes ++ owner.bytes)))

/-- The program address of `seeds` under `program`; refused when it is a curve point. -/
def programAddress (seeds : List Bytes) (program : Address) : Except DeriveError Address :=
  if seeds.length > maxSeeds || seeds.any (fun s => s.length > maxSeedLength) then
    .error .maxSeedLengthExceeded
  else
    let hash := Sha256.digest (seeds.flatten ++ program.bytes ++ programAddressMarker)
    if Edwards.isOnCurve hash then .error .invalidSeeds else .ok (ofBytes hash)

/-- The search from bump `bump` down to 1 for a program address of `seeds ‖ [bump]`. -/
def findFrom (seeds : List Bytes) (program : Address) : Nat → Option (Address × UInt8)
  | 0 => none
  | bump + 1 =>
    match programAddress (seeds ++ [[(bump + 1).toUInt8]]) program with
    | .ok a => some (a, (bump + 1).toUInt8)
    | .error .invalidSeeds => findFrom seeds program bump
    | .error _ => none

/-- The first program address of `seeds` with a bump seed, trying 255 first. -/
def findProgramAddress (seeds : List Bytes) (program : Address) : Option (Address × UInt8) :=
  findFrom seeds program 255

end Address

end TokenBridge
