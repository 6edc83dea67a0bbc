import TokenBridge.Bytes
import TokenBridge.Digest.Sha512
import TokenBridge.Curve.Point
/-!
Ed25519 keys and signatures (RFC 8032), deterministic from a 32-byte secret seed.

The seed's SHA-512 digest splits into a clamped secret scalar and a nonce prefix. A signature is
`R ‖ S` with `R = r • B` for the nonce `r = H(prefix ‖ m)` and `S = r + H(R ‖ A ‖ m) · a` modulo
the group order. Checking is strict: `S` below the order, `R` and the key of large order, and
`S • B = R + H(R ‖ A ‖ m) • A`.
-/

namespace TokenBridge.Ed25519

open TokenBridge.Edwards

/-- The secret scalar: the digest's low half with bits 0 to 2 and 255 cleared and bit 254 set. -/
def secretScalar (seed : Bytes) : Nat :=
  let n := Bytes.toNatLE ((Sha512.digest seed).take 32)
  n % Nat.pow 2 254 / 8 * 8 + Nat.pow 2 254

/-- The nonce prefix: the digest's high half. -/
def noncePrefix (seed : Bytes) : Bytes := (Sha512.digest seed).drop 32

/-- A 64-byte digest read as a scalar modulo the group order. -/
def hashScalar (bytes : Bytes) : Nat := Bytes.toNatLE (Sha512.digest bytes) % groupOrder

/-- The 32-byte public key of a seed. -/
def publicKey (seed : Bytes) : Bytes := encode (smul 255 (secretScalar seed) basePoint)

/-- The 64-byte signature of `message` under the key of `seed`. -/
def sign (seed message : Bytes) : Bytes :=
  let a := secretScalar seed
  let pub := encode (smul 255 a basePoint)
  let r := hashScalar (noncePrefix seed ++ message)
  let rBytes := encode (smul 253 r basePoint)
  let k := hashScalar (rBytes ++ pub ++ message)
  rBytes ++ Bytes.ofNatLE 32 ((r + k * a) % groupOrder)

/-- Whether `signature` is a valid strict signature of `message` under the public key `pub`. -/
def verify (pub message signature : Bytes) : Bool :=
  let rBytes := signature.take 32
  let s := Bytes.toNatLE (signature.drop 32)
  match decode pub, decode rBytes with
  | some a, some r =>
    signature.length == 64 && pub.length == 32 && s < groupOrder
      && !isSmallOrder r && !isSmallOrder a
      && same (smul 253 s basePoint) (add r (smul 253 (hashScalar (rBytes ++ pub ++ message)) a))
  | _, _ => false

end TokenBridge.Ed25519
