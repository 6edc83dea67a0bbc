/-!
Byte strings, and the little-endian reading of a byte string as a number.

Every fixed-width integer of the wire formats, every curve coordinate and every scalar is such a
reading: `ofNatLE w n` writes the low `w` bytes of `n`, and `toNatLE` reads them back.
-/

namespace TokenBridge

/-- A byte string. -/
abbrev Bytes := List UInt8

namespace Bytes

/-- The `width` little-endian bytes of `n`; what does not fit is dropped. -/
def ofNatLE : Nat → Nat → Bytes
  | 0, _ => []
  | w + 1, n => (n % 256).toUInt8 :: ofNatLE w (n / 256)

/-- The number whose little-endian bytes these are. -/
def toNatLE : Bytes → Nat
  | [] => 0
  | b :: rest => b.toNat + 256 * toNatLE rest

/-- The number whose big-endian bytes these are. -/
def toNatBE (bs : Bytes) : Nat := toNatLE bs.reverse

/-- The `width` big-endian bytes of `n`; what does not fit is dropped. -/
def ofNatBE (width n : Nat) : Bytes := (ofNatLE width n).reverse

@[simp] theorem length_ofNatLE (w n : Nat) : (ofNatLE w n).length = w := by
  induction w generalizing n with
  | zero => rfl
  | succ w ih => simp [ofNatLE, ih]

theorem toNatLE_lt (bs : Bytes) : toNatLE bs < Nat.pow 256 bs.length := by
  induction bs with
  | nil => simp [toNatLE]
  | cons b rest ih =>
    have hb := b.toNat_lt
    have hpow : Nat.pow 256 (rest.length + 1) = Nat.pow 256 rest.length * 256 := rfl
    simp only [toNatLE, List.length_cons, hpow]
    omega

end Bytes

end TokenBridge
