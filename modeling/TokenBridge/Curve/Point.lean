import TokenBridge.Bytes
import TokenBridge.Curve.Field
/-!
Points of the twisted Edwards curve `-x² + y² = 1 + d x² y²` over `Field`, the curve of Ed25519.

Points are kept in extended coordinates `(X : Y : Z : T)` with `x = X / Z`, `y = Y / Z` and
`x y = T / Z`, so that addition needs no inversion. The addition law is complete on this curve
(`d` is not a square), so doubling is addition of a point to itself.

A point is written as 32 bytes: `y` little-endian, with the sign of `x` in the top bit. Reading
accepts any 255-bit `y` (reduced modulo the prime) whose `x² = (y² - 1) / (d y² + 1)` has a root;
a zero `x` with the sign bit set is accepted too.
-/

namespace TokenBridge.Edwards

open TokenBridge.Field

/-- The curve constant `d = -121665 / 121666`. -/
def curveD : Nat := mul (neg 121665) (inv 121666)

/-- A point in extended coordinates. -/
structure Point where
  x : Nat
  y : Nat
  z : Nat
  t : Nat

/-- The neutral element `(0, 1)`. -/
def identity : Point := ⟨0, 1, 1, 0⟩

/-- The point with affine coordinates `(x, y)`. -/
def ofAffine (x y : Nat) : Point := ⟨x % prime, y % prime, 1, mul x y⟩

/-- The group law, by the unified formula for `a = -1`. -/
def add (p q : Point) : Point :=
  let a := mul (sub p.y p.x) (sub q.y q.x)
  let b := mul (Field.add p.y p.x) (Field.add q.y q.x)
  let c := mul (mul p.t (Field.add curveD curveD)) q.t
  let d := mul (Field.add p.z p.z) q.z
  let e := sub b a
  let f := sub d c
  let g := Field.add d c
  let h := Field.add b a
  ⟨mul e f, mul g h, mul f g, mul e h⟩

/-- The opposite point `(-x, y)`. -/
def negate (p : Point) : Point := ⟨neg p.x, p.y, p.z, neg p.t⟩

/-- `n • p` for `n < 2 ^ bits`, by doubling and adding from the top bit down. -/
def smul (bits n : Nat) (p : Point) : Point :=
  (List.range bits).reverse.foldl
    (fun acc i => let d := add acc acc; if n.testBit i then add d p else d) identity

/-- The affine coordinates of a point. -/
def affine (p : Point) : Nat × Nat :=
  let zi := inv p.z
  (mul p.x zi, mul p.y zi)

/-- The 32-byte encoding: `y` little-endian, the sign of `x` in bit 255. -/
def encode (p : Point) : Bytes :=
  let (x, y) := affine p
  Bytes.ofNatLE 32 (y + if isNegative x then Nat.pow 2 255 else 0)

/-- Two points are equal when their encodings are. -/
def same (p q : Point) : Bool := encode p == encode q

/-- Reads a 32-byte encoding; `none` when `y` belongs to no point of the curve. -/
def decode (bytes : Bytes) : Option Point :=
  let n := Bytes.toNatLE bytes
  let y := n % Nat.pow 2 255 % prime
  let yy := mul y y
  let u := sub yy 1
  let v := Field.add (mul curveD yy) 1
  (sqrtRatio u v).map fun x =>
    let x := if n.testBit 255 then neg x else x
    ofAffine x y

/-- Whether 32 bytes are the encoding of a curve point. -/
def isOnCurve (bytes : Bytes) : Bool := (decode bytes).isSome

/-- The base point: `y = 4 / 5` and `x` nonnegative. -/
def basePoint : Point :=
  let y := mul 4 (inv 5)
  let yy := mul y y
  match sqrtRatio (sub yy 1) (Field.add (mul curveD yy) 1) with
  | some x => ofAffine x y
  | none => identity

/-- The order of the base point, `2 ^ 252 + 27742317777372353535851937790883648493`. -/
def groupOrder : Nat := Nat.pow 2 252 + 27742317777372353535851937790883648493

/-- A point of small order is killed by the cofactor 8. -/
def isSmallOrder (p : Point) : Bool := same (smul 4 8 p) identity

end TokenBridge.Edwards
