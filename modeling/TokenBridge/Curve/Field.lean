/-!
Arithmetic modulo the prime `2 ^ 255 - 19`, the field of the Edwards curve that signs
transactions and tells program addresses from public keys.

Elements are natural numbers below the prime; every operation reduces its result. Square roots
follow the prime's shape `p ≡ 5 (mod 8)`: a candidate `w ^ ((p + 3) / 8)` is either a root or a
root times `√-1`.
-/

namespace TokenBridge.Field

/-- The field's prime, `2 ^ 255 - 19`. -/
def prime : Nat := Nat.pow 2 255 - 19

/-- `b ^ e` modulo `m`, by squaring once per bit of `e`. -/
def powMod (m b : Nat) : Nat → Nat
  | 0 => 1 % m
  | e + 1 =>
    let h := powMod m b ((e + 1) / 2)
    let h2 := h * h % m
    if (e + 1) % 2 = 0 then h2 else h2 * b % m
termination_by e => e
decreasing_by omega

def add (a b : Nat) : Nat := (a + b) % prime

def sub (a b : Nat) : Nat := (a % prime + prime - b % prime) % prime

def mul (a b : Nat) : Nat := a * b % prime

def neg (a : Nat) : Nat := sub 0 a

/-- `a ^ e` in the field. -/
def pow (a e : Nat) : Nat := powMod prime (a % prime) e

/-- The inverse by Fermat's little theorem; zero goes to zero. -/
def inv (a : Nat) : Nat := pow a (prime - 2)

/-- An element is negative when its canonical value is odd. -/
def isNegative (a : Nat) : Bool := a % prime % 2 == 1

/-- `√-1`, the square root of minus one that `2 ^ ((p - 1) / 4)` gives. -/
def sqrtMinusOne : Nat := pow 2 ((prime - 1) / 4)

/-- Whether `a` is a square, zero included (Euler's criterion). -/
def isSquare (a : Nat) : Bool :=
  a % prime == 0 || pow a ((prime - 1) / 2) == 1

/-- The nonnegative square root of `u / v`, when `u / v` is a square or `u` is zero. -/
def sqrtRatio (u v : Nat) : Option Nat :=
  let w := mul u (inv v)
  if u % prime == 0 then some 0
  else if v % prime == 0 then none
  else
    let c := pow w ((prime + 3) / 8)
    let r := if mul c c == w % prime then some c
      else if mul c c == neg w then some (mul c sqrtMinusOne) else none
    r.map fun x => if isNegative x then neg x else x

end TokenBridge.Field
