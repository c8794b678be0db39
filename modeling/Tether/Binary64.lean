/-!
# Binary floating-point numbers

Numbers of the 64-bit binary format: a sign and a significand of at most 53 bits times a power of
two, the two infinities, and one value that is no number. Arithmetic is carried out on exact
integers and rounded once, to the nearest representable number and to the even significand on a
tie, so every statement about it is a statement about natural numbers. `delay_for` computes delays
with these numbers.
-/

namespace Tether

/-- A number of the 64-bit binary format. -/
inductive Binary64 where
  /-- The result of an operation that has no value. -/
  | nan
  /-- A value beyond the largest finite one. -/
  | infinite (negative : Bool)
  /-- The value `significand * 2 ^ exponent`, with its sign. -/
  | finite (negative : Bool) (significand : Nat) (exponent : Int)
  deriving DecidableEq, Repr, Inhabited

namespace Binary64

/-- Significands stay below this bound. -/
def significandBound : Nat := Nat.pow 2 53

/-- The exponent of the smallest positive number. -/
def minExponent : Int := -1074

/-- The exponent of the largest finite numbers. -/
def maxExponent : Int := 971

/-- Zero, with its sign. -/
def zero (negative : Bool) : Binary64 := finite negative 0 minExponent

/-- The quotient `num / den` rounded to the nearest whole number, to the even one on a tie. -/
def roundEven (num den : Nat) : Nat :=
  let quotient := num / den
  let remainder := num % den
  if den < 2 * remainder then quotient + 1
  else if 2 * remainder < den then quotient
  else quotient + quotient % 2

/-- The exponent of the leading bit of `num / den`: the largest `b` with `2 ^ b ≤ num / den`. -/
def leadingBit (num den : Nat) : Int :=
  let guess : Int := (Nat.log2 num : Int) - (Nat.log2 den : Int)
  if den * Nat.pow 2 guess.toNat ≤ num * Nat.pow 2 (-guess).toNat then guess else guess - 1

/-- The number of the format that is nearest to `(num / den) * 2 ^ scale`. -/
def nearest (negative : Bool) (num den : Nat) (scale : Int) : Binary64 :=
  if num = 0 then zero negative
  else
    let exponent := max (leadingBit num den + scale - 52) minExponent
    let significand := roundEven (num * Nat.pow 2 (scale - exponent).toNat)
      (den * Nat.pow 2 (exponent - scale).toNat)
    let (significand, exponent) :=
      if significand = significandBound then (Nat.pow 2 52, exponent + 1)
      else (significand, exponent)
    if maxExponent < exponent then infinite negative
    else finite negative significand exponent

/-- The number nearest to a whole number. -/
def ofNat (n : Nat) : Binary64 := nearest false n 1 0

/-- The number nearest to `digits * 10 ^ power`. Powers far outside the range of the format are
decided by the number of digits, without computing the power. -/
def ofScientific (negative : Bool) (digits : Nat) (power : Int) : Binary64 :=
  if digits = 0 then zero negative
  else
    let size := power + (Nat.toDigits 10 digits).length
    if 400 < size then infinite negative
    else if size < -400 then zero negative
    else nearest negative (digits * Nat.pow 10 power.toNat) (Nat.pow 10 (-power).toNat) 0

/-- The number one. -/
def one : Binary64 := ofNat 1

/-- The opposite number. -/
def neg : Binary64 → Binary64
  | nan => nan
  | infinite s => infinite !s
  | finite s m q => finite (!s) m q

/-- The product, rounded once. -/
def mul : Binary64 → Binary64 → Binary64
  | nan, _ | _, nan => nan
  | infinite s, infinite t => infinite (s != t)
  | infinite s, finite t m _ | finite s m _, infinite t =>
    if m = 0 then nan else infinite (s != t)
  | finite s m q, finite t n r => nearest (s != t) (m * n) 1 (q + r)

/-- The quotient, rounded once. -/
def div : Binary64 → Binary64 → Binary64
  | nan, _ | _, nan => nan
  | infinite _, infinite _ => nan
  | infinite s, finite t _ _ => infinite (s != t)
  | finite s _ _, infinite t => zero (s != t)
  | finite s m q, finite t n r =>
    if n = 0 then (if m = 0 then nan else infinite (s != t))
    else nearest (s != t) m n (q - r)

/-- Repeated squaring: the `n`-th power of `a` times `r`. The fuel bounds the number of bits. -/
def powerLoop : Nat → Binary64 → Nat → Binary64 → Binary64
  | 0, r, _, _ => r
  | fuel + 1, r, n, a =>
    let r := if n % 2 = 1 then r.mul a else r
    if n / 2 = 0 then r else powerLoop fuel r (n / 2) (a.mul a)

/-- The `n`-th power by repeated squaring, rounding after each product. -/
def power (a : Binary64) (n : Nat) : Binary64 := powerLoop (Nat.log2 n + 1) one n a

/-- Neither an infinity nor the value that is no number. -/
def isFinite : Binary64 → Bool
  | finite .. => true
  | _ => false

/-- The signed integer `significand * 2 ^ (exponent - least)`, for a `least` not above the
exponent. -/
def scaled (negative : Bool) (significand : Nat) (exponent least : Int) : Int :=
  let magnitude : Int := (significand * Nat.pow 2 (exponent - least).toNat : Nat)
  if negative then -magnitude else magnitude

/-- The order of numbers; nothing compares with the value that is no number. -/
def le : Binary64 → Binary64 → Bool
  | nan, _ | _, nan => false
  | infinite s, infinite t => s || !t
  | infinite s, finite .. => s
  | finite .., infinite t => !t
  | finite s m q, finite t n r =>
    let least := min q r
    scaled s m q least ≤ scaled t n r least

/-- Strictly below. -/
def lt (a b : Binary64) : Bool := a.le b && !(b.le a)

/-- Equality of values: the two zeros are equal and the value that is no number equals nothing. -/
def same (a b : Binary64) : Bool := a.le b && b.le a

/-- Rounded to the nearest whole number, away from zero on a tie, and forced into the range of an
unsigned machine word of 64 bits. -/
def toWord : Binary64 → Nat
  | nan => 0
  | infinite s => if s then 0 else Nat.pow 2 64 - 1
  | finite s m q =>
    if s then 0
    else if 0 ≤ q then min (m * Nat.pow 2 q.toNat) (Nat.pow 2 64 - 1)
    else
      let unit := Nat.pow 2 (-q).toNat
      min ((2 * m + unit) / (2 * unit)) (Nat.pow 2 64 - 1)

/-- The 64 bits of the number: sign, exponent field, fraction field. -/
def bits : Binary64 → Nat
  | nan => 0x7ff8000000000000
  | infinite s => (if s then Nat.pow 2 63 else 0) + 0x7ff0000000000000
  | finite s m q =>
    let field : Nat := if m < Nat.pow 2 52 then 0 else (q + 1075).toNat
    (if s then Nat.pow 2 63 else 0) + field * Nat.pow 2 52 + m % Nat.pow 2 52

end Binary64

end Tether
