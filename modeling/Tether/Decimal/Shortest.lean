import Tether.Binary64

/-!
# The shortest decimal of a binary number

A finite binary number is written with the fewest decimal digits that still identify it. The
numbers that round to `m * 2 ^ q` form an interval around it. For each power of ten, from large to
small, the two multiples of that power next to the value are tried, and the first power of which
some multiple lies in the interval wins; of two such multiples the nearer one is taken.
`to_json_string` writes the multiplier of a curve with these digits.
-/

namespace Tether.Decimal

/-- A decimal number `digits * 10 ^ power`. -/
structure Scientific where
  /-- The digits, read as one whole number. -/
  digits : Nat
  /-- The power of ten of the last digit. -/
  power : Int
  deriving DecidableEq, Repr, Inhabited

/-- Which of two equally near decimals is taken. -/
inductive Tie where
  /-- The larger one. -/
  | up
  /-- The one whose last digit is even. -/
  | even
  deriving DecidableEq, Repr

/-- The numbers that round to one binary number, as fractions over a common denominator. -/
structure Interval where
  /-- The lower end. -/
  low : Nat
  /-- The binary number itself. -/
  value : Nat
  /-- The upper end. -/
  high : Nat
  /-- The common denominator. -/
  den : Nat
  /-- Whether the ends belong to the interval. -/
  closed : Bool
  deriving Repr

namespace Interval

/-- The interval of a positive number. Below a power of two the numbers lie twice as close, so the
lower end is half as far away there. -/
def of (significand : Nat) (exponent : Int) : Interval :=
  let scale := Nat.pow 2 (exponent - 2).toNat
  let below := if significand = Nat.pow 2 52 ∧ Binary64.minExponent < exponent then 1 else 2
  { low := (4 * significand - below) * scale
    value := 4 * significand * scale
    high := (4 * significand + 2) * scale
    den := Nat.pow 2 (2 - exponent).toNat
    closed := significand % 2 == 0 }

/-- Whether `num / den` lies in the interval, `num` being over the denominator `den` times the
interval's own. -/
def contains (i : Interval) (num den : Nat) : Bool :=
  if i.closed then i.low * den ≤ num && num ≤ i.high * den
  else i.low * den < num && num < i.high * den

/-- The multiple of `10 ^ power` that stands for the value, if one lies in the interval. -/
def candidate (i : Interval) (tie : Tie) (power : Int) : Option Nat :=
  let up := Nat.pow 10 power.toNat
  let down := Nat.pow 10 (-power).toNat
  let unit := up * i.den
  let below := i.value * down / unit
  let hit (c : Nat) : Bool := i.contains (c * unit) down
  match hit below, hit (below + 1) with
  | true, true =>
    let left := i.value * down - below * unit
    let right := (below + 1) * unit - i.value * down
    if left < right then some below
    else if right < left then some (below + 1)
    else match tie with
      | .up => some (below + 1)
      | .even => some (below + below % 2)
  | true, false => some below
  | false, true => some (below + 1)
  | false, false => none

/-- Tries one power of ten after another, `fuel` of them at most. -/
def search (i : Interval) (tie : Tie) : Nat → Int → Scientific
  | 0, power => ⟨i.value * Nat.pow 10 (-power).toNat / (Nat.pow 10 power.toNat * i.den), power⟩
  | fuel + 1, power =>
    match i.candidate tie power with
    | some digits => ⟨digits, power⟩
    | none => i.search tie fuel (power - 1)

end Interval

/-- The shortest decimal that identifies `significand * 2 ^ exponent`. The search starts at a power
of ten above the value and needs at most twenty steps to reach seventeen digits. -/
def shortest (tie : Tie) (significand : Nat) (exponent : Int) : Scientific :=
  if significand = 0 then ⟨0, 0⟩
  else
    let bits : Int := (Nat.log2 significand : Int) + exponent
    (Interval.of significand exponent).search tie 20 (bits * 30103 / 100000 + 1)

end Tether.Decimal
