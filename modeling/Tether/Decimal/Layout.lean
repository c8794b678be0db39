import Tether.Decimal.Shortest

/-!
# How a number is laid out

The digits of a number are the same in every text; what differs is where positional notation ends,
how an exponent is written, and whether a whole number shows a fraction. A `Layout` records these
choices, and `Layout.write` applies them.
-/

namespace Tether.Decimal

/-- The choices of one written form of binary numbers. -/
structure Layout where
  /-- The smallest power of ten of a leading digit that is still written positionally; unbounded
  if absent. -/
  positionalFrom : Option Int
  /-- The first power of ten of a leading digit that is no longer written positionally; unbounded
  if absent. -/
  positionalBelow : Option Int
  /-- What follows a whole number in positional notation. -/
  wholeSuffix : String
  /-- What stands between the digits and an exponent that is not negative. -/
  exponentMark : String
  /-- Which of two equally near decimals is taken. -/
  tie : Tie

namespace Layout

/-- The form of numbers in documents: positional from `0.00001` up to below ten to the sixteenth,
with a sign before every exponent. -/
def document : Layout := ⟨some (-5), some 16, ".0", "e+", .even⟩

/-- The form of numbers in descriptions of values: positional from `0.0001` up to below ten to the
sixteenth. -/
def description : Layout := ⟨some (-4), some 16, ".0", "e", .up⟩

/-- The form of numbers in messages: always positional, and a whole number shows no fraction. -/
def plain : Layout := ⟨none, none, "", "e", .up⟩

/-- Whether a number whose leading digit has this power of ten is written positionally. -/
def isPositional (l : Layout) (leading : Int) : Bool :=
  l.positionalFrom.all (· ≤ leading) && l.positionalBelow.all (leading < ·)

/-- Digits with a decimal point such that the last digit has the given power of ten. -/
def positional (l : Layout) (digits : List Char) (power : Int) : String :=
  if 0 ≤ power then
    String.ofList (digits ++ List.replicate power.toNat '0') ++ l.wholeSuffix
  else
    let places := (-power).toNat
    let padded := List.replicate (places + 1 - digits.length) '0' ++ digits
    let whole := padded.length - places
    String.ofList (padded.take whole ++ '.' :: padded.drop whole)

/-- The leading digit, the others after a point, and the power of ten of the leading digit. -/
def exponential (l : Layout) (digits : List Char) (leading : Int) : String :=
  let fraction := match digits.tail with
    | [] => []
    | rest => '.' :: rest
  String.ofList (digits.take 1 ++ fraction) ++
    if leading < 0 then "e-" ++ toString leading.natAbs
    else l.exponentMark ++ toString leading.natAbs

/-- The magnitude of a finite number. -/
def magnitude (l : Layout) (significand : Nat) (exponent : Int) : String :=
  let s := shortest l.tie significand exponent
  let digits := Nat.toDigits 10 s.digits
  let leading := s.power + digits.length - 1
  if significand = 0 || l.isPositional leading then l.positional digits s.power
  else l.exponential digits leading

/-- The text of a number. -/
def write (l : Layout) : Binary64 → String
  | .nan => "NaN"
  | .infinite s => if s then "-inf" else "inf"
  | .finite s m q => (if s then "-" else "") ++ l.magnitude m q

end Layout

end Tether.Decimal
