/-!
# Lengths of time

A duration is a whole number of nanoseconds. It is written in the largest of the units second,
millisecond, microsecond and nanosecond that it fills, with the rest as a decimal fraction. In a
document it is a whole number of milliseconds, which `serialize` cuts off (`millisWord`) and
`deserialize` takes as they are (`ofMillis`).
-/

namespace Tether

/-- A length of time. -/
structure Duration where
  /-- The length in nanoseconds. -/
  nanos : Nat
  deriving DecidableEq, Repr, Inhabited

namespace Duration

/-- The largest number that fits into a machine word of 64 bits. -/
def wordMax : Nat := Nat.pow 2 64 - 1

/-- That many milliseconds. -/
def ofMillis (ms : Nat) : Duration := ⟨ms * 1000000⟩

/-- That many seconds and nanoseconds. -/
def ofParts (secs nanos : Nat) : Duration := ⟨secs * 1000000000 + nanos⟩

/-- The whole seconds. -/
def secs (d : Duration) : Nat := d.nanos / 1000000000

/-- The nanoseconds beyond the last whole second. -/
def subsec (d : Duration) : Nat := d.nanos % 1000000000

/-- The whole milliseconds; a part of a millisecond is cut off. -/
def millis (d : Duration) : Nat := d.nanos / 1000000

/-- The whole milliseconds as a machine word; longer durations give the largest word. -/
def millisWord (d : Duration) : Nat := min d.millis wordMax

/-- No time at all. -/
def isZero (d : Duration) : Bool := d.nanos == 0

/-- The digits of `part`, padded with zeros in front to `width` places. -/
def padded (width part : Nat) : List Char :=
  let digits := Nat.toDigits 10 part
  List.replicate (width - digits.length) '0' ++ digits

/-- A decimal fraction of `width` places without the zeros at its end; nothing if none is left. -/
def fraction (width part : Nat) : String :=
  match ((padded width part).reverse.dropWhile (· == '0')).reverse with
  | [] => ""
  | digits => "." ++ String.ofList digits

/-- The duration in its largest unit: `1.5s`, `20ms`, `1.000001ms`, `0ns`. -/
def text (d : Duration) : String :=
  if 1000000000 ≤ d.nanos then
    toString (d.nanos / 1000000000) ++ fraction 9 (d.nanos % 1000000000) ++ "s"
  else if 1000000 ≤ d.nanos then
    toString (d.nanos / 1000000) ++ fraction 6 (d.nanos % 1000000) ++ "ms"
  else if 1000 ≤ d.nanos then
    toString (d.nanos / 1000) ++ fraction 3 (d.nanos % 1000) ++ "µs"
  else
    toString d.nanos ++ "ns"

end Duration

end Tether
