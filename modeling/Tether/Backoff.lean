import Tether.Binary64
import Tether.Duration

/-!
# Reconnect delays

The delay before the next attempt grows by a fixed factor with every failure in a row, up to a cap.
The growth is computed in binary floating point; a product that is not below the cap, or has no
value, gives the cap itself.

These are the operations of a `BackoffPolicy`. `delay_for` is `Curve.delay`, `peek_delay` is
`Backoff.peek`, and `next_delay` gives the delay of `peek` and counts the failure with
`Backoff.fail`; `reset` has its name. The counter of failures stops at the largest number of 32
bits.
-/

namespace Tether

/-- How reconnect delays grow. -/
structure Curve where
  /-- The delay after the first failure. -/
  base : Duration
  /-- The factor from one failure to the next. -/
  multiplier : Binary64
  /-- The longest delay. -/
  cap : Duration
  deriving DecidableEq, Repr

/-- The largest failure count, and the largest exponent that is ever taken. -/
def Curve.countMax : Nat := Nat.pow 2 32 - 1

/-- Exponents are cut off here. -/
def Curve.exponentMax : Nat := Nat.pow 2 31 - 1

/-- The nanoseconds of a duration as a binary number. -/
def Duration.toBinary (d : Duration) : Binary64 := Binary64.ofNat d.nanos

/-- `delay_for`: the delay after `failures` earlier failures in a row. -/
def Curve.delay (c : Curve) (failures : Nat) : Duration :=
  let nanos := c.base.toBinary.mul (c.multiplier.power (min failures exponentMax))
  if nanos.isFinite && !(c.cap.toBinary.le nanos) then ⟨nanos.toWord⟩ else c.cap

/-- A curve and the number of failures in a row so far. -/
structure Backoff where
  /-- How delays grow. -/
  curve : Curve
  /-- The failures since the last success. -/
  attempts : Nat := 0
  deriving DecidableEq, Repr

namespace Backoff

/-- `peek_delay`: the delay that the next failure would get. -/
def peek (b : Backoff) : Duration := b.curve.delay b.attempts

/-- Counts a failure. -/
def fail (b : Backoff) : Backoff := { b with attempts := min (b.attempts + 1) Curve.countMax }

/-- Forgets all failures. -/
def reset (b : Backoff) : Backoff := { b with attempts := 0 }

end Backoff

end Tether
