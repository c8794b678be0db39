/-!
# Identifiers

Three kinds of number that must not be mixed up: the position of a message in the order of
sending, the handle of a subscriber, and the generation of a connection attempt. Each is its own
type, and each has its own written form.

A `SequenceId` goes on with `next`, a `Generation` with `bump` (`Generation.next`), and `subscribe`
gives each `SubscriberId` once. All three are machine words of 64 bits, counted up one by one. They
are taken not to run over: here each is a number without bound, so what is shown about them is
about runs in which none passes the largest word.
-/

namespace Tether

/-- The position of an outbound message in the order of sending, counted from one. -/
structure SequenceId where
  /-- The position itself. -/
  value : Nat
  deriving DecidableEq, Repr, Inhabited

/-- The handle of one subscriber of an event bus, counted from one. -/
structure SubscriberId where
  /-- The number of the subscription. -/
  value : Nat
  deriving DecidableEq, Repr, Inhabited

/-- The number of a connection attempt. Everything a link reports carries the generation of the
attempt it belongs to, so that late reports of an abandoned attempt can be told apart. -/
structure Generation where
  /-- How often the number was raised so far. -/
  value : Nat := 0
  deriving DecidableEq, Repr, Inhabited

namespace SequenceId

/-- The next position. -/
def next (s : SequenceId) : SequenceId := ⟨s.value + 1⟩

/-- Written with a number sign: `#7`. -/
def text (s : SequenceId) : String := "#" ++ toString s.value

/-- Positions are ordered by their number. -/
def before (a b : SequenceId) : Bool := a.value < b.value

end SequenceId

namespace SubscriberId

/-- Written as `sub-7`. -/
def text (s : SubscriberId) : String := "sub-" ++ toString s.value

end SubscriberId

namespace Generation

/-- The generation of the attempt that follows. -/
def next (g : Generation) : Generation := ⟨g.value + 1⟩

/-- Written as `gen-7`. -/
def text (g : Generation) : String := "gen-" ++ toString g.value

/-- Generations are ordered by their number. -/
def before (a b : Generation) : Bool := a.value < b.value

end Generation

end Tether
