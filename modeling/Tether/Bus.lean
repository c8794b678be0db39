import Tether.Note

/-!
# The event bus

A bus knows its subscribers by their handles, in the order of registration, and counts deliveries
that failed. What a subscriber does with an event is decided by the world the bus lives in: it may
call anything there, also the bus itself. A publication goes to the subscribers that were
registered when it began, whatever happens to the list meanwhile.

These are the operations `subscribe`, `unsubscribe`, `clear` and `publish` of an `EventBus`; its
`subscriber_count` is the length of `subscribers`, its `failed_deliveries` is `failed`. Both
counters are machine words of 64 bits, which are taken not to run out: here they have no bound.
-/

namespace Tether

/-- The subscribers of a stream of events. -/
structure Bus where
  /-- The handle of the next subscriber; handles are taken not to run out. -/
  nextHandle : SubscriberId := ⟨1⟩
  /-- The subscribers in the order of registration. -/
  subscribers : List SubscriberId := []
  /-- How many deliveries failed so far, as a number without bound. -/
  failed : Nat := 0
  deriving DecidableEq, Repr

/-- How a subscriber dealt with an event. -/
inductive Reaction where
  /-- All went well. -/
  | ok
  /-- The subscriber returned an error. -/
  | error (message : String)
  /-- The subscriber broke down, with a message or without one. -/
  | panic (message : Option String)
  deriving DecidableEq, Repr

/-- Whether a delivery succeeded. -/
def Reaction.isOk : Reaction → Bool
  | ok => true
  | _ => false

/-- The note about a delivery that failed. -/
def Reaction.note? (reaction : Reaction) (id : SubscriberId) (event : Event) : Option Note :=
  match reaction with
  | ok => none
  | error message => some (.subscriberFailed id event.name message)
  | panic message =>
    some (.subscriberPanicked id event.name (message.getD "non-string panic payload"))

namespace Bus

/-- Adds a subscriber at the end. -/
def subscribe (b : Bus) : Bus × SubscriberId :=
  ({ b with
      nextHandle := ⟨b.nextHandle.value + 1⟩
      subscribers := b.subscribers ++ [b.nextHandle] },
    b.nextHandle)

/-- Removes a subscriber; says whether it was there. -/
def unsubscribe (b : Bus) (id : SubscriberId) : Bus × Bool :=
  ({ b with subscribers := b.subscribers.filter (· != id) }, b.subscribers.contains id)

/-- Removes all subscribers. -/
def clear (b : Bus) : Bus := { b with subscribers := [] }

/-- Counts a delivery. -/
def count (b : Bus) (reaction : Reaction) : Bus :=
  if reaction.isOk then b else { b with failed := b.failed + 1 }

@[simp] theorem count_subscribers (b : Bus) (reaction : Reaction) :
    (b.count reaction).subscribers = b.subscribers := by
  unfold count
  split <;> rfl

@[simp] theorem count_nextHandle (b : Bus) (reaction : Reaction) :
    (b.count reaction).nextHandle = b.nextHandle := by
  unfold count
  split <;> rfl

/-- The bus with its numbers by name. -/
def description (b : Bus) : String :=
  "EventBus \x7b subscribers: " ++ toString b.subscribers.length ++ ", failed_deliveries: " ++
    toString b.failed ++ " \x7d"

end Bus

/-- A world in which a bus lives. -/
class HasBus (ω : Type) where
  /-- The bus. -/
  bus : ω → Bus
  /-- The world with another bus. -/
  withBus : ω → Bus → ω
  /-- The world with a note added to its log. -/
  withNote : ω → Note → ω

namespace Bus

variable {ω : Type} [HasBus ω]

/-- Takes note of how a subscriber dealt with an event. -/
def conclude (id : SubscriberId) (event : Event) (w : ω) (reaction : Reaction) : ω :=
  let w := HasBus.withBus w ((HasBus.bus w).count reaction)
  match reaction.note? id event with
  | some note => HasBus.withNote w note
  | none => w

/-- Delivers an event to a list of subscribers, one after the other; gives the number of
deliveries that succeeded. -/
def deliver (react : SubscriberId → Event → ω → ω × Reaction) (event : Event) :
    List SubscriberId → ω → ω × Nat
  | [], w => (w, 0)
  | id :: rest, w =>
    let (w, reaction) := react id event w
    let (w, delivered) := deliver react event rest (conclude id event w reaction)
    (w, delivered + if reaction.isOk then 1 else 0)

/-- Delivers an event to all subscribers that are registered now. -/
def publish (react : SubscriberId → Event → ω → ω × Reaction) (event : Event) (w : ω) : ω × Nat :=
  deliver react event (HasBus.bus w).subscribers w

end Bus

end Tether
