import Tether.Fifo
import Tether.Note
import Tether.Transport.Basic

/-!
# The queue of outbound messages

A queue of bounded length that numbers the messages put into it. Messages that do not fit are dealt
with by the policy and counted. Flushing hands messages to a transport, oldest first, until one is
refused; what was not accepted stays in the queue as it was.

These are the operations `enqueue` and `flush` of a `SendQueue`; its `len` is `Outbox.length`, its
`total_dropped` is `discarded`. Positions and the count of discarded messages are machine words of
64 bits, which are taken not to run over: here they have no bound.
-/

namespace Tether

/-- A message that waits to be sent. -/
structure Message where
  /-- Its position in the order of sending. -/
  sequence : SequenceId
  /-- What it carries. -/
  payload : Payload
  deriving DecidableEq

/-- The queue of outbound messages. -/
structure Outbox where
  /-- The messages, in the order of sending. -/
  messages : Fifo Message := .empty
  /-- How many messages fit. -/
  capacity : Nat
  /-- What happens to messages that do not fit. -/
  policy : Policy
  /-- The position of the next message; positions are taken not to run out. -/
  nextId : SequenceId := ⟨1⟩
  /-- How many messages were discarded so far, as a number without bound. -/
  discarded : Nat := 0

/-- What became of a message that was put into the queue. -/
structure Receipt where
  /-- Its position in the order of sending. -/
  sequence : SequenceId
  /-- Whether it is in the queue. -/
  accepted : Bool
  /-- How many messages were discarded for it or with it. -/
  dropped : Nat
  deriving DecidableEq, Repr

/-- What a flush did. -/
structure Flush where
  /-- The messages that were accepted, in order. -/
  sent : List SequenceId
  /-- The message that was refused, and why. -/
  refusal : Option (SequenceId × Error)

namespace Outbox

/-- An empty queue; at least one message fits. -/
def empty (capacity : Nat) (policy : Policy) : Outbox := { capacity := max capacity 1, policy }

/-- How many messages wait. -/
def length (q : Outbox) : Nat := q.messages.size

/-- Whether no further message fits. -/
def isFull (q : Outbox) : Bool := q.capacity ≤ q.length

/-- Puts a message into the queue. -/
def enqueue (q : Outbox) (payload : Payload) : Outbox × Receipt :=
  let message : Message := ⟨q.nextId, payload⟩
  let q' := { q with nextId := q.nextId.next }
  if !q.isFull then
    ({ q' with messages := q.messages.push message }, ⟨q.nextId, true, 0⟩)
  else
    let q' := { q' with discarded := q.discarded + 1 }
    match q.policy with
    | .dropOldest =>
      ({ q' with messages := q.messages.tail.push message }, ⟨q.nextId, true, 1⟩)
    | .rejectNew => (q', ⟨q.nextId, false, 1⟩)

/-- What can become of a message. -/
inductive Queued (q : Outbox) (payload : Payload) : Outbox × Receipt → Prop where
  /-- There is room for it. -/
  | room (hr : q.length < q.capacity) :
      Queued q payload
        ({ q with nextId := q.nextId.next, messages := q.messages.push ⟨q.nextId, payload⟩ },
          ⟨q.nextId, true, 0⟩)
  /-- The oldest message makes room for it. -/
  | evict (hf : q.capacity ≤ q.length) (hp : q.policy = .dropOldest) :
      Queued q payload
        ({ q with
            nextId := q.nextId.next, discarded := q.discarded + 1
            messages := q.messages.tail.push ⟨q.nextId, payload⟩ },
          ⟨q.nextId, true, 1⟩)
  /-- It is refused. -/
  | refuse (hf : q.capacity ≤ q.length) (hp : q.policy = .rejectNew) :
      Queued q payload
        ({ q with nextId := q.nextId.next, discarded := q.discarded + 1 }, ⟨q.nextId, false, 1⟩)

theorem enqueue_cases (q : Outbox) (payload : Payload) : q.Queued payload (q.enqueue payload) := by
  unfold enqueue
  dsimp only
  split
  · next hr => exact .room (by simpa [isFull] using hr)
  · next hf =>
    have hf : q.capacity ≤ q.length := by simpa [isFull] using hf
    split
    · next hp => exact .evict hf hp
    · next hp => exact .refuse hf hp

/-- The note about putting a message into the queue. -/
def enqueueNote (q : Outbox) : Note :=
  if !q.isFull then .queued q.nextId (q.length + 1)
  else match q.policy with
    | .dropOldest =>
      .droppedOldest (q.messages.head?.map (·.sequence)) q.nextId q.capacity
    | .rejectNew => .rejectedNew q.nextId q.capacity

/-- Hands messages to a transport until one is refused. Gives the transport, the messages that were
accepted, the messages that are left, and the refusal. -/
def handOver {τ : Type} [Transport τ] :
    τ → List Message → τ × List Message × List Message × Option Error
  | t, [] => (t, [], [], none)
  | t, m :: rest =>
    match Transport.send t m.payload with
    | (t, some error) => (t, [], m :: rest, some error)
    | (t, none) =>
      let (t, sent, left, refusal) := handOver t rest
      (t, m :: sent, left, refusal)

/-- Hands the messages of the queue to a transport, oldest first, until one is refused. -/
def flush {τ : Type} [Transport τ] (q : Outbox) (t : τ) : Outbox × τ × Flush :=
  let (t, sent, left, error) := handOver t q.messages.toList
  let refusal := match left.head?, error with
    | some m, some error => some (m.sequence, error)
    | _, _ => none
  ({ q with messages := .ofList left }, t, ⟨sent.map (·.sequence), refusal⟩)

/-- The notes about a flush that left `remaining` messages. -/
def flushNotes (result : Flush) (remaining : Nat) : List Note :=
  (match result.refusal with
    | some (sequence, error) => [.flushHalted sequence error.message]
    | none => []) ++
  if result.sent.isEmpty then [] else [.flushed result.sent.length remaining]

end Outbox

end Tether
