import Tether.Outbox
import Tether.Link.WebSocket
import Tether.Transport.Scripted

/-!
# Scenarios of a queue

A queue by itself, with a scripted transport to flush into.
-/

namespace Tether.Simulation

/-- A queue and its transport. -/
structure QueueWorld where
  /-- The queue. -/
  outbox : Outbox
  /-- The transport. -/
  transport : Scripted := {}
  /-- The log, latest first. -/
  log : List Note := []

/-- A step of a scenario of a queue. -/
inductive QueueStep where
  /-- Queues a message. -/
  | enqueue (payload : Payload)
  /-- Queues messages made of a common beginning and a number. -/
  | enqueueMany (count : Nat) (stem : String)
  /-- Hands the queue to the transport. -/
  | flush
  /-- Hands the queue to a transport that never had a link. -/
  | flushUnlinked
  /-- The transport accepts some more payloads and then refuses one. -/
  | refuseAfter (count : Nat) (lost : Bool)
  /-- Extends the script of the transport. -/
  | refuse (entries : List (Option Error))
  /-- Looks at the messages. -/
  | list
  /-- Takes all messages out. -/
  | drain
  /-- Asks for the bounds of the queue. -/
  | info

/-- What a step of a scenario of a queue gives. -/
inductive QueueReply where
  /-- Nothing to tell. -/
  | done
  /-- What became of a message. -/
  | receipt (value : Receipt)
  /-- The last position, and how many messages were accepted and discarded. -/
  | tally (last accepted dropped : Nat)
  /-- What a flush did. -/
  | flushed (report : Flush)
  /-- Messages. -/
  | messages (value : List Message)
  /-- The bounds of the queue. -/
  | bounds (capacity : Nat) (policy : Policy)

namespace QueueWorld

/-- Adds notes to the log. -/
def notes (w : QueueWorld) (ns : List Note) : QueueWorld := { w with log := ns.reverse ++ w.log }

/-- Queues a message. -/
def enqueue (w : QueueWorld) (payload : Payload) : QueueWorld × Receipt :=
  let note := w.outbox.enqueueNote
  let (outbox, receipt) := w.outbox.enqueue payload
  ({ w with outbox }.notes [note], receipt)

/-- Queues the messages with the given numbers, and counts what became of them. -/
def enqueueAll (stem : String) : List Nat → QueueWorld → Nat × Nat × Nat →
    QueueWorld × Nat × Nat × Nat
  | [], w, tally => (w, tally)
  | i :: rest, w, (_, accepted, dropped) =>
    let (w, r) := w.enqueue (Payload.ofText (stem ++ toString i))
    enqueueAll stem rest w
      (r.sequence.value, accepted + (if r.accepted then 1 else 0), dropped + r.dropped)

/-- Carries out a step. -/
def step (w : QueueWorld) (s : QueueStep) : QueueWorld × QueueReply :=
  match s with
  | .enqueue payload => let (w, r) := w.enqueue payload; (w, .receipt r)
  | .enqueueMany count stem =>
    let (w, last, accepted, dropped) := enqueueAll stem (List.range count) w (0, 0, 0)
    (w, .tally last accepted dropped)
  | .flush =>
    let (outbox, transport, report) := w.outbox.flush w.transport
    ({ w with outbox, transport }.notes (Outbox.flushNotes report outbox.length), .flushed report)
  | .flushUnlinked =>
    let (outbox, _, report) := w.outbox.flush ({} : Link.WebSocket)
    ({ w with outbox }.notes (Outbox.flushNotes report outbox.length), .flushed report)
  | .refuseAfter count lost =>
    let t := w.transport
    ({ w with transport := { t with mock := { t.mock with refuseAfter := some (count, lost) } } },
      .done)
  | .refuse entries =>
    ({ w with transport := { w.transport with sends := w.transport.sends ++ entries } }, .done)
  | .list => (w, .messages w.outbox.messages.toList)
  | .drain =>
    ({ w with outbox := { w.outbox with messages := .empty } },
      .messages w.outbox.messages.toList)
  | .info => (w, .bounds w.outbox.capacity w.outbox.policy)

/-- Carries out a step and gives also the payloads accepted by the transport meanwhile. -/
def observe (w : QueueWorld) (s : QueueStep) : QueueWorld × QueueReply × List Payload :=
  let before := w.transport.mock.sentCount
  let (w, reply) := w.step s
  (w, reply, w.transport.mock.sentAfter before)

end QueueWorld

end Tether.Simulation
