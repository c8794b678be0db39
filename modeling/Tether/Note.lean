import Tether.Error
import Tether.Event
import Tether.Policy

/-!
# Notes

What the parts of a connection write into the log: one constructor for each kind of note, with the
data that belongs to it. Level, wording and fields are rendered from there. The operations that
take notes are those of the connection, its queue, its bus and its transport, each where it stands.
-/

namespace Tether

/-- How urgent a note is, the most urgent level first. -/
inductive Level where
  /-- Something is wrong. -/
  | error
  /-- Something went wrong and is being handled. -/
  | warn
  /-- A step in the life of a connection. -/
  | info
  /-- A detail of such a step. -/
  | debug
  /-- A detail of everyday work. -/
  | trace
  deriving DecidableEq, Repr

namespace Level

/-- The rank of a level, the most urgent first. -/
def rank : Level → Nat
  | error => 0
  | warn => 1
  | info => 2
  | debug => 3
  | trace => 4

/-- The name of a level. -/
def text : Level → String
  | error => "ERROR"
  | warn => "WARN"
  | info => "INFO"
  | debug => "DEBUG"
  | trace => "TRACE"

end Level

/-- The value of a field of a note. -/
inductive FieldValue where
  /-- A number. -/
  | number (value : Nat)
  /-- Anything else. -/
  | text (value : String)
  deriving DecidableEq, Repr

/-- What a part of a connection writes into the log. -/
inductive Note where
  /-- A connection was made. -/
  | created (capacity : Nat) (policy : Policy)
  /-- A connection changed its state. -/
  | transition (before after : State) (generation : Generation)
  /-- The transport is asked for a link. -/
  | opening (generation : Generation) (endpoint : String) (attempt : Nat)
  /-- A start was refused. -/
  | startRejected (state : State)
  /-- A connection was started. -/
  | starting (endpoint : String)
  /-- A link was confirmed. -/
  | linkOpened (generation : Generation)
  /-- A connection was stopped. -/
  | stopped
  /-- The transport reported a failure. -/
  | transportError (message : String)
  /-- The link was lost. -/
  | connectionLost (code : Nat) (reason : String) (delay : Duration) (attempt : Nat)
  /-- A link was confirmed that was not awaited. -/
  | openIgnored (state : State)
  /-- A message arrived while no link was confirmed. -/
  | messageDropped (state : State)
  /-- A message arrived. -/
  | messageReceived (bytes : Nat)
  /-- A report came from an abandoned attempt. -/
  | staleSignal (stale current : Generation)
  /-- A timer of an abandoned attempt elapsed. -/
  | staleTimer (generation : Generation) (state : State)
  /-- A timer was cancelled. -/
  | timerCancelled
  /-- Nothing is handled any more. -/
  | loopEnded
  /-- There is no endpoint to connect to. -/
  | noEndpoint
  /-- A message was queued. -/
  | queued (sequence : SequenceId) (length : Nat)
  /-- The oldest message made room for a new one. -/
  | droppedOldest (evicted : Option SequenceId) (sequence : SequenceId) (capacity : Nat)
  /-- A message did not fit. -/
  | rejectedNew (sequence : SequenceId) (capacity : Nat)
  /-- The transport refused a message. -/
  | flushHalted (sequence : SequenceId) (error : String)
  /-- Messages were handed over. -/
  | flushed (sent remaining : Nat)
  /-- A subscriber was added. -/
  | subscribed (id : SubscriberId)
  /-- A subscriber was removed. -/
  | unsubscribed (id : SubscriberId)
  /-- A subscriber returned an error. -/
  | subscriberFailed (id : SubscriberId) (event error : String)
  /-- A subscriber broke down. -/
  | subscriberPanicked (id : SubscriberId) (event panic : String)
  /-- A transport reported something. -/
  | reported (signal : Signal)
  deriving DecidableEq

namespace Note

/-- The description of a message that may be missing. -/
def evictedText : Option SequenceId → String
  | some s => "Some(SequenceId(" ++ toString s.value ++ "))"
  | none => "None"

/-- The level of a note. -/
def level : Note → Level
  | created .. | transition .. | opening .. | startRejected .. | openIgnored ..
  | messageDropped .. | loopEnded | droppedOldest .. | rejectedNew .. | flushed .. => .debug
  | starting .. | linkOpened .. | stopped => .info
  | transportError .. | connectionLost .. | noEndpoint | flushHalted .. | subscriberFailed ..
  | subscriberPanicked .. => .warn
  | messageReceived .. | staleSignal .. | staleTimer .. | timerCancelled | queued ..
  | subscribed .. | unsubscribed .. | reported .. => .trace

/-- The wording of a note. -/
def message : Note → String
  | created .. => "Connection manager created"
  | transition .. => "State transition"
  | opening .. => "Opening transport"
  | startRejected .. => "Rejected start"
  | starting .. => "Starting connection"
  | linkOpened .. => "Connection opened"
  | stopped => "Connection stopped"
  | transportError .. => "Transport error"
  | connectionLost .. => "Connection lost, scheduling reconnect"
  | openIgnored .. => "Ignoring open outside Connecting"
  | messageDropped .. => "Dropping message outside Open"
  | messageReceived .. => "Message received"
  | staleSignal .. => "Ignoring signal from superseded attempt"
  | staleTimer .. => "Ignoring stale reconnect timer"
  | timerCancelled => "Reconnect timer cancelled"
  | loopEnded => "Event loop terminated"
  | noEndpoint => "Open requested without an endpoint"
  | queued .. => "Message queued"
  | droppedOldest .. => "Queue full, dropped oldest"
  | rejectedNew .. => "Queue full, rejected new message"
  | flushHalted .. => "Transport refused message, flush halted"
  | flushed .. => "Flushed send queue"
  | subscribed .. => "Subscriber registered"
  | unsubscribed .. => "Subscriber removed"
  | subscriberFailed .. => "Subscriber failed"
  | subscriberPanicked .. => "Subscriber panicked"
  | reported .. => "Transport event"

/-- The fields of a note. -/
def fields : Note → List (String × FieldValue)
  | created capacity policy =>
    [("capacity", .number capacity), ("policy", .text policy.description)]
  | transition before after generation =>
    [("from", .text before.text), ("to", .text after.text), ("generation", .text generation.text)]
  | opening generation endpoint attempt =>
    [("generation", .text generation.text), ("endpoint", .text endpoint),
      ("attempt", .number attempt)]
  | startRejected state | openIgnored state | messageDropped state => [("state", .text state.text)]
  | starting endpoint => [("endpoint", .text endpoint)]
  | linkOpened generation => [("generation", .text generation.text)]
  | transportError message => [("error", .text message)]
  | connectionLost code reason delay attempt =>
    [("code", .number code), ("reason", .text reason), ("delay", .text delay.text),
      ("attempt", .number attempt)]
  | messageReceived bytes => [("bytes", .number bytes)]
  | staleSignal stale current => [("stale", .text stale.text), ("current", .text current.text)]
  | staleTimer generation state =>
    [("generation", .text generation.text), ("state", .text state.text)]
  | queued sequence length => [("sequence", .text sequence.text), ("queued", .number length)]
  | droppedOldest evicted sequence capacity =>
    [("evicted", .text (evictedText evicted)), ("sequence", .text sequence.text),
      ("capacity", .number capacity)]
  | rejectedNew sequence capacity =>
    [("sequence", .text sequence.text), ("capacity", .number capacity)]
  | flushHalted sequence error => [("sequence", .text sequence.text), ("error", .text error)]
  | flushed sent remaining => [("sent", .number sent), ("remaining", .number remaining)]
  | subscribed id | unsubscribed id => [("id", .text id.text)]
  | subscriberFailed id event error =>
    [("subscriber", .text id.text), ("event", .text event), ("error", .text error)]
  | subscriberPanicked id event panic =>
    [("subscriber", .text id.text), ("event", .text event), ("panic", .text panic)]
  | reported signal =>
    [("generation", .text signal.generation.text), ("event", .text signal.report.description)]
  | stopped | timerCancelled | loopEnded | noEndpoint => []

/-- The notes at a level or above it in urgency. -/
def upTo (level : Level) (notes : List Note) : List Note :=
  notes.filter fun n => n.level.rank ≤ level.rank

end Note

end Tether
