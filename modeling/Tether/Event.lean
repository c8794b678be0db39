import Tether.Identifier
import Tether.Duration
import Tether.Payload

/-!
# Events

What a transport reports about its link, and what a connection tells its subscribers. A report of a
transport carries the generation of the attempt it belongs to. A `Report` is a `TransportEvent`, a
`Signal` is a `TransportSignal`, and an `Event` is a `ConnectionEvent` with its operations `name`,
`message` (`payload?`) and `is_lifecycle`.
-/

namespace Tether

/-- The close code of a link that ended without being closed. -/
def abnormalClose : Nat := 1006

/-- What a transport reports about its link. -/
inductive Report where
  /-- The link is up. -/
  | opened
  /-- A message arrived. -/
  | message (payload : Payload)
  /-- The link was closed, with a close code and a reason. -/
  | closed (code : Nat) (reason : String)
  /-- The link failed. -/
  | failed (message : String)
  deriving DecidableEq

/-- A report together with the attempt it belongs to. -/
structure Signal where
  /-- The attempt. -/
  generation : Generation
  /-- What happened. -/
  report : Report
  deriving DecidableEq

/-- The report with all its parts by name. -/
def Report.description : Report → String
  | opened => "Open"
  | message payload => "Message(" ++ Text.quotedBytes payload ++ ")"
  | closed code reason =>
    "Close \x7b code: " ++ toString code ++ ", reason: " ++ Text.quoted reason ++ " \x7d"
  | failed reason => "Error \x7b message: " ++ Text.quoted reason ++ " \x7d"

/-- What a connection tells its subscribers. -/
inductive Event where
  /-- The link is up and the queue was handed over. -/
  | opened
  /-- The link ended; a failure has the abnormal code and its text as reason. -/
  | closed (code : Nat) (reason : String)
  /-- A message arrived. -/
  | messageReceived (payload : Payload)
  /-- The queue discarded messages. -/
  | overflow (dropped : Nat)
  /-- The next attempt follows after a delay; attempts are counted from one. -/
  | reconnectScheduled (delay : Duration) (attempt : Nat)
  /-- The transport refused a message, which stays first in the queue. -/
  | sendFailed (sequence : SequenceId) (error : String)
  /-- The connection was stopped. -/
  | stopped
  deriving DecidableEq

namespace Event

/-- The name of the event. -/
def name : Event → String
  | opened => "opened"
  | closed _ _ => "closed"
  | messageReceived _ => "message_received"
  | overflow _ => "overflow"
  | reconnectScheduled _ _ => "reconnect_scheduled"
  | sendFailed _ _ => "send_failed"
  | stopped => "stopped"

/-- The message that arrived, if the event is about one. -/
def payload? : Event → Option Payload
  | messageReceived payload => some payload
  | _ => none

/-- Everything but an arriving message is part of the life of the connection. -/
def isLifecycle (e : Event) : Bool := e.payload?.isNone

end Event

end Tether
