import Tether.Error
import Tether.Event
import Tether.Frame

/-!
# The life of one link

Each link has a task of its own. It first waits for the handshake and meanwhile collects the
payloads it is given; then it reports that the link is up, writes what it collected, and from then
on takes turns between frames of the peer and commands of its owner. It ends with one last report,
except when the end was asked for by its owner. This is the operation `run_link` of a WebSocket
transport; the commands are its `LinkCommand`s.

What becomes available to the task, and in which order, is up to its surroundings; the task only
says what it does with it.
-/

namespace Tether.Link

/-- What the owner of a link can ask for. -/
inductive Order where
  /-- Write a payload. -/
  | send (payload : Payload)
  /-- Close the link. -/
  | close
  deriving DecidableEq

/-- Where a task stands. -/
inductive Phase where
  /-- The handshake is under way; payloads given meanwhile wait, oldest first. -/
  | connecting (early : List Payload)
  /-- The link is up; these payloads are written before anything else is looked at. -/
  | up (pending : List Payload)
  /-- The task has ended. -/
  | ended
  deriving DecidableEq

/-- What becomes available to a task. -/
inductive Occurrence where
  /-- The handshake succeeded. -/
  | connected
  /-- The handshake failed. -/
  | refused (fault : LinkFault)
  /-- The handshake took too long. -/
  | deadline
  /-- The owner asks for something. -/
  | order (o : Order)
  /-- The owner has gone. -/
  | abandoned
  /-- A write succeeded, or failed. -/
  | wrote (fault : Option LinkFault)
  /-- The peer sent a frame. -/
  | received (frame : Frame)
  /-- Reading failed. -/
  | readFailed (fault : LinkFault)
  /-- The peer will send nothing more. -/
  | streamEnded
  deriving DecidableEq

/-- The task of one link. -/
structure Task where
  /-- The endpoint as it stands in reports. -/
  endpoint : String
  /-- How payloads are framed. -/
  framing : Framing
  /-- How long the handshake may take. -/
  connectTimeout : Duration
  /-- Where the task stands. -/
  phase : Phase := .connecting []
  /-- The frames written so far. -/
  written : List Frame := []
  /-- The reports made so far. -/
  reports : List Report := []

namespace Task

/-- Whether the task has ended. -/
def isEnded (t : Task) : Bool := t.phase == .ended

/-- Whether the task would take an order now: not while it has payloads to write. -/
def isListening (t : Task) : Bool :=
  match t.phase with
  | .connecting _ | .up [] => true
  | _ => false

/-- Makes a report. -/
def report (t : Task) (r : Report) : Task := { t with reports := t.reports ++ [r] }

/-- Ends the task. -/
def finish (t : Task) : Task := { t with phase := .ended }

/-- Ends the task with a last report. -/
def finishWith (t : Task) (r : Report) : Task := (t.report r).finish

/-- The report of a handshake that did not succeed. -/
def connectFailure (t : Task) (error : Error) : Report :=
  .failed ("connect to " ++ t.endpoint ++ " failed: " ++ error.message)

/-- A frame of the peer, on a link that is up. -/
def receive (t : Task) (frame : Frame) : Task :=
  match frame with
  | .close (some (code, reason)) => t.finishWith (.closed code reason)
  | .close none => t.finishWith (.closed abnormalClose "")
  | .ping _ | .pong _ => t
  | frame => match frame.payload? with
    | some payload => t.report (.message payload)
    | none => t

/-- The task takes what became available. What it is not looking for in its present phase it
leaves alone. -/
def step (t : Task) (o : Occurrence) : Task :=
  match t.phase, o with
  | .connecting early, .connected => { t.report .opened with phase := .up early }
  | .connecting _, .refused fault => t.finishWith (t.connectFailure (.webSocket fault))
  | .connecting _, .deadline =>
    t.finishWith (t.connectFailure (.timeout t.connectTimeout.millisWord))
  | .connecting early, .order (.send payload) =>
    { t with phase := .connecting (early ++ [payload]) }
  | .connecting _, .order .close | .connecting _, .abandoned => t.finish
  | .up (payload :: rest), .wrote none =>
    { t with phase := .up rest, written := t.written ++ [t.framing.encode payload] }
  | .up (_ :: _), .wrote (some fault) =>
    t.finishWith (.failed ("write failed: " ++ (Error.webSocket fault).message))
  | .up [], .received frame => t.receive frame
  | .up [], .readFailed fault => t.finishWith (.failed (Error.webSocket fault).message)
  | .up [], .streamEnded => t.finishWith (.closed abnormalClose "stream ended")
  | .up [], .order (.send payload) => { t with phase := .up [payload] }
  | .up [], .order .close | .up [], .abandoned =>
    { t with written := t.written ++ [Frame.close none], phase := .ended }
  | _, _ => t

/-- The task takes one occurrence after another. -/
def run (t : Task) (os : List Occurrence) : Task := os.foldl step t

end Task

end Tether.Link
