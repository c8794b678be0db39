import Tether.Config.Basic
import Tether.Note
import Tether.Transport.Mock

/-!
# Scenarios of a recording transport

A recording transport by itself. Each link reports to a receiver of its own, which keeps what it
is told until it is fetched or given up.
-/

namespace Tether.Simulation

/-- Whom a link reports to: its generation and the number of its receiver. -/
structure Sink where
  /-- The generation. -/
  generation : Generation
  /-- The number of the receiver. -/
  receiver : Nat

/-- A recording transport and the receivers of its links. -/
structure Recorder where
  /-- The transport. -/
  mock : Mock Sink := {}
  /-- What waits at each receiver; `none` once it was given up. -/
  receivers : Array (Option (List Signal)) := #[]
  /-- The log, latest first. -/
  log : List Note := []

/-- A step of a scenario of a recording transport. -/
inductive RecorderStep where
  /-- Asks for a link. -/
  | openLink (endpoint : String) (generation : Generation)
  /-- Hands over a payload. -/
  | send (payload : Payload)
  /-- Asks for closing. -/
  | close
  /-- Accepts some more payloads and then refuses one. -/
  | refuseAfter (count : Nat) (lost : Bool)
  /-- The latest link reports something. -/
  | emit (report : Report)
  /-- Fetches what waits at a receiver. -/
  | fetch (receiver : Nat)
  /-- Gives up a receiver. -/
  | giveUp (receiver : Nat)

/-- What a step of a scenario of a recording transport gives. -/
inductive RecorderReply where
  /-- Nothing to tell. -/
  | done
  /-- A link was asked for, or the endpoint is none. -/
  | opened (result : Except Error Generation)
  /-- A payload was accepted, or refused. -/
  | sent (refusal : Option Error)
  /-- Whether anyone listens. -/
  | heard (value : Bool)
  /-- What waited at a receiver. -/
  | signals (value : Option (List Signal))

namespace Recorder

/-- Reports something to the receiver of the latest link. -/
def emit (r : Recorder) (report : Report) : Recorder × Bool :=
  match r.mock.sink with
  | none => (r, false)
  | some sink =>
    let signal : Signal := ⟨sink.generation, report⟩
    let r := { r with log := .reported signal :: r.log }
    match (r.receivers[sink.receiver]?).join with
    | none => (r, false)
    | some waiting =>
      let waiting := waiting ++ [signal]
      ({ r with receivers := r.receivers.setIfInBounds sink.receiver (some waiting) }, true)

/-- Carries out a step. -/
def step (r : Recorder) (s : RecorderStep) : Recorder × RecorderReply :=
  match s with
  | .openLink text generation =>
    match Endpoint.ofText text with
    | .error error => (r, .opened (.error error))
    | .ok endpoint =>
      ({ r with
          mock := r.mock.recordOpen endpoint ⟨generation, r.receivers.size⟩
          receivers := r.receivers.push (some []) },
        .opened (.ok generation))
  | .send payload =>
    let (mock, refusal) := r.mock.offer payload
    ({ r with mock }, .sent refusal)
  | .close => ({ r with mock := r.mock.recordClose }, .done)
  | .refuseAfter count lost =>
    ({ r with mock := { r.mock with refuseAfter := some (count, lost) } }, .done)
  | .emit report => let (r, heard) := r.emit report; (r, .heard heard)
  | .fetch i =>
    match (r.receivers[i]?).join with
    | none => (r, .signals none)
    | some waiting =>
      ({ r with receivers := r.receivers.setIfInBounds i (some []) }, .signals (some waiting))
  | .giveUp i => ({ r with receivers := r.receivers.setIfInBounds i none }, .done)

end Recorder

end Tether.Simulation
