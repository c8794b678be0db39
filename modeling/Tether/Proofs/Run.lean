import Tether.Proofs.History

/-!
# Runs

A run is any sequence of acts on a connection: calls of its owner, signals of the transport,
timers, turns of the loop and publications. Handlers of events act as owners do, between two
publications, so a run has no act of its own for them: while a batch of events is being published
the loop takes no turn, and everything else may happen.

The acts assume nothing about their order, and little about the outside: a signal may carry any
generation, a timer may elapse at any time, and one that was given up may have been past giving up
and still put its errand in. Only calls of the owner end, once the owner has let go.
-/

namespace Tether

/-- What can happen to a connection. -/
inductive Act where
  /-- The owner starts the connection. -/
  | start (text : String)
  /-- The owner stops it. -/
  | stop
  /-- The owner sends a message. -/
  | send (payload : Payload)
  /-- The owner lets go of it. -/
  | release
  /-- A link reports something. -/
  | hear (signal : Signal)
  /-- Time goes on. -/
  | advance (millis : Nat)
  /-- The timer elapses, whatever time it is. -/
  | elapse
  /-- A timer that this generation had armed puts its errand in, given up or not. -/
  | straggle (generation : Generation)
  /-- The loop takes a turn. -/
  | turn
  /-- The next event of the batch is published. -/
  | publish

/-- A connection and what surrounds it. -/
structure System (τ : Type) where
  /-- The connection, over a transport that keeps a diary. -/
  connection : Connection (Recorded τ)
  /-- Whether the owner still holds the connection. -/
  held : Bool := true
  /-- The events of the latest turn that are not yet published. -/
  batch : List Event := []

namespace System

variable {τ : Type}

/-- A new connection over a transport. -/
def init (config : Config) (transport : τ) : System τ :=
  { connection := .create config { base := transport } }

/-- What happened so far. -/
def history (s : System τ) : List Mark := s.connection.transport.history

/-- The system with another connection. -/
def put (s : System τ) (c : Connection (Recorded τ)) : System τ := { s with connection := c }

/-- The system with another connection, and in its diary what that did to timer and queue. -/
def become (s : System τ) (c : Connection (Recorded τ)) : System τ :=
  s.put (c.marks (s.connection.aftermath c))

/-- The system after a turn: its events become the batch. -/
def conclude (s : System τ) (result : Connection (Recorded τ) × List Event) : System τ :=
  { s.become result.1 with batch := result.2 }

/-- The owner sends a message. -/
def send (s : System τ) (payload : Payload) : System τ :=
  let (c, receipt) := s.connection.send payload
  let lost := Outbox.departed (s.connection.outbox.ids ++ [receipt.sequence]) c.outbox.ids
  s.put (c.marks [.queued payload receipt lost])

/-- A timer that was armed at some time puts its errand in. -/
def straggle (s : System τ) (generation : Generation) : System τ :=
  if .armed generation ∈ s.history then
    s.put ((s.connection.assign (.retry generation)).marks [.fired generation])
  else s

/-- Publishes the next event of the batch. -/
def publish (s : System τ) : System τ :=
  match s.batch with
  | [] => s
  | event :: rest => { s.put (s.connection.marks [.published event]) with batch := rest }

variable [Transport τ]

/-- The owner starts the connection. -/
def start (s : System τ) (text : String) : System τ :=
  match (s.connection.start text).2 with
  | .ok _ => s.put ((s.connection.marks [.started]).start text).1
  | .error _ => s.put (s.connection.start text).1

/-- The owner stops the connection. -/
def stop (s : System τ) : System τ := s.put (s.connection.stop.marks [.stopped])

/-- The owner lets go of the connection. -/
def release (s : System τ) : System τ :=
  { s.put (s.connection.release.marks [.stopped]) with held := false }

/-- The loop takes a turn. -/
def turn (s : System τ) : System τ :=
  match (s.connection.marks s.connection.cue).turn with
  | none => s
  | some result => s.conclude result

/-- What an act does. -/
def step (s : System τ) (act : Act) : System τ :=
  match act with
  | .start text => if s.held then s.start text else s
  | .stop => if s.held then s.stop else s
  | .send payload => if s.held then s.send payload else s
  | .release => if s.held then s.release else s
  | .hear signal => s.put (s.connection.hear signal)
  | .advance millis => s.become (s.connection.advance millis)
  | .elapse => s.become s.connection.elapse
  | .straggle generation => s.straggle generation
  | .turn => if s.batch.isEmpty then s.turn else s
  | .publish => s.publish

/-- What a sequence of acts does. -/
def run (s : System τ) (acts : List Act) : System τ := acts.foldl step s

end System

end Tether
