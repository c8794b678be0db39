import Tether.Bus
import Tether.Connection.Serving

/-!
# Scripts

What can be done to a connection and around it, as data: the calls its owner can make, and the
moves of the remote side. A scripted subscriber answers an event with such actions, chosen by the
first of its rules that fits.
-/

namespace Tether.Simulation

/-- What a scripted subscriber does on an event. -/
structure Rule (α : Type) where
  /-- The name of the event it is for; a star stands for all. -/
  event : String
  /-- How often it may still be used; without limit if absent. -/
  uses : Option Nat
  /-- What is done, in order. -/
  actions : List α
  /-- How it ends. -/
  reaction : Reaction

/-- An action on a connection or around it. -/
inductive Action where
  /-- Starts the connection to an endpoint. -/
  | start (endpoint : String)
  /-- Starts the connection to the endpoint of its settings. -/
  | startAsConfigured
  /-- Stops the connection. -/
  | stop
  /-- Queues a message. -/
  | send (payload : Payload)
  /-- Queues messages made of a common beginning and a number. -/
  | sendMany (count : Nat) (stem : String)
  /-- Asks for the state. -/
  | state
  /-- Asks for the endpoint of the latest start. -/
  | endpoint
  /-- Asks for the endpoint of the latest link. -/
  | latestEndpoint
  /-- Asks for the settings. -/
  | config
  /-- Asks for a description. -/
  | describe
  /-- The latest link reports something. -/
  | emit (report : Report)
  /-- The latest link reports messages made of a common beginning and a number. -/
  | emitMany (count : Nat) (stem : String)
  /-- Keeps the latest link under a name. -/
  | saveSink (name : String)
  /-- A link kept under a name reports something. -/
  | sink (name : String) (report : Report)
  /-- The transport accepts some more payloads and then refuses one. -/
  | refuseAfter (count : Nat) (lost : Bool)
  /-- Extends the script of the transport. -/
  | script (sends : List (Option Error)) (opens closes : List (List Report))
  /-- Adds a scripted subscriber. -/
  | subscribe (rules : List (Rule Action))
  /-- Removes a subscriber; without a handle, the one that acts. -/
  | unsubscribe (id : Option SubscriberId)
  /-- Removes all subscribers. -/
  | clear
  /-- Publishes an event. -/
  | publish (event : Event)
  /-- Asks for the numbers of the bus. -/
  | bus

/-- The name of an action. -/
def Action.name : Action → String
  | start _ => "start"
  | startAsConfigured => "start_configured"
  | stop => "stop"
  | send _ => "send"
  | sendMany _ _ => "send_many"
  | state => "state"
  | endpoint => "endpoint"
  | latestEndpoint => "last_endpoint"
  | config => "config"
  | describe => "debug"
  | emit .opened => "emit_open"
  | emit (.message _) => "emit_message"
  | emit (.closed _ _) => "emit_close"
  | emit (.failed _) => "emit_error"
  | emitMany _ _ => "emit_messages"
  | saveSink _ => "save_sink"
  | sink _ _ => "sink"
  | refuseAfter _ _ => "fail_after"
  | script _ _ _ => "script"
  | subscribe _ => "subscribe"
  | unsubscribe _ => "unsubscribe"
  | clear => "clear"
  | publish _ => "publish"
  | bus => "bus"

/-- What an action gives. -/
inductive Reply where
  /-- Nothing to tell. -/
  | done
  /-- A yes or no. -/
  | flag (value : Bool)
  /-- A yes or no, if the question makes sense. -/
  | flag? (value : Option Bool)
  /-- A number. -/
  | number (value : Nat)
  /-- A number, if there is one. -/
  | number? (value : Option Nat)
  /-- What became of a message. -/
  | receipt (value : Receipt)
  /-- How many messages were accepted and discarded. -/
  | tally (accepted dropped : Nat)
  /-- Whether something succeeded. -/
  | result (value : Except Error Unit)
  /-- A state. -/
  | state (value : State)
  /-- An endpoint, if there is one. -/
  | endpoint (value : Option Endpoint)
  /-- Settings. -/
  | config (value : Config)
  /-- A text. -/
  | text (value : String)
  /-- Events, if there is a channel for them. -/
  | events (value : Option (List Event))
  /-- A bus. -/
  | bus (value : Bus)
  /-- There is no connection any more. -/
  | gone

/-- What a scripted subscriber heard or did. -/
inductive Call where
  /-- It heard an event. -/
  | heard (id : SubscriberId) (event : Event)
  /-- It did something. -/
  | did (id : SubscriberId) (name : String) (reply : Reply)

/-- The text of the `i`-th of several messages with a common beginning. -/
def numbered (stem : String) (i : Nat) : Payload := Payload.ofText (stem ++ toString i)

/-- Whether a rule is for an event and may still be used. -/
def Rule.fits {α : Type} (r : Rule α) (event : Event) : Bool :=
  (r.event == "*" || r.event == event.name) && r.uses != some 0

/-- A rule that was used once more. -/
def Rule.spend {α : Type} (r : Rule α) : Rule α := { r with uses := r.uses.map (· - 1) }

/-- Takes the first rule that fits, and gives the rules with that one spent. -/
def choose {α : Type} (event : Event) : List (Rule α) → Option (Rule α) × List (Rule α)
  | [] => (none, [])
  | r :: rest =>
    if r.fits event then (some r, r.spend :: rest)
    else
      let (chosen, rest) := choose event rest
      (chosen, r :: rest)

end Tether.Simulation
