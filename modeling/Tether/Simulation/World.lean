import Tether.Simulation.Script
import Tether.Transport.Scripted

/-!
# A world around a connection

A closed world in which a bus, its scripted subscribers and, if wanted, a connection over a
scripted transport run without threads: time stands still unless it is moved on, and the loop of
the connection runs only when the world settles. Subscribers act inside a publication; what they
publish is delivered at once, to the subscribers of that moment.

Subscribers could keep each other busy for ever, so publications nest only `nesting` deep, and a
settling ends after `rounds` rounds of the loop.
-/

namespace Tether.Simulation

/-- A subscriber that keeps the events it is sent until they are fetched; `none` once nobody can
fetch them any more. -/
abbrev Channel := Option (Fifo Event)

/-- A connection in its surroundings. -/
structure Rig where
  /-- The connection. -/
  connection : Connection Scripted
  /-- Links that were kept under a name, latest first. -/
  sinks : List (String × Generation) := []
  /-- Whether the owner has let go of the connection. -/
  dropped : Bool := false

/-- A bus with its subscribers, and possibly a connection. -/
structure World where
  /-- The bus. -/
  bus : Bus := {}
  /-- The rules of scripted subscribers. -/
  scripts : List (SubscriberId × List (Rule Action)) := []
  /-- The subscribers that keep events. -/
  channels : List (SubscriberId × Channel) := []
  /-- The connection. -/
  rig : Option Rig := none
  /-- What scripted subscribers heard and did, latest first. -/
  calls : List Call := []
  /-- The log, latest first. -/
  log : List Note := []

namespace World

/-- Adds a note to the log. -/
def note (w : World) (n : Note) : World := { w with log := n :: w.log }

/-- Records what a subscriber heard or did. -/
def record (w : World) (c : Call) : World := { w with calls := c :: w.calls }

/-- A world is where its bus lives. -/
instance : HasBus World where
  bus w := w.bus
  withBus w bus := { w with bus }
  withNote w n := w.note n

/-! ## Small steps -/

/-- Puts a connection into its place and collects its notes. -/
def withConnection (w : World) (rig : Rig) (c : Connection Scripted) : World :=
  { w with
    rig := some { rig with connection := { c with log := [] } }
    log := c.log ++ w.log }

/-- Does something with the connection, whether its owner still holds it or not. -/
def onRig (w : World) (f : Rig → Connection Scripted → Connection Scripted × Reply) :
    World × Reply :=
  match w.rig with
  | none => (w, .gone)
  | some rig =>
    let (c, reply) := f rig rig.connection
    (w.withConnection rig c, reply)

/-- Does something with a connection that its owner holds. -/
def onHeld (w : World) (f : Connection Scripted → Connection Scripted × Reply) : World × Reply :=
  if w.rig.any (·.dropped) then (w, .gone) else w.onRig fun _ c => f c

/-- Does something with a bus that its owner holds. -/
def onBus (w : World) (f : World → World × Reply) : World × Reply :=
  if w.rig.any (·.dropped) then (w, .gone) else f w

/-- The link of a generation reports something; says whether anyone listens. -/
def emitOn (c : Connection Scripted) (generation : Generation) (report : Report) :
    Connection Scripted × Bool :=
  (c.hear ⟨generation, report⟩, c.serving)

/-- The latest link reports something. -/
def emit (c : Connection Scripted) (report : Report) : Connection Scripted × Bool :=
  match c.transport.mock.sink with
  | some generation => emitOn c generation report
  | none => (c, false)

/-- The latest link reports the messages with the given numbers, up to the first that nobody hears;
says whether all were heard. -/
def emitAll (stem : String) : List Nat → Connection Scripted → Connection Scripted × Bool
  | [], c => (c, true)
  | i :: rest, c =>
    match emit c (.message (numbered stem i)) with
    | (c, true) => emitAll stem rest c
    | (c, false) => (c, false)

/-- Does the same for each number below a bound and collects the results. -/
def collect {α β : Type} (f : α → Nat → α × β) (count : Nat) (a : α) : α × List β :=
  let (a, results) := (List.range count).foldl (fun (a, results) i =>
    let (a, b) := f a i
    (a, b :: results)) (a, [])
  (a, results.reverse)

/-- Changes the transport of a connection. -/
def withTransport (c : Connection Scripted) (f : Scripted → Scripted) : Connection Scripted :=
  { c with transport := f c.transport }

/-- Adds a subscriber that follows rules. -/
def subscribe (w : World) (rules : List (Rule Action)) : World × SubscriberId :=
  let (bus, id) := w.bus.subscribe
  ({ w with bus, scripts := (id, rules) :: w.scripts }.note (.subscribed id), id)

/-- Adds a subscriber that keeps events. -/
def openChannel (w : World) : World × SubscriberId :=
  let (bus, id) := w.bus.subscribe
  ({ w with bus, channels := (id, some .empty) :: w.channels }.note (.subscribed id), id)

/-- Removes a subscriber. -/
def unsubscribe (w : World) (id : SubscriberId) : World × Bool :=
  let (bus, removed) := w.bus.unsubscribe id
  let w := { w with bus }
  (if removed then w.note (.unsubscribed id) else w, removed)

/-- Replaces what is kept under a handle. -/
def replace {α : Type} (id : SubscriberId) (a : α) (entries : List (SubscriberId × α)) :
    List (SubscriberId × α) :=
  entries.map fun (i, b) => if i = id then (i, a) else (i, b)

/-- The channel of a subscriber, if it still can be fetched from. -/
def channel? (w : World) (id : SubscriberId) : Channel := (w.channels.lookup id).join

/-- Fetches the events of a channel. -/
def fetch (w : World) (id : SubscriberId) : World × Option (List Event) :=
  match w.channel? id with
  | some events =>
    ({ w with channels := replace id (some .empty) w.channels }, some events.toList)
  | none => (w, none)

/-- Gives up a channel; its subscription stays. -/
def dropChannel (w : World) (id : SubscriberId) : World × Bool :=
  ({ w with channels := replace id none w.channels }, (w.channel? id).isSome)

/-! ## Actions -/

/-- Carries out an action. `publish` delivers an event, and `self` is the subscriber that acts, if
it is one. -/
def perform (publish : Event → World → World × Nat) (self : Option SubscriberId)
    (action : Action) (w : World) : World × Reply :=
  match action with
  | .start endpoint => w.onHeld fun c => let (c, r) := c.start endpoint; (c, .result r)
  | .startAsConfigured => w.onHeld fun c => let (c, r) := c.startAsConfigured; (c, .result r)
  | .stop => w.onHeld fun c => (c.stop, .done)
  | .send payload => w.onHeld fun c => let (c, r) := c.send payload; (c, .receipt r)
  | .sendMany count stem => w.onHeld fun c =>
    let (c, receipts) := collect (fun c i => c.send (numbered stem i)) count c
    (c, .tally (receipts.countP (·.accepted)) (receipts.foldl (fun n r => n + r.dropped) 0))
  | .state => w.onHeld fun c => (c, .state c.state)
  | .endpoint => w.onHeld fun c => (c, .endpoint c.endpoint)
  | .config => w.onHeld fun c => (c, .config c.config)
  | .describe => w.onHeld fun c => (c, .text c.description)
  | .latestEndpoint => w.onRig fun _ c => (c, .endpoint c.transport.mock.latestEndpoint)
  | .emit report => w.onRig fun _ c => let (c, heard) := emit c report; (c, .flag heard)
  | .emitMany count stem => w.onRig fun _ c =>
    let (c, heard) := emitAll stem (List.range count) c
    (c, .flag heard)
  | .saveSink name =>
    match w.rig with
    | none => (w, .gone)
    | some rig =>
      match rig.connection.transport.mock.sink with
      | some generation =>
        ({ w with rig := some { rig with sinks := (name, generation) :: rig.sinks } },
          .number? (some generation.value))
      | none => (w, .number? none)
  | .sink name report => w.onRig fun rig c =>
    match rig.sinks.lookup name with
    | some generation => let (c, heard) := emitOn c generation report; (c, .flag? (some heard))
    | none => (c, .flag? none)
  | .refuseAfter count lost => w.onRig fun _ c =>
    (withTransport c fun t => { t with mock := { t.mock with refuseAfter := some (count, lost) } },
      .done)
  | .script sends opens closes => w.onRig fun _ c =>
    (withTransport c fun t =>
      { t with
        sends := t.sends ++ sends
        opens := t.opens ++ opens
        closes := t.closes ++ closes }, .done)
  | .subscribe rules => w.onBus fun w => let (w, id) := w.subscribe rules; (w, .number id.value)
  | .unsubscribe given => w.onBus fun w =>
    let (w, removed) := w.unsubscribe (given.getD (self.getD ⟨0⟩))
    (w, .flag removed)
  | .clear => w.onBus fun w => ({ w with bus := w.bus.clear }, .done)
  | .publish event => w.onBus fun w => let (w, n) := publish event w; (w, .number n)
  | .bus => w.onBus fun w => (w, .bus w.bus)

/-! ## Subscribers -/

/-- Carries out the actions of a subscriber and records them. -/
def performAll (publish : Event → World → World × Nat) (id : SubscriberId) :
    List Action → World → World
  | [], w => w
  | action :: rest, w =>
    let (w, reply) := w.perform publish (some id) action
    performAll publish id rest (w.record (.did id action.name reply))

/-- A subscriber hears an event. -/
def react (publish : Event → World → World × Nat) (id : SubscriberId) (event : Event) (w : World) :
    World × Reaction :=
  match w.channels.lookup id with
  | some channel =>
    ({ w with channels := replace id (channel.map (·.push event)) w.channels }, .ok)
  | none =>
    let w := w.record (.heard id event)
    match choose event ((w.scripts.lookup id).getD []) with
    | (none, _) => (w, .ok)
    | (some rule, rules) =>
      let w := { w with scripts := replace id rules w.scripts }
      (w.performAll publish id rule.actions, rule.reaction)

/-- Publishes an event, with further publications nested at most `depth` deep. -/
def publish : Nat → Event → World → World × Nat
  | 0, _, w => (w, 0)
  | depth + 1, event, w => Bus.publish (react (publish depth)) event w

/-- How deep publications nest at most. -/
def nesting : Nat := 100000

/-- Publishes events one after the other. -/
def publishAll (w : World) (events : List Event) : World :=
  events.foldl (fun w event => (publish nesting event w).1) w

/-! ## Running -/

/-- One round of the loop of the connection; `none` if it has nothing to do. -/
def turn (w : World) : Option World :=
  match w.rig with
  | none => none
  | some rig =>
    match rig.connection.turn with
    | none => none
    | some (c, events) =>
      let w := w.withConnection rig c
      some ({ w with bus := c.busAfter w.bus }.publishAll events)

/-- Lets the loop run until it has nothing to do, for at most so many rounds. -/
def settleFor : Nat → World → World
  | 0, w => w
  | rounds + 1, w =>
    match w.turn with
    | none => w
    | some w => settleFor rounds w

/-- How many rounds a settling takes at most. -/
def rounds : Nat := 1000000

/-- Lets the loop run until it has nothing to do. -/
def settle (w : World) : World := settleFor rounds w

/-- Moves time on, with the loop at rest before and after. -/
def advance (w : World) (millis : Nat) : World :=
  let w := w.settle
  match w.rig with
  | none => w
  | some rig => (w.withConnection rig (rig.connection.advance millis)).settle

/-- The owner lets go of the connection; doing so again changes nothing. -/
def drop (w : World) : World × Reply :=
  match w.rig with
  | none => (w, .gone)
  | some rig =>
    if rig.dropped then (w, .done)
    else (w.withConnection { rig with dropped := true } rig.connection.release, .done)

end World

/-- A step of a scenario. -/
inductive Step where
  /-- An action from outside. -/
  | act (action : Action)
  /-- A subscriber that keeps events is added. -/
  | channel
  /-- The events of a channel are fetched. -/
  | fetch (id : SubscriberId)
  /-- A channel is given up. -/
  | dropChannel (id : SubscriberId)
  /-- The loop runs until it has nothing to do. -/
  | settle
  /-- Time goes on. -/
  | advance (millis : Nat)
  /-- The owner lets go of the connection. -/
  | drop

namespace World

/-- Carries out a step. -/
def step (w : World) (s : Step) : World × Reply :=
  match s with
  | .act action => w.perform (publish nesting) none action
  | .channel => let (w, id) := w.openChannel; (w, .number id.value)
  | .fetch id => let (w, events) := w.fetch id; (w, .events events)
  | .dropChannel id => let (w, dropped) := w.dropChannel id; (w, .flag dropped)
  | .settle => (w.settle, .done)
  | .advance millis => (w.advance millis, .done)
  | .drop => w.drop

/-- A world around a new connection; with `channel`, its first subscriber keeps the events. -/
def around (config : Config) (channel : Bool) : Except Error World := do
  let c ← Connection.make config ({} : Scripted) true
  let w := ({} : World).withConnection { connection := c } c
  return if channel then w.openChannel.1 else w

end World

/-- What can be seen after a step. -/
structure Observation where
  /-- What the step gave. -/
  reply : Reply
  /-- What subscribers heard and did. -/
  calls : List Call
  /-- The bus. -/
  bus : Bus
  /-- The connection, unless its owner has let go of it. -/
  connection : Option (Connection Scripted)
  /-- How often a link was asked for. -/
  opens : Nat
  /-- How often closing was asked for. -/
  closes : Nat
  /-- The payloads accepted since the step before. -/
  sent : List Payload
  /-- The events on the first channel since the step before. -/
  events : List Event

namespace World

/-- How many payloads the transport has accepted. -/
def sentCount (w : World) : Nat :=
  (w.rig.map fun rig => rig.connection.transport.mock.sentCount).getD 0

/-- Carries out a step, lets the loop run if asked, and looks at the world. With `watch`, the first
subscriber is a channel that is fetched from after every step. -/
def observe (settling watch : Bool) (w : World) (s : Step) : World × Observation :=
  let before := w.sentCount
  let (w, reply) := w.step s
  let w := if settling then w.settle else w
  let (w, events) := if watch then w.fetch ⟨1⟩ else (w, none)
  let mock := w.rig.map fun rig => rig.connection.transport.mock
  ({ w with calls := [] },
    { reply
      calls := w.calls.reverse
      bus := w.bus
      connection := w.rig.bind fun rig => if rig.dropped then none else some rig.connection
      opens := (mock.map (·.opens)).getD 0
      closes := (mock.map (·.closes)).getD 0
      sent := (mock.map (·.sentAfter before)).getD []
      events := events.getD [] })

/-- Carries out all steps of a scenario. At its end the owner lets go of the connection, if that
has not happened before. -/
def run (settling watch : Bool) (w : World) (steps : List Step) : World × List Observation :=
  let (w, seen) := steps.foldl (fun (w, seen) s =>
    let (w, o) := w.observe settling watch s
    (w, o :: seen)) (w, [])
  (w.drop.1, seen.reverse)

end World

end Tether.Simulation
