import Tether.Config.Basic
import Tether.Outbox

/-!
# Connections

A connection is one logical link that is kept alive over a transport. It has two inboxes: errands,
which it gives itself, and signals, which come from the transport. This module holds its parts and
the small steps from which its operations are made; `Connection.turn`, in the module on serving a
connection, works off the inboxes.

Every attempt to connect has a generation of its own. A signal of another generation than the
present one is ignored, and so is a timer, so nothing that an abandoned attempt still has to say
can disturb the connection.

What the owner can do are the operations `new` (`make`), `start`, `start_configured`
(`startAsConfigured`), `stop`, `send` and `drop` (`release`) of a `ConnectionManager`. The small
steps are those that it takes under its lock: `transition`, `cancel_timer`, `open_locked`,
`reconnect_locked`, `flush_locked` and `request_wake`.

Generations and the count of discarded messages that were not yet reported are machine words of 64
bits. They are taken not to run over: here they have no bound.
-/

namespace Tether

/-- What a connection gives itself to do. -/
inductive Errand where
  /-- Look at the queue. -/
  | checkQueue
  /-- The delay after the end of this generation is over. -/
  | retry (generation : Generation)
  /-- Publish an event. -/
  | announce (event : Event)
  /-- Do nothing more after this. -/
  | cease
  deriving DecidableEq

/-- A timer that will ask for the next attempt. -/
structure Timer where
  /-- The generation that armed it. -/
  generation : Generation
  /-- The millisecond at which it elapses. -/
  due : Nat
  /-- Whether it has elapsed. -/
  elapsed : Bool := false
  deriving DecidableEq, Repr

/-- A connection over a transport. -/
structure Connection (τ : Type) where
  /-- The settings. -/
  config : Config
  /-- Where the connection stands in its life. -/
  state : State := .idle
  /-- The endpoint of the latest start. -/
  endpoint : Option Endpoint := none
  /-- The layer below. -/
  transport : τ
  /-- Whether the transport has an attempt that has not ended. -/
  live : Bool := false
  /-- The present generation; generations are taken not to run out. -/
  generation : Generation := {}
  /-- The failures in a row. -/
  backoff : Backoff
  /-- The timer for the next attempt. -/
  timer : Option Timer := none
  /-- The messages that wait to be sent. -/
  outbox : Outbox
  /-- How many discarded messages were not yet reported, as a number without bound. -/
  unreported : Nat := 0
  /-- Whether looking at the queue is among the errands. -/
  checkDue : Bool := false
  /-- The errands not yet done. -/
  errands : List Errand := []
  /-- The signals not yet looked at. -/
  signals : Fifo Signal := .empty
  /-- Whether the inboxes are still being worked off. -/
  serving : Bool := true
  /-- The present time in milliseconds. -/
  clock : Nat := 0
  /-- What was noted and not yet collected, latest first. -/
  log : List Note := []

namespace Connection

variable {τ : Type}

/-! ## Making a connection -/

/-- A connection in its first state. -/
def create (config : Config) (transport : τ) : Connection τ :=
  { config, transport
    backoff := { curve := config.backoff }
    outbox := .empty config.capacity config.policy
    log := [.created config.capacity config.policy] }

/-- `new`: makes a connection, if its settings are valid and there is something to run it on. -/
def make (config : Config) (transport : τ) (hasRuntime : Bool) : Except Error (Connection τ) := do
  config.validate
  if hasRuntime then return create config transport
  else throw (.config .noRuntime)

/-- The connection with its most important parts by name. -/
def description (c : Connection τ) : String :=
  "ConnectionManager \x7b state: " ++ c.state.text ++ ", queued: " ++ toString c.outbox.length ++
    ", endpoint: " ++ Endpoint.described (c.endpoint.map Endpoint.description) ++ " \x7d"

/-! ## Small steps -/

/-- Takes a note. -/
def note (c : Connection τ) (n : Note) : Connection τ := { c with log := n :: c.log }

/-- Takes several notes, one after the other. -/
def notes (c : Connection τ) (ns : List Note) : Connection τ := ns.foldl note c

/-- `transition`: goes over to another state. -/
def moveTo (c : Connection τ) (next : State) : Connection τ :=
  { c.note (.transition c.state next c.generation) with state := next }

/-- Puts an errand into the inbox. -/
def assign (c : Connection τ) (e : Errand) : Connection τ :=
  if c.serving then { c with errands := c.errands ++ [e] } else c

/-- Takes in a signal of the transport. -/
def hear (c : Connection τ) (s : Signal) : Connection τ :=
  let c := c.note (.reported s)
  if c.serving then { c with signals := c.signals.push s } else c

/-- Takes in several signals of the transport. -/
def hearAll (c : Connection τ) (ss : List Signal) : Connection τ := ss.foldl hear c

/-- `request_wake`: asks for a look at the queue, unless one is already due. -/
def askForCheck (c : Connection τ) : Connection τ :=
  if c.checkDue then c else { c.assign .checkQueue with checkDue := true }

/-! ## Time -/

/-- `cancel_timer`: gives up the timer, if there is one. -/
def disarm (c : Connection τ) : Connection τ :=
  match c.timer with
  | some _ => { c.note .timerCancelled with timer := none }
  | none => c

/-- No timer runs longer than this: thirty years of 365 days, in milliseconds. -/
def longestTimer : Nat := 30 * 365 * 86400 * 1000

/-- The millisecond at which a timer that is armed now elapses: the first whole one after the
delay, or after the longest time that a timer runs. -/
def dueAfter (c : Connection τ) (delay : Duration) : Nat :=
  c.clock + min ((delay.nanos + 999999) / 1000000) longestTimer

/-- Arms the timer for the next attempt. -/
def arm (c : Connection τ) (delay : Duration) : Connection τ :=
  { c with timer := some { generation := c.generation, due := c.dueAfter delay } }

/-- The timer elapses. -/
def elapse (c : Connection τ) : Connection τ :=
  match c.timer with
  | some t =>
    if t.elapsed then c
    else { c with timer := some { t with elapsed := true } }.assign (.retry t.generation)
  | none => c

/-- Time goes on by some milliseconds. -/
def advance (c : Connection τ) (millis : Nat) : Connection τ :=
  let c := { c with clock := c.clock + millis }
  if c.timer.any (·.due ≤ c.clock) then c.elapse else c

/-! ## Links -/

/-- `reconnect_locked`: gives up the link and waits for the next attempt. -/
def loseLink (c : Connection τ) (code : Nat) (reason : String) : Connection τ × List Event :=
  let c := { c with live := false }.moveTo .reconnecting
  let delay := c.backoff.peek
  let c := { c with backoff := c.backoff.fail }
  let attempt := c.backoff.attempts
  let c := (c.note (.connectionLost code reason delay attempt)).disarm.arm delay
  (c, [.closed code reason, .reconnectScheduled delay attempt])

variable [Transport τ]

/-- Closes the link of the transport. -/
def closeLink (c : Connection τ) : Connection τ :=
  let (transport, signals) := Transport.closeLink c.transport
  { c with transport }.hearAll signals

/-- `open_locked`: starts an attempt under a new generation. -/
def openLink (c : Connection τ) : Connection τ :=
  match c.endpoint with
  | none => c.note .noEndpoint
  | some endpoint =>
    let c := { c with generation := c.generation.next }.moveTo .connecting
    let c := { c with live := true }.note
      (.opening c.generation endpoint.href c.backoff.attempts)
    let (transport, signals) := Transport.openLink c.transport endpoint c.generation
    { c with transport }.hearAll signals

/-- `flush_locked`: hands the queue to the transport. A refusal that means the end of the link ends
it. -/
def flush (c : Connection τ) : Connection τ × List Event :=
  let (outbox, transport, result) := c.outbox.flush c.transport
  let c := { c with outbox, transport }.notes (Outbox.flushNotes result outbox.length)
  match result.refusal with
  | none => (c, [])
  | some (sequence, error) =>
    let refused := Event.sendFailed sequence error.message
    if error.meansLinkLost then
      let (c, events) := c.closeLink.loseLink abnormalClose error.message
      (c, refused :: events)
    else (c, [refused])

/-! ## What the owner of a connection can do -/

/-- Starts the connection to an endpoint. -/
def start (c : Connection τ) (text : String) : Connection τ × Except Error Unit :=
  if !c.state.isStartable then (c.note (.startRejected c.state), .error (.alreadyStarted c.state))
  else match Endpoint.ofText text with
    | .error error => (c, .error error)
    | .ok endpoint =>
      let c := c.note (.starting endpoint.href)
      ({ c with endpoint := some endpoint, backoff := c.backoff.reset }.openLink, .ok ())

/-- `start_configured`: starts the connection to the endpoint of its settings. -/
def startAsConfigured (c : Connection τ) : Connection τ × Except Error Unit :=
  c.start c.config.endpoint

/-- Stops the connection. Messages in the queue are kept. -/
def stop (c : Connection τ) : Connection τ :=
  if c.state = .closed then c
  else
    let c := (c.moveTo .closed).disarm
    let c := { c with generation := c.generation.next }
    let c := if c.live then { c.closeLink with live := false } else c
    (c.note .stopped).assign (.announce .stopped)

/-- Queues a message. -/
def send (c : Connection τ) (payload : Payload) : Connection τ × Receipt :=
  let c := c.note c.outbox.enqueueNote
  let (outbox, receipt) := c.outbox.enqueue payload
  ({ c with outbox, unreported := c.unreported + receipt.dropped }.askForCheck, receipt)

/-- `drop`: the owner lets go of the connection. It is stopped, and nothing is done any more after
the errands it has. -/
def release (c : Connection τ) : Connection τ := c.stop.assign .cease

end Connection

end Tether
