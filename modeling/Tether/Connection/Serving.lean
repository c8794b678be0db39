import Tether.Bus
import Tether.Connection.Basic

/-!
# Serving a connection

The inboxes of a connection are worked off one item at a time, errands before signals. Each item
gives the events that are to be published for it, in order; publishing them is left to the caller,
who thereby lets subscribers act on the connection before the next item is taken.

`Connection.turn` is one round of `run_event_loop`. What it does with an item are the operations
`handle_signal` (`onSignal`), `handle_reconnect_due` (`onRetry`) and `handle_wake` (`onCheck`).
-/

namespace Tether.Connection

variable {τ : Type} [Transport τ]

/-- Deals with a report of the present attempt. -/
def onReport (c : Connection τ) (report : Report) : Connection τ × List Event :=
  match report with
  | .opened =>
    if c.state = .connecting then
      let c := c.moveTo .opened
      let c := { c with backoff := c.backoff.reset }.note (.linkOpened c.generation)
      let (c, events) := c.flush
      (c, .opened :: events)
    else (c.note (.openIgnored c.state), [])
  | .message payload =>
    if c.state = .opened then
      (c.note (.messageReceived payload.size), [.messageReceived payload])
    else (c.note (.messageDropped c.state), [])
  | .closed code reason =>
    if c.state.hasLink then c.loseLink code reason else (c, [])
  | .failed message =>
    if c.state.hasLink then (c.note (.transportError message)).loseLink abnormalClose message
    else (c, [])

/-- `handle_signal`: deals with a signal. Only the present generation counts. -/
def onSignal (c : Connection τ) (s : Signal) : Connection τ × List Event :=
  if s.generation = c.generation then c.onReport s.report
  else (c.note (.staleSignal s.generation c.generation), [])

/-- `handle_reconnect_due`: starts the next attempt after a delay, unless the delay belongs to the
past. -/
def onRetry (c : Connection τ) (generation : Generation) : Connection τ :=
  if c.state = .reconnecting ∧ c.generation = generation then { c with timer := none }.openLink
  else c.note (.staleTimer generation c.state)

/-- `handle_wake`: looks at the queue, reports what was discarded, and hands over what can be handed
over. -/
def onCheck (c : Connection τ) : Connection τ × List Event :=
  let dropped := c.unreported
  let c := { c with checkDue := false, unreported := 0 }
  let overflow := if dropped = 0 then [] else [Event.overflow dropped]
  if c.state = .opened then
    let (c, events) := c.flush
    (c, overflow ++ events)
  else (c, overflow)

omit [Transport τ] in
/-- Stops working off the inboxes. What is still in them is lost. -/
def shut (c : Connection τ) : Connection τ :=
  { c.disarm.note .loopEnded with serving := false, errands := [], signals := .empty }

/-- Does an errand. -/
def onErrand (c : Connection τ) (e : Errand) : Connection τ × List Event :=
  match e with
  | .checkQueue => c.onCheck
  | .retry generation => (c.onRetry generation, [])
  | .announce event => (c, [event])
  | .cease => (c.shut, [])

/-- One round of `run_event_loop`. Takes the next item: the first errand, or the first signal if
there is no errand. Gives the events to publish; nothing if there is nothing to do. -/
def turn (c : Connection τ) : Option (Connection τ × List Event) :=
  if !c.serving then none
  else match c.errands with
    | e :: rest => some ({ c with errands := rest }.onErrand e)
    | [] =>
      match c.signals.pop? with
      | some (s, rest) => some ({ c with signals := rest }.onSignal s)
      | none => none

omit [Transport τ] in
/-- The bus of a connection after a turn: who no longer works off the inboxes leaves no subscribers
behind. -/
def busAfter (c : Connection τ) (bus : Bus) : Bus := if c.serving then bus else bus.clear

end Tether.Connection
