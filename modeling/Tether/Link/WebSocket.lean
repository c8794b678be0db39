import Tether.Link.Task
import Tether.Transport.Basic

/-!
# A transport over WebSocket links

The transport holds the handle of at most one link. A new link is asked for only after the previous
one was told to close; payloads go to the link of the latest opening, and are refused when there is
none or when its task has ended by itself. These are the operations `open` (`start`), `send`,
`close` and `has_link` (`isLinked`) of a `WsTransport`.
-/

namespace Tether.Link

/-- A link and the orders given to it. -/
structure Handle where
  /-- The attempt the link belongs to. -/
  generation : Generation
  /-- The task. -/
  task : Task
  /-- The orders that the task has taken, oldest first. -/
  taken : List Order := []
  /-- The orders not yet taken, oldest first. -/
  orders : List Order := []

/-- Whether the task still takes orders. -/
def Handle.isOpen (h : Handle) : Bool := !h.task.isEnded

/-- Gives an order. -/
def Handle.order (h : Handle) (o : Order) : Handle := { h with orders := h.orders ++ [o] }

/-- Tells the link to close, unless its task has ended. -/
def Handle.release (h : Handle) : Handle := if h.isOpen then h.order .close else h

/-- Something becomes available to the task that is no order. -/
def Handle.occur (h : Handle) (o : Occurrence) : Handle := { h with task := h.task.step o }

/-- The task takes the first order, if it listens. -/
def Handle.takeOrder (h : Handle) : Handle :=
  match h.orders with
  | [] => h
  | o :: rest =>
    if h.task.isListening then
      { h with task := h.task.step (.order o), taken := h.taken ++ [o], orders := rest }
    else h

/-- What the task reported, under the attempt of its link. -/
def Handle.signals (h : Handle) : List Signal := h.task.reports.map (⟨h.generation, ·⟩)

/-- A transport over WebSocket links. -/
structure WebSocket where
  /-- How payloads are framed. -/
  framing : Framing := .binary
  /-- How long a handshake may take. -/
  connectTimeout : Duration := .ofMillis 10000
  /-- Whether there is something to run links on. -/
  hasRuntime : Bool := true
  /-- The link of the latest opening. -/
  link : Option Handle := none
  /-- The links let go of, latest first. -/
  former : List Handle := []

namespace WebSocket

/-- `has_link`: whether a link is attached whose task has not ended. -/
def isLinked (w : WebSocket) : Bool := w.link.any (·.isOpen)

/-- Tells the link to close and lets go of it. -/
def close (w : WebSocket) : WebSocket :=
  match w.link with
  | none => w
  | some h => { w with link := none, former := h.release :: w.former }

/-- The report of an opening that has nothing to run on. -/
def noRuntime : Report :=
  .failed (Error.transport "no tokio runtime available to drive the WebSocket").message

/-- `open`: starts a link, after the previous one was told to close. -/
def start (w : WebSocket) (endpoint : String) (generation : Generation) :
    WebSocket × List Signal :=
  let w := w.close
  if w.hasRuntime then
    let task : Task := { endpoint, framing := w.framing, connectTimeout := w.connectTimeout }
    ({ w with link := some { generation, task } }, [])
  else (w, [⟨generation, noRuntime⟩])

/-- Hands a payload to the link. -/
def send (w : WebSocket) (payload : Payload) : WebSocket × Option Error :=
  match w.link with
  | none => (w, some (.send "no open WebSocket link" true))
  | some h =>
    if h.isOpen then ({ w with link := some (h.order (.send payload)) }, none)
    else (w, some (.send "WebSocket link task has terminated" true))

end WebSocket

instance : Transport WebSocket where
  openLink w endpoint generation := w.start endpoint.href generation
  send w payload := w.send payload
  closeLink w := (w.close, [])

end Tether.Link
