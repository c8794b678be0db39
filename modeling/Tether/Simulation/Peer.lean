import Tether.Endpoint.Parse
import Tether.Link.Handshake
import Tether.Link.WebSocket

/-!
# Scenarios of a WebSocket transport

A WebSocket transport and a peer: a step plays the part of the peer or of the owner, and the task
of the link takes what becomes available at once. The network between them is part of the scenario.
Over a network that works, the peer decides how an attempt ends. Over one that cannot be reached,
every attempt fails with the error of the operating system, and a peer that waits for a link waits
in vain, which breaks the scenario off.
-/

namespace Tether.Simulation

open Tether.Link

/-- How an attempt to connect is met. -/
inductive Welcome where
  /-- A peer accepts the link. -/
  | accept
  /-- Nobody listens, and the attempt is turned away at once. -/
  | refuse
  /-- The attempt is taken in, and then nothing more happens. -/
  | stall
  /-- A peer answers the handshake with a fixed text. -/
  | answer (text : String)

/-- Whether a peer waits for the attempt to reach it. -/
def Welcome.isAwaited : Welcome → Bool
  | accept | answer _ => true
  | refuse | stall => false

/-- The network between a transport and its peer. -/
inductive Network where
  /-- Attempts reach the other side. -/
  | working
  /-- No attempt gets through; each ends with this error of the operating system. -/
  | unreachable (message : String)
  deriving DecidableEq, Repr

/-- How an attempt to connect ends. -/
def Network.outcome (network : Network) (welcome : Welcome) : Occurrence :=
  match network, welcome with
  | .unreachable message, _ => .refused (.io message)
  | .working, .accept => .connected
  | .working, .refuse => .refused (.io "Connection refused (os error 111)")
  | .working, .stall => .deadline
  | .working, .answer text => .refused (answerFault text)

/-- Whether an attempt leaves a peer waiting that it never reaches. -/
def Network.strands (network : Network) (welcome : Welcome) : Bool :=
  network != .working && welcome.isAwaited

/-- Why a scenario cannot go on. -/
inductive Breakdown where
  /-- The peer waited for a link that never came. -/
  | peerStranded
  deriving DecidableEq, Repr

/-- The text of the reason. -/
def Breakdown.message : Breakdown → String
  | peerStranded => "accept: Elapsed(())"

/-- The address of a peer. Its port differs from scenario to scenario, so a word stands for it; what
follows is brought into the form that it has in any endpoint. -/
def peerAddress (path : String) : String :=
  let rest := match Endpoint.parse ("ws://127.0.0.1:1" ++ path) with
    | .ok e => e.path ++ Endpoint.marked "?" e.query ++ Endpoint.marked "#" e.fragment
    | .error _ => path
  "ws://127.0.0.1:PORT" ++ rest

/-- A transport, and what is around it. -/
structure PeerWorld where
  /-- The transport. -/
  transport : WebSocket := {}
  /-- Whether a peer is connected to the present link. -/
  peerConnected : Bool := false
  /-- Whether the owner has let go of the transport. -/
  dropped : Bool := false
  /-- The network between the transport and its peers. -/
  network : Network := .working

/-- A step of a scenario of a WebSocket transport. -/
inductive PeerStep where
  /-- Asks for the settings. -/
  | info
  /-- Asks for a link; some payloads are handed over before the handshake can end, and the link may
  be told to close right away. -/
  | openLink (generation : Generation) (path : String) (welcome : Welcome) (early : List Payload)
      (thenClose : Bool)
  /-- Hands over payloads. -/
  | send (payloads : List Payload)
  /-- The peer sends frames. -/
  | peer (frames : List Frame)
  /-- The peer goes away without closing. -/
  | peerGone
  /-- Asks for closing. -/
  | close
  /-- The owner lets go of the transport. -/
  | drop

/-- What a step of a scenario of a WebSocket transport gives. -/
inductive PeerReply where
  /-- The settings. -/
  | settings (framing : Framing) (connectTimeout : Duration)
  /-- What an opening led to: the reports, what the peer got, and how the previous link ended, if
  one was open. -/
  | opened (signals : List Signal) (peer : Option (List Frame)) (previous : Option (List Frame))
  /-- For each payload whether it was refused, and what the peer got. -/
  | sent (refusals : List (Option Error)) (peer : List Frame)
  /-- The reports, and what the peer got in return. -/
  | heard (signals : List Signal) (replies : List Frame)
  /-- The reports alone. -/
  | reports (signals : List Signal)
  /-- The link was closed; what the peer got, if one was connected. -/
  | closed (peer : Option (List Frame))
  /-- The step makes no sense here. -/
  | notApplicable

/-- Close codes that a peer may send. -/
def isSendable (code : Nat) : Bool :=
  1000 ≤ code && code < 5000 && !(1004 ≤ code && code ≤ 1006) && !(1015 ≤ code && code < 3000)

/-- A frame as the protocol layer passes it on: a close code that may not be sent is a violation of
the protocol. -/
def passOn : Frame → Frame
  | .close (some (code, reason)) =>
    if isSendable code then .close (some (code, reason))
    else .close (some (1002, "Protocol violation"))
  | frame => frame

/-- The frames that a peer sends: nothing follows a close. -/
def untilClose : List Frame → List Frame
  | [] => []
  | .close status :: _ => [.close status]
  | frame :: rest => frame :: untilClose rest

/-- The answers of the protocol layer to frames of the peer. -/
def answers (frames : List Frame) : List Frame :=
  frames.filterMap fun
    | .ping content => some (.pong content)
    | _ => none

namespace PeerWorld

/-- The task of a link takes all orders given so far, and writes each payload at once. -/
def settle (h : Handle) : Handle :=
  h.orders.foldl (fun h _ => h.takeOrder.occur (.wrote none)) h

/-- The task of a link takes what becomes available, one after the other. -/
def occurAll (h : Handle) (os : List Occurrence) : Handle := os.foldl Handle.occur h

/-- The reports that a task made beyond the first ones. -/
def newSignals (h : Handle) (before : Nat) : List Signal := h.signals.drop before

/-- Closes the present link and gives what its peer got, if one was connected. -/
def closeNow (w : PeerWorld) : PeerWorld × Option (List Frame) :=
  let got := if w.peerConnected then some [Frame.close none] else none
  ({ w with transport := w.transport.close, peerConnected := false }, got)

/-- Asks for a link and sees it through its handshake. A link that is closed right away is not
waited for. -/
def openLink (w : PeerWorld) (generation : Generation) (path : String) (welcome : Welcome)
    (early : List Payload) (thenClose : Bool) : Except Breakdown (PeerWorld × PeerReply) :=
  let wasOpen := w.transport.isLinked
  let (w, got) := w.closeNow
  let previous := if wasOpen then some (got.getD []) else none
  let (transport, signals) := w.transport.start (peerAddress path) generation
  let transport := early.foldl (fun t p => (t.send p).1) transport
  let transport := if thenClose then transport.close else transport
  let w := { w with transport }
  match w.transport.link with
  | none => .ok (w, .opened signals none previous)
  | some h =>
    if w.network.strands welcome then .error .peerStranded
    else
      let h := occurAll (settle h) (w.network.outcome welcome :: early.map fun _ => .wrote none)
      let up := h.isOpen
      .ok ({ w with transport := { w.transport with link := some h }, peerConnected := up },
        .opened (newSignals h 0) (if up then some h.task.written else none) previous)

/-- Hands over payloads. -/
def send (w : PeerWorld) (payloads : List Payload) : PeerWorld × PeerReply :=
  let (transport, refusals) := payloads.foldl (fun (t, refusals) p =>
    let (t, refusal) := t.send p
    (t, refusal :: refusals)) (w.transport, [])
  let refusals := refusals.reverse
  match transport.link with
  | none => ({ w with transport }, .sent refusals [])
  | some h =>
    let after := settle h
    ({ w with transport := { transport with link := some after } },
      .sent refusals (after.task.written.drop h.task.written.length))

/-- The link hears from its peer. -/
def hear (w : PeerWorld) (os : List Occurrence) : PeerWorld × List Signal :=
  match w.transport.link with
  | none => (w, [])
  | some h =>
    let after := occurAll h os
    ({ w with
        transport := { w.transport with link := some after }
        peerConnected := after.isOpen },
      newSignals after h.task.reports.length)

/-- Carries out a step. -/
def step (w : PeerWorld) (s : PeerStep) : Except Breakdown (PeerWorld × PeerReply) :=
  match s with
  | .peer frames =>
    if w.peerConnected then
      let frames := untilClose frames
      let (w, signals) := w.hear (frames.map fun f => .received (passOn f))
      .ok (w, .heard signals (answers frames))
    else .ok (w, .notApplicable)
  | .peerGone =>
    if w.peerConnected then
      let (w, signals) := w.hear [.readFailed .reset]
      .ok (w, .reports signals)
    else .ok (w, .reports [])
  | s =>
    if w.dropped then .ok (w, .notApplicable)
    else match s with
      | .info => .ok (w, .settings w.transport.framing w.transport.connectTimeout)
      | .openLink generation path welcome early thenClose =>
        w.openLink generation path welcome early thenClose
      | .send payloads => .ok (w.send payloads)
      | .close => let (w, got) := w.closeNow; .ok (w, .closed got)
      | .drop => let (w, got) := w.closeNow; .ok ({ w with dropped := true }, .closed got)
      | _ => .ok (w, .notApplicable)

/-- Whether a link is reported; nothing once the owner has let go of the transport. -/
def linked? (w : PeerWorld) : Option Bool :=
  if w.dropped then none else some w.transport.isLinked

/-- Carries out all steps of a scenario, unless it breaks off. Gives for each step its reply, and
whether a link is reported after it. -/
def run : PeerWorld → List PeerStep → Except Breakdown (List (PeerReply × Option Bool))
  | _, [] => .ok []
  | w, s :: rest => do
    let (w, reply) ← w.step s
    return (reply, w.linked?) :: (← w.run rest)

end PeerWorld

end Tether.Simulation
