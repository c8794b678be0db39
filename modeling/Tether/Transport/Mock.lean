import Tether.Transport.Basic

/-!
# A recording transport

A transport that only writes down what it is asked to do. It can be told to refuse a payload, and
it remembers whom to report to, so that whoever holds it can play the remote side. This is a
`MockTransport`: `fail_send_after` sets `refuseAfter`, and `open_count`, `close_count`,
`last_endpoint`, `sent` and `events` give what was written down.
-/

namespace Tether

/-- A transport that records its calls; `σ` is whom it reports to. -/
structure Mock (σ : Type) where
  /-- How often a link was asked for. -/
  opens : Nat := 0
  /-- How often closing was asked for. -/
  closes : Nat := 0
  /-- The endpoints that links were asked for, latest first. -/
  endpoints : List Endpoint := []
  /-- The payloads accepted so far, latest first. -/
  sent : List Payload := []
  /-- Whom the latest link reports to. -/
  sink : Option σ := none
  /-- How many more payloads are accepted before one is refused, and whether the refusal means
  that the link is gone. -/
  refuseAfter : Option (Nat × Bool) := none

namespace Mock

variable {σ : Type}

/-- The refusal that was asked for. -/
def refusal (lost : Bool) : Error :=
  if lost then .send "mock link dropped" true else .send "mock refused payload" false

/-- `open`: writes down that a link was asked for. -/
def recordOpen (m : Mock σ) (endpoint : Endpoint) (sink : σ) : Mock σ :=
  { m with opens := m.opens + 1, endpoints := endpoint :: m.endpoints, sink := some sink }

/-- `close`: writes down that closing was asked for. -/
def recordClose (m : Mock σ) : Mock σ := { m with closes := m.closes + 1 }

/-- `send`: accepts a payload or refuses it. -/
def offer (m : Mock σ) (payload : Payload) : Mock σ × Option Error :=
  match m.refuseAfter with
  | some (0, lost) => ({ m with refuseAfter := none }, some (refusal lost))
  | some (n + 1, lost) =>
    ({ m with refuseAfter := some (n, lost), sent := payload :: m.sent }, none)
  | none => ({ m with sent := payload :: m.sent }, none)

/-- How many payloads were accepted so far. -/
def sentCount (m : Mock σ) : Nat := m.sent.length

/-- The payloads accepted after the first `n`, in order. -/
def sentAfter (m : Mock σ) (n : Nat) : List Payload := (m.sent.take (m.sentCount - n)).reverse

/-- The endpoint of the latest link. -/
def latestEndpoint (m : Mock σ) : Option Endpoint := m.endpoints.head?

end Mock

/-- A recording transport by itself reports nothing. -/
instance : Transport (Mock Generation) where
  openLink m endpoint generation := (m.recordOpen endpoint generation, [])
  send m payload := m.offer payload
  closeLink m := (m.recordClose, [])

end Tether
