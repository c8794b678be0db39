import Tether.Backoff
import Tether.Policy
import Tether.Error
import Tether.Endpoint.Parse

/-!
# Configurations

What a connection needs to know before it starts: the endpoint, the bounds of its queue, how it
waits between attempts, and how long a handshake may take. Any values can be put together;
`validate` says whether a connection can be made from them, and why not.

These are the operations `validate` of a `ManagerConfig` and of a `BackoffConfig`, and
`parse_endpoint`, which is `Endpoint.ofText`.
-/

namespace Tether

/-- The settings of a connection. -/
structure Config where
  /-- The endpoint to connect to, as given. -/
  endpoint : String := "ws://localhost/ws/"
  /-- How many messages the queue holds. -/
  capacity : Nat := 1024
  /-- What happens when the queue is full. -/
  policy : Policy := .dropOldest
  /-- How reconnect delays grow. -/
  backoff : Curve := ⟨.ofMillis 100, .ofNat 2, .ofMillis 30000⟩
  /-- How long a handshake may take. -/
  connectTimeout : Duration := .ofMillis 10000
  deriving DecidableEq, Repr

/-- `parse_endpoint`: reads an endpoint, with the given text in the error. -/
def Endpoint.ofText (text : String) : Except Error Endpoint :=
  match Endpoint.parse text with
  | .ok e => .ok e
  | .error fault => .error (.invalidEndpoint text fault)

/-- Whether delays that grow like this are sensible. -/
def Curve.validate (c : Curve) : Except Error Unit :=
  if c.base.isZero then .error (.config .backoffBase)
  else if c.cap.nanos < c.base.nanos then
    .error (.config (.backoffCap c.cap.millis c.base.millis))
  else if !c.multiplier.isFinite || c.multiplier.lt .one then
    .error (.config (.backoffMultiplier c.multiplier))
  else .ok ()

namespace Config

/-- Whether a connection can be made with these settings. -/
def validate (c : Config) : Except Error Unit :=
  if c.capacity = 0 then .error (.config .capacity)
  else if c.connectTimeout.isZero then .error (.config .connectTimeout)
  else do
    c.backoff.validate
    let _ ← Endpoint.ofText c.endpoint
    return ()

theorem one_le_capacity {c : Config} (h : c.validate = .ok ()) : 1 ≤ c.capacity := by
  unfold validate at h
  split at h
  · cases h
  · omega

/-- Equality of settings, with multipliers compared as numbers. -/
def same (a b : Config) : Bool :=
  a.endpoint == b.endpoint && a.capacity == b.capacity && a.policy == b.policy &&
    a.backoff.base == b.backoff.base && a.backoff.multiplier.same b.backoff.multiplier &&
    a.backoff.cap == b.backoff.cap && a.connectTimeout == b.connectTimeout

/-- The settings with all their parts by name. -/
def description (c : Config) : String :=
  "ManagerConfig \x7b endpoint: " ++ Text.quoted c.endpoint ++ ", capacity: " ++
    toString c.capacity ++ ", overflow_policy: " ++ c.policy.description ++
    ", backoff: BackoffConfig \x7b base: " ++ c.backoff.base.text ++ ", multiplier: " ++
    Decimal.Layout.description.write c.backoff.multiplier ++ ", cap: " ++ c.backoff.cap.text ++
    " \x7d, connect_timeout: " ++ c.connectTimeout.text ++ " \x7d"

end Config

end Tether
