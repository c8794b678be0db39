import Tether.State
import Tether.Duration
import Tether.Endpoint.Host
import Tether.Json.Fault

/-!
# Errors

Every way in which an operation of this library can fail, as a cause with the data that belongs to
it. The wording is in `message` alone. The predicates below sort the causes: is it the caller's
mistake, does it concern the connection, is the link gone, is it worth another attempt. They are
the operations `is_misuse`, `is_connection_error`, `is_connection_lost` and `is_recoverable` of an
`Error`.
-/

namespace Tether

/-- Why a configuration is refused. -/
inductive ConfigFault where
  /-- No message fits into the queue. -/
  | capacity
  /-- A handshake would have no time at all. -/
  | connectTimeout
  /-- The first delay is no delay. -/
  | backoffBase
  /-- The longest delay is shorter than the first one; both in milliseconds. -/
  | backoffCap (cap base : Nat)
  /-- Delays would shrink, or have no value. -/
  | backoffMultiplier (multiplier : Binary64)
  /-- There is nothing to run the connection on. -/
  | noRuntime
  /-- A reason given in words. -/
  | other (message : String)
  deriving DecidableEq, Repr

/-- The text of the reason. -/
def ConfigFault.message : ConfigFault → String
  | capacity => "capacity must be at least 1"
  | connectTimeout => "connect timeout must be greater than zero"
  | backoffBase => "backoff base must be greater than zero"
  | backoffCap cap base =>
    "backoff cap (" ++ toString cap ++ "ms) must not be below base (" ++ toString base ++ "ms)"
  | backoffMultiplier multiplier =>
    "backoff multiplier must be a finite number >= 1.0, got " ++
      Decimal.Layout.plain.write multiplier
  | noRuntime => "connection manager must be created inside a tokio runtime"
  | other message => message

/-- What can go wrong inside the WebSocket protocol. -/
inductive LinkFault where
  /-- The link was closed in good order. -/
  | closed
  /-- The link was used after its end. -/
  | alreadyClosed
  /-- The peer behaves like an attacker. -/
  | attack
  /-- A text is no UTF-8. -/
  | utf8 (message : String)
  /-- The operating system reports an error. -/
  | io (message : String)
  /-- A message is longer than allowed. -/
  | messageTooLong (size max : Nat)
  /-- The handshake has more headers than allowed. -/
  | tooManyHeaders
  /-- The peer went away without closing. -/
  | reset
  /-- The handshake broke off. -/
  | handshakeIncomplete
  /-- The answer to the handshake is not an upgrade. -/
  | status (code : Nat) (reason : String)
  /-- The answer does not name the protocol. -/
  | noUpgradeHeader
  /-- The answer does not confirm the upgrade. -/
  | noConnectionHeader
  /-- The answer does not prove that the request was understood. -/
  | acceptMismatch
  /-- Encrypted links are not supported. -/
  | noTls
  /-- There is no host to connect to. -/
  | noHost
  deriving DecidableEq, Repr

/-- The text of the fault. -/
def LinkFault.message : LinkFault → String
  | closed => "Connection closed normally"
  | alreadyClosed => "Trying to work with closed connection"
  | attack => "Attack attempt detected"
  | utf8 message => "UTF-8 encoding error: " ++ message
  | io message => "IO error: " ++ message
  | messageTooLong size max =>
    "Space limit exceeded: Message too long: " ++ toString size ++ " > " ++ toString max
  | tooManyHeaders => "Space limit exceeded: Too many headers"
  | reset => "WebSocket protocol error: Connection reset without closing handshake"
  | handshakeIncomplete => "WebSocket protocol error: Handshake not finished"
  | status code reason => "HTTP error: " ++ toString code ++ " " ++ reason
  | noUpgradeHeader => "WebSocket protocol error: No \"Upgrade: websocket\" header"
  | noConnectionHeader => "WebSocket protocol error: No \"Connection: upgrade\" header"
  | acceptMismatch => "WebSocket protocol error: Key mismatch in \"Sec-WebSocket-Accept\" header"
  | noTls => "URL error: TLS support not compiled in"
  | noHost => "URL error: No host name in the URL"

/-- Why an operation failed. -/
inductive Error where
  /-- A configuration is refused. -/
  | config (fault : ConfigFault)
  /-- A text names no endpoint. -/
  | invalidEndpoint (given : String) (fault : Endpoint.Fault)
  /-- A connection that is under way was started again. -/
  | alreadyStarted (state : State)
  /-- The transport refused a message; `lost` says that its link is gone. -/
  | send (message : String) (lost : Bool)
  /-- The transport failed. -/
  | transport (message : String)
  /-- A handshake took too long; the deadline is in milliseconds. -/
  | timeout (millis : Nat)
  /-- The operating system reports an error. -/
  | io (message : String)
  /-- A document cannot be read. -/
  | json (failure : Json.Failure)
  /-- The WebSocket protocol failed. -/
  | webSocket (fault : LinkFault)
  deriving DecidableEq, Repr

namespace Error

/-- The name of the kind of error. -/
def kind : Error → String
  | config _ => "Config"
  | invalidEndpoint _ _ => "InvalidEndpoint"
  | alreadyStarted _ => "AlreadyStarted"
  | send _ _ => "Send"
  | transport _ => "Transport"
  | timeout _ => "ConnectionTimeout"
  | io _ => "Io"
  | json _ => "Json"
  | webSocket _ => "WebSocket"

/-- The text of the error. -/
def message : Error → String
  | config fault => "Configuration error: " ++ fault.message
  | invalidEndpoint given fault => "Invalid endpoint '" ++ given ++ "': " ++ fault.message
  | alreadyStarted state => "Connection manager already started (state: " ++ state.text ++ ")"
  | send message _ => "Send failed: " ++ message
  | transport message => "Transport error: " ++ message
  | timeout millis => "Connection timeout after " ++ toString millis ++ "ms"
  | io message => "IO error: " ++ message
  | json failure => "JSON error: " ++ failure.message
  | webSocket fault => "WebSocket error: " ++ fault.message

/-- `is_misuse`: the caller did what is not allowed in the present state. -/
def isMisuse : Error → Bool
  | alreadyStarted _ => true
  | _ => false

/-- `is_connection_error`: the error concerns the connection. -/
def concernsLink : Error → Bool
  | send _ _ | transport _ | timeout _ | webSocket _ => true
  | _ => false

/-- `is_connection_lost`: the error means that the link is gone. -/
def meansLinkLost : Error → Bool
  | send _ lost => lost
  | transport _ | timeout _ | webSocket _ => true
  | _ => false

/-- `is_recoverable`: another attempt may succeed. -/
def isWorthRetry (e : Error) : Bool :=
  e.concernsLink || match e with
    | io _ => true
    | _ => false

end Error

end Tether
