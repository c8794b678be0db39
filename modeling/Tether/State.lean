/-!
# The state of a connection

A connection is idle until it is started, then connects, is open, or waits to reconnect, until it
is stopped. `State.canBecome` is the table of the moves between these states: it is the operation
`can_transition_to` of a `ConnectionState`, whose `can_start`, `is_active` and
`is_link_pending_or_up` are `isStartable`, `isUnderWay` and `hasLink`.
-/

namespace Tether

/-- Where a connection stands in its life. -/
inductive State where
  /-- Created and never started. -/
  | idle
  /-- An attempt is under way and not yet confirmed. -/
  | connecting
  /-- The link is confirmed. -/
  | opened
  /-- The link was lost and the next attempt is scheduled. -/
  | reconnecting
  /-- Stopped on request. -/
  | closed
  deriving DecidableEq, Repr, Inhabited

namespace State

/-- Every state, in the order of a connection's life. -/
def all : List State := [idle, connecting, opened, reconnecting, closed]

/-- The name of the state. -/
def text : State → String
  | idle => "Idle"
  | connecting => "Connecting"
  | opened => "Open"
  | reconnecting => "Reconnecting"
  | closed => "Closed"

/-- The state of a given name. -/
def ofText? (name : String) : Option State := all.find? fun s => s.text == name

/-- `can_start`: a connection can be started when it is idle or was stopped. -/
def isStartable : State → Bool
  | idle | closed => true
  | _ => false

/-- `is_active`: between a start and the stop that ends it a connection is under way. -/
def isUnderWay : State → Bool
  | connecting | opened | reconnecting => true
  | _ => false

/-- `is_link_pending_or_up`: in these states the transport holds an attempt that has not ended. -/
def hasLink : State → Bool
  | connecting | opened => true
  | _ => false

/-- `can_transition_to`: the legal moves of a connection. -/
def canBecome : State → State → Bool
  | idle, connecting | closed, connecting | reconnecting, connecting => true
  | connecting, opened => true
  | connecting, reconnecting | opened, reconnecting => true
  | closed, closed => false
  | _, closed => true
  | _, _ => false

/-- The states a connection may move to next. -/
def successors (s : State) : List State := all.filter s.canBecome

end State

end Tether
