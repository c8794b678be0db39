import Tether.Json.Record

/-!
# What happens when the queue is full

Either the oldest message makes room for the new one, or the new one is refused. This is the
`OverflowPolicy` of a send queue, which `enqueue` goes by.
-/

namespace Tether

/-- What happens to messages that do not fit into the queue. -/
inductive Policy where
  /-- The oldest message is discarded. -/
  | dropOldest
  /-- The new message is discarded. -/
  | rejectNew
  deriving DecidableEq, Repr, Inhabited

namespace Policy

/-- The name of the policy in documents. -/
def text : Policy → String
  | dropOldest => "drop-oldest"
  | rejectNew => "reject-new"

/-- The name of the policy in descriptions. -/
def description : Policy → String
  | dropOldest => "DropOldest"
  | rejectNew => "RejectNew"

/-- The two names of policies in documents. -/
def choice : Json.Choice Policy :=
  ⟨(dropOldest.text, dropOldest), (rejectNew.text, rejectNew)⟩

end Policy

end Tether
