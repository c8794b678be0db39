import Tether.Connection.Basic

/-!
# Drafts of a connection

A draft collects settings one at a time, in any order, and remembers whether a transport of the
caller's own was given. Nothing is checked before the connection is made. This is a
`ManagerBuilder`; its `build` is `Draft.connection`.
-/

namespace Tether

/-- The settings collected so far. -/
structure Draft where
  /-- The settings. -/
  config : Config := {}
  /-- Whether a transport was given. -/
  ownTransport : Bool := false
  deriving DecidableEq

namespace Draft

/-- The draft with all its parts by name. -/
def description (d : Draft) : String :=
  "ManagerBuilder \x7b config: " ++ d.config.description ++ ", custom_transport: " ++
    (if d.ownTransport then "true" else "false") ++ " \x7d"

/-- `build`: makes the connection. -/
def connection {τ : Type} (d : Draft) (transport : τ) (hasRuntime : Bool) :
    Except Error (Connection τ) :=
  Connection.make d.config transport hasRuntime

end Draft

end Tether
