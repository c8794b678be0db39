import Tether.Endpoint.Host

/-!
# Endpoints

The address of a WebSocket server. An endpoint is kept in its parts, each already in the form in
which it is written, so that `href` only joins them. The path is a list of segments: what stands
between its slashes. What `parse_endpoint` gives is such an endpoint.
-/

namespace Tether

/-- The address of a WebSocket server. -/
structure Endpoint where
  /-- Whether the link is encrypted. -/
  secure : Bool
  /-- The user name, possibly empty. -/
  username : String := ""
  /-- The password, never empty. -/
  password : Option String := none
  /-- The host. -/
  host : Endpoint.Host
  /-- The port, if it is not the usual one. -/
  port : Option Nat := none
  /-- The segments of the path, at least one. -/
  segments : List String := [""]
  /-- The query, if there is one. -/
  query : Option String := none
  /-- The fragment, if there is one. -/
  fragment : Option String := none
  deriving DecidableEq, Repr

namespace Endpoint

/-- The scheme of plain or encrypted links. -/
def schemeOf (secure : Bool) : String := if secure then "wss" else "ws"

/-- The port that is used when none is given. -/
def usualPort (secure : Bool) : Nat := if secure then 443 else 80

/-- The scheme. -/
def scheme (e : Endpoint) : String := schemeOf e.secure

/-- The port that is used. -/
def knownPort (e : Endpoint) : Nat := e.port.getD (usualPort e.secure)

/-- The path, with a slash before every segment. -/
def path (e : Endpoint) : String := String.join (e.segments.map ("/" ++ ·))

/-- User name and password with the at sign behind them; nothing if there is neither. -/
def userinfo (e : Endpoint) : String :=
  match e.password with
  | some p => e.username ++ ":" ++ p ++ "@"
  | none => if e.username.isEmpty then "" else e.username ++ "@"

/-- A part that may be missing, with a mark before it. -/
def marked (mark : String) : Option String → String
  | some s => mark ++ s
  | none => ""

/-- The endpoint as one text. -/
def href (e : Endpoint) : String :=
  e.scheme ++ "://" ++ e.userinfo ++ e.host.text ++ marked ":" (e.port.map toString) ++ e.path ++
    marked "?" e.query ++ marked "#" e.fragment

/-- The description of something that may be missing. -/
def described (text : Option String) : String :=
  match text with
  | some s => "Some(" ++ s ++ ")"
  | none => "None"

/-- The endpoint with all its parts by name. -/
def description (e : Endpoint) : String :=
  "Url \x7b scheme: " ++ Text.quoted e.scheme ++ ", cannot_be_a_base: false, username: " ++
    Text.quoted e.username ++ ", password: " ++ described (e.password.map Text.quoted) ++
    ", host: " ++ described (some e.host.description) ++ ", port: " ++
    described (e.port.map toString) ++ ", path: " ++ Text.quoted e.path ++ ", query: " ++
    described (e.query.map Text.quoted) ++ ", fragment: " ++
    described (e.fragment.map Text.quoted) ++ " \x7d"

end Endpoint

end Tether
