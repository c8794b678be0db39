import Tether.Config.Basic
import Tether.Json.Write

/-!
# Configurations as documents

A configuration is saved as an object with a member for each setting, durations in whole
milliseconds. It is loaded from such an object, of which any members may be missing or unknown, or
from a list of the settings in their order.

These are the operations `from_json_str` (`Config.load`, of which `Config.decode` is the part
before validation) and `to_json_string` (`Config.save`) of a `ManagerConfig`.
-/

namespace Tether

/-- Reads a duration in milliseconds. -/
def Duration.read (text : List Char) : Json.Reading (Duration × List Char) :=
  (Json.readWord "u64" text).map fun (ms, rest) => (.ofMillis ms, rest)

/-- The settings of a curve in documents. -/
def Curve.fields : List (Json.Field Curve) :=
  [ .of "base_ms" Duration.read fun c base => { c with base },
    .of "multiplier" Json.readBinary fun c multiplier => { c with multiplier },
    .of "cap_ms" Duration.read fun c cap => { c with cap } ]

/-- Reads a curve. -/
def Curve.read (text : List Char) : Json.Reading (Curve × List Char) :=
  Json.readRecord "struct BackoffConfig" Curve.fields ({} : Config).backoff text

namespace Config

/-- The settings of a connection in documents. -/
def fields : List (Json.Field Config) :=
  [ .of "endpoint" (Json.readString "a string") fun c endpoint => { c with endpoint },
    .of "capacity" (Json.readWord "usize") fun c capacity => { c with capacity },
    .of "overflow_policy" Policy.choice.read fun c policy => { c with policy },
    .of "backoff" Curve.read fun c backoff => { c with backoff },
    .of "connect_timeout_ms" Duration.read fun c connectTimeout => { c with connectTimeout } ]

/-- Reads the settings of a connection. -/
def read (text : List Char) : Json.Reading (Config × List Char) :=
  Json.readRecord "struct ManagerConfig" fields {} text

/-- The settings that a document gives, whether a connection can be made with them or not. -/
def decode (text : String) : Except Error Config :=
  match Json.document read text with
  | .ok c => .ok c
  | .error f => .error (.json f)

/-- `from_json_str`: loads a configuration. -/
def load (text : String) : Except Error Config := do
  let c ← decode text
  c.validate
  return c

/-- The members of a saved configuration. -/
def members (c : Config) : List (String × List Char) :=
  [ ("endpoint", Json.writeString c.endpoint),
    ("capacity", Json.writeNat c.capacity),
    ("overflow_policy", Json.writeString c.policy.text),
    ("backoff", Json.writeObject 2
      [ ("base_ms", Json.writeNat c.backoff.base.millisWord),
        ("multiplier", Json.writeBinary c.backoff.multiplier),
        ("cap_ms", Json.writeNat c.backoff.cap.millisWord) ]),
    ("connect_timeout_ms", Json.writeNat c.connectTimeout.millisWord) ]

/-- `to_json_string`: saves a configuration. -/
def save (c : Config) : String := String.ofList (Json.writeObject 1 c.members)

/-- Whether a configuration comes back equal from its own document. -/
def survives (c : Config) : Bool :=
  match load c.save with
  | .ok d => c.same d
  | .error _ => false

end Config

end Tether
