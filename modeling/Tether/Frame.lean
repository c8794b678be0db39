import Tether.Json.Record
import Tether.Payload

/-!
# Frames

A payload travels in a frame. A binary frame carries any bytes; a text frame carries characters. A
connection that prefers text still sends binary frames for bytes that are no text, so a frame
always carries exactly the bytes of its payload. `Framing.encode` is the operation `encode` of an
`OutboundFrame`.
-/

namespace Tether

/-- The kind of frame that outbound payloads are put into. -/
inductive Framing where
  /-- Always binary frames. -/
  | binary
  /-- Text frames where the bytes are a text, binary frames otherwise. -/
  | text
  deriving DecidableEq, Repr, Inhabited

/-- What travels over a link. -/
inductive Frame where
  /-- Characters. -/
  | text (content : String)
  /-- Bytes. -/
  | binary (content : Payload)
  /-- A question whether the peer is there. -/
  | ping (content : Payload)
  /-- The answer to it. -/
  | pong (content : Payload)
  /-- The end of the link, possibly with a code and a reason. -/
  | close (status : Option (Nat × String))
  deriving DecidableEq

/-- The message that a frame carries, if it carries one. -/
def Frame.payload? : Frame → Option Payload
  | text content => some content.toUTF8
  | binary content => some content
  | _ => none

namespace Framing

/-- The name of the framing in documents. -/
def label : Framing → String
  | binary => "binary"
  | text => "text"

/-- The name of the framing in descriptions. -/
def description : Framing → String
  | binary => "Binary"
  | text => "Text"

/-- The two names of framings in documents. -/
def choice : Json.Choice Framing := ⟨(binary.label, binary), (text.label, text)⟩

/-- Puts a payload into a frame. -/
def encode (framing : Framing) (payload : Payload) : Frame :=
  match framing with
  | binary => .binary payload
  | text => match payload.text? with
    | some s => .text s
    | none => .binary payload

end Framing

end Tether
