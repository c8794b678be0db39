import Tether.Text.Quoted

/-!
# Payloads

What a connection carries: sequences of bytes, in which it sees no structure. Only where a payload
is to be written as text does it matter whether the bytes are the UTF-8 form of some characters.
Payloads are what `send` takes and `MessageReceived` brings.
-/

namespace Tether

/-- A sequence of bytes. -/
abbrev Payload := ByteArray

instance : DecidableEq Payload := ByteArray.instDecidableEq

namespace Payload

/-- The bytes of a text. -/
def ofText (s : String) : Payload := s.toUTF8

/-- The text whose bytes these are, if there is one. -/
def text? (p : Payload) : Option String := String.fromUTF8? p

end Payload

end Tether
