import Tether.Endpoint.Basic
import Tether.Error
import Tether.Event

/-!
# Transports

What a connection needs from the layer below it. A transport is asked for a link, is handed
payloads, and is asked to close the link; what becomes of a link it reports later, under the
generation it was asked with. It may also report from inside a call, so opening and closing give
the reports made on the way. The operations are `open` (`openLink`), `send` and `close`
(`closeLink`) of a `Transport`.
-/

namespace Tether

/-- A layer that keeps at most one link at a time. -/
class Transport (τ : Type) where
  /-- `open`: starts a link for a generation and abandons the previous one. -/
  openLink : τ → Endpoint → Generation → τ × List Signal
  /-- Hands over one payload; gives the reason if it is refused. -/
  send : τ → Payload → τ × Option Error
  /-- `close`: closes the link, if there is one. -/
  closeLink : τ → τ × List Signal

end Tether
