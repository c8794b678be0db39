import Tether.Transport.Mock

/-!
# A transport that follows a script

A recording transport with a script in front of it: errors for the next payloads, and reports to
make from inside the next calls of `open`, `send` and `close`. Where the script has nothing, the
recording transport decides.
-/

namespace Tether

/-- A recording transport and what it does next. -/
structure Scripted where
  /-- The transport that records. -/
  mock : Mock Generation := {}
  /-- What happens to the next payloads: a refusal, or nothing special. -/
  sends : List (Option Error) := []
  /-- The reports to make inside the next openings. -/
  opens : List (List Report) := []
  /-- The reports to make inside the next closings. -/
  closes : List (List Report) := []

namespace Scripted

/-- Reports under one generation. -/
def signals (generation : Generation) (reports : List Report) : List Signal :=
  reports.map (⟨generation, ·⟩)

/-- Offers a payload, after the script had its say. -/
def offer (s : Scripted) (payload : Payload) : Scripted × Option Error :=
  match s.sends with
  | some error :: rest => ({ s with sends := rest }, some error)
  | entries =>
    let (mock, refusal) := s.mock.offer payload
    ({ s with mock, sends := entries.drop 1 }, refusal)

end Scripted

instance : Transport Scripted where
  openLink s endpoint generation :=
    ({ s with mock := s.mock.recordOpen endpoint generation, opens := s.opens.drop 1 },
      Scripted.signals generation (s.opens.headD []))
  send s payload := s.offer payload
  closeLink s :=
    ({ s with mock := s.mock.recordClose, closes := s.closes.drop 1 },
      match s.mock.sink with
      | some generation => Scripted.signals generation (s.closes.headD [])
      | none => [])

end Tether
