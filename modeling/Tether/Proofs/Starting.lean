import Tether.Proofs.Attempts

/-!
# Starting

A start comes to one of three things: it is refused because the connection is under way, it is
refused because the text names no endpoint, or it is granted. The first is looked at before the
second, so a connection that is under way does not read the text at all. A start that is refused
leaves everything as it was, up to a note in the log.

One that is granted makes an attempt under the next generation. All that earlier attempts have left
behind, sinks and timers, carries generations up to the present one, so the new attempt cannot be
taken for any of them.
-/

namespace Tether

theorem State.isStartable_iff (a : State) : a.isStartable = true ↔ a = .idle ∨ a = .closed := by
  cases a <;> simp [State.isStartable]

theorem State.isStartable_eq_false_iff (a : State) :
    a.isStartable = false ↔ a = .connecting ∨ a = .opened ∨ a = .reconnecting := by
  cases a <;> simp [State.isStartable]

variable {τ : Type} [Transport τ]

/-- An attempt asks the transport for a link, once, and for nothing else. -/
theorem Connection.openLink_calls (c : Connection (Recorded τ)) {endpoint : Endpoint}
    (he : c.endpoint = some endpoint) :
    ∃ signals log, c.openLink =
      { c with
        generation := c.generation.next, state := .connecting, live := true
        transport := ⟨(Transport.openLink c.transport.base endpoint c.generation.next).1,
          c.transport.history ++ [.opened endpoint c.generation.next]⟩
        signals, log } := by
  obtain ⟨signals, log, h, -⟩ := hearAll_eq
    { ({ { c with generation := c.generation.next }.moveTo .connecting with live := true }).note
        (.opening c.generation.next endpoint.href c.backoff.attempts) with
      transport := (Transport.openLink c.transport endpoint c.generation.next).1 }
    (Transport.openLink c.transport endpoint c.generation.next).2
  refine ⟨signals, log, ?_⟩
  rw [c.openLink_of_some he]
  exact h

namespace System

/-- What a start can come to: what it returns, and the system after it. -/
inductive Started (s : System τ) (text : String) : Except Error Unit → System τ → Prop where
  /-- The connection is under way. -/
  | underWay (hs : s.connection.state.isStartable = false) :
      Started s text (.error (.alreadyStarted s.connection.state))
        (s.put { s.connection with
          log := .startRejected s.connection.state :: s.connection.log })
  /-- The text names no endpoint. -/
  | invalid (fault : Endpoint.Fault) (hs : s.connection.state.isStartable = true)
      (hp : Endpoint.parse text = .error fault) :
      Started s text (.error (.invalidEndpoint text fault)) s
  /-- The first attempt is made. -/
  | granted (endpoint : Endpoint) (signals : Fifo Signal) (log : List Note)
      (hs : s.connection.state.isStartable = true) (hp : Endpoint.parse text = .ok endpoint) :
      Started s text (.ok ())
        (s.put { s.connection with
          state := .connecting, endpoint := some endpoint, live := true
          generation := s.connection.generation.next, backoff := s.connection.backoff.reset
          transport :=
            ⟨(Transport.openLink s.connection.transport.base endpoint
                s.connection.generation.next).1,
              s.history ++ [.started, .opened endpoint s.connection.generation.next]⟩
          signals, log })

theorem start_spec (s : System τ) (text : String) :
    Started s text (s.connection.start text).2 (s.start text) := by
  cases hs : s.connection.state.isStartable with
  | false =>
    have hc : s.connection.start text = (s.connection.note (.startRejected s.connection.state),
        .error (.alreadyStarted s.connection.state)) := by
      simp [Connection.start, hs]
    have hst : s.start text = s.put (s.connection.note (.startRejected s.connection.state)) := by
      simp [start, hc]
    rw [hc, hst]
    exact .underWay hs
  | true =>
    cases hp : Endpoint.parse text with
    | error fault =>
      have hc : s.connection.start text =
          (s.connection, .error (.invalidEndpoint text fault)) := by
        simp [Connection.start, hs, Endpoint.ofText, hp]
      have hst : s.start text = s := by simp [start, hc, put]
      rw [hc, hst]
      exact .invalid fault hs hp
    | ok endpoint =>
      have hr : (s.connection.start text).2 = .ok () := by
        simp [Connection.start, hs, Endpoint.ofText, hp]
      have hst : s.start text = s.put
          { (s.connection.marks [.started]).note (.starting endpoint.href) with
            endpoint := some endpoint, backoff := s.connection.backoff.reset }.openLink := by
        have hm : (s.connection.marks [.started]).state.isStartable = true := hs
        simp only [start, Connection.start, hs, hm, Endpoint.ofText, hp]
        rfl
      obtain ⟨signals, log, ho⟩ :=
        ({ (s.connection.marks [.started]).note (.starting endpoint.href) with
          endpoint := some endpoint
          backoff := s.connection.backoff.reset } : Connection (Recorded τ)).openLink_calls rfl
      have hh : s.connection.transport.history ++ [.started] ++
          [.opened endpoint s.connection.generation.next] =
          s.history ++ [.started, .opened endpoint s.connection.generation.next] :=
        List.append_assoc ..
      have hgranted := Started.granted (s := s) endpoint signals log hs hp
      rw [hr, hst, ho]
      rw [← hh] at hgranted
      exact hgranted

omit [Transport τ] in
/-- Whatever was left behind by earlier attempts is older than the next generation: the sinks they
were given, the timers they armed, and the errands of these timers. -/
theorem Tracked.older {φ : Phase} {s : System τ} (h : Tracked φ s) :
    (∀ endpoint g, .opened endpoint g ∈ s.history →
      g.value < s.connection.generation.next.value) ∧
    (∀ g, .armed g ∈ s.history → g.value < s.connection.generation.next.value) ∧
    ∀ g, .retry g ∈ s.connection.errands → g.value < s.connection.generation.next.value := by
  refine ⟨?_, ?_, ?_⟩
  · intro endpoint g hm
    have hg : g ∈ openings s.history := List.mem_filterMap.mpr ⟨_, hm, rfl⟩
    exact Nat.lt_succ_of_le (h.dated.opened g hg)
  · intro g hm
    exact Nat.lt_succ_of_le (h.dated.armed_le (mem_armings.mpr hm))
  · intro g hm
    exact Nat.lt_succ_of_le (h.errand_le hm)

end System

/-- A start does all of its work or none. In every state that a run can reach it is refused as a
second start, with that state, just if the connection is under way, whatever the text; and for its
text just if the connection is idle or closed and the text names no endpoint. Either way nothing
changes but the log, neither in the connection nor in the transport. Otherwise it is granted: the
transport was asked for a link, once, to the endpoint that the text names, under a generation that
comes after those of all sinks, all timers and all errands of timers that there are. The connection
connects, counts no failures, and has its queue and its errands as they were. -/
theorem start_all_or_nothing {τ : Type} [Transport τ] (config : Config) (transport : τ)
    (acts : List Act) (text : String) :
    let s := (System.init config transport).run acts
    let c := s.connection
    let result := (c.start text).2
    let s' := s.start text
    let c' := s'.connection
    (∀ state, result = .error (.alreadyStarted state) ↔
      state = c.state ∧ (c.state = .connecting ∨ c.state = .opened ∨ c.state = .reconnecting)) ∧
    (∀ given fault, result = .error (.invalidEndpoint given fault) ↔
      given = text ∧ (c.state = .idle ∨ c.state = .closed) ∧
        Endpoint.parse text = .error fault) ∧
    (result = .ok () ↔
      (c.state = .idle ∨ c.state = .closed) ∧ ∃ endpoint, Endpoint.parse text = .ok endpoint) ∧
    (result ≠ .ok () → s' = s.put { c with log := c'.log }) ∧
    (result = .ok () → ∃ endpoint, Endpoint.parse text = .ok endpoint ∧
      s'.history = s.history ++ [.started, .opened endpoint c'.generation] ∧
      c'.transport.base = (Transport.openLink c.transport.base endpoint c'.generation).1 ∧
      (∀ earlier g, .opened earlier g ∈ s.history → g.value < c'.generation.value) ∧
      (∀ g, .armed g ∈ s.history → g.value < c'.generation.value) ∧
      (∀ g, .retry g ∈ c.errands → g.value < c'.generation.value) ∧
      c'.state = .connecting ∧ c'.live = true ∧ c'.endpoint = some endpoint ∧
      c'.backoff.attempts = 0 ∧ c'.timer = none ∧ c'.outbox = c.outbox ∧
      c'.unreported = c.unreported ∧ c'.checkDue = c.checkDue ∧ c'.errands = c.errands ∧
      s'.batch = s.batch) := by
  intro s c
  obtain ⟨φ, ht⟩ := System.tracked_run config transport acts
  have htimer := (System.orderly_run config transport acts).timer_eq_none
  have hst : s.Started text (c.start text).2 (s.start text) := s.start_spec text
  rw [← State.isStartable_iff, ← State.isStartable_eq_false_iff]
  generalize (c.start text).2 = result, s.start text = s' at hst ⊢
  cases hst with
  | underWay hs =>
    replace hs : c.state.isStartable = false := hs
    refine ⟨fun state => ?_, ?_, ?_, fun _ => rfl, fun h => by cases h⟩
    · simp [hs, c, eq_comm]
    · simp [hs]
    · simp [hs]
  | invalid fault hs hp =>
    replace hs : c.state.isStartable = true := hs
    refine ⟨?_, fun given other => ?_, ?_, fun _ => rfl, fun h => by cases h⟩
    · simp [hs]
    · simp [hs, hp, eq_comm]
    · simp [hp]
  | granted endpoint signals log hs hp =>
    replace hs : c.state.isStartable = true := hs
    have hrest : c.state ≠ .reconnecting := by
      intro h
      simp [h, State.isStartable] at hs
    obtain ⟨hsinks, htimers, herrands⟩ := ht.older
    refine ⟨?_, ?_, ?_, fun h => absurd rfl h, fun _ => ?_⟩
    · simp [hs]
    · simp [hp]
    · simp [hs, hp]
    · exact ⟨endpoint, hp, rfl, rfl, hsinks, htimers, herrands, rfl, rfl, rfl, rfl, htimer hrest,
        rfl, rfl, rfl, rfl, rfl⟩

end Tether
