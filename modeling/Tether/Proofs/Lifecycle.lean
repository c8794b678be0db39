import Tether.Proofs.Moves

/-!
# The life of a connection

State, liveness, timer, endpoint and failure count of a connection are set apart from each other,
by different operations. Here it is shown that they never disagree: `Orderly` says how they go
together, every move keeps it, and with it no connection ever moves between states against the
table of legal moves or is asked to connect without an endpoint.
-/

namespace Tether

/-- A note that may stand in the log: moves between states are legal, and endpoints are there. -/
def Note.Sound : Note → Prop
  | .transition before after _ => before.canBecome after = true
  | .noEndpoint => False
  | _ => True

theorem State.canBecome_connecting {a : State} (h : a.isStartable = true) :
    a.canBecome .connecting = true := by
  cases a <;> simp_all [State.isStartable, State.canBecome]

theorem State.canBecome_reconnecting {a : State} (h : a.hasLink = true) :
    a.canBecome .reconnecting = true := by
  cases a <;> simp_all [State.hasLink, State.canBecome]

theorem State.canBecome_closed {a : State} (h : a ≠ .closed) : a.canBecome .closed = true := by
  cases a <;> simp_all [State.canBecome]

theorem Backoff.one_le_fail_attempts (b : Backoff) : 1 ≤ b.fail.attempts := by
  have h : b.fail.attempts = min (b.attempts + 1) (2 ^ 32 - 1) := rfl
  omega

namespace System

variable {τ : Type}

/-- How the parts of a connection go together. -/
structure Orderly (s : System τ) : Prop where
  /-- The transport has an attempt just in the states that have a link. -/
  live : s.connection.live = s.connection.state.hasLink
  /-- A timer runs just while the next attempt is awaited. -/
  timer : s.connection.timer.isSome = true ↔ s.connection.state = .reconnecting
  /-- Whatever is under way has an endpoint. -/
  endpoint : s.connection.state.isUnderWay = true → s.connection.endpoint.isSome = true
  /-- A confirmed link forgets all failures. -/
  calm : s.connection.state = .opened → s.connection.backoff.attempts = 0
  /-- A next attempt follows a failure. -/
  tried : s.connection.state = .reconnecting → 1 ≤ s.connection.backoff.attempts
  /-- An idle connection never did anything. -/
  idle : s.connection.state = .idle → s.connection.generation = ⟨0⟩ ∧
    s.connection.endpoint = none ∧ ∀ endpoint generation, .opened endpoint generation ∉ s.history
  /-- Only legal moves were made. -/
  sound : ∀ n ∈ milestones s.connection.log, n.Sound
  /-- Who lets go of a connection has stopped it. -/
  released : s.held = false → s.connection.state = .closed
  /-- Only who lets go of a connection ends its loop. -/
  ceasing : .cease ∈ s.connection.errands → s.held = false

theorem Orderly.init (config : Config) (transport : τ) : Orderly (init config transport) where
  live := rfl
  timer := by simp [System.init, Connection.create]
  endpoint := by simp [System.init, Connection.create, State.isUnderWay]
  calm := by simp [System.init, Connection.create]
  tried := by simp [System.init, Connection.create]
  idle := by simp [System.init, Connection.create, history]
  sound := by simp [System.init, Connection.create, Note.isMilestone, milestones]
  released := by simp [System.init]
  ceasing := by simp [System.init, Connection.create]

variable [Transport τ] {s : System τ}

omit [Transport τ] in
theorem Orderly.timer_eq_none (h : Orderly s) (hs : s.connection.state ≠ .reconnecting) :
    s.connection.timer = none := by
  cases ht : s.connection.timer with
  | none => rfl
  | some t => exact absurd (h.timer.mp (by rw [ht]; rfl)) hs

omit [Transport τ] in
theorem Orderly.held (h : Orderly s) (hs : s.connection.state ≠ .closed) : s.held = true := by
  cases hh : s.held with
  | true => rfl
  | false => exact absurd (h.released hh) hs

/-! ## What does not matter -/

omit [Transport τ] in
/-- Anything but a call for a link may be written into the diary. -/
theorem Orderly.marks {c : Connection (Recorded τ)} (h : Orderly (s.put c)) {ms : List Mark}
    (hm : ∀ endpoint generation, .opened endpoint generation ∉ ms) :
    Orderly (s.put (c.marks ms)) := by
  refine { h with idle := fun hi => ?_ }
  obtain ⟨hg, he, ho⟩ := h.idle hi
  refine ⟨hg, he, fun endpoint generation hmem => ?_⟩
  rcases List.mem_append.mp hmem with hmem | hmem
  · exact ho endpoint generation hmem
  · exact hm endpoint generation hmem

omit [Transport τ] in
theorem opened_not_mem_aftermath (c d : Connection (Recorded τ)) (endpoint : Endpoint)
    (generation : Generation) : .opened endpoint generation ∉ c.aftermath d := by
  intro h
  rcases List.mem_append.mp h with h | h
  · obtain ⟨g, hm | hm⟩ := Connection.eq_of_mem_timerMarks h <;> cases hm
  · obtain ⟨ids, hm⟩ := Connection.eq_handed_of_mem_queueMarks h
    cases hm

omit [Transport τ] in
theorem Orderly.conclude {c : Connection (Recorded τ)} {events : List Event}
    (h : Orderly (s.put c)) : Orderly (s.conclude (c, events)) := by
  have hm : Orderly (s.put (c.marks (s.connection.aftermath c))) :=
    h.marks (opened_not_mem_aftermath _ _)
  exact { hm with }

omit [Transport τ] in
/-- An errand that was given stands behind the others. -/
theorem mem_errands_assign {c : Connection (Recorded τ)} {e e' : Errand}
    (h : e ∈ (c.assign e').errands) : e ∈ c.errands ∨ e = e' := by
  rw [Connection.assign_eq] at h
  dsimp only at h
  split at h
  · rcases List.mem_append.mp h with h | h
    · exact Or.inl h
    · exact Or.inr (List.mem_singleton.mp h)
  · exact Or.inl h

omit [Transport τ] in
/-- Every other errand was there before. -/
theorem mem_errands_of_assign {c : Connection (Recorded τ)} {e e' : Errand}
    (h : e ∈ (c.assign e').errands) (hne : e ≠ e') : e ∈ c.errands :=
  (mem_errands_assign h).resolve_right hne

omit [Transport τ] in
theorem mem_errands_of_rest {c : Connection (Recorded τ)} {e e' : Errand} {rest : List Errand}
    (he : c.errands = e' :: rest) (h : e ∈ rest) : e ∈ c.errands := by
  rw [he]
  exact List.mem_cons_of_mem _ h

omit [Transport τ] in
/-- Any errand may be given but the last one. -/
theorem Orderly.assign {c : Connection (Recorded τ)} (h : Orderly (s.put c)) {e : Errand}
    (he : e ≠ .cease) : Orderly (s.put (c.assign e)) := by
  have hc : .cease ∈ (c.assign e).errands → s.held = false :=
    fun hc => h.ceasing (mem_errands_of_assign hc he.symm)
  rw [Connection.assign_eq] at hc ⊢
  exact { h with ceasing := hc }

/-! ## What matters -/

/-- Whoever has an endpoint and may connect makes an attempt. -/
theorem Orderly.openLink {c : Connection (Recorded τ)} {endpoint : Endpoint}
    (he : c.endpoint = some endpoint) (hs : c.state.canBecome .connecting = true)
    (ht : c.timer = none) (hsound : ∀ n ∈ milestones c.log, n.Sound) (hh : s.held = true)
    (hcease : .cease ∈ c.errands → s.held = false) : Orderly (s.put c.openLink) := by
  obtain ⟨base, signals, log, h, hl⟩ := c.openLink_eq he
  rw [h]
  exact
    { live := rfl
      timer := by simp [put, ht]
      endpoint := fun _ => by simp [put, he]
      calm := by simp [put]
      tried := by simp [put]
      idle := by simp [put]
      sound := by
        show ∀ n ∈ milestones log, n.Sound
        rw [hl]
        exact List.forall_mem_cons.mpr ⟨hs, hsound⟩
      released := fun hf => by simp [put, hh] at hf
      ceasing := hcease }

omit [Transport τ] in
/-- Whoever has a link can lose it. -/
theorem Orderly.lose (h : Orderly s) {c : Connection (Recorded τ)} {due : Nat}
    (hs : s.connection.state.hasLink = true) (hlive : c.live = false)
    (hstate : c.state = .reconnecting) (hendpoint : c.endpoint = s.connection.endpoint)
    (hbackoff : c.backoff = s.connection.backoff.fail)
    (htimer : c.timer = some { generation := s.connection.generation, due := due })
    (hlog : milestones c.log = .transition s.connection.state .reconnecting
      s.connection.generation :: milestones s.connection.log)
    (herrands : c.errands = s.connection.errands) : Orderly (s.put c) where
  live := by
    show c.live = c.state.hasLink
    rw [hlive, hstate]
    rfl
  timer := by simp [put, htimer, hstate]
  endpoint := by
    intro _
    show c.endpoint.isSome = true
    rw [hendpoint]
    apply h.endpoint
    cases hst : s.connection.state <;> simp_all [State.hasLink, State.isUnderWay]
  calm := by simp [put, hstate]
  tried := by
    intro _
    show 1 ≤ c.backoff.attempts
    rw [hbackoff]
    exact Backoff.one_le_fail_attempts _
  idle := by simp [put, hstate]
  sound := by
    show ∀ n ∈ milestones c.log, n.Sound
    rw [hlog]
    exact List.forall_mem_cons.mpr ⟨State.canBecome_reconnecting hs, h.sound⟩
  released := by
    intro hf
    have hc := h.released hf
    simp [hc, State.hasLink] at hs
  ceasing := by
    show .cease ∈ c.errands → s.held = false
    rw [herrands]
    exact h.ceasing

/-- A flush keeps the link, or loses it. -/
theorem Orderly.flush (h : Orderly s) (hs : s.connection.state = .opened) :
    Orderly (s.put s.connection.flush.1) := by
  have hf := s.connection.flush_spec
  generalize s.connection.flush.1 = c, s.connection.flush.2 = events at hf
  have hi : ¬ s.connection.state = .idle := by simp [hs]
  cases hf with
  | drained base sent log hq hl =>
    refine { h with idle := fun hidle => absurd hidle hi, sound := ?_ }
    show ∀ n ∈ milestones log, n.Sound
    rw [hl]
    exact h.sound
  | halted base sent m rest error log hq he hl =>
    refine { h with idle := fun hidle => absurd hidle hi, sound := ?_ }
    show ∀ n ∈ milestones log, n.Sound
    rw [hl]
    exact h.sound
  | lost base sent m rest error signals due log hq he hl =>
    exact h.lose (by simp [hs, State.hasLink]) rfl rfl rfl rfl rfl hl rfl

omit [Transport τ] in
/-- Whatever is not closed can be closed. -/
theorem Orderly.halt (h : Orderly s) {c : Connection (Recorded τ)}
    (hs : s.connection.state ≠ .closed) (hlive : c.live = false) (hstate : c.state = .closed)
    (htimer : c.timer = none)
    (hlog : milestones c.log = .transition s.connection.state .closed
      s.connection.generation :: milestones s.connection.log)
    (herrands : .cease ∈ c.errands → .cease ∈ s.connection.errands) : Orderly (s.put c) where
  live := by
    show c.live = c.state.hasLink
    rw [hlive, hstate]
    rfl
  timer := by simp [put, htimer, hstate]
  endpoint := by simp [put, hstate, State.isUnderWay]
  calm := by simp [put, hstate]
  tried := by simp [put, hstate]
  idle := by simp [put, hstate]
  sound := by
    show ∀ n ∈ milestones c.log, n.Sound
    rw [hlog]
    exact List.forall_mem_cons.mpr ⟨State.canBecome_closed hs, h.sound⟩
  released := fun _ => hstate
  ceasing := fun hc => h.ceasing (herrands hc)

/-- Stopping closes whatever is not closed. -/
theorem Orderly.stop (h : Orderly s) : Orderly (s.put s.connection.stop) := by
  have hst := s.connection.stop_spec
  generalize s.connection.stop = c at hst
  have herrands : .cease ∈ (s.connection.assign (.announce .stopped)).errands →
      .cease ∈ s.connection.errands :=
    fun hc => mem_errands_of_assign hc (by simp)
  rw [Connection.assign_eq] at herrands
  cases hst with
  | already hs => exact h
  | unlinked log hs hv hl => exact h.halt hs hv rfl rfl hl herrands
  | linked base signals log hs hv hl => exact h.halt hs rfl rfl rfl hl herrands

/-! ## Every move -/

/-- Every move keeps the parts of a connection together. -/
theorem Orderly.move {s t : System τ} (h : Orderly s) (hm : Move s t) : Orderly t := by
  cases hm with
  | note n hn =>
    refine { h with sound := ?_ }
    show ∀ m ∈ milestones (n :: s.connection.log), m.Sound
    rw [milestones_cons, hn]
    exact h.sound
  | hear signal =>
    obtain ⟨signals, hc⟩ := s.connection.hear_eq signal
    rw [hc]
    exact { h with }
  | wait millis => exact { h with }
  | grant endpoint hh hs =>
    refine Orderly.openLink rfl (State.canBecome_connecting hs) ?_ h.sound hh h.ceasing
    refine h.timer_eq_none fun hr => ?_
    simp [hr, State.isStartable] at hs
  | stop => exact h.stop.marks (by simp)
  | letGo hs =>
    rw [Connection.assign_eq]
    exact { h with released := fun _ => hs, ceasing := fun _ => rfl }
  | send payload =>
    obtain ⟨errands, log, hsend, he, hl⟩ := s.send_eq payload
    rw [hsend]
    refine Orderly.marks (c := { s.connection with outbox := _, unreported := _, checkDue := _,
                                                   errands, log }) ?_ (by simp)
    refine { h with sound := ?_, ceasing := fun hc => h.ceasing ?_ }
    · show ∀ n ∈ milestones log, n.Sound
      rw [hl]
      exact h.sound
    · rcases he _ hc with hc | hc
      · exact hc
      · cases hc
  | fire t ht he =>
    refine Orderly.marks (Orderly.assign ?_ (by simp)) (by simp)
    have hr := h.timer
    rw [ht] at hr
    exact { h with timer := hr }
  | straggle generation hg =>
    exact Orderly.marks (Orderly.assign (c := s.connection) h (by simp)) (by simp)
  | publish event rest hb =>
    have hp : Orderly (s.put (s.connection.marks [.published event])) :=
      Orderly.marks (c := s.connection) h (by simp)
    exact { hp with }
  | announce event rest he =>
    exact { h with ceasing := fun hc => h.ceasing (mem_errands_of_rest he hc) }
  | check rest he =>
    exact { h with ceasing := fun hc => h.ceasing (mem_errands_of_rest he hc) }
  | stale generation rest he hs =>
    refine Orderly.marks (c := { s.connection with errands := rest }) ?_ (by simp)
    exact { h with ceasing := fun hc => h.ceasing (mem_errands_of_rest he hc) }
  | retry rest he hs =>
    obtain ⟨endpoint, hendpoint⟩ := Option.isSome_iff_exists.mp
      (h.endpoint (by simp [hs, State.isUnderWay]))
    refine Orderly.openLink (show _ = some endpoint from hendpoint) ?_ rfl h.sound ?_ ?_
    · show s.connection.state.canBecome .connecting = true
      rw [hs]
      rfl
    · exact h.held (by simp [hs])
    · exact fun hc => h.ceasing (mem_errands_of_rest he hc)
  | cease rest he =>
    have hh : s.held = false := h.ceasing (by rw [he]; exact List.mem_cons_self ..)
    have hs : s.connection.state = .closed := h.released hh
    obtain ⟨log, hd, hl⟩ := Connection.disarm_eq { s.connection with errands := rest }
    unfold Connection.shut
    rw [hd]
    refine { h with timer := ?_, sound := ?_, ceasing := fun _ => hh }
    · simp [put, Connection.note, hs]
    · show ∀ n ∈ milestones (.loopEnded :: log), n.Sound
      rw [milestones_cons, hl]
      exact h.sound
  | ignore signal rest he hp hi =>
    refine Orderly.marks (c := { s.connection with signals := rest }) ?_ (by simp)
    exact { h with }
  | deliver payload rest he hp hs =>
    have hd : Orderly (s.put (s.connection.hearing
        ⟨s.connection.generation, .message payload⟩ rest)) := by
      refine Orderly.marks (c := { s.connection with signals := rest }) ?_ (by simp)
      exact { h with }
    exact { hd with }
  | confirm rest he hp hs =>
    have hn := h.timer_eq_none (by simp [hs])
    refine { h with live := ?_, timer := ?_, endpoint := ?_, calm := fun _ => rfl, tried := ?_,
                    idle := ?_, sound := ?_, released := ?_ }
    · show s.connection.live = true
      rw [h.live, hs]
      rfl
    · simp [put, Connection.moveTo, Connection.hearing, Connection.marks, Connection.note, hn]
    · exact fun _ => h.endpoint (by simp [hs, State.isUnderWay])
    · simp [put, Connection.moveTo]
    · simp [put, Connection.moveTo]
    · show ∀ n ∈ milestones (.transition s.connection.state .opened s.connection.generation ::
        s.connection.log), n.Sound
      rw [milestones_cons, hs]
      exact List.forall_mem_cons.mpr ⟨rfl, h.sound⟩
    · intro hf
      have hc : s.connection.state = .closed := h.released hf
      rw [hs] at hc
      cases hc
  | lose report code reason rest he hp hr hs =>
    obtain ⟨due, log, hlose, hl⟩ := (s.connection.hearing
      ⟨s.connection.generation, report⟩ rest).loseLink_eq code reason
    rw [hlose]
    refine Orderly.conclude ?_
    exact h.lose hs rfl rfl rfl rfl rfl hl rfl
  | flush hs => exact (h.flush hs).conclude

theorem orderly_run (config : Config) (transport : τ) (acts : List Act) :
    Orderly ((System.init config transport).run acts) :=
  run_induction (Orderly.init config transport) (fun _ _ => Orderly.move) acts

omit [Transport τ] in
/-- Every move between states that an orderly connection has in its log is legal. -/
theorem Orderly.canBecome (h : Orderly s) {a b : State} {generation : Generation}
    (hm : .transition a b generation ∈ s.connection.log) : a.canBecome b = true :=
  h.sound _ (List.mem_filter.mpr ⟨hm, rfl⟩)

omit [Transport τ] in
theorem Orderly.noEndpoint_not_mem (h : Orderly s) : .noEndpoint ∉ s.connection.log :=
  fun hm => h.sound _ (List.mem_filter.mpr ⟨hm, rfl⟩)

end System

/-- In every state that a run can reach, the parts of the connection agree with each other. It is
live just while it connects or is open, a timer is set just while it waits to reconnect, it has an
endpoint whenever it is under way, it counts no failure when open and at least one when it waits to
reconnect, and as long as it is idle nothing has happened to it. All the moves between states that
were made on the way are legal, and no attempt was ever made without an endpoint. -/
theorem lifecycle_coherent {τ : Type} [Transport τ] (config : Config) (transport : τ)
    (acts : List Act) :
    let s := (System.init config transport).run acts
    let c := s.connection
    (c.live = true ↔ c.state = .connecting ∨ c.state = .opened) ∧
    (c.timer.isSome = true ↔ c.state = .reconnecting) ∧
    (c.state = .connecting ∨ c.state = .opened ∨ c.state = .reconnecting →
      c.endpoint.isSome = true) ∧
    (c.state = .opened → c.backoff.attempts = 0) ∧
    (c.state = .reconnecting → 1 ≤ c.backoff.attempts) ∧
    (c.state = .idle → (∀ endpoint generation, .opened endpoint generation ∉ s.history) ∧
      c.generation.value = 0 ∧ c.endpoint = none) ∧
    (∀ before after generation, .transition before after generation ∈ c.log →
      before.canBecome after = true) ∧
    .noEndpoint ∉ c.log := by
  have h := System.orderly_run config transport acts
  intro s c
  refine ⟨?_, h.timer, ?_, h.calm, h.tried, ?_, fun _ _ _ => h.canBecome, h.noEndpoint_not_mem⟩
  · rw [h.live]
    cases c.state <;> simp [State.hasLink]
  · intro hs
    apply h.endpoint
    rcases hs with hs | hs | hs <;> rw [hs] <;> rfl
  · intro hs
    obtain ⟨hg, he, ho⟩ := h.idle hs
    exact ⟨ho, by rw [hg], he⟩

end Tether
