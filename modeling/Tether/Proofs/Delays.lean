import Mathlib.Algebra.GroupWithZero.Nat
import Tether.Proofs.Outlook

/-!
# The delays that are announced

With every link that is lost, subscribers are told how long the connection waits before the next
attempt, and which attempt in a row that is. The connection has a counter for it, which is advanced
where a link is lost and set back where one is confirmed or the connection is started. Subscribers
have only the events: they can count what was scheduled since they were last told that the link is
up or the connection stopped. Here it is shown that both counts agree.

A stop is told later than it happens, so the counter agrees with what was told and, after that, what
is still to be announced.
-/

namespace Tether

namespace Event

/-- After this event, failures are counted from the beginning. -/
def isFreshStart : Event → Bool
  | opened | stopped => true
  | _ => false

/-- The event tells when the next attempt follows. -/
def isScheduling : Event → Bool
  | reconnectScheduled _ _ => true
  | _ => false

end Event

/-- How many attempts were scheduled since the link was last told to be up, or the connection to be
stopped. -/
def failuresInRow (events : List Event) : Nat :=
  (events.reverse.takeWhile (!·.isFreshStart)).countP (·.isScheduling)

example : failuresInRow [.reconnectScheduled ⟨5⟩ 1, .opened, .reconnectScheduled ⟨5⟩ 1,
    .overflow 2, .reconnectScheduled ⟨9⟩ 2] = 2 := rfl

theorem failuresInRow_of_isFreshStart (events : List Event) {e : Event}
    (he : e.isFreshStart = true) : failuresInRow (events ++ [e]) = 0 := by
  simp [failuresInRow, he]

theorem failuresInRow_of_isScheduling (events : List Event) {e : Event}
    (he : e.isScheduling = true) : failuresInRow (events ++ [e]) = failuresInRow events + 1 := by
  have hf : e.isFreshStart = false := by cases e <;> first | rfl | cases he
  simp [failuresInRow, he, hf]

theorem failuresInRow_of_neither (events : List Event) {e : Event}
    (hf : e.isFreshStart = false) (hs : e.isScheduling = false) :
    failuresInRow (events ++ [e]) = failuresInRow events := by
  simp [failuresInRow, hf, hs]

/-- Events that neither schedule an attempt nor end a row make no difference. -/
theorem failuresInRow_append (events : List Event) {later : List Event}
    (hl : ∀ e ∈ later, e.isFreshStart = false ∧ e.isScheduling = false) :
    failuresInRow (events ++ later) = failuresInRow events := by
  induction later generalizing events with
  | nil => rw [List.append_nil]
  | cons e later ih =>
    obtain ⟨⟨hf, hs⟩, hl⟩ := List.forall_mem_cons.mp hl
    rw [List.append_cons, ih _ hl, failuresInRow_of_neither _ hf hs]

/-- From the same count on, the same events lead to the same count. -/
theorem failuresInRow_congr {a b : List Event} (h : failuresInRow a = failuresInRow b)
    (later : List Event) : failuresInRow (a ++ later) = failuresInRow (b ++ later) := by
  induction later generalizing a b with
  | nil => simpa using h
  | cons e later ih =>
    have hone : failuresInRow (a ++ [e]) = failuresInRow (b ++ [e]) := by
      cases hf : e.isFreshStart with
      | true => rw [failuresInRow_of_isFreshStart a hf, failuresInRow_of_isFreshStart b hf]
      | false =>
        cases hs : e.isScheduling with
        | true => rw [failuresInRow_of_isScheduling a hs, failuresInRow_of_isScheduling b hs, h]
        | false => rw [failuresInRow_of_neither a hf hs, failuresInRow_of_neither b hf hs, h]
    rw [List.append_cons, List.append_cons b, ih hone]

/-! ## Schedules -/

/-- Every attempt is scheduled with its number in the row of failures, and with the delay that the
curve gives for the failures before it. -/
def OnCurve (curve : Curve) (events : List Event) : Prop :=
  ∀ pre delay attempt post, events = pre ++ .reconnectScheduled delay attempt :: post →
    attempt = min (failuresInRow pre + 1) (2 ^ 32 - 1) ∧
    delay = curve.delay (min (failuresInRow pre) (2 ^ 32 - 1))

namespace OnCurve

variable {curve : Curve} {events : List Event}

theorem nil (curve : Curve) : OnCurve curve [] := by
  intro pre delay attempt post he
  simp at he

/-- What is on the curve at the end was so on the way. -/
theorem of_append {later : List Event} (h : OnCurve curve (events ++ later)) :
    OnCurve curve events := by
  intro pre delay attempt post he
  refine h pre delay attempt (post ++ later) ?_
  rw [he, List.append_assoc]
  rfl

theorem tell (h : OnCurve curve events) {later : List Event}
    (hl : ∀ e ∈ later, e.isScheduling = false) : OnCurve curve (events ++ later) := by
  intro pre delay attempt post he
  rcases List.append_eq_append_cons he with ⟨mid, hmid, -⟩ | ⟨mid, -, hmid⟩
  · exact h pre delay attempt mid hmid
  · have hno := hl (.reconnectScheduled delay attempt) (by simp [hmid])
    cases hno

/-- A counter that agrees with the events gives the next attempt. -/
theorem schedule (h : OnCurve curve events) {b : Backoff} (hc : b.curve = curve)
    (ha : b.attempts = min (failuresInRow events) (2 ^ 32 - 1)) :
    OnCurve curve (events ++ [.reconnectScheduled b.peek b.fail.attempts]) := by
  intro pre delay attempt post he
  rcases List.append_singleton_eq_append_cons he with ⟨mid, hmid⟩ | ⟨rfl, hevent⟩
  · exact h pre delay attempt mid hmid
  · -- There is but one event that it can be.
    obtain ⟨rfl, rfl⟩ := Event.reconnectScheduled.inj hevent
    have hfail : b.fail.attempts = min (b.attempts + 1) (2 ^ 32 - 1) := rfl
    refine ⟨?_, ?_⟩
    · omega
    · rw [← ha, ← hc]
      rfl

end OnCurve

namespace Ledger

variable {curve : Curve} {l l' : Ledger}

/-- The counter of failures agrees with what was told and is to be announced. -/
structure Spaced (curve : Curve) (l : Ledger) : Prop where
  curve_eq : l.backoff.curve = curve
  schedule : OnCurve curve l.told
  /-- Between a stop and the next start the counter is out of use. -/
  count : l.state ≠ .closed →
    l.backoff.attempts = min (failuresInRow (l.told ++ notices l.errands)) (2 ^ 32 - 1)
  /-- A connection that can be started has no failures behind it. -/
  fresh : l.state.isStartable = true → failuresInRow (l.told ++ notices l.errands) = 0

theorem Spaced.init (curve : Curve) : Spaced curve { backoff := { curve } } where
  curve_eq := rfl
  schedule := .nil curve
  count := fun _ => rfl
  fresh := fun _ => rfl

/-- The counter is looked at when nothing is to be announced. -/
theorem Spaced.attempts_eq (h : Spaced curve l) (hs : l.state ≠ .closed)
    (hn : notices l.errands = []) :
    l.backoff.attempts = min (failuresInRow l.told) (2 ^ 32 - 1) := by
  rw [h.count hs, hn, List.append_nil]

/-- A step that leaves state and counter alone, and the count of the events. -/
theorem Spaced.keep (h : Spaced curve l) (hstate : l'.state = l.state)
    (hbackoff : l'.backoff = l.backoff) (hschedule : OnCurve curve l'.told)
    (hcount : failuresInRow (l'.told ++ notices l'.errands) =
      failuresInRow (l.told ++ notices l.errands)) : Spaced curve l' := by
  refine { curve_eq := ?_, schedule := hschedule, count := ?_, fresh := ?_ }
  · rw [hbackoff, h.curve_eq]
  · rw [hstate, hbackoff, hcount]
    exact h.count
  · rw [hstate, hcount]
    exact h.fresh

/-- In particular, one that tells nothing of failures. -/
theorem Spaced.aside (h : Spaced curve l) {later : List Event} (hstate : l'.state = l.state)
    (hbackoff : l'.backoff = l.backoff) (htold : l'.told = l.told ++ later)
    (hn : notices l'.errands = notices l.errands)
    (hl : ∀ e ∈ later, e.isFreshStart = false ∧ e.isScheduling = false) : Spaced curve l' := by
  refine h.keep hstate hbackoff ?_ ?_
  · rw [htold]
    exact h.schedule.tell fun e he => (hl e he).2
  · rw [htold, hn]
    exact failuresInRow_congr (failuresInRow_append l.told hl) _

/-- A link is lost, after some events that tell nothing of failures. -/
theorem Spaced.lose (h : Spaced curve l) (before : List Event) (hs : l.state.hasLink = true)
    (hn : notices l.errands = [])
    (hb : ∀ e ∈ before, e.isFreshStart = false ∧ e.isScheduling = false) {refusals : List Error} :
    Spaced curve { l with
      state := .reconnecting, backoff := l.backoff.fail, refusals
      told := l.told ++ (before ++
        [.reconnectScheduled l.backoff.peek l.backoff.fail.attempts]) } := by
  have hclosed : l.state ≠ .closed := fun he => by simp [he, State.hasLink] at hs
  have hattempts : l.backoff.attempts = min (failuresInRow (l.told ++ before)) (2 ^ 32 - 1) := by
    rw [failuresInRow_append l.told hb]
    exact h.attempts_eq hclosed hn
  rw [← List.append_assoc]
  refine { curve_eq := h.curve_eq, schedule := ?_, count := ?_, fresh := fun hc => by cases hc }
  · exact (h.schedule.tell fun e he => (hb e he).2).schedule h.curve_eq hattempts
  · intro _
    show min (l.backoff.attempts + 1) (2 ^ 32 - 1) = min (failuresInRow (l.told ++ before ++
      [.reconnectScheduled l.backoff.peek l.backoff.fail.attempts] ++ notices l.errands))
        (2 ^ 32 - 1)
    rw [hn, List.append_nil, failuresInRow_of_isScheduling _ rfl]
    omega

theorem Spaced.step (h : Spaced curve l) (hk : Kept l) (ha : Agreed l) (hs : Step l l') :
    Spaced curve l' := by
  cases hs with
  | start hs =>
    refine { h with count := fun _ => ?_, fresh := fun hc => by cases hc }
    show 0 = min (failuresInRow (l.told ++ notices l.errands)) (2 ^ 32 - 1)
    rw [h.fresh hs]
    rfl
  | retry hs =>
    exact { h with count := fun _ => h.count (by simp [hs]), fresh := fun hc => by cases hc }
  | stop hh hs =>
    rw [hk.assign_eq hh]
    refine { h with count := fun hc => absurd rfl hc, fresh := fun _ => ?_ }
    show failuresInRow (l.told ++ notices (l.errands ++ [.announce .stopped])) = 0
    rw [notices_append, ← List.append_assoc]
    exact failuresInRow_of_isFreshStart _ rfl
  | letGo hh =>
    rw [hk.assign_eq hh]
    exact h.aside rfl rfl (List.append_nil _).symm (by simp [notices]) (by simp)
  | send receipt hh =>
    split
    · exact { h with }
    · rw [hk.assign_eq hh]
      exact h.aside rfl rfl (List.append_nil _).symm (by simp [notices]) (by simp)
  | announce event rest he =>
    obtain rfl : event = .stopped := hk.announced event (by simp [he])
    refine h.keep rfl rfl (h.schedule.tell (by simp [Event.isScheduling])) ?_
    simp [notices, he]
  | check rest he =>
    refine h.aside rfl rfl rfl (by simp [notices, he]) fun e hm => ?_
    split at hm
    · cases hm
    · obtain rfl := List.mem_singleton.mp hm
      exact ⟨rfl, rfl⟩
  | cease rest he =>
    obtain rfl : rest = [] := hk.last [] rest he
    exact h.aside rfl rfl (List.append_nil _).symm (by simp [notices, he]) (by simp)
  | deliver payload he hs =>
    exact h.aside rfl rfl rfl rfl (by simp [Event.isFreshStart, Event.isScheduling])
  | confirm he hs =>
    have hn : notices l.errands = [] := by rw [he]; rfl
    refine { curve_eq := h.curve_eq, schedule := h.schedule.tell (by simp [Event.isScheduling]),
             count := fun _ => ?_, fresh := fun hc => by cases hc }
    show 0 = min (failuresInRow (l.told ++ [.opened] ++ notices l.errands)) (2 ^ 32 - 1)
    rw [hn, List.append_nil, failuresInRow_of_isFreshStart _ rfl]
    rfl
  | lose code reason he hs =>
    have hn : notices l.errands = [] := by rw [he]; rfl
    exact h.lose [.closed code reason] hs hn
      (by simp [Event.isFreshStart, Event.isScheduling])
  | refuse sequence error hs he =>
    exact h.aside rfl rfl rfl rfl (by simp [Event.isFreshStart, Event.isScheduling])
  | fail sequence error hs he hzero =>
    exact h.lose [.sendFailed sequence error.message, .closed abnormalClose error.message]
      (by simp [hs, State.hasLink]) (ha.settled hs)
      (by simp [Event.isFreshStart, Event.isScheduling])

end Ledger

theorem notices_business {τ : Type} (c : Connection τ) :
    notices c.business = notices c.errands := by
  unfold notices Connection.business
  rw [List.filterMap_filter]
  congr 1
  funext e
  cases e <;> rfl

/-! ## What changes the counter -/

/-- A counter goes over to another, and events are told with it: it stays, or a confirmed link sets
it back, or a failure is counted and its number is told. -/
def Backoff.Counted (before after : Backoff) (events : List Event) : Prop :=
  after.attempts = before.attempts ∨
  after.attempts = 0 ∧ .opened ∈ events ∨
  ∃ delay, .reconnectScheduled delay after.attempts ∈ events

namespace Connection

variable {τ : Type} [Transport τ]

theorem backoff_openLink (c : Connection (Recorded τ)) : c.openLink.backoff = c.backoff := by
  cases he : c.endpoint with
  | none =>
    rw [c.openLink_of_none he]
    rfl
  | some endpoint =>
    obtain ⟨base, signals, log, h, -⟩ := c.openLink_eq he
    rw [h]

theorem backoff_stop (c : Connection (Recorded τ)) : c.stop.backoff = c.backoff := by
  have hst := c.stop_spec
  generalize c.stop = d at hst
  cases hst <;> rfl

omit [Transport τ] in
theorem backoff_assign (c : Connection τ) (e : Errand) : (c.assign e).backoff = c.backoff := by
  rw [assign_eq]

omit [Transport τ] in
theorem backoff_elapse (c : Connection τ) : c.elapse.backoff = c.backoff := by
  unfold elapse
  split
  · split
    · rfl
    · rw [backoff_assign]
  · rfl

omit [Transport τ] in
theorem backoff_advance (c : Connection τ) (millis : Nat) :
    (c.advance millis).backoff = c.backoff := by
  unfold advance
  dsimp only
  split
  · rw [backoff_elapse]
  · rfl

/-- A flush counts a failure just if it loses the link. -/
theorem counted_flush (c : Connection (Recorded τ)) :
    c.backoff.Counted c.flush.1.backoff c.flush.2 := by
  have hf := c.flush_spec
  generalize c.flush.1 = d, c.flush.2 = events at hf
  cases hf with
  | drained | halted => exact Or.inl rfl
  | lost => exact Or.inr (Or.inr ⟨c.backoff.peek, by simp⟩)

theorem counted_onErrand (c : Connection (Recorded τ)) (rest : List Errand) (e : Errand) :
    c.backoff.Counted ((c.taking rest e).onErrand e).1.backoff
      ((c.taking rest e).onErrand e).2 := by
  cases e with
  | checkQueue =>
    show c.backoff.Counted { c with errands := rest }.onCheck.1.backoff
      { c with errands := rest }.onCheck.2
    by_cases hs : c.state = .opened
    · rw [onCheck_of_opened { c with errands := rest } hs]
      rcases counted_flush ({ c with errands := rest, checkDue := false, unreported := 0 } :
        Connection (Recorded τ)) with h | ⟨hz, ho⟩ | ⟨delay, hd⟩
      · exact Or.inl h
      · exact Or.inr (Or.inl ⟨hz, List.mem_append_right _ ho⟩)
      · exact Or.inr (Or.inr ⟨delay, List.mem_append_right _ hd⟩)
    · rw [onCheck_of_ne { c with errands := rest } hs]
      exact Or.inl rfl
  | retry generation =>
    refine Or.inl ?_
    show ((c.retrying generation rest).onRetry generation).backoff.attempts = c.backoff.attempts
    by_cases hs : c.state = .reconnecting ∧ c.generation = generation
    · rw [onRetry_of_due (c.retrying generation rest) hs, backoff_openLink]
      rfl
    · rw [onRetry_of_stale (c.retrying generation rest) hs]
      rfl
  | announce event => exact Or.inl rfl
  | cease =>
    obtain ⟨log, hd, -⟩ := disarm_eq { c with errands := rest }
    refine Or.inl ?_
    show { c with errands := rest }.disarm.backoff.attempts = c.backoff.attempts
    rw [hd]

theorem counted_onSignal (c : Connection (Recorded τ)) (signal : Signal) :
    c.backoff.Counted (c.onSignal signal).1.backoff (c.onSignal signal).2 := by
  by_cases hg : signal.generation = c.generation
  · have hr := c.report_spec signal.report
    rw [c.onSignal_of_eq hg]
    generalize c.onReport signal.report = result at hr
    cases hr with
    | confirmed =>
      -- The counter is set back, whatever the flush after that does to it.
      rcases counted_flush ({ c.moveTo .opened with backoff := c.backoff.reset }.note
        (.linkOpened c.generation)) with h | ⟨hz, -⟩ | ⟨delay, hd⟩
      · exact Or.inr (Or.inl ⟨h, by simp⟩)
      · exact Or.inr (Or.inl ⟨hz, by simp⟩)
      · exact Or.inr (Or.inr ⟨delay, List.mem_append_right _ hd⟩)
    | delivered => exact Or.inl rfl
    | ended code reason ns =>
      obtain ⟨due, log, hl, -⟩ := (c.notes ns).loseLink_eq code reason
      rw [hl]
      exact Or.inr (Or.inr ⟨(c.notes ns).backoff.peek, by simp⟩)
    | ignored ns =>
      rw [notes_eq]
      exact Or.inl rfl
  · rw [c.onSignal_of_ne hg]
    exact Or.inl rfl

end Connection

namespace System

variable {τ : Type} [Transport τ]

theorem counted_turn (s : System τ) :
    s.connection.backoff.Counted s.turn.connection.backoff s.turn.batch := by
  cases hv : s.connection.serving with
  | false =>
    rw [turn_of_rest (Or.inl hv)]
    exact Or.inl rfl
  | true =>
    cases he : s.connection.errands with
    | cons e rest =>
      rw [turn_of_errand hv he]
      exact s.connection.counted_onErrand rest e
    | nil =>
      cases hp : s.connection.signals.pop? with
      | none =>
        rw [turn_of_rest (Or.inr ⟨he, hp⟩)]
        exact Or.inl rfl
      | some next =>
        rw [turn_of_signal hv he hp]
        exact (s.connection.hearing next.1 next.2).counted_onSignal next.1

/-- A start that is granted sets the counter back; one that is refused leaves it alone. -/
theorem backoff_start (s : System τ) (text : String) :
    (s.start text).connection.backoff = s.connection.backoff ∨
    s.connection.state.isStartable = true ∧ (s.start text).connection.state = .connecting ∧
      (s.start text).connection.backoff.attempts = 0 := by
  obtain hst | hst | ⟨endpoint, hs, hst⟩ := s.start_cases text
  · rw [hst]
    exact Or.inl rfl
  · rw [hst]
    exact Or.inl rfl
  · obtain ⟨base, signals, log, hc, -⟩ := ({ (s.connection.note (.starting endpoint.href)).marks
      [.started] with
        endpoint := some endpoint
        backoff := s.connection.backoff.reset } : Connection (Recorded τ)).openLink_eq rfl
    rw [hst, hc]
    exact Or.inr ⟨hs, rfl, rfl⟩

/-- A turn or a start may change the counter, and nothing else. -/
theorem counted_step (s : System τ) (act : Act) :
    (s.step act).connection.backoff.attempts = s.connection.backoff.attempts ∨
    (∃ text, act = .start text ∧ s.connection.state.isStartable = true ∧
      (s.step act).connection.state = .connecting ∧
      (s.step act).connection.backoff.attempts = 0) ∨
    (act = .turn ∧
      s.connection.backoff.Counted (s.step act).connection.backoff
        (s.step act).batch) := by
  have hkeep : ∀ t : System τ, t.connection.backoff = s.connection.backoff →
      t.connection.backoff.attempts = s.connection.backoff.attempts :=
    fun _ h => congrArg Backoff.attempts h
  cases act with
  | start text =>
    unfold System.step
    dsimp only
    split
    · rcases s.backoff_start text with h | ⟨hs, hc, hz⟩
      · exact Or.inl (hkeep _ h)
      · exact Or.inr (Or.inl ⟨text, rfl, hs, hc, hz⟩)
    · exact Or.inl rfl
  | stop =>
    refine Or.inl (hkeep _ ?_)
    unfold System.step
    dsimp only
    split
    · exact s.connection.backoff_stop
    · rfl
  | send payload =>
    refine Or.inl (hkeep _ ?_)
    unfold System.step
    dsimp only
    split
    · obtain ⟨errands, log, hsend, -⟩ := s.send_eq payload
      rw [hsend]
      rfl
    · rfl
  | release =>
    refine Or.inl (hkeep _ ?_)
    unfold System.step
    dsimp only
    split
    · show (s.connection.stop.assign .cease).backoff = s.connection.backoff
      rw [Connection.backoff_assign, Connection.backoff_stop]
    · rfl
  | hear signal =>
    obtain ⟨signals, hc⟩ := s.connection.hear_eq signal
    refine Or.inl (hkeep _ ?_)
    show (s.connection.hear signal).backoff = s.connection.backoff
    rw [hc]
  | advance millis => exact Or.inl (hkeep _ (s.connection.backoff_advance millis))
  | elapse => exact Or.inl (hkeep _ s.connection.backoff_elapse)
  | straggle generation =>
    refine Or.inl (hkeep _ ?_)
    show (s.straggle generation).connection.backoff = s.connection.backoff
    unfold System.straggle
    split
    · exact s.connection.backoff_assign (.retry generation)
    · rfl
  | turn =>
    unfold System.step
    dsimp only
    split
    · exact Or.inr (Or.inr ⟨rfl, s.counted_turn⟩)
    · exact Or.inl rfl
  | publish =>
    refine Or.inl (hkeep _ ?_)
    show s.publish.connection.backoff = s.connection.backoff
    unfold System.publish
    split <;> rfl

theorem spaced_run (config : Config) (transport : τ) (acts : List Act) :
    ((System.init config transport).run acts).ledger.Spaced config.backoff := by
  have h : ((System.init config transport).run acts).ledger.Agreed ∧
      ((System.init config transport).run acts).ledger.Spaced config.backoff :=
    ledger_invariant (P := fun l => l.Agreed ∧ l.Spaced config.backoff) ⟨.init _, .init _⟩
      (fun _ _ hk hp hs => ⟨hp.1.step hk hs, hp.2.step hk hp.1 hs⟩) acts
  exact h.2

end System

/-- The delays that are announced follow the curve. Whenever an attempt is published to be
scheduled, it is published with its number `k` among those scheduled since the link was last told to
be up or the connection to be stopped, and with the delay after `k - 1` failures, as far as the
counter goes.
At every moment at which the connection is not closed, its counter agrees with what was published,
what is about to be and what is still to be announced. An act changes the counter in three cases
only: the start of a connection that was stopped, and the confirmation of a link, set it back to
zero; and the loss of a link leads to the number that is told with it. -/
theorem delays_follow_curve {τ : Type} [Transport τ] (config : Config) (transport : τ)
    (acts : List Act) :
    let s := (System.init config transport).run acts
    let c := s.connection
    (∀ pre delay attempt post,
      publications s.history = pre ++ .reconnectScheduled delay attempt :: post →
      let k := failuresInRow (pre ++ [.reconnectScheduled delay attempt])
      attempt = min k (2 ^ 32 - 1) ∧
      delay = config.backoff.delay (min (k - 1) (2 ^ 32 - 1))) ∧
    (c.state ≠ .closed → c.backoff.attempts =
      min (failuresInRow (publications s.history ++ s.batch ++ notices c.errands)) (2 ^ 32 - 1)) ∧
    ∀ act,
      let t := s.step act
      let attempts := t.connection.backoff.attempts
      attempts = c.backoff.attempts ∨
      (∃ text, act = .start text ∧ c.state = .closed ∧ t.connection.state = .connecting ∧
        attempts = 0) ∨
      (act = .turn ∧ .opened ∈ t.batch ∧ attempts = 0) ∨
      (act = .turn ∧ ∃ delay, .reconnectScheduled delay attempts ∈ t.batch) := by
  have h := System.spaced_run config transport acts
  intro s c
  let told := publications s.history ++ s.batch ++ notices c.errands
  have htold : told = publications s.history ++ s.batch ++ notices c.business := by
    rw [notices_business]
  have hcount : c.state ≠ .closed → c.backoff.attempts = min (failuresInRow told) (2 ^ 32 - 1) := by
    rw [htold]
    exact h.count
  refine ⟨?_, hcount, ?_⟩
  · intro pre delay attempt post he k
    have hk : k = failuresInRow pre + 1 := failuresInRow_of_isScheduling pre rfl
    rw [hk]
    exact h.schedule.of_append pre delay attempt post he
  · intro act t attempts
    rcases s.counted_step act with hsame | ⟨text, hact, hs, hc, hz⟩ | ⟨hact, hsame | hz | hd⟩
    · exact Or.inl hsame
    · -- A connection that is idle has nothing to be set back.
      by_cases hclosed : c.state = .closed
      · exact Or.inr (Or.inl ⟨text, hact, hclosed, hc, hz⟩)
      · have hfresh : failuresInRow told = 0 := by
          rw [htold]
          exact h.fresh hs
        rw [hfresh] at hcount
        exact Or.inl (hz.trans (hcount hclosed).symm)
    · exact Or.inl hsame
    · exact Or.inr (Or.inr (Or.inl ⟨hact, hz.2, hz.1⟩))
    · exact Or.inr (Or.inr (Or.inr ⟨hact, hd⟩))

end Tether
