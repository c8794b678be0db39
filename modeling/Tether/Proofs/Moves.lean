import Mathlib.Logic.Relation
import Tether.Proofs.Effects
import Tether.Proofs.Run

/-!
# The moves of a system

Every act on a system is a sequence of moves, and there are only a few kinds of them. A move names
what it needs: which errand or signal comes next, and in which state the connection is. What is to
hold throughout all runs is therefore shown for each kind of move, once; `System.run_induction` does
the rest.
-/

namespace Tether

open Relation

/-- The connection after an errand was taken out of its inbox. -/
def Connection.taking {τ : Type} (c : Connection (Recorded τ)) (rest : List Errand) :
    Errand → Connection (Recorded τ)
  | .retry generation => c.retrying generation rest
  | .checkQueue | .announce _ | .cease => { c with errands := rest }

namespace System

variable {τ : Type} [Transport τ]

/-- The connection flushes its queue; the events come after those of the batch. -/
def flush (s : System τ) : System τ :=
  s.conclude (s.connection.flush.1, s.batch ++ s.connection.flush.2)

/-- The ways in which a system can change. -/
inductive Move : System τ → System τ → Prop where
  /-- Something is noted that is no milestone. -/
  | note (s : System τ) (n : Note) (hn : n.isMilestone = false) :
      Move s (s.put (s.connection.note n))
  /-- A link reports something. -/
  | hear (s : System τ) (signal : Signal) : Move s (s.put (s.connection.hear signal))
  /-- Time goes on, and nothing else. -/
  | wait (s : System τ) (millis : Nat) :
      Move s (s.put { s.connection with clock := s.connection.clock + millis })
  /-- A start is granted, and the first attempt made. -/
  | grant (s : System τ) (endpoint : Endpoint) (hh : s.held = true)
      (hs : s.connection.state.isStartable = true) :
      Move s (s.put { s.connection.marks [.started] with
        endpoint := some endpoint, backoff := s.connection.backoff.reset }.openLink)
  /-- The connection is stopped. -/
  | stop (s : System τ) (hh : s.held = true) : Move s s.stop
  /-- The owner lets go of a connection that is stopped. -/
  | letGo (s : System τ) (hs : s.connection.state = .closed) (hh : s.held = true) :
      Move s { s.put (s.connection.assign .cease) with held := false }
  /-- A message is queued. -/
  | send (s : System τ) (payload : Payload) (hh : s.held = true) : Move s (s.send payload)
  /-- The timer elapses. -/
  | fire (s : System τ) (t : Timer) (ht : s.connection.timer = some t) (he : t.elapsed = false) :
      Move s (s.put (({ s.connection with timer := some { t with elapsed := true } }.assign
        (.retry t.generation)).marks [.fired t.generation]))
  /-- A timer that was armed once puts its errand in. -/
  | straggle (s : System τ) (generation : Generation) (hg : .armed generation ∈ s.history) :
      Move s (s.put ((s.connection.assign (.retry generation)).marks [.fired generation]))
  /-- The next event is published. -/
  | publish (s : System τ) (event : Event) (rest : List Event) (hb : s.batch = event :: rest) :
      Move s { s.put (s.connection.marks [.published event]) with batch := rest }
  /-- The next errand is to publish an event. -/
  | announce (s : System τ) (event : Event) (rest : List Errand)
      (he : s.connection.errands = .announce event :: rest) (hb : s.batch = []) :
      Move s { s.put { s.connection with errands := rest } with batch := [event] }
  /-- The next errand is to look at the queue: what was discarded is reported. -/
  | check (s : System τ) (rest : List Errand) (he : s.connection.errands = .checkQueue :: rest)
      (hb : s.batch = []) :
      Move s { s.put { s.connection with errands := rest, checkDue := false, unreported := 0 } with
        batch := if s.connection.unreported = 0 then [] else [.overflow s.connection.unreported] }
  /-- The next errand is that of a timer, which is out of date. -/
  | stale (s : System τ) (generation : Generation) (rest : List Errand)
      (he : s.connection.errands = .retry generation :: rest)
      (hs : ¬(s.connection.state = .reconnecting ∧ s.connection.generation = generation)) :
      Move s (s.put (s.connection.retrying generation rest))
  /-- The next errand is that of the present timer, and the next attempt is made. -/
  | retry (s : System τ) (rest : List Errand)
      (he : s.connection.errands = .retry s.connection.generation :: rest)
      (hs : s.connection.state = .reconnecting) :
      Move s (s.put { s.connection.retrying s.connection.generation rest with
        timer := none }.openLink)
  /-- The next errand is to do nothing any more. -/
  | cease (s : System τ) (rest : List Errand) (he : s.connection.errands = .cease :: rest) :
      Move s (s.put { s.connection with errands := rest }.shut)
  /-- The next signal changes nothing. -/
  | ignore (s : System τ) (signal : Signal) (rest : Fifo Signal) (he : s.connection.errands = [])
      (hp : s.connection.signals.pop? = some (signal, rest))
      (hi : signal.generation = s.connection.generation →
        signal.report.countsIn s.connection.state = false) :
      Move s (s.put (s.connection.hearing signal rest))
  /-- The next signal brings a message. -/
  | deliver (s : System τ) (payload : Payload) (rest : Fifo Signal)
      (he : s.connection.errands = [])
      (hp : s.connection.signals.pop? = some (⟨s.connection.generation, .message payload⟩, rest))
      (hs : s.connection.state = .opened) (hb : s.batch = []) :
      Move s { s.put (s.connection.hearing ⟨s.connection.generation, .message payload⟩ rest) with
        batch := [.messageReceived payload] }
  /-- The next signal confirms the link. -/
  | confirm (s : System τ) (rest : Fifo Signal) (he : s.connection.errands = [])
      (hp : s.connection.signals.pop? = some (⟨s.connection.generation, .opened⟩, rest))
      (hs : s.connection.state = .connecting) (hb : s.batch = []) :
      Move s { s.put { (s.connection.hearing ⟨s.connection.generation, .opened⟩ rest).moveTo
        .opened with backoff := s.connection.backoff.reset } with batch := [.opened] }
  /-- The next signal ends the link. -/
  | lose (s : System τ) (report : Report) (code : Nat) (reason : String) (rest : Fifo Signal)
      (he : s.connection.errands = [])
      (hp : s.connection.signals.pop? = some (⟨s.connection.generation, report⟩, rest))
      (hr : report.ending? = some (code, reason)) (hs : s.connection.state.hasLink = true)
      (hb : s.batch = []) :
      Move s (s.conclude ((s.connection.hearing ⟨s.connection.generation, report⟩ rest).loseLink
        code reason))
  /-- The queue is flushed. -/
  | flush (s : System τ) (hs : s.connection.state = .opened) : Move s s.flush

omit [Transport τ] in
/-- Queueing a message changes the queue. At most a look at it is put behind the errands. -/
theorem send_eq (s : System τ) (payload : Payload) :
    ∃ errands log, s.send payload =
      s.put { s.connection.marks [.queued payload (s.connection.outbox.enqueue payload).2
          (Outbox.departed (s.connection.outbox.ids ++
            [(s.connection.outbox.enqueue payload).2.sequence])
            (s.connection.outbox.enqueue payload).1.ids)] with
        outbox := (s.connection.outbox.enqueue payload).1
        unreported := s.connection.unreported + (s.connection.outbox.enqueue payload).2.dropped
        checkDue := true, errands, log } ∧
      (∀ e ∈ errands, e ∈ s.connection.errands ∨ e = .checkQueue) ∧
      milestones log = milestones s.connection.log := by
  refine ⟨if s.connection.checkDue || !s.connection.serving then s.connection.errands
    else s.connection.errands ++ [.checkQueue],
    s.connection.outbox.enqueueNote :: s.connection.log, ?_, ?_, ?_⟩
  · simp only [send, Connection.send_eq]
    rfl
  · intro e he
    split at he
    · exact Or.inl he
    · simpa using he
  · rw [milestones_cons, Outbox.enqueueNote_not_milestone]
    rfl

/-! ## What leaves timer and queue alone -/

omit [Transport τ] in
/-- With timer and queue as they were there is nothing to write down. -/
theorem become_eq_put {s : System τ} {c : Connection (Recorded τ)}
    (ht : c.timer = s.connection.timer ∨ c.timer = none) (hq : c.outbox = s.connection.outbox) :
    s.become c = s.put c := by
  unfold become Connection.aftermath
  rw [Connection.timerMarks_eq_nil ht, hq, Connection.queueMarks_self]
  exact congrArg s.put c.marks_nil

omit [Transport τ] in
theorem conclude_eq_put {s : System τ} {c : Connection (Recorded τ)} {events : List Event}
    (ht : c.timer = s.connection.timer ∨ c.timer = none) (hq : c.outbox = s.connection.outbox) :
    s.conclude (c, events) = { s.put c with batch := events } := by
  unfold conclude
  rw [become_eq_put ht hq]

omit [Transport τ] in
theorem conclude_nil {s : System τ} {c : Connection (Recorded τ)} (hb : s.batch = [])
    (ht : c.timer = s.connection.timer ∨ c.timer = none) (hq : c.outbox = s.connection.outbox) :
    s.conclude (c, []) = s.put c := by
  rw [conclude_eq_put ht hq, ← hb]
  rfl

/-- With timer and queue as they were, a turn that ends in a flush is a flush. -/
theorem conclude_flush {s : System τ} {c : Connection (Recorded τ)} (events : List Event)
    (ht : c.timer = s.connection.timer) (hq : c.outbox = s.connection.outbox) :
    s.conclude (c.flush.1, events ++ c.flush.2) = ({ s.put c with batch := events }).flush := by
  unfold flush conclude become Connection.aftermath
  rw [← ht, ← hq]
  rfl

/-! ## Every act is a sequence of moves -/

/-- A start is refused, with or without a note, or it is granted. -/
theorem start_cases (s : System τ) (text : String) :
    s.start text = s ∨
    s.start text = s.put (s.connection.note (.startRejected s.connection.state)) ∨
    ∃ endpoint : Endpoint, s.connection.state.isStartable = true ∧
      s.start text = s.put { (s.connection.note (.starting endpoint.href)).marks [.started] with
        endpoint := some endpoint, backoff := s.connection.backoff.reset }.openLink := by
  by_cases hs : s.connection.state.isStartable = true
  · cases hp : Endpoint.ofText text with
    | error e => exact Or.inl (by simp [start, Connection.start, hs, hp, put])
    | ok endpoint =>
      refine Or.inr (Or.inr ⟨endpoint, hs, ?_⟩)
      have hs' : (s.connection.marks [.started]).state.isStartable = true := hs
      simp only [start, Connection.start, hs, hs', hp]
      rfl
  · exact Or.inr (Or.inl (by simp [start, Connection.start, hs]))

theorem start_moves (s : System τ) (text : String) (hh : s.held = true) :
    ReflTransGen Move s (s.start text) := by
  obtain hst | hst | ⟨endpoint, hs, hst⟩ := s.start_cases text
  · rw [hst]
  · rw [hst]
    exact .single (.note s _ rfl)
  · rw [hst]
    exact (ReflTransGen.single (.note s (.starting endpoint.href) rfl)).tail
      (.grant (s.put (s.connection.note (.starting endpoint.href))) endpoint hh hs)

omit [Transport τ] in
theorem assign_marks (c : Connection (Recorded τ)) (e : Errand) (ms : List Mark) :
    (c.marks ms).assign e = (c.assign e).marks ms := by
  rw [Connection.assign_eq, Connection.assign_eq]
  rfl

omit [Transport τ] in
theorem closed_of_stopped {c d : Connection (Recorded τ)} (h : c.Stopped d) :
    d.state = .closed := by
  cases h with
  | already hs => exact hs
  | unlinked => rfl
  | linked => rfl

theorem release_moves (s : System τ) (hh : s.held = true) : ReflTransGen Move s s.release := by
  have hr : s.release = { s.stop.put (s.stop.connection.assign .cease) with held := false } := by
    show _ = { s.put ((s.connection.stop.marks [.stopped]).assign .cease) with held := false }
    rw [assign_marks]
    rfl
  rw [hr]
  have hc : s.connection.stop.state = .closed := closed_of_stopped s.connection.stop_spec
  exact (ReflTransGen.single (.stop s hh)).tail (.letGo s.stop hc hh)

omit [Transport τ] in
/-- A timer that has not elapsed yet puts its errand in. -/
theorem elapse_cases (s : System τ) :
    s.become s.connection.elapse = s ∨
    ∃ t, s.connection.timer = some t ∧ t.elapsed = false ∧ s.become s.connection.elapse =
      s.put (({ s.connection with timer := some { t with elapsed := true } }.assign
        (.retry t.generation)).marks [.fired t.generation]) := by
  have hsame : s.connection.elapse = s.connection → s.become s.connection.elapse = s := by
    intro he
    rw [he, become_eq_put (Or.inl rfl) rfl]
    rfl
  cases ht : s.connection.timer with
  | none => exact Or.inl (hsame (by simp [Connection.elapse, ht]))
  | some t =>
    cases hel : t.elapsed with
    | true => exact Or.inl (hsame (by simp [Connection.elapse, ht, hel]))
    | false =>
      refine Or.inr ⟨t, rfl, hel, ?_⟩
      have hne : s.connection.timer ≠ some { t with elapsed := true } := by
        rw [ht]
        intro h
        have := congrArg Timer.elapsed (Option.some.inj h)
        simp [hel] at this
      have he : s.connection.elapse = { s.connection with
          timer := some { t with elapsed := true } }.assign (.retry t.generation) := by
        simp [Connection.elapse, ht, hel]
      rw [he, Connection.assign_eq]
      simp [become, Connection.aftermath, Connection.timerMarks, hne, Connection.queueMarks_self]

theorem elapse_moves (s : System τ) : ReflTransGen Move s (s.become s.connection.elapse) := by
  obtain he | ⟨t, ht, hel, he⟩ := s.elapse_cases
  · rw [he]
  · rw [he]
    exact .single (.fire s t ht hel)

theorem advance_moves (s : System τ) (millis : Nat) :
    ReflTransGen Move s (s.become (s.connection.advance millis)) := by
  have hw : Move s (s.put { s.connection with clock := s.connection.clock + millis }) :=
    .wait s millis
  unfold Connection.advance
  dsimp only
  split
  · exact ReflTransGen.head hw (elapse_moves _)
  · have hb : s.become { s.connection with clock := s.connection.clock + millis } =
        s.put { s.connection with clock := s.connection.clock + millis } :=
      become_eq_put (Or.inl rfl) rfl
    rw [hb]
    exact .single hw

/-- The queue is looked at: a report of what was discarded, and a flush if the link is up. -/
theorem check_moves (s : System τ) (hb : s.batch = []) (rest : List Errand)
    (he : s.connection.errands = .checkQueue :: rest) :
    ReflTransGen Move s (s.conclude { s.connection with errands := rest }.onCheck) := by
  refine ReflTransGen.head (.check s rest he hb) ?_
  by_cases hs : s.connection.state = .opened
  · rw [Connection.onCheck_of_opened { s.connection with errands := rest } hs, conclude_flush]
    · exact .single (.flush _ hs)
    · rfl
    · rfl
  · rw [Connection.onCheck_of_ne { s.connection with errands := rest } hs, conclude_eq_put]
    · exact Or.inl rfl
    · rfl

/-- The errand of a timer makes the next attempt, or is put aside as out of date. -/
theorem retry_moves (s : System τ) (hb : s.batch = []) (generation : Generation)
    (rest : List Errand) (he : s.connection.errands = .retry generation :: rest) :
    ReflTransGen Move s
      (s.conclude ((s.connection.retrying generation rest).onRetry generation, [])) := by
  by_cases hs : s.connection.state = .reconnecting ∧ s.connection.generation = generation
  · rw [(s.connection.retrying generation rest).onRetry_of_due hs]
    obtain ⟨hs, rfl⟩ := hs
    have hk := ({ s.connection.retrying s.connection.generation rest with
      timer := none } : Connection (Recorded τ)).openLink_keeps
    rw [conclude_nil hb]
    · exact .single (.retry s rest he hs)
    · exact Or.inr hk.1
    · exact hk.2
  · rw [(s.connection.retrying generation rest).onRetry_of_stale hs, conclude_nil hb]
    · exact (ReflTransGen.single (.stale s generation rest he hs)).tail (.note _ _ rfl)
    · exact Or.inl rfl
    · rfl

/-- Notes that are no milestones. -/
theorem notes_moves (s : System τ) {ns : List Note} (hn : ∀ n ∈ ns, n.isMilestone = false) :
    ReflTransGen Move s (s.put (s.connection.notes ns)) := by
  induction ns generalizing s with
  | nil => exact .refl
  | cons n ns ih =>
    obtain ⟨hn, hns⟩ := List.forall_mem_cons.mp hn
    exact ReflTransGen.head (.note s n hn) (ih (s.put (s.connection.note n)) hns)

/-- A signal that changes nothing. -/
theorem ignore_moves (s : System τ) (hb : s.batch = []) (signal : Signal) (rest : Fifo Signal)
    (he : s.connection.errands = []) (hp : s.connection.signals.pop? = some (signal, rest))
    (hi : signal.generation = s.connection.generation →
      signal.report.countsIn s.connection.state = false) {ns : List Note}
    (hn : ∀ n ∈ ns, n.isMilestone = false) :
    ReflTransGen Move s (s.conclude ((s.connection.hearing signal rest).notes ns, [])) := by
  have hput : s.conclude ((s.connection.hearing signal rest).notes ns, []) =
      (s.put (s.connection.hearing signal rest)).put
        ((s.connection.hearing signal rest).notes ns) := by
    rw [Connection.notes_eq]
    exact conclude_nil hb (Or.inl rfl) rfl
  rw [hput]
  exact ReflTransGen.head (.ignore s signal rest he hp hi) (notes_moves _ hn)

/-- A signal of the present attempt. -/
theorem report_moves (s : System τ) (hb : s.batch = []) (report : Report) (rest : Fifo Signal)
    (he : s.connection.errands = [])
    (hp : s.connection.signals.pop? = some (⟨s.connection.generation, report⟩, rest)) :
    ReflTransGen Move s (s.conclude
      ((s.connection.hearing ⟨s.connection.generation, report⟩ rest).onReport report)) := by
  have hr := (s.connection.hearing ⟨s.connection.generation, report⟩ rest).report_spec report
  generalize (s.connection.hearing ⟨s.connection.generation, report⟩ rest).onReport report =
    result at hr
  cases hr with
  | confirmed hr hs =>
    subst hr
    refine ReflTransGen.head (.confirm s rest he hp hs hb) ?_
    refine ReflTransGen.head (.note _ (.linkOpened s.connection.generation) rfl) ?_
    rw [conclude_flush]
    · exact .single (.flush _ rfl)
    · rfl
    · rfl
  | delivered payload hr hs =>
    subst hr
    rw [conclude_eq_put]
    · exact (ReflTransGen.single (.deliver s payload rest he hp hs hb)).tail (.note _ _ rfl)
    · exact Or.inl rfl
    · rfl
  | ended code reason ns hr hs hn =>
    -- The notes are taken after the signal, but they might as well be taken before.
    have hc : s.conclude (((s.connection.hearing ⟨s.connection.generation, report⟩ rest).notes
        ns).loseLink code reason) =
        (s.put (s.connection.notes ns)).conclude (((s.connection.notes ns).hearing
          ⟨s.connection.generation, report⟩ rest).loseLink code reason) := by
      rw [Connection.notes_eq, Connection.notes_eq]
      rfl
    rw [hc]
    refine (notes_moves s hn).tail ?_
    rw [Connection.notes_eq]
    exact .lose (s.put { s.connection with log := ns.reverse ++ s.connection.log }) report code
      reason rest he hp hr hs hb
  | ignored ns hi hn => exact ignore_moves s hb _ rest he hp (fun _ => hi) hn

/-- An errand, whichever it is. -/
theorem errand_moves (s : System τ) (hb : s.batch = []) (e : Errand) (rest : List Errand)
    (he : s.connection.errands = e :: rest) :
    ReflTransGen Move s (s.conclude ((s.connection.taking rest e).onErrand e)) := by
  cases e with
  | checkQueue => exact check_moves s hb rest he
  | retry generation => exact retry_moves s hb generation rest he
  | announce event =>
    show ReflTransGen Move s (s.conclude ({ s.connection with errands := rest }, [event]))
    rw [conclude_eq_put]
    · exact .single (.announce s event rest he hb)
    · exact Or.inl rfl
    · rfl
  | cease =>
    have hd : ({ s.connection with errands := rest } : Connection (Recorded τ)).disarm.timer =
        none ∧ ({ s.connection with errands := rest } : Connection (Recorded τ)).disarm.outbox =
        s.connection.outbox := by
      obtain ⟨log, h, -⟩ := Connection.disarm_eq { s.connection with errands := rest }
      rw [h]
      exact ⟨rfl, rfl⟩
    show ReflTransGen Move s (s.conclude ({ s.connection with errands := rest }.shut, []))
    rw [conclude_nil hb]
    · exact .single (.cease s rest he)
    · exact Or.inr hd.1
    · exact hd.2

/-- A signal, whichever it is. -/
theorem signal_moves (s : System τ) (hb : s.batch = []) (signal : Signal) (rest : Fifo Signal)
    (he : s.connection.errands = []) (hp : s.connection.signals.pop? = some (signal, rest)) :
    ReflTransGen Move s (s.conclude ((s.connection.hearing signal rest).onSignal signal)) := by
  by_cases hg : signal.generation = s.connection.generation
  · have hs : signal = ⟨s.connection.generation, signal.report⟩ := by rw [← hg]
    rw [(s.connection.hearing signal rest).onSignal_of_eq hg]
    rw [hs] at hp ⊢
    exact report_moves s hb signal.report rest he hp
  · rw [(s.connection.hearing signal rest).onSignal_of_ne hg]
    exact ignore_moves s hb signal rest he hp (fun h => absurd h hg)
      (List.forall_mem_singleton.mpr rfl)

/-! ## Turns -/

/-- A turn deals with the item that it takes. -/
theorem turn_of_take? {s : System τ} {item : Item} {c : Connection (Recorded τ)}
    (ht : (s.connection.marks s.connection.cue).take? = some (item, c)) :
    s.turn = s.conclude (c.dealWith item) := by
  unfold turn
  rw [Connection.turn_eq_take?, ht]
  rfl

/-- With errands, a turn does the first of them. -/
theorem turn_of_errand {s : System τ} {e : Errand} {rest : List Errand}
    (hv : s.connection.serving = true) (he : s.connection.errands = e :: rest) :
    s.turn = s.conclude ((s.connection.taking rest e).onErrand e) := by
  have htake : { s.connection.marks s.connection.cue with errands := rest } =
      s.connection.taking rest e := by
    unfold Connection.cue Connection.taking
    rw [he]
    cases e with
    | retry generation => rfl
    | checkQueue | announce | cease => rw [Connection.marks_nil]
  rw [turn_of_take? ((s.connection.marks s.connection.cue).take?_errand hv he), htake]
  rfl

/-- Without errands, a turn takes the first signal. -/
theorem turn_of_signal {s : System τ} {signal : Signal} {rest : Fifo Signal}
    (hv : s.connection.serving = true) (he : s.connection.errands = [])
    (hp : s.connection.signals.pop? = some (signal, rest)) :
    s.turn = s.conclude ((s.connection.hearing signal rest).onSignal signal) := by
  have hcue : s.connection.cue = [.heard signal] := by simp [Connection.cue, he, hp]
  rw [turn_of_take? ((s.connection.marks s.connection.cue).take?_signal hv he hp), hcue]
  rfl

/-- Without either, nothing happens. -/
theorem turn_of_rest {s : System τ} (h : s.connection.serving = false ∨
    s.connection.errands = [] ∧ s.connection.signals.pop? = none) : s.turn = s := by
  unfold turn
  rw [Connection.turn_eq_take?, (s.connection.marks s.connection.cue).take?_rest h]
  rfl

/-- A turn of the loop. -/
theorem turn_moves (s : System τ) (hb : s.batch = []) : ReflTransGen Move s s.turn := by
  cases hv : s.connection.serving with
  | false => rw [turn_of_rest (Or.inl hv)]
  | true =>
    cases he : s.connection.errands with
    | cons e rest =>
      rw [turn_of_errand hv he]
      exact errand_moves s hb e rest he
    | nil =>
      cases hp : s.connection.signals.pop? with
      | none => rw [turn_of_rest (Or.inr ⟨he, hp⟩)]
      | some next =>
        rw [turn_of_signal hv he hp]
        exact signal_moves s hb next.1 next.2 he hp

/-- An act is a sequence of moves. -/
theorem step_moves (s : System τ) (act : Act) : ReflTransGen Move s (s.step act) := by
  cases act with
  | start text =>
    unfold step
    dsimp only
    split
    · next hh => exact start_moves s text hh
    · exact .refl
  | stop =>
    unfold step
    dsimp only
    split
    · next hh => exact .single (.stop s hh)
    · exact .refl
  | send payload =>
    unfold step
    dsimp only
    split
    · next hh => exact .single (.send s payload hh)
    · exact .refl
  | release =>
    unfold step
    dsimp only
    split
    · next hh => exact release_moves s hh
    · exact .refl
  | hear signal => exact .single (.hear s signal)
  | advance millis => exact advance_moves s millis
  | elapse => exact elapse_moves s
  | straggle generation =>
    show ReflTransGen Move s (s.straggle generation)
    unfold straggle
    split
    · next hg => exact .single (.straggle s generation hg)
    · exact .refl
  | turn =>
    unfold step
    dsimp only
    split
    · next hb => exact turn_moves s (List.isEmpty_iff.mp hb)
    · exact .refl
  | publish =>
    show ReflTransGen Move s s.publish
    unfold publish
    split
    · exact .refl
    · next event rest hb => exact .single (.publish s event rest hb)

/-- What every move keeps, every act keeps. -/
theorem step_keeps {P : System τ → Prop} (hmove : ∀ s t, P s → Move s t → P t) {s : System τ}
    (hs : P s) (act : Act) : P (s.step act) := by
  have hmoves : ∀ t, ReflTransGen Move s t → P t := by
    intro t h
    induction h with
    | refl => exact hs
    | tail _ hm ih => exact hmove _ _ ih hm
  exact hmoves _ (s.step_moves act)

/-- What every act keeps, every run keeps. -/
theorem run_keeps {P : System τ → Prop} (hstep : ∀ s act, P s → P (s.step act)) {s : System τ}
    (hs : P s) (acts : List Act) : P (s.run acts) := by
  induction acts generalizing s with
  | nil => exact hs
  | cons act acts ih => exact ih (hstep s act hs)

/-- What a new system has and every move keeps holds after every run. -/
theorem run_induction {P : System τ → Prop} {config : Config} {transport : τ}
    (hinit : P (init config transport)) (hmove : ∀ s t, P s → Move s t → P t)
    (acts : List Act) : P ((init config transport).run acts) :=
  run_keeps (P := P) (fun _ act hs => step_keeps hmove hs act) hinit acts

end System

end Tether
