import Tether.Proofs.Likeness

/-!
# The order of signals

Signals wait in the inbox of a connection until the loop has no errand left and takes one. Whatever
the connection does meanwhile, it takes them in the order in which they were reported, and misses
none of them as long as its loop goes on. Reports are found in the log, which notes each of them,
and what was taken is found in the history.
-/

namespace Tether

/-- The signal that a note is about, if it is the note of a report. -/
def Note.signal? : Note → Option Signal
  | .reported signal => some signal
  | _ => none

/-- The signals that were reported, in order; the log has its latest note first. -/
def emissions (log : List Note) : List Signal := log.reverse.filterMap Note.signal?

/-- The signals that were taken out of the inbox, in order. -/
def hearings (h : List Mark) : List Signal :=
  h.filterMap fun
    | .heard signal => some signal
    | _ => none

theorem emissions_cons (n : Note) (log : List Note) :
    emissions (n :: log) = emissions log ++ n.signal?.toList := by
  unfold emissions
  rw [List.reverse_cons, List.filterMap_append]
  cases hn : n.signal? <;> simp [hn]

theorem emissions_append {ns : List Note} (hn : ∀ n ∈ ns, n.signal? = none) (log : List Note) :
    emissions (ns ++ log) = emissions log := by
  induction ns with
  | nil => rfl
  | cons n ns ih =>
    obtain ⟨hn, hns⟩ := List.forall_mem_cons.mp hn
    rw [List.cons_append, emissions_cons, ih hns, hn]
    exact List.append_nil _

theorem hearings_append (a b : List Mark) : hearings (a ++ b) = hearings a ++ hearings b :=
  List.filterMap_append

theorem hearings_eq_nil {ms : List Mark} (hm : ∀ m ∈ ms, m.isHeard = false) :
    hearings ms = [] := by
  refine List.filterMap_eq_nil_iff.mpr fun m hmem => ?_
  have := hm m hmem
  cases m <;> first | rfl | cases this

/-- What is not heard may be told at any time. -/
theorem hearings_aside (h : List Mark) {ms : List Mark} (hm : ∀ m ∈ ms, m.isHeard = false) :
    hearings (h ++ ms) = hearings h := by
  rw [hearings_append, hearings_eq_nil hm, List.append_nil]

/-- The way of signals through a connection. -/
structure Inflow where
  /-- The signals that were taken. -/
  heard : List Signal
  /-- The signals in the inbox. -/
  waiting : List Signal
  /-- The signals that were reported. -/
  reported : List Signal
  /-- Whether the inbox is still open. -/
  serving : Bool

namespace Inflow

def hear (i : Inflow) (signal : Signal) : Inflow :=
  { i with
    reported := i.reported ++ [signal]
    waiting := if i.serving then i.waiting ++ [signal] else i.waiting }

/-- Signals are taken in the order in which they were reported. -/
structure Ordered (i : Inflow) : Prop where
  order : i.heard ++ i.waiting <+: i.reported
  /-- As long as the inbox is open, no signal gets lost. -/
  complete : i.serving = true → i.heard ++ i.waiting = i.reported

variable {i : Inflow}

theorem Ordered.hear (h : i.Ordered) (signal : Signal) : (i.hear signal).Ordered := by
  cases hv : i.serving with
  | true =>
    have heq : (i.hear signal).heard ++ (i.hear signal).waiting = (i.hear signal).reported := by
      simp only [Inflow.hear, hv, if_true]
      rw [← List.append_assoc, h.complete hv]
    exact ⟨heq ▸ List.prefix_rfl, fun _ => heq⟩
  | false =>
    refine ⟨?_, fun hs => ?_⟩
    · simp only [Inflow.hear, hv]
      exact h.order.trans (List.prefix_append _ _)
    · exact absurd (hv.symm.trans hs) (by simp)

/-- The first signal in the inbox is taken. -/
theorem Ordered.take (h : i.Ordered) {signal : Signal} {rest : List Signal}
    (hw : i.waiting = signal :: rest) :
    Ordered { i with heard := i.heard ++ [signal], waiting := rest } := by
  have heq : i.heard ++ [signal] ++ rest = i.heard ++ i.waiting := by simp [hw]
  refine ⟨?_, fun hs => ?_⟩
  · show i.heard ++ [signal] ++ rest <+: i.reported
    rw [heq]
    exact h.order
  · show i.heard ++ [signal] ++ rest = i.reported
    rw [heq]
    exact h.complete hs

/-- The inbox is given up, with what is in it. -/
theorem Ordered.shut (h : i.Ordered) : Ordered { i with waiting := [], serving := false } := by
  refine ⟨?_, nofun⟩
  show i.heard ++ [] <+: i.reported
  rw [List.append_nil]
  exact (List.prefix_append _ _).trans h.order

end Inflow

/-! ## What leaves the signals alone -/

namespace Connection

variable {τ : Type}

def inflow (c : Connection (Recorded τ)) : Inflow where
  heard := hearings c.transport.history
  waiting := c.signals.toList
  reported := emissions c.log
  serving := c.serving

theorem inflow_note (c : Connection (Recorded τ)) {n : Note} (hn : n.signal? = none) :
    (c.note n).inflow = c.inflow := by
  have he : emissions (n :: c.log) = emissions c.log := by
    rw [emissions_cons, hn]
    exact List.append_nil _
  unfold inflow note
  rw [he]

theorem inflow_notes (c : Connection (Recorded τ)) {ns : List Note}
    (hn : ∀ n ∈ ns, n.signal? = none) : (c.notes ns).inflow = c.inflow := by
  have he : emissions (ns.reverse ++ c.log) = emissions c.log :=
    emissions_append (fun n hm => hn n (List.mem_reverse.mp hm)) c.log
  rw [notes_eq]
  unfold inflow
  rw [he]

theorem inflow_marks (c : Connection (Recorded τ)) (ms : List Mark)
    (hm : ∀ m ∈ ms, m.isHeard = false) : (c.marks ms).inflow = c.inflow := by
  unfold inflow marks
  rw [hearings_aside _ hm]

theorem inflow_assign (c : Connection (Recorded τ)) (e : Errand) :
    (c.assign e).inflow = c.inflow := by
  rw [assign_eq]
  rfl

theorem inflow_moveTo (c : Connection (Recorded τ)) (next : State) :
    (c.moveTo next).inflow = c.inflow :=
  c.inflow_note (n := .transition c.state next c.generation) rfl

theorem inflow_disarm (c : Connection (Recorded τ)) : c.disarm.inflow = c.inflow := by
  unfold disarm
  split
  · exact c.inflow_note (n := .timerCancelled) rfl
  · rfl

theorem inflow_elapse (c : Connection (Recorded τ)) : c.elapse.inflow = c.inflow := by
  unfold elapse
  split
  · split
    · rfl
    · rw [inflow_assign]
      rfl
  · rfl

theorem inflow_advance (c : Connection (Recorded τ)) (millis : Nat) :
    (c.advance millis).inflow = c.inflow := by
  unfold advance
  dsimp only
  split
  · rw [inflow_elapse]
    rfl
  · rfl

theorem inflow_loseLink (c : Connection (Recorded τ)) (code : Nat) (reason : String) :
    (c.loseLink code reason).1.inflow = c.inflow := by
  unfold loseLink
  dsimp only
  show (Connection.disarm _).inflow = c.inflow
  rw [inflow_disarm, inflow_note _ rfl]
  exact inflow_moveTo { c with live := false } .reconnecting

theorem signal?_enqueueNote (q : Outbox) : q.enqueueNote.signal? = none := by
  unfold Outbox.enqueueNote
  split
  · rfl
  · split <;> rfl

theorem signal?_flushNotes (result : Flush) (remaining : Nat) :
    ∀ n ∈ Outbox.flushNotes result remaining, n.signal? = none := by
  unfold Outbox.flushNotes
  cases result.refusal <;> split <;> simp [Note.signal?]

theorem inflow_send (c : Connection (Recorded τ)) (payload : Payload) :
    (c.send payload).1.inflow = c.inflow := by
  have he : emissions (c.outbox.enqueueNote :: c.log) = emissions c.log := by
    rw [emissions_cons, signal?_enqueueNote]
    exact List.append_nil _
  rw [send_eq]
  unfold inflow
  rw [he]

/-! ## What reports signals -/

theorem inflow_hear (c : Connection (Recorded τ)) (signal : Signal) :
    (c.hear signal).inflow = c.inflow.hear signal := by
  have he : emissions (.reported signal :: c.log) = emissions c.log ++ [signal] :=
    emissions_cons (.reported signal) c.log
  unfold hear inflow note Inflow.hear
  dsimp only
  split
  · next hv => rw [he, Fifo.toList_push, hv]
  · next hv =>
    have hv : c.serving = false := by simpa using hv
    rw [he, hv]

theorem ordered_hearAll {c : Connection (Recorded τ)} (h : c.inflow.Ordered) (ss : List Signal) :
    (c.hearAll ss).inflow.Ordered := by
  induction ss generalizing c with
  | nil => exact h
  | cons s ss ih =>
    refine ih (c := c.hear s) ?_
    rw [inflow_hear]
    exact h.hear s

/-- The transport was asked something, and answers with signals. -/
theorem ordered_answer {c : Connection (Recorded τ)} (h : c.inflow.Ordered) {t : Recorded τ}
    (ms : List Mark) (ht : t.history = c.transport.history ++ ms)
    (hm : ∀ m ∈ ms, m.isHeard = false) (ss : List Signal) :
    ({ c with transport := t }.hearAll ss).inflow.Ordered := by
  refine ordered_hearAll ?_ ss
  have he : ({ c with transport := t } : Connection (Recorded τ)).inflow = c.inflow := by
    unfold inflow
    rw [ht, hearings_aside _ hm]
  rw [he]
  exact h

variable [Transport τ]

theorem ordered_closeLink {c : Connection (Recorded τ)} (h : c.inflow.Ordered) :
    c.closeLink.inflow.Ordered :=
  ordered_answer h (t := (Transport.closeLink c.transport).1) [.closed] rfl
    (by simp [Mark.isHeard]) _

theorem ordered_openLink {c : Connection (Recorded τ)} (h : c.inflow.Ordered) :
    c.openLink.inflow.Ordered := by
  cases he : c.endpoint with
  | none =>
    rw [c.openLink_of_none he, inflow_note _ rfl]
    exact h
  | some endpoint =>
    rw [c.openLink_of_some he]
    refine ordered_answer ?_ [.opened endpoint c.generation.next] rfl
      (by simp [Mark.isHeard]) _
    have hmoved := inflow_moveTo { c with generation := c.generation.next } .connecting
    rw [inflow_note _ rfl]
    exact hmoved ▸ h

theorem hearings_flush (q : Outbox) (t : Recorded τ) :
    hearings (q.flush t).2.1.history = hearings t.history := by
  have hsent : ∀ sent : List Message, ∀ m ∈ sent.map Message.acceptance, m.isHeard = false :=
    fun _ => List.forall_mem_map.mpr fun _ _ => rfl
  unfold Outbox.flush
  obtain ⟨base, sent, ⟨-, h⟩ | ⟨m, rest, error, -, h⟩⟩ :=
    Outbox.handOver_recorded t q.messages.toList
  · rw [h]
    exact hearings_aside _ (hsent sent)
  · rw [h]
    dsimp only
    rw [hearings_aside _ (by simp [Mark.isHeard]), hearings_aside _ (hsent sent)]

theorem ordered_flush {c : Connection (Recorded τ)} (h : c.inflow.Ordered) :
    c.flush.1.inflow.Ordered := by
  have hflush := hearings_flush c.outbox c.transport
  unfold flush
  generalize c.outbox.flush c.transport = flushed at hflush
  obtain ⟨outbox, t, result⟩ := flushed
  dsimp only at hflush ⊢
  have hd : ({ c with outbox, transport := t }.notes
      (Outbox.flushNotes result outbox.length)).inflow = c.inflow := by
    rw [inflow_notes _ (signal?_flushNotes result outbox.length)]
    unfold inflow
    rw [hflush]
  split
  · rw [hd]
    exact h
  · split
    · rw [inflow_loseLink]
      exact ordered_closeLink (hd ▸ h)
    · rw [hd]
      exact h

theorem ordered_stop {c : Connection (Recorded τ)} (h : c.inflow.Ordered) :
    c.stop.inflow.Ordered := by
  by_cases hs : c.state = .closed
  · have hc : c.stop = c := if_pos hs
    rw [hc]
    exact h
  · have hhalted : c.halted.inflow = c.inflow := by
      show (c.moveTo .closed).disarm.inflow = c.inflow
      rw [inflow_disarm, inflow_moveTo]
    rw [c.stop_of_ne hs, inflow_assign, inflow_note _ rfl]
    split
    · exact ordered_closeLink (hhalted ▸ h)
    · rw [hhalted]
      exact h

theorem ordered_onCheck {c : Connection (Recorded τ)} (h : c.inflow.Ordered) :
    c.onCheck.1.inflow.Ordered := by
  by_cases hs : c.state = .opened
  · rw [c.onCheck_of_opened hs]
    exact ordered_flush (c := { c with checkDue := false, unreported := 0 }) h
  · rw [c.onCheck_of_ne hs]
    exact h

theorem ordered_onRetry {c : Connection (Recorded τ)} (h : c.inflow.Ordered)
    (generation : Generation) : (c.onRetry generation).inflow.Ordered := by
  by_cases hd : c.state = .reconnecting ∧ c.generation = generation
  · rw [c.onRetry_of_due hd]
    exact ordered_openLink (c := { c with timer := none }) h
  · rw [c.onRetry_of_stale hd, inflow_note _ rfl]
    exact h

theorem ordered_onErrand {c : Connection (Recorded τ)} (h : c.inflow.Ordered)
    (rest : List Errand) (e : Errand) :
    ((c.taking rest e).onErrand e).1.inflow.Ordered := by
  cases e with
  | checkQueue => exact ordered_onCheck (c := { c with errands := rest }) h
  | retry generation =>
    have hm := c.inflow_marks [.retrying generation] (by simp [Mark.isHeard])
    exact ordered_onRetry (c := c.retrying generation rest) (hm ▸ h) generation
  | announce event => exact h
  | cease =>
    have hd := inflow_disarm { c with errands := rest }
    have hn : ({ c with errands := rest }.disarm.note .loopEnded).inflow = c.inflow :=
      (inflow_note _ rfl).trans hd
    have hshut := h.shut
    rw [← hn] at hshut
    exact hshut

theorem ordered_onSignal {c : Connection (Recorded τ)} (h : c.inflow.Ordered) (signal : Signal) :
    (c.onSignal signal).1.inflow.Ordered := by
  unfold onSignal
  split
  · unfold onReport
    split
    · split
      · refine ordered_flush ?_
        rw [inflow_note _ rfl]
        exact (c.inflow_moveTo .opened) ▸ h
      · rw [inflow_note _ rfl]
        exact h
    · split
      · rw [inflow_note _ rfl]
        exact h
      · rw [inflow_note _ rfl]
        exact h
    · split
      · rw [inflow_loseLink]
        exact h
      · exact h
    · split
      · rw [inflow_loseLink, inflow_note _ rfl]
        exact h
      · exact h
  · rw [inflow_note _ rfl]
    exact h

end Connection

/-! ## Every act -/

namespace System

variable {τ : Type} [Transport τ] {s : System τ}

omit [Transport τ] in
theorem inflow_become (s : System τ) (c : Connection (Recorded τ)) :
    (s.become c).connection.inflow = c.inflow := by
  refine c.inflow_marks _ fun m hm => ?_
  rcases List.mem_append.mp hm with hm | hm
  · obtain ⟨g, rfl | rfl⟩ := Connection.eq_of_mem_timerMarks hm <;> rfl
  · obtain ⟨ids, rfl⟩ := Connection.eq_handed_of_mem_queueMarks hm
    rfl

theorem ordered_start (h : s.connection.inflow.Ordered) (text : String) :
    (s.start text).connection.inflow.Ordered := by
  obtain hst | hst | ⟨endpoint, hs, hst⟩ := s.start_cases text
  · rw [hst]
    exact h
  · rw [hst]
    exact (s.connection.inflow_note (n := .startRejected s.connection.state) rfl) ▸ h
  · rw [hst]
    refine Connection.ordered_openLink ?_
    have hn := s.connection.inflow_note (n := .starting endpoint.href) rfl
    have hm := (s.connection.note (.starting endpoint.href)).inflow_marks [.started]
      (by simp [Mark.isHeard])
    exact (hm.trans hn) ▸ h

theorem ordered_turn (h : s.connection.inflow.Ordered) : s.turn.connection.inflow.Ordered := by
  cases hv : s.connection.serving with
  | false =>
    rw [turn_of_rest (Or.inl hv)]
    exact h
  | true =>
    cases he : s.connection.errands with
    | cons e rest =>
      rw [turn_of_errand hv he]
      show (s.become _).connection.inflow.Ordered
      rw [inflow_become]
      exact Connection.ordered_onErrand h rest e
    | nil =>
      cases hp : s.connection.signals.pop? with
      | none =>
        rw [turn_of_rest (Or.inr ⟨he, hp⟩)]
        exact h
      | some next =>
        obtain ⟨signal, rest⟩ := next
        rw [turn_of_signal hv he hp]
        show (s.become _).connection.inflow.Ordered
        rw [inflow_become]
        refine Connection.ordered_onSignal ?_ signal
        have htake := h.take (Fifo.toList_of_pop? hp)
        have hheard : hearings (s.connection.transport.history ++ [.heard signal]) =
            hearings s.connection.transport.history ++ [signal] := hearings_append _ _
        show Inflow.Ordered ⟨hearings (s.connection.transport.history ++ [.heard signal]),
          rest.toList, emissions s.connection.log, s.connection.serving⟩
        rw [hheard]
        exact htake

/-- Every act takes signals in order. -/
theorem ordered_step (h : s.connection.inflow.Ordered) (act : Act) :
    (s.step act).connection.inflow.Ordered := by
  cases act with
  | start text =>
    unfold System.step
    dsimp only
    split
    · exact ordered_start h text
    · exact h
  | stop =>
    unfold System.step
    dsimp only
    split
    · have hm := s.connection.stop.inflow_marks [.stopped] (by simp [Mark.isHeard])
      exact hm ▸ Connection.ordered_stop h
    · exact h
  | send payload =>
    unfold System.step
    dsimp only
    split
    · show ((s.connection.send payload).1.marks _).inflow.Ordered
      rw [Connection.inflow_marks _ _ (by simp [Mark.isHeard]), Connection.inflow_send]
      exact h
    · exact h
  | release =>
    unfold System.step
    dsimp only
    split
    · show ((s.connection.stop.assign .cease).marks [.stopped]).inflow.Ordered
      rw [Connection.inflow_marks _ _ (by simp [Mark.isHeard]), Connection.inflow_assign]
      exact Connection.ordered_stop h
    · exact h
  | hear signal =>
    show (s.connection.hear signal).inflow.Ordered
    rw [Connection.inflow_hear]
    exact h.hear signal
  | advance millis =>
    show (s.become (s.connection.advance millis)).connection.inflow.Ordered
    rw [inflow_become, Connection.inflow_advance]
    exact h
  | elapse =>
    show (s.become s.connection.elapse).connection.inflow.Ordered
    rw [inflow_become, Connection.inflow_elapse]
    exact h
  | straggle generation =>
    show (s.straggle generation).connection.inflow.Ordered
    unfold System.straggle
    split
    · show ((s.connection.assign (.retry generation)).marks [.fired generation]).inflow.Ordered
      rw [Connection.inflow_marks _ _ (by simp [Mark.isHeard]), Connection.inflow_assign]
      exact h
    · exact h
  | turn =>
    unfold System.step
    dsimp only
    split
    · exact ordered_turn h
    · exact h
  | publish =>
    show s.publish.connection.inflow.Ordered
    unfold System.publish
    split
    · exact h
    · show (s.connection.marks _).inflow.Ordered
      rw [Connection.inflow_marks _ _ (by simp [Mark.isHeard])]
      exact h

theorem ordered_run (config : Config) (transport : τ) (acts : List Act) :
    ((System.init config transport).run acts).connection.inflow.Ordered :=
  run_keeps (P := fun s => s.connection.inflow.Ordered) (fun _ act h => ordered_step h act)
    ⟨List.prefix_rfl, fun _ => rfl⟩ acts

end System

end Tether
