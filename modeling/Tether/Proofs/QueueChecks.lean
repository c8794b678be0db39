import Tether.Proofs.Ledger

/-!
# Looks at the queue

Sending puts a message into the queue and asks for a look at it; the look, when its turn comes,
flushes the queue if the link is up. A flag says whether a look is due, so that not every message
asks for one of its own. Here it is shown that the flag is right, and that no message is forgotten
over it: in an open connection that has nothing to do, messages wait only behind one that the
transport has just refused.

What is shown holds after an act, but not at every moment within it, since a link is confirmed
before the queue is flushed. So this module goes through acts, not through moves.
-/

namespace Tether

/-- What may be told while nobody touches queue or link: no call of the owner, none of the
transport, and no timer that is armed. -/
def Mark.isIdle : Mark → Bool
  | fired _ | retrying _ | heard _ | handed _ | published _ => true
  | started | stopped | queued .. | armed _ | opened .. | sent .. | closed => false

namespace System

variable {τ : Type} {s t : System τ}

/-- The transport refused the first message of the queue, for a reason that leaves the link. Since
then nobody touched queue or link, and of the refusal subscribers were told or are about to be. -/
def Refused (s : System τ) : Prop :=
  ∃ m rest error pre post, s.connection.outbox.messages.toList = m :: rest ∧
    error.meansLinkLost = false ∧ s.history = pre ++ .sent m.payload (some error) :: post ∧
    (∀ mark ∈ post, mark.isIdle = true) ∧
    .sendFailed m.sequence error.message ∈ publications post ++ s.batch

/-- In an open connection messages wait for a look at the queue, or behind one that was refused. -/
def Attended (s : System τ) : Prop :=
  s.connection.state = .opened → s.connection.checkDue = false →
    s.connection.outbox.messages.toList = [] ∨ s.Refused

/-- Nobody touches queue or link. -/
structure Apart (s t : System τ) : Prop where
  state : t.connection.state = s.connection.state
  checkDue : t.connection.checkDue = s.connection.checkDue
  outbox : t.connection.outbox = s.connection.outbox
  /-- What was about to be published still is, or was published. -/
  marks : ∃ ms, t.history = s.history ++ ms ∧ (∀ m ∈ ms, m.isIdle = true) ∧
    ∀ event ∈ s.batch, event ∈ publications ms ++ t.batch

theorem Apart.refl (s : System τ) : Apart s s where
  state := rfl
  checkDue := rfl
  outbox := rfl
  marks := ⟨[], (List.append_nil _).symm, by simp, fun _ => id⟩

theorem Apart.refused (h : Apart s t) (hr : s.Refused) : t.Refused := by
  obtain ⟨m, rest, error, pre, post, hq, he, hh, hpost, hevent⟩ := hr
  obtain ⟨ms, hms, hidle, hbatch⟩ := h.marks
  refine ⟨m, rest, error, pre, post ++ ms, ?_, he, ?_, ?_, ?_⟩
  · rw [h.outbox, hq]
  · rw [hms, hh, List.append_assoc]
    rfl
  · exact List.forall_mem_append.mpr ⟨hpost, hidle⟩
  · rw [publications_append, List.append_assoc]
    rcases List.mem_append.mp hevent with hevent | hevent
    · exact List.mem_append_left _ hevent
    · exact List.mem_append_right _ (hbatch _ hevent)

/-- An act that only tells something idle. -/
theorem Apart.put {c : Connection (Recorded τ)} (ms : List Mark)
    (hh : c.transport.history = s.history ++ ms) (hm : ∀ m ∈ ms, m.isIdle = true)
    (hs : c.state = s.connection.state) (hd : c.checkDue = s.connection.checkDue)
    (ho : c.outbox = s.connection.outbox) : Apart s (s.put c) where
  state := hs
  checkDue := hd
  outbox := ho
  marks := ⟨ms, hh, hm, fun _ he => List.mem_append_right _ he⟩

/-- A turn that only tells something idle. It is taken when the batch is empty. -/
theorem Apart.conclude (hb : s.batch = []) {c : Connection (Recorded τ)} {events : List Event}
    (ms : List Mark) (hh : c.transport.history = s.history ++ ms)
    (hm : ∀ m ∈ ms, m.isIdle = true) (hs : c.state = s.connection.state)
    (hd : c.checkDue = s.connection.checkDue) (ho : c.outbox = s.connection.outbox)
    (ht : c.timer = s.connection.timer ∨ c.timer = none) : Apart s (s.conclude (c, events)) := by
  rw [conclude_eq_put ht ho]
  refine ⟨hs, hd, ho, ms, hh, hm, ?_⟩
  rw [hb]
  nofun

/-- A turn that ends with a refusal. -/
theorem refused_conclude {c : Connection (Recorded τ)} {events : List Event} {m : Message}
    {rest : List Message} {error : Error} {pre : List Mark}
    (hq : c.outbox.messages.toList = m :: rest) (he : error.meansLinkLost = false)
    (hh : c.transport.history = pre ++ [.sent m.payload (some error)])
    (ht : c.timer = s.connection.timer) (hm : .sendFailed m.sequence error.message ∈ events) :
    (s.conclude (c, events)).Refused := by
  refine ⟨m, rest, error, pre, s.connection.aftermath c, hq, he, ?_, ?_, ?_⟩
  · show c.transport.history ++ s.connection.aftermath c = _
    rw [hh, List.append_assoc]
    rfl
  · intro mark hmark
    rw [Connection.aftermath, Connection.timerMarks_eq_nil (Or.inl ht), List.nil_append] at hmark
    obtain ⟨ids, rfl⟩ := Connection.eq_handed_of_mem_queueMarks hmark
    rfl
  · exact List.mem_append_right _ hm

variable [Transport τ]

/-- What an act can mean for a queue. -/
inductive Outcome (s : System τ) : System τ → Prop where
  /-- There is no link that is up. -/
  | down {t : System τ} (hs : t.connection.state ≠ .opened) : Outcome s t
  /-- A look at the queue is due. -/
  | due {t : System τ} (hd : t.connection.checkDue = true) : Outcome s t
  /-- The queue was flushed last. -/
  | flush (u : System τ) : Outcome s u.flush
  /-- Nobody touches queue or link. -/
  | apart {t : System τ} (ha : Apart s t) : Outcome s t

/-- A flush leaves no message, or one that was refused, or no link. -/
theorem attended_flush (s : System τ) : s.flush.Attended := by
  have hf := s.connection.flush_spec
  unfold System.flush
  generalize s.connection.flush.1 = c, s.connection.flush.2 = events at hf
  intro hs hd
  cases hf with
  | drained base sent log hq hl => exact Or.inl rfl
  | halted base sent m rest error log hq he hl =>
    have hh : s.history ++ (sent.map Message.acceptance ++ [.sent m.payload (some error)]) =
        s.history ++ sent.map Message.acceptance ++ [.sent m.payload (some error)] :=
      (List.append_assoc ..).symm
    exact Or.inr (refused_conclude (Fifo.toList_ofList _) he hh rfl (by simp))
  | lost base sent m rest error signals due log hq he hl => cases hs

theorem Attended.outcome (h : s.Attended) (ho : Outcome s t) : t.Attended := by
  intro hs hd
  cases ho with
  | down hn => exact absurd hs hn
  | due ht => simp [hd] at ht
  | flush u => exact u.attended_flush hs hd
  | apart ha =>
    rw [ha.state] at hs
    rw [ha.checkDue] at hd
    rw [ha.outbox]
    exact (h hs hd).imp_right ha.refused

/-! ## Turns -/

theorem openLink_ne_opened {c : Connection (Recorded τ)} (hs : c.state ≠ .opened) :
    c.openLink.state ≠ .opened := by
  cases he : c.endpoint with
  | none =>
    rw [c.openLink_of_none he]
    exact hs
  | some endpoint =>
    obtain ⟨base, signals, log, hc, -⟩ := c.openLink_eq he
    rw [hc]
    nofun

omit [Transport τ] in
theorem loseLink_ne_opened (c : Connection (Recorded τ)) (code : Nat) (reason : String) :
    (c.loseLink code reason).1.state ≠ .opened := by
  obtain ⟨due, log, hl, -⟩ := c.loseLink_eq code reason
  rw [hl]
  nofun

/-- A look at the queue flushes it if the link is up. -/
theorem check_outcome (rest : List Errand) :
    Outcome s (s.conclude { s.connection with errands := rest }.onCheck) := by
  by_cases hs : s.connection.state = .opened
  · rw [Connection.onCheck_of_opened { s.connection with errands := rest } hs, conclude_flush]
    · exact .flush _
    · rfl
    · rfl
  · rw [Connection.onCheck_of_ne { s.connection with errands := rest } hs]
    exact .down hs

theorem errand_outcome (hb : s.batch = []) (e : Errand) (rest : List Errand) :
    Outcome s (s.conclude ((s.connection.taking rest e).onErrand e)) := by
  cases e with
  | checkQueue => exact check_outcome rest
  | retry generation =>
    by_cases hs : s.connection.state = .reconnecting ∧ s.connection.generation = generation
    · refine .down ?_
      show ((s.connection.retrying generation rest).onRetry generation).state ≠ .opened
      rw [(s.connection.retrying generation rest).onRetry_of_due hs]
      refine openLink_ne_opened ?_
      show s.connection.state ≠ .opened
      simp [hs.1]
    · refine .apart ?_
      show Apart s (s.conclude ((s.connection.retrying generation rest).onRetry generation, []))
      rw [(s.connection.retrying generation rest).onRetry_of_stale hs]
      exact .conclude hb [.retrying generation] rfl (by simp [Mark.isIdle]) rfl rfl rfl
        (Or.inl rfl)
  | announce event =>
    exact .apart (.conclude hb [] (List.append_nil _).symm (by simp) rfl rfl rfl (Or.inl rfl))
  | cease =>
    obtain ⟨log, hd, -⟩ := Connection.disarm_eq { s.connection with errands := rest }
    show Outcome s (s.conclude ({ s.connection with errands := rest }.shut, []))
    unfold Connection.shut
    rw [hd]
    exact .apart (.conclude hb [] (List.append_nil _).symm (by simp) rfl rfl rfl (Or.inr rfl))

theorem report_outcome (hb : s.batch = []) (report : Report) (rest : Fifo Signal) :
    Outcome s (s.conclude
      ((s.connection.hearing ⟨s.connection.generation, report⟩ rest).onReport report)) := by
  have hr := (s.connection.hearing ⟨s.connection.generation, report⟩ rest).report_spec report
  generalize (s.connection.hearing ⟨s.connection.generation, report⟩ rest).onReport report =
    result at hr
  cases hr with
  | confirmed hr hs =>
    rw [conclude_flush]
    · exact .flush _
    · rfl
    · rfl
  | delivered payload hr hs =>
    exact .apart (.conclude hb [.heard ⟨s.connection.generation, report⟩] rfl
      (by simp [Mark.isIdle]) rfl rfl rfl (Or.inl rfl))
  | ended code reason ns hr hs hn => exact .down (loseLink_ne_opened _ _ _)
  | ignored ns hi hn =>
    rw [Connection.notes_eq]
    exact .apart (.conclude hb [.heard ⟨s.connection.generation, report⟩] rfl
      (by simp [Mark.isIdle]) rfl rfl rfl (Or.inl rfl))

theorem signal_outcome (hb : s.batch = []) (signal : Signal) (rest : Fifo Signal) :
    Outcome s (s.conclude ((s.connection.hearing signal rest).onSignal signal)) := by
  by_cases hg : signal.generation = s.connection.generation
  · have hs : signal = ⟨s.connection.generation, signal.report⟩ := by rw [← hg]
    rw [(s.connection.hearing signal rest).onSignal_of_eq hg, hs]
    exact report_outcome hb signal.report rest
  · rw [(s.connection.hearing signal rest).onSignal_of_ne hg]
    exact .apart (.conclude hb [.heard signal] rfl (by simp [Mark.isIdle]) rfl rfl rfl (Or.inl rfl))

theorem turn_outcome (hb : s.batch = []) : Outcome s s.turn := by
  cases hv : s.connection.serving with
  | false =>
    rw [turn_of_rest (Or.inl hv)]
    exact .apart (.refl s)
  | true =>
    cases he : s.connection.errands with
    | cons e rest =>
      rw [turn_of_errand hv he]
      exact errand_outcome hb e rest
    | nil =>
      cases hp : s.connection.signals.pop? with
      | none =>
        rw [turn_of_rest (Or.inr ⟨he, hp⟩)]
        exact .apart (.refl s)
      | some next =>
        rw [turn_of_signal hv he hp]
        exact signal_outcome hb next.1 next.2

theorem start_outcome (text : String) : Outcome s (s.start text) := by
  obtain hst | hst | ⟨endpoint, hs, hst⟩ := s.start_cases text
  · rw [hst]
    exact .apart (.refl s)
  · rw [hst]
    exact .apart (.put [] (List.append_nil _).symm (by simp) rfl rfl rfl)
  · rw [hst]
    refine .down (openLink_ne_opened ?_)
    show s.connection.state ≠ .opened
    intro ho
    simp [ho, State.isStartable] at hs

omit [Transport τ] in
/-- A timer touches neither queue nor link. -/
theorem apart_elapse (s : System τ) : Apart s (s.become s.connection.elapse) := by
  obtain he | ⟨t, -, -, he⟩ := s.elapse_cases
  · rw [he]
    exact .refl s
  · rw [he, Connection.assign_eq]
    exact .put [.fired t.generation] rfl (by simp [Mark.isIdle]) rfl rfl rfl

omit [Transport τ] in
theorem apart_advance (s : System τ) (millis : Nat) :
    Apart s (s.become (s.connection.advance millis)) := by
  unfold Connection.advance
  dsimp only
  split
  · have ha := apart_elapse (s.put { s.connection with clock := s.connection.clock + millis })
    exact ⟨ha.state, ha.checkDue, ha.outbox, ha.marks⟩
  · rw [become_eq_put]
    · exact .put [] (List.append_nil _).symm (by simp) rfl rfl rfl
    · exact Or.inl rfl
    · rfl

theorem step_outcome (s : System τ) (act : Act) : Outcome s (s.step act) := by
  cases act with
  | start text =>
    unfold step
    dsimp only
    split
    · exact start_outcome text
    · exact .apart (.refl s)
  | stop =>
    unfold step
    dsimp only
    split
    · refine .down ?_
      show s.connection.stop.state ≠ .opened
      simp [closed_of_stopped s.connection.stop_spec]
    · exact .apart (.refl s)
  | send payload =>
    unfold step
    dsimp only
    split
    · obtain ⟨errands, log, hsend, -, -⟩ := s.send_eq payload
      rw [hsend]
      exact .due rfl
    · exact .apart (.refl s)
  | release =>
    unfold step
    dsimp only
    split
    · refine .down ?_
      show s.connection.release.state ≠ .opened
      rw [Connection.release, Connection.assign_eq]
      simp [closed_of_stopped s.connection.stop_spec]
    · exact .apart (.refl s)
  | hear signal =>
    obtain ⟨signals, hc⟩ := s.connection.hear_eq signal
    show Outcome s (s.put (s.connection.hear signal))
    rw [hc]
    exact .apart (.put [] (List.append_nil _).symm (by simp) rfl rfl rfl)
  | advance millis => exact .apart (s.apart_advance millis)
  | elapse => exact .apart s.apart_elapse
  | straggle generation =>
    show Outcome s (s.straggle generation)
    unfold straggle
    split
    · rw [Connection.assign_eq]
      exact .apart (.put [.fired generation] rfl (by simp [Mark.isIdle]) rfl rfl rfl)
    · exact .apart (.refl s)
  | turn =>
    unfold step
    dsimp only
    split
    · next hb => exact turn_outcome (List.isEmpty_iff.mp hb)
    · exact .apart (.refl s)
  | publish =>
    show Outcome s s.publish
    unfold publish
    split
    · exact .apart (.refl s)
    · next event rest hb =>
      refine .apart ⟨rfl, rfl, rfl, [.published event], rfl, by simp [Mark.isIdle], ?_⟩
      rw [hb]
      exact fun _ => id

theorem attended_run (config : Config) (transport : τ) (acts : List Act) :
    ((System.init config transport).run acts).Attended := by
  refine run_keeps (P := Attended) (fun s act hs => hs.outcome (s.step_outcome act)) ?_ acts
  intro hs
  cases hs

end System

/-- Looks at the queue are neither lost nor doubled. Just one is among the errands while one is
due, and none otherwise. So whenever no errand is left, as it is when a signal is taken, an open
connection has an empty queue, or the transport has refused the first message of it: that was the
last thing the transport was asked for, the link is not lost by it, subscribers were told of it or
are about to be, and nothing was queued since. -/
theorem queue_checks_exact {τ : Type} [Transport τ] (config : Config) (transport : τ)
    (acts : List Act) :
    let s := (System.init config transport).run acts
    let c := s.connection
    c.errands.count .checkQueue = (if c.checkDue then 1 else 0) ∧
    (c.errands = [] → c.state = .opened →
      c.outbox.messages.toList = [] ∨
      ∃ m rest error pre post, c.outbox.messages.toList = m :: rest ∧
        error.meansLinkLost = false ∧ s.history = pre ++ .sent m.payload (some error) :: post ∧
        (∀ mark ∈ post, mark.isIdle = true) ∧
        .sendFailed m.sequence error.message ∈ publications post ++ s.batch) := by
  have hk := System.kept_run config transport acts
  have ha := System.attended_run config transport acts
  intro s c
  refine ⟨?_, ?_⟩
  · have hc : c.business.count .checkQueue = c.errands.count .checkQueue :=
      List.count_filter rfl
    exact hc.symm.trans hk.counted
  · intro he hs
    exact ha hs (hk.checkDue_eq_false (System.business_nil he))

end Tether
