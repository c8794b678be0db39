import Mathlib.Tactic.Set
import Tether.Proofs.History

/-!
# What the operations of a connection change

Each operation of a connection over a recorded transport, written as one change of its record. What
a proof does not look into is left open: which signals the transport adds, and which notes are
taken. Only the milestones among the notes are followed, that is, the moves between states and the
complaint about a missing endpoint.
-/

namespace Tether

/-- Moves between states, and the complaint that there is no endpoint to connect to. -/
def Note.isMilestone : Note → Bool
  | .transition .. | .noEndpoint => true
  | _ => false

/-- The milestones in a log. -/
def milestones (log : List Note) : List Note := log.filter (·.isMilestone)

@[simp] theorem milestones_cons (n : Note) (log : List Note) :
    milestones (n :: log) = if n.isMilestone then n :: milestones log else milestones log := by
  simp [milestones, List.filter_cons]

theorem milestones_append (ns log : List Note) :
    milestones (ns ++ log) = milestones ns ++ milestones log := by
  simp [milestones]

/-- Whether a report of the present attempt changes anything in a state. -/
def Report.countsIn : Report → State → Bool
  | .opened, state => state = .connecting
  | .message _, state => state = .opened
  | .closed _ _, state | .failed _, state => state.hasLink

/-- The close code and the reason of a report that ends a link. -/
def Report.ending? : Report → Option (Nat × String)
  | .closed code reason => some (code, reason)
  | .failed reason => some (abnormalClose, reason)
  | .opened | .message _ => none

/-- The mark of a message that the transport accepted. -/
def Message.acceptance (m : Message) : Mark := .sent m.payload none

/-- What can be taken out of the inboxes of a connection. -/
inductive Item where
  | errand (e : Errand)
  | signal (s : Signal)

variable {τ : Type} [Transport τ]

/-! ## Handing messages over -/

theorem Recorded.send_recorded (t : Recorded τ) {payload : Payload} {base : τ}
    {refusal : Option Error} (hs : Transport.send t.base payload = (base, refusal)) :
    Transport.send t payload = (⟨base, t.history ++ [.sent payload refusal]⟩, refusal) := by
  have hcall : Transport.send t payload = ((⟨(Transport.send t.base payload).1,
      t.history ++ [.sent payload (Transport.send t.base payload).2]⟩ : Recorded τ),
        (Transport.send t.base payload).2) := rfl
  rw [hcall, hs]

namespace Outbox

/-- The transport is handed messages one by one, and accepts all of them or all before the first
that it refuses. -/
theorem handOver_recorded (t : Recorded τ) (ms : List Message) :
    ∃ base sent,
      (ms = sent ∧
        handOver t ms = (⟨base, t.history ++ sent.map Message.acceptance⟩, sent, [], none)) ∨
      ∃ m rest error, ms = sent ++ m :: rest ∧
        handOver t ms = (⟨base, t.history ++ sent.map Message.acceptance ++
          [.sent m.payload (some error)]⟩, sent, m :: rest, some error) := by
  induction ms generalizing t with
  | nil => exact ⟨t.base, [], Or.inl ⟨rfl, by simp [handOver]⟩⟩
  | cons m ms ih =>
    cases hs : Transport.send t.base m.payload with
    | mk base refusal =>
      have hr := t.send_recorded hs
      cases refusal with
      | some error =>
        refine ⟨base, [], Or.inr ⟨m, ms, error, rfl, ?_⟩⟩
        simp [handOver, hr]
      | none =>
        obtain ⟨base', sent, ⟨rfl, h⟩ | ⟨m', rest, error, rfl, h⟩⟩ :=
          ih ⟨base, t.history ++ [.sent m.payload none]⟩
        · exact ⟨base', m :: ms, Or.inl ⟨rfl, by simp [handOver, hr, h, Message.acceptance]⟩⟩
        · exact ⟨base', m :: sent, Or.inr ⟨m', rest, error, rfl,
            by simp [handOver, hr, h, Message.acceptance]⟩⟩

/-- The note about a message that is queued is no milestone. -/
theorem enqueueNote_not_milestone (q : Outbox) : q.enqueueNote.isMilestone = false := by
  unfold enqueueNote
  split
  · rfl
  · split <;> rfl

/-- The notes about a flush are no milestones. -/
theorem milestones_flushNotes (result : Flush) (remaining : Nat) :
    milestones (flushNotes result remaining).reverse = [] := by
  unfold flushNotes
  cases result.refusal <;> split <;> simp [milestones, Note.isMilestone]

end Outbox

namespace Connection

/-! ## Small steps -/

omit [Transport τ] in
theorem assign_eq (c : Connection τ) (e : Errand) :
    c.assign e = { c with errands := if c.serving then c.errands ++ [e] else c.errands } := by
  unfold assign
  split <;> rfl

omit [Transport τ] in
theorem notes_eq (c : Connection τ) (ns : List Note) :
    c.notes ns = { c with log := ns.reverse ++ c.log } := by
  induction ns generalizing c with
  | nil => rfl
  | cons n ns ih =>
    show (c.note n).notes ns = _
    rw [ih]
    simp [note]

omit [Transport τ] in
theorem hear_eq (c : Connection τ) (s : Signal) :
    ∃ signals, c.hear s = { c with signals, log := .reported s :: c.log } := by
  unfold hear note
  dsimp only
  split
  · exact ⟨_, rfl⟩
  · exact ⟨_, rfl⟩

omit [Transport τ] in
theorem hearAll_eq (c : Connection τ) (ss : List Signal) :
    ∃ signals log, c.hearAll ss = { c with signals, log } ∧ milestones log = milestones c.log := by
  induction ss generalizing c with
  | nil => exact ⟨c.signals, c.log, rfl, rfl⟩
  | cons s ss ih =>
    obtain ⟨signals₁, h₁⟩ := c.hear_eq s
    obtain ⟨signals, log, h, hl⟩ := ih (c.hear s)
    refine ⟨signals, log, ?_, ?_⟩
    · show (c.hear s).hearAll ss = _
      rw [h, h₁]
    · rw [hl, h₁]
      simp [Note.isMilestone]

omit [Transport τ] in
theorem disarm_eq (c : Connection τ) :
    ∃ log, c.disarm = { c with timer := none, log } ∧ milestones log = milestones c.log := by
  unfold disarm note
  split
  · exact ⟨_, rfl, by simp [Note.isMilestone]⟩
  · next ht => exact ⟨c.log, by rw [← ht], rfl⟩

omit [Transport τ] in
/-- Sending changes the queue and asks for a look at it, unless that was asked for before. -/
theorem send_eq (c : Connection τ) (payload : Payload) :
    c.send payload =
      ({ c with
          outbox := (c.outbox.enqueue payload).1
          unreported := c.unreported + (c.outbox.enqueue payload).2.dropped
          checkDue := true
          errands := if c.checkDue || !c.serving then c.errands else c.errands ++ [.checkQueue]
          log := c.outbox.enqueueNote :: c.log },
        (c.outbox.enqueue payload).2) := by
  unfold send askForCheck note
  simp only [assign_eq]
  cases hd : c.checkDue <;> cases hv : c.serving <;> simp

/-! ## Links -/

omit [Transport τ] in
/-- Losing a link arms the timer for the present generation. -/
theorem loseLink_eq (c : Connection τ) (code : Nat) (reason : String) :
    ∃ due log, c.loseLink code reason =
      ({ c with
          live := false, state := .reconnecting, backoff := c.backoff.fail
          timer := some { generation := c.generation, due := due }, log },
        [.closed code reason, .reconnectScheduled c.backoff.peek c.backoff.fail.attempts]) ∧
      milestones log = .transition c.state .reconnecting c.generation :: milestones c.log := by
  unfold loseLink disarm
  dsimp only [moveTo, note, arm]
  cases c.timer with
  | none => exact ⟨_, _, rfl, by simp [Note.isMilestone]⟩
  | some t => exact ⟨_, _, rfl, by simp [Note.isMilestone]⟩

theorem closeLink_eq (c : Connection (Recorded τ)) :
    ∃ base signals log, c.closeLink =
      { c with transport := ⟨base, c.transport.history ++ [.closed]⟩, signals, log } ∧
      milestones log = milestones c.log := by
  obtain ⟨signals, log, h, hl⟩ := hearAll_eq
    { c with transport := (Transport.closeLink c.transport).1 } (Transport.closeLink c.transport).2
  exact ⟨_, signals, log, h, hl⟩

theorem openLink_of_some (c : Connection τ) {endpoint : Endpoint}
    (he : c.endpoint = some endpoint) :
    c.openLink = { ({ { c with generation := c.generation.next }.moveTo .connecting with
        live := true }).note (.opening c.generation.next endpoint.href c.backoff.attempts) with
      transport := (Transport.openLink c.transport endpoint c.generation.next).1 }.hearAll
        (Transport.openLink c.transport endpoint c.generation.next).2 := by
  unfold openLink
  split
  · next hn => simp [hn] at he
  · next e hs =>
    obtain rfl : e = endpoint := by simpa [hs] using he
    rfl

/-- An attempt gets the next generation and makes one call. -/
theorem openLink_eq (c : Connection (Recorded τ)) {endpoint : Endpoint}
    (he : c.endpoint = some endpoint) :
    ∃ base signals log, c.openLink =
      { c with
        generation := c.generation.next, state := .connecting, live := true
        transport := ⟨base, c.transport.history ++ [.opened endpoint c.generation.next]⟩
        signals, log } ∧
      milestones log = .transition c.state .connecting c.generation.next :: milestones c.log := by
  obtain ⟨signals, log, h, hl⟩ := hearAll_eq
    { ({ { c with generation := c.generation.next }.moveTo .connecting with live := true }).note
        (.opening c.generation.next endpoint.href c.backoff.attempts) with
      transport := (Transport.openLink c.transport endpoint c.generation.next).1 }
    (Transport.openLink c.transport endpoint c.generation.next).2
  refine ⟨(Transport.openLink c.transport.base endpoint c.generation.next).1, signals, log, ?_, ?_⟩
  · rw [c.openLink_of_some he]
    exact h
  · rw [hl]
    simp [note, moveTo, Note.isMilestone]

theorem openLink_of_none (c : Connection (Recorded τ)) (he : c.endpoint = none) :
    c.openLink = c.note .noEndpoint := by
  unfold openLink
  rw [he]

/-- Making an attempt leaves timer and queue alone. -/
theorem openLink_keeps (c : Connection (Recorded τ)) :
    c.openLink.timer = c.timer ∧ c.openLink.outbox = c.outbox := by
  cases he : c.endpoint with
  | none =>
    rw [c.openLink_of_none he]
    exact ⟨rfl, rfl⟩
  | some endpoint =>
    obtain ⟨base, signals, log, h, -⟩ := c.openLink_eq he
    rw [h]
    exact ⟨rfl, rfl⟩

/-! ## Flushing -/

/-- What a flush can come to. The messages that the transport accepts leave the queue; the one that
it refuses stays at its head. -/
inductive Flushed (c : Connection (Recorded τ)) :
    Connection (Recorded τ) → List Event → Prop where
  /-- Every message was accepted. -/
  | drained (base : τ) (sent : List Message) (log : List Note)
      (hq : c.outbox.messages.toList = sent) (hl : milestones log = milestones c.log) :
      Flushed c
        { c with
          outbox := { c.outbox with messages := .empty }
          transport := ⟨base, c.transport.history ++ sent.map Message.acceptance⟩, log } []
  /-- A message was refused, and the link stays. -/
  | halted (base : τ) (sent : List Message) (m : Message) (rest : List Message) (error : Error)
      (log : List Note) (hq : c.outbox.messages.toList = sent ++ m :: rest)
      (he : error.meansLinkLost = false) (hl : milestones log = milestones c.log) :
      Flushed c
        { c with
          outbox := { c.outbox with messages := .ofList (m :: rest) }
          transport := ⟨base, c.transport.history ++
            (sent.map Message.acceptance ++ [.sent m.payload (some error)])⟩, log }
        [.sendFailed m.sequence error.message]
  /-- A message was refused because the link is gone: it is closed, and the timer is armed. -/
  | lost (base : τ) (sent : List Message) (m : Message) (rest : List Message) (error : Error)
      (signals : Fifo Signal) (due : Nat) (log : List Note)
      (hq : c.outbox.messages.toList = sent ++ m :: rest) (he : error.meansLinkLost = true)
      (hl : milestones log = .transition c.state .reconnecting c.generation :: milestones c.log) :
      Flushed c
        { c with
          outbox := { c.outbox with messages := .ofList (m :: rest) }
          transport := ⟨base, c.transport.history ++
            (sent.map Message.acceptance ++ [.sent m.payload (some error), .closed])⟩
          live := false, state := .reconnecting, backoff := c.backoff.fail
          timer := some { generation := c.generation, due := due }, signals, log }
        [.sendFailed m.sequence error.message, .closed abnormalClose error.message,
          .reconnectScheduled c.backoff.peek c.backoff.fail.attempts]

theorem flush_spec (c : Connection (Recorded τ)) : Flushed c c.flush.1 c.flush.2 := by
  obtain ⟨base, sent, ⟨hq, h⟩ | ⟨m, rest, error, hq, h⟩⟩ :=
    Outbox.handOver_recorded c.transport c.outbox.messages.toList
  · have hf : c.flush = ({ c with
        outbox := { c.outbox with messages := .empty }
        transport := ⟨base, c.transport.history ++ sent.map Message.acceptance⟩
        log := (Outbox.flushNotes ⟨sent.map (·.sequence), none⟩ 0).reverse ++ c.log }, []) := by
      simp only [flush, Outbox.flush, h, notes_eq, List.head?_nil]
      rfl
    rw [hf]
    exact .drained base sent _ hq (by rw [milestones_append, Outbox.milestones_flushNotes]; rfl)
  · -- The queue after the flush, before anything is concluded from the refusal.
    set d : Connection (Recorded τ) := { c with
      outbox := { c.outbox with messages := .ofList (m :: rest) }
      transport := ⟨base, c.transport.history ++ sent.map Message.acceptance ++
        [.sent m.payload (some error)]⟩
      log := (Outbox.flushNotes ⟨sent.map (·.sequence), some (m.sequence, error)⟩
        (rest.length + 1)).reverse ++ c.log } with hd
    have hdl : milestones d.log = milestones c.log := by
      rw [hd, milestones_append, Outbox.milestones_flushNotes]
      rfl
    by_cases he : error.meansLinkLost = true
    · have hf : c.flush = ((d.closeLink.loseLink abnormalClose error.message).1,
          .sendFailed m.sequence error.message ::
            (d.closeLink.loseLink abnormalClose error.message).2) := by
        simp only [flush, Outbox.flush, h, notes_eq, List.head?_cons, he, if_true]
        rfl
      obtain ⟨base', signals, log, hc, hcl⟩ := d.closeLink_eq
      obtain ⟨due, log', hl, hll⟩ := d.closeLink.loseLink_eq abnormalClose error.message
      have hm : milestones log' =
          .transition c.state .reconnecting c.generation :: milestones c.log := by
        rw [hll, hc, ← hdl, ← hcl]
      have hh : d.transport.history ++ [.closed] = c.transport.history ++
          (sent.map Message.acceptance ++ [.sent m.payload (some error), .closed]) := by
        simp [hd]
      rw [hf, hl, hc, hh]
      exact .lost base' sent m rest error signals due log' hq he hm
    · have hf : c.flush = (d, [.sendFailed m.sequence error.message]) := by
        simp only [flush, Outbox.flush, h, notes_eq, List.head?_cons, he]
        rfl
      rw [hf, hd, List.append_assoc]
      exact .halted base sent m rest error _ hq (by simpa using he) hdl

/-! ## Errands and reports -/

/-- While the link is up, a look at the queue flushes it. -/
theorem onCheck_of_opened (c : Connection τ) (hs : c.state = .opened) :
    c.onCheck = ({ c with checkDue := false, unreported := 0 }.flush.1,
      (if c.unreported = 0 then [] else [.overflow c.unreported]) ++
        { c with checkDue := false, unreported := 0 }.flush.2) := by
  simp only [onCheck, hs, if_true]

/-- Otherwise it reports what was discarded, and no more. -/
theorem onCheck_of_ne (c : Connection τ) (hs : c.state ≠ .opened) :
    c.onCheck = ({ c with checkDue := false, unreported := 0 },
      if c.unreported = 0 then [] else [.overflow c.unreported]) := by
  simp only [onCheck, hs, if_false]

theorem onRetry_of_due (c : Connection τ) {generation : Generation}
    (hd : c.state = .reconnecting ∧ c.generation = generation) :
    c.onRetry generation = { c with timer := none }.openLink :=
  if_pos hd

theorem onRetry_of_stale (c : Connection τ) {generation : Generation}
    (hd : ¬(c.state = .reconnecting ∧ c.generation = generation)) :
    c.onRetry generation = c.note (.staleTimer generation c.state) :=
  if_neg hd

theorem onSignal_of_eq (c : Connection τ) {signal : Signal}
    (hg : signal.generation = c.generation) : c.onSignal signal = c.onReport signal.report :=
  if_pos hg

theorem onSignal_of_ne (c : Connection τ) {signal : Signal}
    (hg : signal.generation ≠ c.generation) :
    c.onSignal signal = (c.note (.staleSignal signal.generation c.generation), []) :=
  if_neg hg

/-- What a report of the present attempt can come to. -/
inductive Reported (c : Connection τ) (report : Report) : Connection τ × List Event → Prop where
  /-- The link is confirmed, and the queue is flushed. -/
  | confirmed (hr : report = .opened) (hs : c.state = .connecting) :
      Reported c report
        (({ c.moveTo .opened with backoff := c.backoff.reset }.note
            (.linkOpened c.generation)).flush.1,
          [.opened] ++ ({ c.moveTo .opened with backoff := c.backoff.reset }.note
            (.linkOpened c.generation)).flush.2)
  /-- A message is passed on. -/
  | delivered (payload : Payload) (hr : report = .message payload) (hs : c.state = .opened) :
      Reported c report (c.note (.messageReceived payload.size), [.messageReceived payload])
  /-- The link has ended. -/
  | ended (code : Nat) (reason : String) (ns : List Note)
      (hr : report.ending? = some (code, reason)) (hs : c.state.hasLink = true)
      (hn : ∀ n ∈ ns, n.isMilestone = false) :
      Reported c report ((c.notes ns).loseLink code reason)
  /-- Nothing changes. -/
  | ignored (ns : List Note) (hi : report.countsIn c.state = false)
      (hn : ∀ n ∈ ns, n.isMilestone = false) : Reported c report (c.notes ns, [])

theorem report_spec (c : Connection τ) (report : Report) :
    Reported c report (c.onReport report) := by
  unfold onReport
  cases report with
  | opened =>
    dsimp only
    split
    · next hs => exact .confirmed rfl hs
    · next hs =>
      exact .ignored [.openIgnored c.state] (by simpa [Report.countsIn] using hs)
        (by simp [Note.isMilestone])
  | message payload =>
    dsimp only
    split
    · next hs => exact .delivered payload rfl hs
    · next hs =>
      exact .ignored [.messageDropped c.state] (by simpa [Report.countsIn] using hs)
        (by simp [Note.isMilestone])
  | closed code reason =>
    dsimp only
    split
    · next hs => exact .ended code reason [] rfl hs (by simp)
    · next hs => exact .ignored [] (by simpa [Report.countsIn] using hs) (by simp)
  | failed message =>
    dsimp only
    split
    · next hs =>
      exact .ended abnormalClose message [.transportError message] rfl hs
        (by simp [Note.isMilestone])
    · next hs => exact .ignored [] (by simpa [Report.countsIn] using hs) (by simp)

/-! ## Turns -/

omit [Transport τ] in
/-- The next item in the inboxes, and the connection without it. -/
def take? (c : Connection τ) : Option (Item × Connection τ) :=
  if !c.serving then none
  else match c.errands with
    | e :: rest => some (.errand e, { c with errands := rest })
    | [] => c.signals.pop?.map fun next => (.signal next.1, { c with signals := next.2 })

/-- Deals with an item that was taken. -/
def dealWith (c : Connection τ) : Item → Connection τ × List Event
  | .errand e => c.onErrand e
  | .signal s => c.onSignal s

/-- A turn takes the next item and deals with it. -/
theorem turn_eq_take? (c : Connection τ) :
    c.turn = c.take?.map fun next => next.2.dealWith next.1 := by
  unfold turn take?
  split
  · rfl
  · cases c.errands with
    | cons e rest => rfl
    | nil =>
      cases c.signals.pop? with
      | none => rfl
      | some next => rfl

omit [Transport τ] in
theorem take?_errand (c : Connection τ) {e : Errand} {rest : List Errand}
    (hv : c.serving = true) (he : c.errands = e :: rest) :
    c.take? = some (.errand e, { c with errands := rest }) := by
  simp [take?, hv, he]

omit [Transport τ] in
theorem take?_signal (c : Connection τ) {signal : Signal} {rest : Fifo Signal}
    (hv : c.serving = true) (he : c.errands = []) (hp : c.signals.pop? = some (signal, rest)) :
    c.take? = some (.signal signal, { c with signals := rest }) := by
  simp [take?, hv, he, hp]

omit [Transport τ] in
theorem take?_rest (c : Connection τ)
    (h : c.serving = false ∨ c.errands = [] ∧ c.signals.pop? = none) : c.take? = none := by
  rcases h with hv | ⟨he, hp⟩
  · simp [take?, hv]
  · simp [take?, he, hp]

/-! ## Stopping -/

/-- What a stop can come to. -/
inductive Stopped (c : Connection (Recorded τ)) : Connection (Recorded τ) → Prop where
  /-- The connection was closed before. -/
  | already (hs : c.state = .closed) : Stopped c c
  /-- There is no link to close. -/
  | unlinked (log : List Note) (hs : c.state ≠ .closed) (hv : c.live = false)
      (hl : milestones log = .transition c.state .closed c.generation :: milestones c.log) :
      Stopped c
        { c with
          state := .closed, timer := none, generation := c.generation.next
          errands := if c.serving then c.errands ++ [.announce .stopped] else c.errands, log }
  /-- The link is closed. -/
  | linked (base : τ) (signals : Fifo Signal) (log : List Note) (hs : c.state ≠ .closed)
      (hv : c.live = true)
      (hl : milestones log = .transition c.state .closed c.generation :: milestones c.log) :
      Stopped c
        { c with
          state := .closed, timer := none, generation := c.generation.next, live := false
          transport := ⟨base, c.transport.history ++ [.closed]⟩
          errands := if c.serving then c.errands ++ [.announce .stopped] else c.errands
          signals, log }

theorem stop_spec (c : Connection (Recorded τ)) : Stopped c c.stop := by
  by_cases hs : c.state = .closed
  · have hc : c.stop = c := by simp [stop, hs]
    rw [hc]
    exact .already hs
  · obtain ⟨log, hd, hdl⟩ := (c.moveTo .closed).disarm_eq
    have hm : milestones log = .transition c.state .closed c.generation :: milestones c.log := by
      rw [hdl]
      simp [moveTo, note, Note.isMilestone]
    set d : Connection (Recorded τ) := { c with
      state := .closed, timer := none, generation := c.generation.next, log } with hdd
    have hst : c.stop = ((if c.live then { d.closeLink with live := false } else d).note
        .stopped).assign (.announce .stopped) := by
      simp only [stop, hs, if_false, hd]
      rfl
    cases hv : c.live with
    | false =>
      rw [hst, hv, assign_eq]
      exact .unlinked _ hs hv hm
    | true =>
      obtain ⟨base, signals, log', hc, hcl⟩ := d.closeLink_eq
      rw [hst, hv, assign_eq, if_pos rfl, hc]
      exact .linked base signals _ hs hv (hcl.trans hm)

end Connection

end Tether
