import Tether.Proofs.Moves

/-!
# Connections that heard different things

A connection reads its signals only when it takes one, and its log never. Two connections that
differ in nothing else are alike, and stay alike under every operation, over transports that answer
alike. For a system that means: whatever is done to both, they stay alike, as long as they take the
same signals.

The transports may be of different kinds. All that is asked of them is that they accept and refuse
the same payloads; which signals they give, from inside a call or later, is left to them.
-/

namespace Tether

variable {τ υ : Type}

/-- Transports that answer alike when they are asked the same. -/
structure Transport.Alike [Transport τ] [Transport υ] (R : τ → υ → Prop) : Prop where
  openLink : ∀ {t u} (endpoint : Endpoint) (generation : Generation), R t u →
    R (Transport.openLink t endpoint generation).1 (Transport.openLink u endpoint generation).1
  send : ∀ {t u} (payload : Payload), R t u →
    R (Transport.send t payload).1 (Transport.send u payload).1 ∧
      (Transport.send t payload).2 = (Transport.send u payload).2
  closeLink : ∀ {t u}, R t u → R (Transport.closeLink t).1 (Transport.closeLink u).1

/-- A transport answers like itself. -/
theorem Transport.alike_eq [Transport τ] : Transport.Alike (fun t u : τ => t = u) where
  openLink := by
    rintro t u endpoint generation rfl
    rfl
  send := by
    rintro t u payload rfl
    exact ⟨rfl, rfl⟩
  closeLink := by
    rintro t u rfl
    rfl

/-- Something that was heard. -/
def Mark.isHeard : Mark → Bool
  | heard _ => true
  | _ => false

/-- A history without what was heard. -/
def unheard (h : List Mark) : List Mark := h.filter (!·.isHeard)

theorem unheard_append (a b : List Mark) : unheard (a ++ b) = unheard a ++ unheard b :=
  List.filter_append ..

namespace Connection

/-- A connection without its signals and its log, and with what it did apart from hearing. -/
def muted (c : Connection (Recorded τ)) : Connection (List Mark) :=
  { c with transport := unheard c.transport.history, signals := .empty, log := [] }

theorem muted_elapse (c : Connection (Recorded τ)) :
    c.elapse.muted = c.muted.elapse ∧ c.elapse.transport = c.transport := by
  have ht : c.muted.timer = c.timer := rfl
  unfold elapse
  rw [ht]
  cases c.timer with
  | none => exact ⟨rfl, rfl⟩
  | some t =>
    dsimp only
    split
    · exact ⟨rfl, rfl⟩
    · rw [assign_eq, assign_eq]
      exact ⟨rfl, rfl⟩

theorem muted_advance (c : Connection (Recorded τ)) (millis : Nat) :
    (c.advance millis).muted = c.muted.advance millis ∧
      (c.advance millis).transport = c.transport := by
  by_cases hd : c.timer.any (·.due ≤ c.clock + millis) = true
  · have hc : c.advance millis = { c with clock := c.clock + millis }.elapse := if_pos hd
    have hm : c.muted.advance millis = { c.muted with clock := c.clock + millis }.elapse :=
      if_pos hd
    rw [hc, hm]
    exact muted_elapse { c with clock := c.clock + millis }
  · have hc : c.advance millis = { c with clock := c.clock + millis } := if_neg hd
    have hm : c.muted.advance millis = { c.muted with clock := c.clock + millis } := if_neg hd
    rw [hc, hm]
    exact ⟨rfl, rfl⟩

/-- Losing a link, which is noted, but otherwise done without a look at signals and log. -/
theorem muted_loseLink (c : Connection (Recorded τ)) (code : Nat) (reason : String) :
    (c.loseLink code reason).1.muted = { (c.muted.loseLink code reason).1 with log := [] } ∧
      (c.loseLink code reason).1.transport = c.transport := by
  have ht : c.muted.timer = c.timer := rfl
  unfold loseLink disarm
  dsimp only [moveTo, note, arm]
  rw [ht]
  cases c.timer with
  | none => exact ⟨rfl, rfl⟩
  | some t => exact ⟨rfl, rfl⟩

/-- A connection that is stopped, before its link is closed. -/
def halted {σ : Type} (c : Connection σ) : Connection σ :=
  { (c.moveTo .closed).disarm with generation := (c.moveTo .closed).disarm.generation.next }

theorem stop_of_ne [Transport τ] (c : Connection τ) (hs : c.state ≠ .closed) :
    c.stop = ((if c.halted.live then { c.halted.closeLink with live := false }
      else c.halted).note .stopped).assign (.announce .stopped) :=
  if_neg hs

/-- Connections that differ in signals and log at most. -/
structure Like (R : τ → υ → Prop) (c : Connection (Recorded τ)) (d : Connection (Recorded υ)) :
    Prop where
  muted : c.muted = d.muted
  base : R c.transport.base d.transport.base

/-- Results of a turn that are alike: the same events are to be published. -/
def LikeResult (R : τ → υ → Prop) (p : Connection (Recorded τ) × List Event)
    (q : Connection (Recorded υ) × List Event) : Prop :=
  Like R p.1 q.1 ∧ p.2 = q.2

namespace Like

variable {R : τ → υ → Prop} {c : Connection (Recorded τ)} {d : Connection (Recorded υ)}

theorem state (h : Like R c d) : c.state = d.state := congrArg Connection.state h.muted

theorem endpoint (h : Like R c d) : c.endpoint = d.endpoint :=
  congrArg Connection.endpoint h.muted

theorem live (h : Like R c d) : c.live = d.live := congrArg Connection.live h.muted

theorem generation (h : Like R c d) : c.generation = d.generation :=
  congrArg Connection.generation h.muted

theorem backoff (h : Like R c d) : c.backoff = d.backoff := congrArg Connection.backoff h.muted

theorem timer (h : Like R c d) : c.timer = d.timer := congrArg Connection.timer h.muted

theorem outbox (h : Like R c d) : c.outbox = d.outbox := congrArg Connection.outbox h.muted

theorem unreported (h : Like R c d) : c.unreported = d.unreported :=
  congrArg Connection.unreported h.muted

theorem errands (h : Like R c d) : c.errands = d.errands := congrArg Connection.errands h.muted

theorem serving (h : Like R c d) : c.serving = d.serving := congrArg Connection.serving h.muted

theorem history (h : Like R c d) :
    unheard c.transport.history = unheard d.transport.history :=
  congrArg Connection.transport h.muted

/-- What changes both in the same way, apart from signals and log, keeps them alike. -/
theorem map (h : Like R c d) (f : Connection (List Mark) → Connection (List Mark))
    {c' : Connection (Recorded τ)} {d' : Connection (Recorded υ)} (hc : c'.muted = f c.muted)
    (hd : d'.muted = f d.muted) (hb : R c'.transport.base d'.transport.base) : Like R c' d' where
  muted := by rw [hc, hd, h.muted]
  base := hb

/-! ## Small steps -/

/-- Both transports were asked the same. -/
theorem ask (h : Like R c d) {t : Recorded τ} {u : Recorded υ} (ms : List Mark)
    (ht : t.history = c.transport.history ++ ms) (hu : u.history = d.transport.history ++ ms)
    (hb : R t.base u.base) : Like R { c with transport := t } { d with transport := u } := by
  refine h.map (fun b => { b with transport := b.transport ++ unheard ms }) ?_ ?_ hb
  · simp [Connection.muted, ht, unheard_append]
  · simp [Connection.muted, hu, unheard_append]

theorem marks (h : Like R c d) (ms : List Mark) : Like R (c.marks ms) (d.marks ms) :=
  h.ask ms rfl rfl h.base

theorem note (h : Like R c d) (n m : Note) : Like R (c.note n) (d.note m) := ⟨h.muted, h.base⟩

theorem notes (h : Like R c d) (ns ms : List Note) : Like R (c.notes ns) (d.notes ms) := by
  rw [notes_eq, notes_eq]
  exact ⟨h.muted, h.base⟩

theorem moveTo (h : Like R c d) (next : State) : Like R (c.moveTo next) (d.moveTo next) :=
  h.map (fun b => { b with state := next }) rfl rfl h.base

theorem assign (h : Like R c d) (e : Errand) : Like R (c.assign e) (d.assign e) := by
  rw [assign_eq, assign_eq]
  exact h.map (fun b => { b with errands := if b.serving then b.errands ++ [e] else b.errands })
    rfl rfl h.base

/-- One connection may hear what the other does not. -/
theorem hear_left (h : Like R c d) (signal : Signal) : Like R (c.hear signal) d := by
  obtain ⟨signals, hc⟩ := c.hear_eq signal
  rw [hc]
  exact ⟨h.muted, h.base⟩

theorem hear_right (h : Like R c d) (signal : Signal) : Like R c (d.hear signal) := by
  obtain ⟨signals, hd⟩ := d.hear_eq signal
  rw [hd]
  exact ⟨h.muted, h.base⟩

theorem hearAll (h : Like R c d) (ss ss' : List Signal) :
    Like R (c.hearAll ss) (d.hearAll ss') := by
  obtain ⟨signals, log, hc, -⟩ := c.hearAll_eq ss
  obtain ⟨signals', log', hd, -⟩ := d.hearAll_eq ss'
  rw [hc, hd]
  exact ⟨h.muted, h.base⟩

theorem taking (h : Like R c d) (rest : List Errand) (e : Errand) :
    Like R (c.taking rest e) (d.taking rest e) := by
  cases e with
  | retry generation =>
    have hmarked := h.marks [.retrying generation]
    exact hmarked.map (fun b => { b with errands := rest }) rfl rfl hmarked.base
  | checkQueue | announce | cease =>
    exact h.map (fun b => { b with errands := rest }) rfl rfl h.base

theorem disarm (h : Like R c d) : Like R c.disarm d.disarm := by
  obtain ⟨log, hc, -⟩ := c.disarm_eq
  obtain ⟨log', hd, -⟩ := d.disarm_eq
  rw [hc, hd]
  exact h.map (fun b => { b with timer := none }) rfl rfl h.base

theorem shut (h : Like R c d) : Like R c.shut d.shut :=
  h.disarm.map (fun b => { b with serving := false, errands := [] }) rfl rfl h.disarm.base

theorem send (h : Like R c d) (payload : Payload) :
    Like R (c.send payload).1 (d.send payload).1 ∧ (c.send payload).2 = (d.send payload).2 := by
  rw [send_eq, send_eq]
  refine ⟨?_, by rw [h.outbox]⟩
  refine h.map (fun b => { b with
    outbox := (b.outbox.enqueue payload).1
    unreported := b.unreported + (b.outbox.enqueue payload).2.dropped
    checkDue := true
    errands := if b.checkDue || !b.serving then b.errands else b.errands ++ [.checkQueue] })
    rfl rfl h.base

/-! ## Time -/

theorem elapse (h : Like R c d) : Like R c.elapse d.elapse := by
  obtain ⟨hc, hct⟩ := muted_elapse c
  obtain ⟨hd, hdt⟩ := muted_elapse d
  exact h.map Connection.elapse hc hd (by rw [hct, hdt]; exact h.base)

theorem advance (h : Like R c d) (millis : Nat) : Like R (c.advance millis) (d.advance millis) := by
  obtain ⟨hc, hct⟩ := muted_advance c millis
  obtain ⟨hd, hdt⟩ := muted_advance d millis
  exact h.map (Connection.advance · millis) hc hd (by rw [hct, hdt]; exact h.base)

/-- What became of timer and queue is the same. -/
theorem aftermath {c' : Connection (Recorded τ)} {d' : Connection (Recorded υ)} (h : Like R c d)
    (h' : Like R c' d') : c.aftermath c' = d.aftermath d' := by
  unfold Connection.aftermath
  rw [h.timer, h'.timer, h.outbox, h'.outbox]

/-! ## Links -/

theorem loseLink (h : Like R c d) (code : Nat) (reason : String) :
    LikeResult R (c.loseLink code reason) (d.loseLink code reason) := by
  obtain ⟨hc, hct⟩ := muted_loseLink c code reason
  obtain ⟨hd, hdt⟩ := muted_loseLink d code reason
  refine ⟨h.map (fun b => { (b.loseLink code reason).1 with log := [] }) hc hd ?_, ?_⟩
  · rw [hct, hdt]
    exact h.base
  · show [Event.closed code reason, .reconnectScheduled c.backoff.peek c.backoff.fail.attempts] =
      [Event.closed code reason, .reconnectScheduled d.backoff.peek d.backoff.fail.attempts]
    rw [h.backoff]

variable [Transport τ] [Transport υ]

theorem closeLink (hR : Transport.Alike R) (h : Like R c d) : Like R c.closeLink d.closeLink :=
  (h.ask [.closed] rfl rfl (hR.closeLink h.base)).hearAll _ _

theorem openLink (hR : Transport.Alike R) (h : Like R c d) : Like R c.openLink d.openLink := by
  cases he : c.endpoint with
  | none =>
    rw [c.openLink_of_none he, d.openLink_of_none (h.endpoint ▸ he)]
    exact h.note _ _
  | some endpoint =>
    rw [c.openLink_of_some he, d.openLink_of_some (h.endpoint ▸ he)]
    have hmoved : Like R
        ({ { c with generation := c.generation.next }.moveTo .connecting with live := true }.note
          (.opening c.generation.next endpoint.href c.backoff.attempts))
        ({ { d with generation := d.generation.next }.moveTo .connecting with live := true }.note
          (.opening d.generation.next endpoint.href d.backoff.attempts)) :=
      h.map (fun b => { b with
        generation := b.generation.next, state := .connecting, live := true }) rfl rfl h.base
    have hbase := hR.openLink endpoint c.generation.next h.base
    refine (hmoved.ask (t := (Transport.openLink c.transport endpoint c.generation.next).1)
      (u := (Transport.openLink d.transport endpoint d.generation.next).1)
      [.opened endpoint c.generation.next] rfl ?_ ?_).hearAll _ _
    · rw [h.generation]
      rfl
    · rw [h.generation] at hbase
      rw [h.generation]
      exact hbase

/-- The same messages are accepted, and the same one is refused. -/
theorem handOver (hR : Transport.Alike R) (ms : List Message) {t : Recorded τ} {u : Recorded υ}
    (hb : R t.base u.base) :
    (Outbox.handOver t ms).2 = (Outbox.handOver u ms).2 ∧
    R (Outbox.handOver t ms).1.base (Outbox.handOver u ms).1.base ∧
    ∃ marks, (Outbox.handOver t ms).1.history = t.history ++ marks ∧
      (Outbox.handOver u ms).1.history = u.history ++ marks := by
  induction ms generalizing t u with
  | nil => exact ⟨rfl, hb, [], by simp [Outbox.handOver]⟩
  | cons m ms ih =>
    obtain ⟨hbase, hanswer⟩ := hR.send m.payload hb
    cases ht : Transport.send t.base m.payload with
    | mk base refusal =>
      cases hu : Transport.send u.base m.payload with
      | mk base' refusal' =>
        rw [ht, hu] at hbase hanswer
        obtain rfl : refusal = refusal' := hanswer
        have hst := t.send_recorded ht
        have hsu := u.send_recorded hu
        cases refusal with
        | some error =>
          have hct : Outbox.handOver t (m :: ms) =
              (⟨base, t.history ++ [.sent m.payload (some error)]⟩, [], m :: ms, some error) := by
            simp only [Outbox.handOver, hst]
          have hcu : Outbox.handOver u (m :: ms) =
              (⟨base', u.history ++ [.sent m.payload (some error)]⟩, [], m :: ms, some error) := by
            simp only [Outbox.handOver, hsu]
          rw [hct, hcu]
          exact ⟨rfl, hbase, [.sent m.payload (some error)], rfl, rfl⟩
        | none =>
          obtain ⟨hrest, hb', marks, hmt, hmu⟩ := ih
            (t := ⟨base, t.history ++ [.sent m.payload none]⟩)
            (u := ⟨base', u.history ++ [.sent m.payload none]⟩) hbase
          simp only [Outbox.handOver, hst, hsu]
          refine ⟨?_, hb', .sent m.payload none :: marks, ?_, ?_⟩
          · exact congrArg (fun rest => (m :: rest.1, rest.2)) hrest
          · rw [hmt, List.append_assoc]
            rfl
          · rw [hmu, List.append_assoc]
            rfl

theorem flushQueue (hR : Transport.Alike R) (q : Outbox) {t : Recorded τ} {u : Recorded υ}
    (hb : R t.base u.base) :
    (q.flush t).1 = (q.flush u).1 ∧ (q.flush t).2.2 = (q.flush u).2.2 ∧
    R (q.flush t).2.1.base (q.flush u).2.1.base ∧
    ∃ marks, (q.flush t).2.1.history = t.history ++ marks ∧
      (q.flush u).2.1.history = u.history ++ marks := by
  obtain ⟨hrest, hbase, ms, hms, hms'⟩ := handOver hR q.messages.toList hb
  unfold Outbox.flush
  generalize Outbox.handOver t q.messages.toList = p at hrest hbase hms ⊢
  generalize Outbox.handOver u q.messages.toList = p' at hrest hbase hms' ⊢
  obtain ⟨t', rest⟩ := p
  obtain ⟨u', rest'⟩ := p'
  obtain rfl : rest = rest' := hrest
  exact ⟨rfl, rfl, hbase, ms, hms, hms'⟩

theorem flush (hR : Transport.Alike R) (h : Like R c d) : LikeResult R c.flush d.flush := by
  obtain ⟨houtbox, hresult, hbase, ms, hms, hms'⟩ := flushQueue hR c.outbox h.base
  unfold Connection.flush
  rw [← h.outbox]
  generalize c.outbox.flush c.transport = p at houtbox hresult hbase hms ⊢
  generalize c.outbox.flush d.transport = q at houtbox hresult hbase hms' ⊢
  obtain ⟨outbox, t, result⟩ := p
  obtain ⟨outbox', u, result'⟩ := q
  obtain rfl : outbox = outbox' := houtbox
  obtain rfl : result = result' := hresult
  have hqueue : Like R { c with outbox } { d with outbox } :=
    h.map (fun b => { b with outbox }) rfl rfl h.base
  have hnoted := (hqueue.ask ms hms hms' hbase).notes
    (Outbox.flushNotes result outbox.length) (Outbox.flushNotes result outbox.length)
  dsimp only
  cases result.refusal with
  | none => exact ⟨hnoted, rfl⟩
  | some refusal =>
    obtain ⟨sequence, error⟩ := refusal
    dsimp only
    split
    · obtain ⟨hlost, hevents⟩ := (closeLink hR hnoted).loseLink abnormalClose error.message
      exact ⟨hlost, congrArg (Event.sendFailed sequence error.message :: ·) hevents⟩
    · exact ⟨hnoted, rfl⟩

/-! ## What the owner can do -/

theorem stop (hR : Transport.Alike R) (h : Like R c d) : Like R c.stop d.stop := by
  by_cases hs : c.state = .closed
  · have hc : c.stop = c := if_pos hs
    have hd : d.stop = d := if_pos (h.state ▸ hs)
    rw [hc, hd]
    exact h
  · rw [c.stop_of_ne hs, d.stop_of_ne (h.state ▸ hs)]
    have hdisarmed := (h.moveTo .closed).disarm
    have hnext : Like R c.halted d.halted :=
      hdisarmed.map (fun b => { b with generation := b.generation.next }) rfl rfl hdisarmed.base
    refine assign (note ?_ _ _) _
    by_cases hv : c.halted.live = true
    · have hclosed := hnext.closeLink hR
      rw [if_pos hv, if_pos (hnext.live ▸ hv)]
      exact hclosed.map (fun b => { b with live := false }) rfl rfl hclosed.base
    · rw [if_neg hv, if_neg (hnext.live ▸ hv)]
      exact hnext

theorem start (hR : Transport.Alike R) (h : Like R c d) (text : String) :
    Like R (c.start text).1 (d.start text).1 ∧ (c.start text).2 = (d.start text).2 := by
  by_cases hs : c.state.isStartable = true
  · have hs' : d.state.isStartable = true := h.state ▸ hs
    cases hp : Endpoint.ofText text with
    | error error =>
      simp only [Connection.start, hs, hs', hp]
      exact ⟨h, rfl⟩
    | ok endpoint =>
      have hready : Like R
          { c.note (.starting endpoint.href) with
            endpoint := some endpoint, backoff := c.backoff.reset }
          { d.note (.starting endpoint.href) with
            endpoint := some endpoint, backoff := d.backoff.reset } :=
        h.map (fun b => { b with endpoint := some endpoint, backoff := b.backoff.reset })
          rfl rfl h.base
      simp only [Connection.start, hs, hs', hp]
      exact ⟨hready.openLink hR, rfl⟩
  · have hs' : ¬ d.state.isStartable = true := h.state ▸ hs
    simp only [Connection.start, hs', h.state]
    exact ⟨h.note _ _, rfl⟩

/-! ## Turns -/

theorem onCheck (hR : Transport.Alike R) (h : Like R c d) : LikeResult R c.onCheck d.onCheck := by
  have hreset : Like R { c with checkDue := false, unreported := 0 }
      { d with checkDue := false, unreported := 0 } :=
    h.map (fun b => { b with checkDue := false, unreported := 0 }) rfl rfl h.base
  by_cases hs : c.state = .opened
  · rw [onCheck_of_opened c hs, onCheck_of_opened d (h.state ▸ hs), h.unreported]
    obtain ⟨hflush, hevents⟩ := flush hR hreset
    exact ⟨hflush, congrArg (_ ++ ·) hevents⟩
  · rw [onCheck_of_ne c hs, onCheck_of_ne d (h.state ▸ hs), h.unreported]
    exact ⟨hreset, rfl⟩

theorem onRetry (hR : Transport.Alike R) (h : Like R c d) (generation : Generation) :
    Like R (c.onRetry generation) (d.onRetry generation) := by
  by_cases hs : c.state = .reconnecting ∧ c.generation = generation
  · have hready : Like R { c with timer := none } { d with timer := none } :=
      h.map (fun b => { b with timer := none }) rfl rfl h.base
    rw [c.onRetry_of_due hs, d.onRetry_of_due (h.state ▸ h.generation ▸ hs)]
    exact hready.openLink hR
  · rw [c.onRetry_of_stale hs, d.onRetry_of_stale (h.state ▸ h.generation ▸ hs)]
    exact h.note _ _

theorem onErrand (hR : Transport.Alike R) (h : Like R c d) (e : Errand) :
    LikeResult R (c.onErrand e) (d.onErrand e) := by
  cases e with
  | checkQueue => exact h.onCheck hR
  | retry generation => exact ⟨h.onRetry hR generation, rfl⟩
  | announce event => exact ⟨h, rfl⟩
  | cease => exact ⟨h.shut, rfl⟩

theorem onReport (hR : Transport.Alike R) (h : Like R c d) (report : Report) :
    LikeResult R (c.onReport report) (d.onReport report) := by
  cases report with
  | opened =>
    by_cases hs : c.state = .connecting
    · have hopened : Like R
          ({ c.moveTo .opened with backoff := c.backoff.reset }.note (.linkOpened c.generation))
          ({ d.moveTo .opened with backoff := d.backoff.reset }.note (.linkOpened d.generation)) :=
        h.map (fun b => { b with state := .opened, backoff := b.backoff.reset }) rfl rfl h.base
      obtain ⟨hflush, hevents⟩ := hopened.flush hR
      have hs' : d.state = .connecting := h.state ▸ hs
      simp only [Connection.onReport, hs, hs', if_true]
      exact ⟨hflush, congrArg (.opened :: ·) hevents⟩
    · have hs' : ¬ d.state = .connecting := h.state ▸ hs
      simp only [Connection.onReport, hs, hs', if_false]
      exact ⟨h.note _ _, rfl⟩
  | message payload =>
    by_cases hs : c.state = .opened
    · have hs' : d.state = .opened := h.state ▸ hs
      simp only [Connection.onReport, hs, hs', if_true]
      exact ⟨h.note _ _, rfl⟩
    · have hs' : ¬ d.state = .opened := h.state ▸ hs
      simp only [Connection.onReport, hs, hs', if_false]
      exact ⟨h.note _ _, rfl⟩
  | closed code reason =>
    by_cases hs : c.state.hasLink = true
    · have hs' : d.state.hasLink = true := h.state ▸ hs
      simp only [Connection.onReport, hs, hs', if_true]
      exact h.loseLink code reason
    · have hs' : ¬ d.state.hasLink = true := h.state ▸ hs
      simp only [Connection.onReport, hs, hs']
      exact ⟨h, rfl⟩
  | failed message =>
    by_cases hs : c.state.hasLink = true
    · have hs' : d.state.hasLink = true := h.state ▸ hs
      simp only [Connection.onReport, hs, hs', if_true]
      exact (h.note _ _).loseLink abnormalClose message
    · have hs' : ¬ d.state.hasLink = true := h.state ▸ hs
      simp only [Connection.onReport, hs, hs']
      exact ⟨h, rfl⟩

theorem onSignal (hR : Transport.Alike R) (h : Like R c d) (signal : Signal) :
    LikeResult R (c.onSignal signal) (d.onSignal signal) := by
  by_cases hg : signal.generation = c.generation
  · rw [c.onSignal_of_eq hg, d.onSignal_of_eq (h.generation ▸ hg)]
    exact h.onReport hR signal.report
  · rw [c.onSignal_of_ne hg, d.onSignal_of_ne (h.generation ▸ hg)]
    exact ⟨h.note _ _, rfl⟩

end Like

end Connection

theorem Fifo.head?_eq_map_pop? {α : Type} (q : Fifo α) : q.head? = q.pop?.map (·.1) := by
  cases hp : q.pop? with
  | none => rw [← Fifo.head?_toList, Fifo.pop?_eq_none_iff.mp hp]; rfl
  | some next => rw [← Fifo.head?_toList, Fifo.toList_of_pop? hp]; rfl

namespace System

/-- The signal that a turn would take now. -/
def nextSignal? (s : System τ) : Option Signal :=
  if s.batch.isEmpty && s.connection.serving && s.connection.errands.isEmpty then
    s.connection.signals.head?
  else none

theorem nextSignal?_eq {s : System τ} (hb : s.batch = []) (hv : s.connection.serving = true)
    (he : s.connection.errands = []) : s.nextSignal? = s.connection.signals.pop?.map (·.1) := by
  simp [nextSignal?, hb, hv, he, Fifo.head?_eq_map_pop?]

/-- Systems that differ in signals and log at most. -/
structure Like (R : τ → υ → Prop) (s : System τ) (t : System υ) : Prop where
  connection : Connection.Like R s.connection t.connection
  held : s.held = t.held
  batch : s.batch = t.batch

namespace Like

variable {R : τ → υ → Prop} {s s' : System τ} {t t' : System υ} {c : Connection (Recorded τ)}
  {d : Connection (Recorded υ)}

theorem refl (s : System τ) : Like (· = ·) s s := ⟨⟨rfl, rfl⟩, rfl, rfl⟩

theorem congr_left (h : Like R s t) (hs : Like (· = ·) s s') : Like R s' t where
  connection := ⟨hs.connection.muted.symm.trans h.connection.muted,
    hs.connection.base ▸ h.connection.base⟩
  held := hs.held.symm.trans h.held
  batch := hs.batch.symm.trans h.batch

theorem congr_right (h : Like R s t) (ht : Like (· = ·) t t') : Like R s t' where
  connection := ⟨h.connection.muted.trans ht.connection.muted,
    ht.connection.base ▸ h.connection.base⟩
  held := h.held.trans ht.held
  batch := h.batch.trans ht.batch

theorem init (config : Config) {t : τ} {u : υ} (h : R t u) :
    Like R (init config t) (init config u) :=
  ⟨⟨rfl, h⟩, rfl, rfl⟩

theorem put (h : Like R s t) (hc : Connection.Like R c d) : Like R (s.put c) (t.put d) :=
  ⟨hc, h.held, h.batch⟩

theorem become (h : Like R s t) (hc : Connection.Like R c d) :
    Like R (s.become c) (t.become d) := by
  unfold System.become
  rw [h.connection.aftermath hc]
  exact h.put (hc.marks _)

theorem conclude (h : Like R s t) {p : Connection (Recorded τ) × List Event}
    {q : Connection (Recorded υ) × List Event} (hr : Connection.LikeResult R p q) :
    Like R (s.conclude p) (t.conclude q) :=
  ⟨(h.become hr.1).connection, h.held, hr.2⟩

theorem send (h : Like R s t) (payload : Payload) : Like R (s.send payload) (t.send payload) := by
  obtain ⟨hsent, hreceipt⟩ := h.connection.send payload
  unfold System.send
  dsimp only
  rw [hreceipt, h.connection.outbox, hsent.outbox]
  exact h.put (hsent.marks _)

theorem straggle (h : Like R s t) (generation : Generation) :
    Like R (s.straggle generation) (t.straggle generation) := by
  have hmem : .armed generation ∈ s.history ↔ .armed generation ∈ t.history := by
    have hs : .armed generation ∈ unheard s.history ↔ .armed generation ∈ s.history := by
      simp [unheard, Mark.isHeard]
    have ht : .armed generation ∈ unheard t.history ↔ .armed generation ∈ t.history := by
      simp [unheard, Mark.isHeard]
    rw [← hs, ← ht]
    exact Eq.to_iff (congrArg (_ ∈ ·) h.connection.history)
  unfold System.straggle
  by_cases ha : .armed generation ∈ s.history
  · rw [if_pos ha, if_pos (hmem.mp ha)]
    exact h.put ((h.connection.assign _).marks _)
  · rw [if_neg ha, if_neg (fun ht => ha (hmem.mpr ht))]
    exact h

theorem publish (h : Like R s t) : Like R s.publish t.publish := by
  unfold System.publish
  rw [← h.batch]
  cases s.batch with
  | nil => exact h
  | cons event rest => exact ⟨h.connection.marks _, h.held, rfl⟩

variable [Transport τ] [Transport υ]

theorem start (hR : Transport.Alike R) (h : Like R s t) (text : String) :
    Like R (s.start text) (t.start text) := by
  obtain ⟨hstarted, hresult⟩ := h.connection.start hR text
  unfold System.start
  rw [← hresult]
  cases (s.connection.start text).2 with
  | error error => exact h.put hstarted
  | ok _ => exact h.put ((h.connection.marks _).start hR text).1

/-- Both do the same errand, or take the same signal, or have nothing to do. -/
theorem turn (hR : Transport.Alike R) (h : Like R s t) (hb : s.batch = [])
    (hx : s.nextSignal? = t.nextSignal?) : Like R s.turn t.turn := by
  have hb' : t.batch = [] := h.batch ▸ hb
  cases hv : s.connection.serving with
  | false =>
    rw [turn_of_rest (Or.inl hv), turn_of_rest (Or.inl (h.connection.serving ▸ hv))]
    exact h
  | true =>
    have hv' : t.connection.serving = true := h.connection.serving ▸ hv
    cases he : s.connection.errands with
    | cons e rest =>
      have he' : t.connection.errands = e :: rest := h.connection.errands ▸ he
      rw [turn_of_errand hv he, turn_of_errand hv' he']
      exact h.conclude ((h.connection.taking rest e).onErrand hR e)
    | nil =>
      have he' : t.connection.errands = [] := h.connection.errands ▸ he
      rw [nextSignal?_eq hb hv he, nextSignal?_eq hb' hv' he'] at hx
      cases hp : s.connection.signals.pop? with
      | none =>
        have hp' : t.connection.signals.pop? = none := by simpa [hp] using hx.symm
        rw [turn_of_rest (Or.inr ⟨he, hp⟩), turn_of_rest (Or.inr ⟨he', hp'⟩)]
        exact h
      | some next =>
        obtain ⟨signal, rest⟩ := next
        obtain ⟨rest', hp'⟩ : ∃ rest', t.connection.signals.pop? = some (signal, rest') := by
          simpa [hp] using hx.symm
        rw [turn_of_signal hv he hp, turn_of_signal hv' he' hp']
        have hmarked := h.connection.marks [.heard signal]
        refine h.conclude (Connection.Like.onSignal hR ?_ signal)
        exact ⟨hmarked.muted, hmarked.base⟩

/-- What is done to both keeps them alike, as long as they take the same signals. -/
theorem step (hR : Transport.Alike R) (h : Like R s t) (act : Act)
    (hx : act = .turn → s.nextSignal? = t.nextSignal?) : Like R (s.step act) (t.step act) := by
  cases act with
  | start text =>
    unfold System.step
    dsimp only
    rw [← h.held]
    split
    · exact h.start hR text
    · exact h
  | stop =>
    unfold System.step
    dsimp only
    rw [← h.held]
    split
    · exact h.put ((h.connection.stop hR).marks _)
    · exact h
  | send payload =>
    unfold System.step
    dsimp only
    rw [← h.held]
    split
    · exact h.send payload
    · exact h
  | release =>
    unfold System.step
    dsimp only
    rw [← h.held]
    split
    · exact ⟨((h.connection.stop hR).assign _).marks _, rfl, h.batch⟩
    · exact h
  | hear signal => exact h.put ((h.connection.hear_left signal).hear_right signal)
  | advance millis => exact h.become (h.connection.advance millis)
  | elapse => exact h.become h.connection.elapse
  | straggle generation => exact h.straggle generation
  | turn =>
    unfold System.step
    dsimp only
    rw [← h.batch]
    split
    · next hb => exact h.turn hR (List.isEmpty_iff.mp hb) (hx rfl)
    · exact h
  | publish => exact h.publish

end Like

end System

end Tether
