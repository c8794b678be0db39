import Tether.Proofs.Delivery
import Tether.Proofs.Lifecycle

/-!
# The ledger of a connection

What a connection owes its subscribers and what it has told them stands in several places: events
are published one by one, those of the latest turn wait in the batch, some are still errands, and
discarded messages are only counted. The ledger of a system puts these side by side and leaves out
links, timers and signals. A system changes its ledger in few ways, which `Ledger.Step` lists, and
`System.ledger_invariant` carries what they keep over to all runs.
-/

namespace Tether

open Relation

/-! ## What a history tells about events and refusals -/

/-- The events that were published, in order. -/
def publications (h : List Mark) : List Event :=
  h.flatMap fun
    | .published event => [event]
    | _ => []

/-- The reasons for which payloads were refused, in order. -/
def refusals (h : List Mark) : List Error :=
  h.flatMap fun
    | .sent _ (some error) => [error]
    | _ => []

theorem publications_append (a b : List Mark) :
    publications (a ++ b) = publications a ++ publications b :=
  List.flatMap_append

theorem refusals_append (a b : List Mark) : refusals (a ++ b) = refusals a ++ refusals b :=
  List.flatMap_append

/-- What is told of no event, no refusal and no message that is queued. -/
def Mark.isSilent : Mark → Bool
  | queued .. | published _ | sent _ (some _) => false
  | _ => true

section Silent

variable {ms : List Mark} (hm : ∀ m ∈ ms, m.isSilent = true)

include hm

theorem flatMap_silent {α : Type} {view : Mark → List α}
    (hv : ∀ m, m.isSilent = true → view m = []) : ms.flatMap view = [] :=
  List.flatMap_eq_nil_iff.mpr fun m hmem => hv m (hm m hmem)

theorem publications_silent : publications ms = [] := by
  refine flatMap_silent hm fun m hs => ?_
  split
  · cases hs
  · rfl

theorem refusals_silent : refusals ms = [] := by
  refine flatMap_silent hm fun m hs => ?_
  split
  · cases hs
  · rfl

theorem receipts_silent : receipts ms = [] := by
  refine flatMap_silent hm fun m hs => ?_
  split
  · cases hs
  · rfl

end Silent

theorem isSilent_acceptances (sent : List Message) :
    ∀ m ∈ sent.map Message.acceptance, m.isSilent = true :=
  List.forall_mem_map.mpr fun _ _ => rfl

theorem isSilent_aftermath {τ : Type} (c d : Connection (Recorded τ)) :
    ∀ m ∈ c.aftermath d, m.isSilent = true := by
  intro m hm
  rcases List.mem_append.mp hm with hm | hm
  · obtain ⟨g, rfl | rfl⟩ := Connection.eq_of_mem_timerMarks hm <;> rfl
  · obtain ⟨ids, rfl⟩ := Connection.eq_handed_of_mem_queueMarks hm
    rfl

/-- Every message that is discarded is counted, in the queue and in the receipt. -/
theorem Outbox.enqueue_discarded (q : Outbox) (payload : Payload) :
    (q.enqueue payload).1.discarded = q.discarded + (q.enqueue payload).2.dropped := by
  have hcases := q.enqueue_cases payload
  generalize q.enqueue payload = result at hcases
  cases hcases with
  | room | evict | refuse => rfl

/-! ## Ledgers -/

/-- Whether an errand comes from a timer. -/
def Errand.isRetry : Errand → Bool
  | .retry _ => true
  | _ => false

/-- What subscribers are told by a connection, and what decides it. -/
structure Ledger where
  /-- Whether the owner still holds the connection. -/
  held : Bool := true
  /-- Whether the inboxes are still being worked off. -/
  serving : Bool := true
  state : State := .idle
  backoff : Backoff
  /-- The errands, except those of timers. -/
  errands : List Errand := []
  checkDue : Bool := false
  /-- How many discarded messages were not yet reported. -/
  unreported : Nat := 0
  /-- How many messages were discarded so far. -/
  discarded : Nat := 0
  /-- The receipts for the messages that were queued, in order. -/
  receipts : List Receipt := []
  /-- The reasons for which payloads were refused, in order. -/
  refusals : List Error := []
  /-- The events that were published, and after them those of the batch. -/
  told : List Event := []

namespace Ledger

def assign (l : Ledger) (e : Errand) : Ledger :=
  { l with errands := if l.serving then l.errands ++ [e] else l.errands }

/-- The ways in which a ledger can change. -/
inductive Step (l : Ledger) : Ledger → Prop where
  | start (hs : l.state.isStartable = true) :
      Step l { l with state := .connecting, backoff := l.backoff.reset }
  | retry (hs : l.state = .reconnecting) : Step l { l with state := .connecting }
  | stop (hh : l.held = true) (hs : l.state ≠ .closed) :
      Step l { l.assign (.announce .stopped) with state := .closed }
  | letGo (hh : l.held = true) : Step l { l.assign .cease with held := false }
  | send (receipt : Receipt) (hh : l.held = true) :
      Step l { (if l.checkDue then l else l.assign .checkQueue) with
        checkDue := true
        unreported := l.unreported + receipt.dropped
        discarded := l.discarded + receipt.dropped
        receipts := l.receipts ++ [receipt] }
  | announce (event : Event) (rest : List Errand) (he : l.errands = .announce event :: rest) :
      Step l { l with errands := rest, told := l.told ++ [event] }
  | check (rest : List Errand) (he : l.errands = .checkQueue :: rest) :
      Step l { l with
        errands := rest, checkDue := false, unreported := 0
        told := l.told ++ if l.unreported = 0 then [] else [.overflow l.unreported] }
  | cease (rest : List Errand) (he : l.errands = .cease :: rest) :
      Step l { l with errands := [], serving := false }
  | deliver (payload : Payload) (he : l.errands = []) (hs : l.state = .opened) :
      Step l { l with told := l.told ++ [.messageReceived payload] }
  | confirm (he : l.errands = []) (hs : l.state = .connecting) :
      Step l { l with
        state := .opened, backoff := l.backoff.reset, told := l.told ++ [.opened] }
  | lose (code : Nat) (reason : String) (he : l.errands = []) (hs : l.state.hasLink = true) :
      Step l { l with
        state := .reconnecting, backoff := l.backoff.fail
        told := l.told ++ [.closed code reason,
          .reconnectScheduled l.backoff.peek l.backoff.fail.attempts] }
  | refuse (sequence : SequenceId) (error : Error) (hs : l.state = .opened)
      (he : error.meansLinkLost = false) :
      Step l { l with
        refusals := l.refusals ++ [error]
        told := l.told ++ [.sendFailed sequence error.message] }
  | fail (sequence : SequenceId) (error : Error) (hs : l.state = .opened)
      (he : error.meansLinkLost = true) (ha : l.backoff.attempts = 0) :
      Step l { l with
        state := .reconnecting, backoff := l.backoff.fail
        refusals := l.refusals ++ [error]
        told := l.told ++ [.sendFailed sequence error.message, .closed abnormalClose error.message,
          .reconnectScheduled l.backoff.peek l.backoff.fail.attempts] }

/-! ## The errands in a ledger -/

variable {l l' : Ledger}

/-- How the errands of a connection go together with its flags. -/
structure Kept (l : Ledger) : Prop where
  /-- A look at the queue is among the errands just while one is due, and once. -/
  counted : l.errands.count .checkQueue = if l.checkDue then 1 else 0
  /-- Of events, only the stop is an errand. -/
  announced : ∀ event, .announce event ∈ l.errands → event = .stopped
  /-- The end of the loop is the last errand. -/
  last : ∀ pre post, l.errands = pre ++ .cease :: post → post = []
  /-- Only who lets go of a connection ends its loop. -/
  ceasing : .cease ∈ l.errands → l.held = false
  /-- After the end of the loop there is nothing to do. -/
  done : l.serving = false → l.held = false ∧ l.errands = []

theorem Kept.init (curve : Curve) : Kept { backoff := { curve } } where
  counted := rfl
  announced := nofun
  last := by simp
  ceasing := nofun
  done := nofun

theorem Kept.serving (h : Kept l) (hh : l.held = true) : l.serving = true := by
  cases hv : l.serving with
  | true => rfl
  | false => exact absurd (h.done hv).1 (by simp [hh])

theorem Kept.cease_not_mem (h : Kept l) (hh : l.held = true) : .cease ∉ l.errands :=
  fun hc => absurd (h.ceasing hc) (by simp [hh])

theorem Kept.checkDue_eq_false (h : Kept l) (he : l.errands = []) : l.checkDue = false := by
  have hc := h.counted
  rw [he] at hc
  cases hd : l.checkDue with
  | false => rfl
  | true => simp [hd] at hc

/-- As long as the connection is held, an errand that is given comes last. -/
theorem Kept.assign_eq (h : Kept l) (hh : l.held = true) (e : Errand) :
    l.assign e = { l with errands := l.errands ++ [e] } := by
  simp [assign, h.serving hh]

/-- An errand is given to a connection that is held, or with which its owner lets go of it. -/
theorem Kept.give (h : Kept l) (hh : l.held = true) {e : Errand} {held checkDue : Bool}
    (hcount : (l.errands ++ [e]).count .checkQueue = if checkDue then 1 else 0)
    (hannounce : ∀ event, e = .announce event → event = .stopped)
    (hcease : e = .cease → held = false) :
    Kept { l.assign e with held, checkDue } := by
  rw [h.assign_eq hh]
  refine { counted := hcount, announced := ?_, last := ?_, ceasing := ?_, done := ?_ }
  · intro event hm
    rcases List.mem_append.mp hm with hm | hm
    · exact h.announced event hm
    · exact hannounce event (List.mem_singleton.mp hm).symm
  · intro pre post he
    rcases List.eq_nil_or_concat post with rfl | ⟨post', e', rfl⟩
    · rfl
    · -- Then the end of the loop would be among the errands that were there before.
      rw [List.concat_eq_append, ← List.cons_append, ← List.append_assoc] at he
      have hpre : l.errands = pre ++ .cease :: post' := (List.append_inj' he rfl).1
      exact absurd (hpre ▸ by simp) (h.cease_not_mem hh)
  · intro hc
    rcases List.mem_append.mp hc with hc | hc
    · exact absurd hc (h.cease_not_mem hh)
    · exact hcease (List.mem_singleton.mp hc).symm
  · intro hv
    exact absurd (h.done hv).1 (by simp [hh])

theorem Kept.take (h : Kept l) {e : Errand} {rest : List Errand} (he : l.errands = e :: rest)
    {checkDue : Bool} (hcount : rest.count .checkQueue = if checkDue then 1 else 0) :
    Kept { l with errands := rest, checkDue } := by
  have hmem : ∀ e' ∈ rest, e' ∈ l.errands := by
    intro e' hm
    rw [he]
    exact List.mem_cons_of_mem _ hm
  refine { counted := hcount, announced := fun event hm => h.announced event (hmem _ hm),
           last := ?_, ceasing := fun hc => h.ceasing (hmem _ hc), done := ?_ }
  · intro pre post hr
    exact h.last (e :: pre) post (he.trans (congrArg (e :: ·) hr))
  · intro hv
    have hn := (h.done hv).2
    rw [he] at hn
    cases hn

theorem Kept.step (h : Kept l) (hs : Step l l') : Kept l' := by
  cases hs with
  | start | retry | deliver | confirm | lose | refuse | fail => exact { h with }
  | stop hh hs =>
    have hk : Kept { l.assign (.announce .stopped) with held := l.held, checkDue := l.checkDue } :=
      h.give hh (by simpa using h.counted) (by simp) (by simp)
    exact { hk with }
  | letGo hh =>
    have hk : Kept { l.assign .cease with held := false, checkDue := l.checkDue } :=
      h.give hh (by simpa using h.counted) (by simp) (fun _ => rfl)
    exact { hk with }
  | send receipt hh =>
    cases hd : l.checkDue with
    | true =>
      refine { h with counted := ?_ }
      simpa [hd] using h.counted
    | false =>
      have hz : l.errands.count .checkQueue = 0 := by simpa [hd] using h.counted
      have hk : Kept { l.assign .checkQueue with held := l.held, checkDue := true } :=
        h.give hh (by simp [hz]) (by simp) (by simp)
      exact { hk with }
  | announce event rest he =>
    have hk : Kept { l with errands := rest, checkDue := l.checkDue } :=
      h.take he (by simpa [he] using h.counted)
    exact { hk with }
  | check rest he =>
    have hz : rest.count .checkQueue = 0 := by
      have hc := h.counted
      rw [he, List.count_cons_self] at hc
      split at hc <;> omega
    have hk : Kept { l with errands := rest, checkDue := false } := h.take he (by simp [hz])
    exact { hk with }
  | cease rest he =>
    -- Nothing stands behind the last errand, so nothing is lost with it.
    obtain rfl : rest = [] := h.last [] rest he
    have hk : Kept { l with errands := [], checkDue := l.checkDue } :=
      h.take he (by simpa [he] using h.counted)
    exact { hk with done := fun _ => ⟨h.ceasing (by simp [he]), rfl⟩ }

end Ledger

namespace Connection

/-- The errands, except those of timers. -/
def business {τ : Type} (c : Connection τ) : List Errand := c.errands.filter (!·.isRetry)

end Connection

namespace System

variable {τ : Type} {s t : System τ}

def ledger (s : System τ) : Ledger where
  held := s.held
  serving := s.connection.serving
  state := s.connection.state
  backoff := s.connection.backoff
  errands := s.connection.business
  checkDue := s.connection.checkDue
  unreported := s.connection.unreported
  discarded := s.connection.outbox.discarded
  receipts := receipts s.history
  refusals := refusals s.history
  told := publications s.history ++ s.batch

/-- What silent marks leave of a ledger: they tell nothing themselves. -/
theorem ledger_silent (ms : List Mark) {errands : List Errand}
    (hh : t.history = s.history ++ ms) (hm : ∀ m ∈ ms, m.isSilent = true)
    (he : t.connection.business = errands)
    (hl : ReflGen Ledger.Step s.ledger { s.ledger with
      held := t.held, serving := t.connection.serving, state := t.connection.state
      backoff := t.connection.backoff, errands
      checkDue := t.connection.checkDue, unreported := t.connection.unreported
      discarded := t.connection.outbox.discarded, told := publications s.history ++ t.batch }) :
    ReflGen Ledger.Step s.ledger t.ledger := by
  subst he
  convert hl using 1
  unfold ledger
  rw [hh, receipts_append, refusals_append, publications_append, receipts_silent hm,
    refusals_silent hm, publications_silent hm]
  simp only [List.append_nil]

theorem business_assign (c : Connection τ) {e : Errand} (hr : e.isRetry = false) :
    (c.assign e).business = if c.serving then c.business ++ [e] else c.business := by
  rw [Connection.assign_eq]
  unfold Connection.business
  cases c.serving <;> simp [hr]

theorem business_assign_retry (c : Connection τ) (g : Generation) :
    (c.assign (.retry g)).business = c.business := by
  rw [Connection.assign_eq]
  unfold Connection.business
  cases c.serving <;> simp [Errand.isRetry]

theorem business_cons {c : Connection τ} {e : Errand} {rest : List Errand}
    (he : c.errands = e :: rest) (hr : e.isRetry = false) :
    c.business = e :: { c with errands := rest }.business := by
  simp [Connection.business, he, hr]

theorem business_retry {c : Connection τ} {g : Generation} {rest : List Errand}
    (he : c.errands = .retry g :: rest) : { c with errands := rest }.business = c.business := by
  simp [Connection.business, he, Errand.isRetry]

theorem business_nil {c : Connection τ} (he : c.errands = []) : c.business = [] := by
  simp [Connection.business, he]

theorem told_eq (hb : s.batch = []) : s.ledger.told = publications s.history := by
  simp [ledger, hb]

variable [Transport τ]

/-- Stopping gives notice of it, unless the connection was closed before. -/
theorem ledger_stop (hh : s.held = true) : ReflGen Ledger.Step s.ledger s.stop.ledger := by
  have hst := s.connection.stop_spec
  have he : (s.connection.assign (.announce .stopped)).business =
      (s.ledger.assign (.announce .stopped)).errands := business_assign _ rfl
  rw [Connection.assign_eq] at he
  unfold System.stop
  generalize s.connection.stop = c at hst
  cases hst with
  | already hs => exact ledger_silent [.stopped] rfl (by simp [Mark.isSilent]) rfl .refl
  | unlinked log hs hv hl =>
    exact ledger_silent [.stopped] rfl (by simp [Mark.isSilent]) he (.single (.stop hh hs))
  | linked base signals log hs hv hl =>
    exact ledger_silent [.closed, .stopped] (List.append_assoc _ [_] [_])
      (by simp [Mark.isSilent]) he (.single (.stop hh hs))

omit [Transport τ] in
/-- A message that is queued leaves its receipt, and a look at the queue becomes due. -/
theorem ledger_send (payload : Payload) (hh : s.held = true) :
    Ledger.Step s.ledger (s.send payload).ledger := by
  have hl : (s.send payload).ledger =
      { (if s.ledger.checkDue then s.ledger else s.ledger.assign .checkQueue) with
        checkDue := true
        unreported := s.connection.unreported + (s.connection.outbox.enqueue payload).2.dropped
        discarded := s.connection.outbox.discarded +
          (s.connection.outbox.enqueue payload).2.dropped
        receipts := receipts s.history ++ [(s.connection.outbox.enqueue payload).2] } := by
    rw [← Outbox.enqueue_discarded]
    unfold System.send
    rw [Connection.send_eq]
    unfold ledger Ledger.assign
    cases s.connection.checkDue <;> cases s.connection.serving <;>
      simp [Connection.business, Connection.marks, put, history, receipts, refusals, publications,
        Errand.isRetry]
  rw [hl]
  exact .send _ hh

omit [Transport τ] in
/-- What a turn did to timer and queue is told to nobody. -/
theorem ledger_conclude (c : Connection (Recorded τ)) (events : List Event) :
    (s.conclude (c, events)).ledger = ({ s.put c with batch := events } : System τ).ledger := by
  have hm := isSilent_aftermath s.connection c
  have hh : (s.conclude (c, events)).history =
      c.transport.history ++ s.connection.aftermath c := rfl
  unfold ledger
  rw [hh, receipts_append, refusals_append, publications_append, receipts_silent hm,
    refusals_silent hm, publications_silent hm]
  simp only [List.append_nil]
  rfl

omit [Transport τ] in
/-- A refusal is told after what was told before. -/
theorem ledger_refused {c : Connection (Recorded τ)} {events : List Event} {sent : List Message}
    {payload : Payload} {error : Error} {ms : List Mark}
    (hh : c.transport.history =
      s.history ++ (sent.map Message.acceptance ++ .sent payload (some error) :: ms))
    (hm : ∀ m ∈ ms, m.isSilent = true) :
    ({ s.put c with batch := s.batch ++ events } : System τ).ledger = { s.ledger with
      serving := c.serving, state := c.state, backoff := c.backoff, errands := c.business
      checkDue := c.checkDue, unreported := c.unreported, discarded := c.outbox.discarded
      refusals := s.ledger.refusals ++ [error], told := s.ledger.told ++ events } := by
  have hsent := isSilent_acceptances sent
  have hreceipts : receipts c.transport.history = receipts s.history ++ ([] ++ receipts ms) := by
    rw [hh, receipts_append, receipts_append, receipts_silent hsent]
    rfl
  have hrefusals : refusals c.transport.history =
      refusals s.history ++ ([] ++ error :: refusals ms) := by
    rw [hh, refusals_append, refusals_append, refusals_silent hsent]
    rfl
  have htold : publications c.transport.history =
      publications s.history ++ ([] ++ publications ms) := by
    rw [hh, publications_append, publications_append, publications_silent hsent]
    rfl
  show ({ s.ledger with
    serving := c.serving, state := c.state, backoff := c.backoff, errands := c.business
    checkDue := c.checkDue, unreported := c.unreported, discarded := c.outbox.discarded
    receipts := receipts c.transport.history, refusals := refusals c.transport.history
    told := publications c.transport.history ++ (s.batch ++ events) } : Ledger) = _
  rw [hreceipts, hrefusals, htold, receipts_silent hm, refusals_silent hm, publications_silent hm]
  simp [ledger]

/-- A flush tells what was refused, and that the link is lost if that is the reason. -/
theorem ledger_flush (ho : Orderly s) (hs : s.connection.state = .opened) :
    ReflGen Ledger.Step s.ledger s.flush.ledger := by
  have hf := s.connection.flush_spec
  unfold System.flush
  rw [ledger_conclude]
  generalize s.connection.flush.1 = c, s.connection.flush.2 = events at hf
  cases hf with
  | drained base sent log hq hl =>
    rw [List.append_nil]
    exact ledger_silent _ rfl (isSilent_acceptances sent) rfl .refl
  | halted base sent m rest error log hq he hl =>
    rw [ledger_refused rfl (by simp)]
    exact .single (.refuse m.sequence error hs he)
  | lost base sent m rest error signals due log hq he hl =>
    rw [ledger_refused rfl (by simp [Mark.isSilent])]
    exact .single (.fail m.sequence error hs he (ho.calm hs))

/-- Every move changes the ledger by a step, or not at all. -/
theorem ledger_move (ho : Orderly s) (hm : Move s t) :
    ReflGen Ledger.Step s.ledger t.ledger := by
  cases hm with
  | note n hn => exact .refl
  | hear signal =>
    obtain ⟨signals, hc⟩ := s.connection.hear_eq signal
    rw [hc]
    exact .refl
  | wait millis => exact .refl
  | grant endpoint hh hs =>
    obtain ⟨base, signals, log, hc, -⟩ := ({ s.connection.marks [.started] with
      endpoint := some endpoint
      backoff := s.connection.backoff.reset } : Connection (Recorded τ)).openLink_eq rfl
    rw [hc]
    exact ledger_silent [.started, .opened endpoint s.connection.generation.next]
      (List.append_assoc _ [_] [_]) (by simp [Mark.isSilent]) rfl (.single (.start hs))
  | stop hh => exact ledger_stop hh
  | letGo hs hh =>
    have he : (s.connection.assign .cease).business = (s.ledger.assign .cease).errands :=
      business_assign _ rfl
    rw [Connection.assign_eq] at he ⊢
    exact ledger_silent [] (List.append_nil _).symm (by simp) he (.single (.letGo hh))
  | send payload hh => exact .single (ledger_send payload hh)
  | fire t ht he =>
    have hb := business_assign_retry s.connection t.generation
    rw [Connection.assign_eq] at hb ⊢
    exact ledger_silent [.fired t.generation] rfl (by simp [Mark.isSilent]) hb .refl
  | straggle generation hg =>
    have hb := business_assign_retry s.connection generation
    rw [Connection.assign_eq] at hb ⊢
    exact ledger_silent [.fired generation] rfl (by simp [Mark.isSilent]) hb .refl
  | publish event rest hb =>
    have he : ({ s.put (s.connection.marks [.published event]) with batch := rest } :
        System τ).ledger = s.ledger := by
      simp [ledger, put, history, Connection.marks, Connection.business, publications, refusals,
        receipts, hb]
    rw [he]
  | announce event rest he hb =>
    have hstep := Ledger.Step.announce (l := s.ledger) event _ (business_cons he rfl)
    rw [told_eq hb] at hstep
    exact ledger_silent [] (List.append_nil _).symm (by simp) rfl (.single hstep)
  | check rest he hb =>
    have hstep := Ledger.Step.check (l := s.ledger) _ (business_cons he rfl)
    rw [told_eq hb] at hstep
    exact ledger_silent [] (List.append_nil _).symm (by simp) rfl (.single hstep)
  | stale generation rest he hs =>
    exact ledger_silent [.retrying generation] rfl (by simp [Mark.isSilent]) (business_retry he)
      .refl
  | retry rest he hs =>
    obtain ⟨endpoint, hendpoint⟩ := Option.isSome_iff_exists.mp
      (ho.endpoint (by simp [hs, State.isUnderWay]))
    obtain ⟨base, signals, log, hc, -⟩ := ({ s.connection.retrying s.connection.generation rest with
      timer := none } : Connection (Recorded τ)).openLink_eq hendpoint
    rw [hc]
    exact ledger_silent [.retrying s.connection.generation,
        .opened endpoint s.connection.generation.next]
      (List.append_assoc _ [_] [_]) (by simp [Mark.isSilent]) (business_retry he)
      (.single (.retry hs))
  | cease rest he =>
    have hstep := Ledger.Step.cease (l := s.ledger) _ (business_cons he rfl)
    obtain ⟨log, hd, -⟩ := Connection.disarm_eq { s.connection with errands := rest }
    unfold Connection.shut
    rw [hd]
    exact ledger_silent [] (List.append_nil _).symm (by simp) rfl (.single hstep)
  | ignore signal rest he hp hi =>
    exact ledger_silent [.heard signal] rfl (by simp [Mark.isSilent]) rfl .refl
  | deliver payload rest he hp hs hb =>
    have hstep := Ledger.Step.deliver (l := s.ledger) payload (business_nil he) hs
    rw [told_eq hb] at hstep
    exact ledger_silent [.heard _] rfl (by simp [Mark.isSilent]) rfl (.single hstep)
  | confirm rest he hp hs hb =>
    have hstep := Ledger.Step.confirm (l := s.ledger) (business_nil he) hs
    rw [told_eq hb] at hstep
    exact ledger_silent [.heard _] rfl (by simp [Mark.isSilent]) rfl (.single hstep)
  | lose report code reason rest he hp hr hs hb =>
    have hstep := Ledger.Step.lose (l := s.ledger) code reason (business_nil he) hs
    rw [told_eq hb] at hstep
    obtain ⟨due, log, hlose, -⟩ := (s.connection.hearing
      ⟨s.connection.generation, report⟩ rest).loseLink_eq code reason
    rw [hlose, ledger_conclude]
    exact ledger_silent [.heard _] rfl (by simp [Mark.isSilent]) rfl (.single hstep)
  | flush hs => exact ledger_flush ho hs

theorem kept_move (ho : Orderly s) (hk : s.ledger.Kept) (hm : Move s t) : t.ledger.Kept := by
  have hl := ledger_move ho hm
  generalize s.ledger = l, t.ledger = l' at hk hl
  cases hl with
  | refl => exact hk
  | single hs => exact hk.step hs

/-- What a new ledger has and every step keeps holds after every run. -/
theorem ledger_invariant {P : Ledger → Prop} {config : Config} {transport : τ}
    (hinit : P { backoff := { curve := config.backoff } })
    (hstep : ∀ l l', l.Kept → P l → l.Step l' → P l') (acts : List Act) :
    P ((init config transport).run acts).ledger := by
  have h : Orderly ((init config transport).run acts) ∧
      ((init config transport).run acts).ledger.Kept ∧
      P ((init config transport).run acts).ledger := by
    refine run_induction (P := fun s => Orderly s ∧ s.ledger.Kept ∧ P s.ledger)
      ⟨Orderly.init config transport, .init _, hinit⟩ ?_ acts
    rintro s t ⟨ho, hk, hp⟩ hm
    have hl := ledger_move ho hm
    refine ⟨ho.move hm, ?_⟩
    generalize s.ledger = l, t.ledger = l' at hk hp hl
    cases hl with
    | refl => exact ⟨hk, hp⟩
    | single hs => exact ⟨hk.step hs, hstep l l' hk hp hs⟩
  exact h.2.2

theorem kept_run (config : Config) (transport : τ) (acts : List Act) :
    ((init config transport).run acts).ledger.Kept :=
  ledger_invariant (.init _) (fun _ _ hk _ hs => hk.step hs) acts

end System

end Tether
