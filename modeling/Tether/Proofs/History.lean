import Tether.Connection.Serving

/-!
# Histories

A recorded transport is a transport with a diary. It passes every call on to the transport below it
and writes the call down; whoever drives a connection over it may write down what else happened in
between. The diary is never read by the connection, so a connection over a recorded transport does
what it does over the transport alone, and its diary tells the order in which it did it.
-/

namespace Tether

/-- What can be told about a connection afterwards. -/
inductive Mark where
  /-- A start was granted. -/
  | started
  /-- A stop has returned. -/
  | stopped
  /-- A message was queued and got this receipt; the messages in `lost` were discarded for it. -/
  | queued (payload : Payload) (receipt : Receipt) (lost : List SequenceId)
  /-- The timer for the attempt after this generation was armed. -/
  | armed (generation : Generation)
  /-- The timer that this generation had armed put its errand into the inbox. -/
  | fired (generation : Generation)
  /-- The errand of such a timer was taken out of the inbox. -/
  | retrying (generation : Generation)
  /-- A signal was taken out of the inbox. -/
  | heard (signal : Signal)
  /-- The transport was asked for a link. -/
  | opened (endpoint : Endpoint) (generation : Generation)
  /-- The transport was handed a payload; with a reason, it refused the payload. -/
  | sent (payload : Payload) (refusal : Option Error)
  /-- The transport was asked to close its link. -/
  | closed
  /-- The messages at these positions have left the queue for the transport. -/
  | handed (ids : List SequenceId)
  /-- An event was published. -/
  | published (event : Event)
  deriving DecidableEq

/-- A transport with a diary. -/
structure Recorded (τ : Type) where
  /-- The transport that does the work. -/
  base : τ
  /-- What happened so far, in order. -/
  history : List Mark := []

variable {τ : Type}

instance [Transport τ] : Transport (Recorded τ) where
  openLink t endpoint generation :=
    let (base, signals) := Transport.openLink t.base endpoint generation
    (⟨base, t.history ++ [.opened endpoint generation]⟩, signals)
  send t payload :=
    let (base, refusal) := Transport.send t.base payload
    (⟨base, t.history ++ [.sent payload refusal]⟩, refusal)
  closeLink t :=
    let (base, signals) := Transport.closeLink t.base
    (⟨base, t.history ++ [.closed]⟩, signals)

namespace Outbox

/-- The positions of the messages in the queue. -/
def ids (q : Outbox) : List SequenceId := q.messages.toList.map (·.sequence)

/-- What was there before and is there no more. -/
def departed (before after : List SequenceId) : List SequenceId := before.filter (· ∉ after)

end Outbox

namespace Connection

/-- Writes into the diary. -/
def marks (c : Connection (Recorded τ)) (ms : List Mark) : Connection (Recorded τ) :=
  { c with transport := { c.transport with history := c.transport.history ++ ms } }

@[simp] theorem marks_nil (c : Connection (Recorded τ)) : c.marks [] = c := by
  simp [marks]

/-- What the next turn takes out of the inboxes, as far as it comes from a timer or from the
transport. -/
def cue (c : Connection (Recorded τ)) : List Mark :=
  match c.errands, c.signals.pop? with
  | .retry generation :: _, _ => [.retrying generation]
  | _ :: _, _ => []
  | [], some (s, _) => [.heard s]
  | [], none => []

/-- The connection after a signal was taken out of its inbox. -/
def hearing (c : Connection (Recorded τ)) (signal : Signal) (rest : Fifo Signal) :
    Connection (Recorded τ) :=
  { c.marks [.heard signal] with signals := rest }

/-- The connection after the errand of a timer was taken out of its inbox. -/
def retrying (c : Connection (Recorded τ)) (generation : Generation) (rest : List Errand) :
    Connection (Recorded τ) :=
  { c.marks [.retrying generation] with errands := rest }

/-- A timer that was not there before was armed, or has elapsed meanwhile. -/
def timerMarks (before after : Option Timer) : List Mark :=
  match after with
  | some t =>
    if before = some t then []
    else if t.elapsed then [.fired t.generation] else [.armed t.generation]
  | none => []

/-- Messages that were in the queue before were handed over meanwhile. -/
def queueMarks (before after : List SequenceId) : List Mark :=
  match Outbox.departed before after with
  | [] => []
  | ids => [.handed ids]

/-- What became of the timer and of the queue between two moments. -/
def aftermath (before after : Connection (Recorded τ)) : List Mark :=
  timerMarks before.timer after.timer ++ queueMarks before.outbox.ids after.outbox.ids

/-- A timer that is as it was, or is gone, leaves no mark. -/
theorem timerMarks_eq_nil {before after : Option Timer} (h : after = before ∨ after = none) :
    timerMarks before after = [] := by
  rcases h with rfl | rfl
  · cases after <;> simp [timerMarks]
  · rfl

theorem eq_of_mem_timerMarks {before after : Option Timer} {m : Mark}
    (h : m ∈ timerMarks before after) :
    ∃ generation, m = .fired generation ∨ m = .armed generation := by
  unfold timerMarks at h
  split at h
  · next t =>
    split at h
    · cases h
    · split at h
      · exact ⟨t.generation, Or.inl (List.mem_singleton.mp h)⟩
      · exact ⟨t.generation, Or.inr (List.mem_singleton.mp h)⟩
  · cases h

theorem queueMarks_self (ids : List SequenceId) : queueMarks ids ids = [] := by
  have h : Outbox.departed ids ids = [] := by simp [Outbox.departed]
  simp [queueMarks, h]

theorem eq_handed_of_mem_queueMarks {before after : List SequenceId} {m : Mark}
    (h : m ∈ queueMarks before after) : ∃ ids, m = .handed ids := by
  unfold queueMarks at h
  split at h
  · cases h
  · exact ⟨_, List.mem_singleton.mp h⟩

end Connection

end Tether
