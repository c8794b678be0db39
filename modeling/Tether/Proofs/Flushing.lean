import Tether.Proofs.Delivery

/-!
# Flushing

What a flush does, seen from the transport. Offered payloads one by one, a transport accepts some
of them and then refuses one, or accepts all; `Transport.Accepts` and `Transport.offered` say this
of any list of payloads, without a queue. A flush hands over the longest run of messages from the
head of the queue that the transport accepts, offers it the message after those, and keeps that one
and all behind it.

Flushing again goes on where the flush before stopped. So however often a transport refuses, what
it has accepted and what still waits are together the messages that waited at first.
-/

namespace Tether

variable {τ : Type} [Transport τ]

/-! ## Offering payloads one by one -/

namespace Transport

/-- The transport after it was offered these payloads, whatever it made of them. -/
def offered (t : τ) (payloads : List Payload) : τ :=
  payloads.foldl (fun t payload => (send t payload).1) t

/-- The transport accepts these payloads if it is offered them in this order. -/
def Accepts (t : τ) : List Payload → Prop
  | [] => True
  | payload :: rest => (send t payload).2 = none ∧ Accepts (send t payload).1 rest

@[simp] theorem offered_nil (t : τ) : offered t [] = t := rfl

@[simp] theorem offered_cons (t : τ) (payload : Payload) (rest : List Payload) :
    offered t (payload :: rest) = offered (send t payload).1 rest := rfl

theorem offered_append (t : τ) (ps qs : List Payload) :
    offered t (ps ++ qs) = offered (offered t ps) qs :=
  List.foldl_append

/-- A longer list is accepted only if the first payload beyond the shorter one is. -/
theorem Accepts.next {t : τ} {ps : List Payload} {payload : Payload} {rest : List Payload}
    (h : Accepts t (ps ++ payload :: rest)) : (send (offered t ps) payload).2 = none := by
  induction ps generalizing t with
  | nil => exact h.1
  | cons p ps ih => exact ih h.2

end Transport

/-- The payloads of messages. -/
def payloads (ms : List Message) : List Payload := ms.map (·.payload)

@[simp] theorem payloads_nil : payloads [] = [] := rfl

@[simp] theorem payloads_cons (m : Message) (ms : List Message) :
    payloads (m :: ms) = m.payload :: payloads ms := rfl

@[simp] theorem payloads_append (a b : List Message) :
    payloads (a ++ b) = payloads a ++ payloads b :=
  List.map_append

namespace Outbox

open Transport

/-! ## One flush -/

/-- How a list of messages falls apart when it is handed to a transport: those that are accepted,
and those that are left, the first of which is refused. -/
structure Division (t : τ) (ms sent left : List Message) : Prop where
  /-- Nothing is lost or moved. -/
  whole : ms = sent ++ left
  /-- What is handed over is accepted. -/
  accepted : Accepts t (payloads sent)
  /-- The first message that is left is refused. -/
  refused : ∀ m ∈ left.head?, (send (offered t (payloads sent)) m.payload).2.isSome

/-- The reason why the first message that is left was refused. -/
def reason (t : τ) (sent left : List Message) : Option Error :=
  left.head?.bind fun m => (send (offered t (payloads sent)) m.payload).2

theorem handOver_spec (t : τ) (ms : List Message) :
    ∃ sent left, Division t ms sent left ∧
      handOver t ms = (offered t (payloads sent ++ payloads (left.take 1)), sent, left,
        reason t sent left) := by
  induction ms generalizing t with
  | nil => exact ⟨[], [], ⟨rfl, trivial, nofun⟩, rfl⟩
  | cons m ms ih =>
    cases hs : send t m.payload with
    | mk t' refusal =>
      cases refusal with
      | some error =>
        refine ⟨[], m :: ms, ⟨rfl, trivial, ?_⟩, ?_⟩
        · intro m' hm'
          cases hm'
          simp [hs]
        · simp [handOver, hs, reason]
      | none =>
        obtain ⟨sent, left, hd, ho⟩ := ih t'
        refine ⟨m :: sent, left, ⟨?_, ?_, ?_⟩, ?_⟩
        · rw [hd.whole, List.cons_append]
        · exact ⟨by rw [hs], by rw [hs]; exact hd.accepted⟩
        · simpa [hs] using hd.refused
        · simp [handOver, hs, ho, reason]

/-- What is handed over is the longest run that is accepted: no list of messages from the head of
the queue that goes further is. -/
theorem Division.prefix_sent {t : τ} {ms sent left : List Message} (hd : Division t ms sent left)
    {run : List Message} (hp : run <+: ms) (ha : Accepts t (payloads run)) : run <+: sent := by
  rw [hd.whole] at hp
  rcases List.prefix_or_prefix_of_prefix hp (List.prefix_append sent left) with h | ⟨tail, rfl⟩
  · exact h
  · cases tail with
    | nil => simp
    | cons m tail =>
      -- The run goes on with the first message that is left, which is refused.
      have hleft : m :: tail <+: left := (List.prefix_append_right_inj sent).mp hp
      obtain ⟨rest, rfl⟩ := hleft
      have hsome := hd.refused m rfl
      rw [payloads_append] at ha
      rw [ha.next] at hsome
      cases hsome

theorem reason_isSome {t : τ} {ms sent left : List Message} (hd : Division t ms sent left) :
    (reason t sent left).isSome = !left.isEmpty := by
  cases left with
  | nil => rfl
  | cons m left => exact hd.refused m rfl

theorem flush_spec (q : Outbox) (t : τ) :
    ∃ sent left, Division t q.messages.toList sent left ∧
      q.flush t = ({ q with messages := .ofList left },
        offered t (payloads sent ++ payloads (left.take 1)),
        ⟨sent.map (·.sequence),
          left.head?.bind fun m => (reason t sent left).map fun error => (m.sequence, error)⟩) := by
  obtain ⟨sent, left, hd, ho⟩ := handOver_spec t q.messages.toList
  refine ⟨sent, left, hd, ?_⟩
  have hr := reason_isSome hd
  cases left with
  | nil => simp [flush, ho]
  | cons m left =>
    obtain ⟨error, he⟩ := Option.isSome_iff_exists.mp hr
    simp [flush, ho, he]

/-! ## Repeated flushes -/

/-- Flushes so many times in a row. Gives the queue and the transport that come of it, and the
positions that were reported as sent. -/
def flushTimes : Nat → Outbox → τ → Outbox × τ × List SequenceId
  | 0, q, t => (q, t, [])
  | n + 1, q, t =>
    let (q, t, result) := q.flush t
    let (q, t, ids) := flushTimes n q t
    (q, t, result.sent ++ ids)

theorem flushTimes_succ (n : Nat) (q : Outbox) (t : τ) :
    flushTimes (n + 1) q t =
      ((flushTimes n (q.flush t).1 (q.flush t).2.1).1,
        (flushTimes n (q.flush t).1 (q.flush t).2.1).2.1,
        (q.flush t).2.2.sent ++ (flushTimes n (q.flush t).1 (q.flush t).2.1).2.2) := rfl

end Outbox

/-! ## What the diary of a transport tells -/

namespace Recorded

open Transport

@[simp] theorem send_refusal (t : Recorded τ) (payload : Payload) :
    (send t payload).2 = (send t.base payload).2 := rfl

@[simp] theorem offered_base (t : Recorded τ) (ps : List Payload) :
    (offered t ps).base = offered t.base ps := by
  induction ps generalizing t with
  | nil => rfl
  | cons p ps ih => exact ih _

theorem accepts_iff (t : Recorded τ) (ps : List Payload) :
    Accepts t ps ↔ Accepts t.base ps := by
  induction ps generalizing t with
  | nil => exact Iff.rfl
  | cons p ps ih => exact and_congr Iff.rfl (ih _)

theorem history_offered {t : Recorded τ} {ps : List Payload} (h : Accepts t ps) :
    (offered t ps).history = t.history ++ ps.map fun payload => .sent payload none := by
  induction ps generalizing t with
  | nil => simp
  | cons p ps ih =>
    have hfirst : (send t p).1.history = t.history ++ [.sent p none] := by
      show t.history ++ [.sent p (send t.base p).2] = _
      rw [show (send t.base p).2 = none from h.1]
    rw [offered_cons, ih h.2, hfirst, List.map_cons, List.append_assoc, List.singleton_append]

end Recorded

namespace Outbox

open Transport

theorem Division.recorded {t : τ} {h : List Mark} {ms sent left : List Message}
    (hd : Division t ms sent left) : Division (⟨t, h⟩ : Recorded τ) ms sent left where
  whole := hd.whole
  accepted := (Recorded.accepts_iff _ _).mpr hd.accepted
  refused := by
    intro m hm
    rw [Recorded.send_refusal, Recorded.offered_base]
    exact hd.refused m hm

/-- A list of messages falls apart in one way only. -/
theorem Division.unique {t : τ} {ms sent left sent' left' : List Message}
    (hd : Division t ms sent left) (hd' : Division t ms sent' left') :
    sent = sent' ∧ left = left' := by
  have hle : sent <+: sent' :=
    hd'.prefix_sent (hd.whole ▸ List.prefix_append sent left) hd.accepted
  have hge : sent' <+: sent :=
    hd.prefix_sent (hd'.whole ▸ List.prefix_append sent' left') hd'.accepted
  obtain rfl := hle.eq_of_length (Nat.le_antisymm hle.length_le hge.length_le)
  exact ⟨rfl, List.append_cancel_left (hd.whole.symm.trans hd'.whole)⟩

/-- What a flush writes into the diary of its transport. -/
def flushMarks (t : τ) (sent left : List Message) : List Mark :=
  ((payloads sent).map fun payload => .sent payload none) ++
    (left.take 1).map fun m => .sent m.payload (reason t sent left)

theorem history_flush (q : Outbox) {t : τ} {h : List Mark} {sent left : List Message}
    (hd : Division t q.messages.toList sent left) :
    (q.flush (⟨t, h⟩ : Recorded τ)).2.1.history = h ++ flushMarks t sent left := by
  obtain ⟨sent', left', hd', hf⟩ := q.flush_spec (⟨t, h⟩ : Recorded τ)
  obtain ⟨rfl, rfl⟩ := (Division.recorded (h := h) hd).unique hd'
  have hsent := Recorded.history_offered hd'.accepted
  rw [hf]
  cases left with
  | nil =>
    show (offered (⟨t, h⟩ : Recorded τ) (payloads sent ++ [])).history = _
    rw [List.append_nil, hsent, flushMarks, List.take_nil, List.map_nil, List.append_nil]
  | cons m left =>
    show (offered (⟨t, h⟩ : Recorded τ) (payloads sent ++ [m.payload])).history = _
    rw [offered_append]
    show (offered (⟨t, h⟩ : Recorded τ) (payloads sent)).history ++
      [.sent m.payload (send (offered (⟨t, h⟩ : Recorded τ) (payloads sent)).base m.payload).2] = _
    rw [hsent, Recorded.offered_base, List.append_assoc]
    rfl

/-- Of the offers that a flush makes, those of what is handed over bring something to the
transport. -/
theorem taken_flushMarks {t : τ} {ms sent left : List Message} (hd : Division t ms sent left) :
    taken (flushMarks t sent left) = payloads sent := by
  have hsent : ∀ ps : List Payload,
      taken (ps.map fun payload => .sent payload none) = ps := by
    intro ps
    induction ps with
    | nil => rfl
    | cons p ps ih => exact congrArg (p :: ·) ih
  have hleft : taken ((left.take 1).map fun m => .sent m.payload (reason t sent left)) = [] := by
    have hr := reason_isSome hd
    cases left with
    | nil => rfl
    | cons m left =>
      obtain ⟨error, he⟩ := Option.isSome_iff_exists.mp hr
      rw [he]
      rfl
  rw [flushMarks, taken_append, hsent, hleft, List.append_nil]

/-- However often the queue is flushed, what the transport has taken and what still waits are
together what waited at first, and the positions reported as sent are those that wait no more. -/
theorem flushTimes_spec (n : Nat) (q : Outbox) (t : Recorded τ) :
    let r := flushTimes n q t
    taken r.2.1.history ++ payloads r.1.messages.toList =
        taken t.history ++ payloads q.messages.toList ∧
      r.2.2 ++ r.1.ids = q.ids := by
  induction n generalizing q t with
  | zero => exact ⟨rfl, rfl⟩
  | succ n ih =>
    obtain ⟨sent, left, hd, -⟩ := q.flush_spec t.base
    obtain ⟨sent', left', hd', hf⟩ := q.flush_spec t
    obtain ⟨rfl, rfl⟩ := (Division.recorded (h := t.history) hd).unique hd'
    have hhistory : (q.flush t).2.1.history = t.history ++ flushMarks t.base sent left :=
      q.history_flush hd
    have hqueue : (q.flush t).1.messages.toList = left := by rw [hf]; simp
    have hreport : (q.flush t).2.2.sent = sent.map (·.sequence) := by rw [hf]
    obtain ⟨htaken, hids⟩ := ih (q.flush t).1 (q.flush t).2.1
    rw [flushTimes_succ]
    constructor
    · rw [htaken, hhistory, taken_append, taken_flushMarks hd, hqueue, hd.whole, payloads_append,
        List.append_assoc]
    · rw [List.append_assoc, hids, hreport, ids, ids, hqueue, hd.whole, List.map_append]

/-- A flush hands over the longest run of messages from the head of the queue that the transport
accepts when it is offered them one by one. The queue keeps the others as they were, and its bounds
and counters too. The positions of what was handed over are reported in order. The transport is
offered that run and the message after it, if there is one, and nothing else is asked of it; that
message is then the head of the queue, and it is reported with the reason of the refusal, just if
the queue is not empty.

Flushed again and again, a queue that is empty at last has brought all its messages to the
transport, once each and in order, whatever was refused on the way. -/
theorem flush_hands_over_longest_prefix (q : Outbox) (t : τ) :
    (∃ sent left : List Message,
      q.messages.toList = sent ++ left ∧
      Accepts t (payloads sent) ∧
      (∀ run, run <+: q.messages.toList → Accepts t (payloads run) → run <+: sent) ∧
      (q.flush t).1 = { q with messages := .ofList left } ∧
      (q.flush t).1.messages.toList = left ∧
      (q.flush t).2.2.sent = sent.map (·.sequence) ∧
      (q.flush t).2.1 = offered t (payloads sent ++ payloads (left.take 1)) ∧
      (q.flush (⟨t, []⟩ : Recorded τ)).2.1.history = flushMarks t sent left ∧
      (∀ id error, (q.flush t).2.2.refusal = some (id, error) ↔
        ∃ m, left.head? = some m ∧ m.sequence = id ∧
          (send (offered t (payloads sent)) m.payload).2 = some error) ∧
      ((q.flush t).2.2.refusal.isSome ↔ (q.flush t).1.messages.toList ≠ [])) ∧
    (∀ n, (flushTimes n q (⟨t, []⟩ : Recorded τ)).1.messages.toList = [] →
      taken (flushTimes n q (⟨t, []⟩ : Recorded τ)).2.1.history = payloads q.messages.toList ∧
      (flushTimes n q (⟨t, []⟩ : Recorded τ)).2.2 = q.ids) := by
  constructor
  · obtain ⟨sent, left, hd, hf⟩ := q.flush_spec t
    have hmarks := q.history_flush (h := []) hd
    have hsome := reason_isSome hd
    refine ⟨sent, left, hd.whole, hd.accepted, fun run => hd.prefix_sent, ?_, ?_, ?_, ?_, hmarks,
      ?_, ?_⟩
    · rw [hf]
    · rw [hf]; simp
    · rw [hf]
    · rw [hf]
    · intro id error
      rw [hf]
      cases left with
      | nil => simp
      | cons m left => simp [reason, and_comm]
    · rw [hf]
      cases left with
      | nil => simp
      | cons m left => simpa using hsome
  · intro n hempty
    obtain ⟨htaken, hids⟩ := flushTimes_spec n q (⟨t, []⟩ : Recorded τ)
    rw [ids, hempty, List.map_nil, List.append_nil] at hids
    rw [hempty, payloads_nil, List.append_nil] at htaken
    exact ⟨htaken, hids⟩

end Outbox

end Tether
