import Mathlib.Algebra.GroupWithZero.Nat
import Mathlib.Data.List.DropRight
import Tether.Proofs.Flushing
import Tether.Proofs.Ledger

/-!
# What a full queue keeps

A queue decides about one message at a time. Here it is shown what comes of many in a row: the
policy that drops the oldest message keeps the last messages of all that were there or came, the
policy that rejects the new one keeps the first. `Policy.retain` says this of a list of messages in
one go. One message is a case of it, and `Policy.retain_append` puts the cases together, because
what was discarded on the way would not have been kept at the end either.
-/

namespace Tether

/-- What a policy keeps of messages if `capacity` of them fit. -/
def Policy.retain (policy : Policy) (capacity : Nat) (ms : List Message) : List Message :=
  match policy with
  | .dropOldest => ms.rtake capacity
  | .rejectNew => ms.take capacity

namespace Policy

variable {capacity : Nat} {ms : List Message}

theorem retain_eq_self (policy : Policy) (h : ms.length ≤ capacity) :
    policy.retain capacity ms = ms := by
  cases policy with
  | dropOldest =>
    show ms.drop (ms.length - capacity) = ms
    rw [Nat.sub_eq_zero_of_le h, List.drop_zero]
  | rejectNew => exact List.take_of_length_le h

theorem length_retain (policy : Policy) (capacity : Nat) (ms : List Message) :
    (policy.retain capacity ms).length = min capacity ms.length := by
  cases policy with
  | dropOldest =>
    show (ms.drop (ms.length - capacity)).length = _
    rw [List.length_drop]
    omega
  | rejectNew => exact List.length_take

/-- More than there is cannot be kept. -/
theorem retain_min (policy : Policy) (capacity : Nat) (ms : List Message) :
    policy.retain (min capacity ms.length) ms = policy.retain capacity ms := by
  cases policy with
  | dropOldest =>
    show ms.drop (ms.length - min capacity ms.length) = ms.drop (ms.length - capacity)
    congr 1
    omega
  | rejectNew => exact List.take_eq_take_iff.mpr (by omega)

/-- What was not kept before more messages came would not be kept with them. -/
theorem retain_append (policy : Policy) (capacity : Nat) (a b : List Message) :
    policy.retain capacity (policy.retain capacity a ++ b) = policy.retain capacity (a ++ b) := by
  by_cases h : a.length ≤ capacity
  · rw [policy.retain_eq_self h]
  · have hlen : (policy.retain capacity a).length = capacity := by
      rw [length_retain]
      omega
    cases policy with
    | dropOldest =>
      have hdrop : a.length - capacity + b.length = (a ++ b).length - capacity := by
        rw [List.length_append]
        omega
      show (a.drop (a.length - capacity) ++ b).drop
        ((a.drop (a.length - capacity) ++ b).length - capacity) = (a ++ b).drop _
      have hshort : (a.drop (a.length - capacity) ++ b).length - capacity = b.length := by
        rw [List.length_append, List.length_drop]
        omega
      rw [hshort, ← hdrop, ← List.drop_drop, List.drop_append_of_le_length (Nat.sub_le _ _)]
    | rejectNew =>
      have hlen : (a.take capacity).length = capacity := hlen
      show (a.take capacity ++ b).take capacity = (a ++ b).take capacity
      rw [List.take_append_of_le_length hlen.ge, List.take_append_of_le_length (by omega),
        List.take_take, Nat.min_self]

end Policy

namespace Outbox

/-! ## One message -/

/-- The messages of a queue with another one behind them. -/
def awaiting (q : Outbox) (payload : Payload) : List Message :=
  q.messages.toList ++ [⟨q.nextId, payload⟩]

theorem length_awaiting (q : Outbox) (payload : Payload) :
    (q.awaiting payload).length = q.length + 1 := by
  simp [awaiting, length]

/-- Whatever becomes of a message, the policy of the queue decides it. -/
theorem toList_enqueue (q : Outbox) (payload : Payload) (hc : 1 ≤ q.capacity)
    (hq : q.length ≤ q.capacity) :
    (q.enqueue payload).1.messages.toList = q.policy.retain q.capacity (q.awaiting payload) := by
  have hlen := q.length_awaiting payload
  have hcases := q.enqueue_cases payload
  generalize q.enqueue payload = result at hcases
  cases hcases with
  | room hr =>
    rw [q.policy.retain_eq_self (by omega)]
    exact Fifo.toList_push _ _
  | evict hf hp =>
    have hone : (q.awaiting payload).length - q.capacity = 1 := by omega
    have hne : 1 ≤ q.messages.toList.length := by
      rw [Fifo.length_toList]
      exact hc.trans hf
    rw [hp]
    show _ = (q.awaiting payload).drop ((q.awaiting payload).length - q.capacity)
    rw [hone, awaiting, List.drop_append_of_le_length hne, List.drop_one, Fifo.toList_push,
      Fifo.toList_tail]
  | refuse hf hp =>
    have hfull : q.messages.toList.length = q.capacity := by
      rw [Fifo.length_toList]
      exact hq.antisymm hf
    rw [hp]
    show _ = (q.awaiting payload).take q.capacity
    rw [← hfull, awaiting, List.take_left]

theorem enqueue_policy (q : Outbox) (payload : Payload) :
    (q.enqueue payload).1.policy = q.policy := by
  have hcases := q.enqueue_cases payload
  generalize q.enqueue payload = result at hcases
  cases hcases <;> rfl

/-- One message is discarded if there is one too many. -/
theorem enqueue_dropped (q : Outbox) (payload : Payload) (hq : q.length ≤ q.capacity) :
    (q.enqueue payload).2.dropped = q.length + 1 - q.capacity := by
  have hcases := q.enqueue_cases payload
  generalize q.enqueue payload = result at hcases
  cases hcases with
  | room hr =>
    show 0 = _
    omega
  | evict hf | refuse hf =>
    show 1 = _
    omega

/-! ## The queues that there are -/

/-- A queue that was made empty and then used. -/
inductive Made : Outbox → Prop where
  /-- A new queue. -/
  | empty (capacity : Nat) (policy : Policy) : Made (.empty capacity policy)
  /-- A message was queued. -/
  | enqueue {q : Outbox} (payload : Payload) (h : Made q) : Made (q.enqueue payload).1
  /-- The queue was flushed. -/
  | flush {q : Outbox} {τ : Type} [Transport τ] (t : τ) (h : Made q) : Made (q.flush t).1
  /-- All messages were taken out. -/
  | drain {q : Outbox} (h : Made q) : Made { q with messages := .empty }

/-- The messages in a queue come before the next one. -/
theorem Made.lt_nextId {q : Outbox} (h : Made q) :
    ∀ m ∈ q.messages.toList, m.sequence.value < q.nextId.value := by
  induction h with
  | empty | drain =>
    intro m hm
    cases hm
  | @enqueue q payload h ih =>
    have hold : ∀ m ∈ q.messages.toList, m.sequence.value < q.nextId.value + 1 :=
      fun m hm => Nat.lt_succ_of_lt (ih m hm)
    have hnew : ∀ m ∈ q.awaiting payload, m.sequence.value < q.nextId.value + 1 :=
      List.forall_mem_append.mpr ⟨hold, List.forall_mem_singleton.mpr (Nat.lt_succ_self _)⟩
    have hcases := q.enqueue_cases payload
    generalize q.enqueue payload = result at hcases
    cases hcases with
    | room =>
      rw [Fifo.toList_push]
      exact hnew
    | evict =>
      rw [Fifo.toList_push, Fifo.toList_tail]
      intro m hm
      exact hnew m (((List.tail_sublist _).append_right _).subset hm)
    | refuse => exact hold
  | @flush q τ _ t h ih =>
    obtain ⟨sent, left, hd, hf⟩ := q.flush_spec t
    rw [hf, Fifo.toList_ofList]
    intro m hm
    refine ih m ?_
    rw [hd.whole]
    exact List.mem_append_right _ hm

/-- A message is accepted just if it is in the queue then. -/
theorem Made.accepted_iff {q : Outbox} (h : Made q) (payload : Payload) :
    (q.enqueue payload).2.accepted = true ↔
      ⟨(q.enqueue payload).2.sequence, payload⟩ ∈ (q.enqueue payload).1.messages.toList := by
  have hcases := q.enqueue_cases payload
  generalize q.enqueue payload = result at hcases
  cases hcases with
  | room | evict => simp
  | refuse =>
    -- The queue is as it was, and its messages come before the new one.
    have hnot : (⟨q.nextId, payload⟩ : Message) ∉ q.messages.toList :=
      fun hm => Nat.lt_irrefl _ (h.lt_nextId _ hm)
    simp [hnot]

/-! ## Many messages -/

/-- Queues messages one after the other; gives their receipts in order. -/
def enqueueAll : Outbox → List Payload → Outbox × List Receipt
  | q, [] => (q, [])
  | q, payload :: rest =>
    let (q, receipt) := q.enqueue payload
    let (q, receipts) := enqueueAll q rest
    (q, receipt :: receipts)

/-- The messages that payloads become, numbered one after the other. -/
def numberedFrom (first : SequenceId) (payloads : List Payload) : List Message :=
  (payloads.zipIdx first.value).map fun entry => ⟨⟨entry.2⟩, entry.1⟩

theorem enqueueAll_cons (q : Outbox) (payload : Payload) (rest : List Payload) :
    q.enqueueAll (payload :: rest) =
      (((q.enqueue payload).1.enqueueAll rest).1,
        (q.enqueue payload).2 :: ((q.enqueue payload).1.enqueueAll rest).2) := rfl

theorem enqueueAll_append (q : Outbox) (a b : List Payload) :
    q.enqueueAll (a ++ b) =
      (((q.enqueueAll a).1.enqueueAll b).1,
        (q.enqueueAll a).2 ++ ((q.enqueueAll a).1.enqueueAll b).2) := by
  induction a generalizing q with
  | nil => rfl
  | cons payload a ih => rw [List.cons_append, enqueueAll_cons, ih, enqueueAll_cons]; rfl

theorem length_enqueueAll (q : Outbox) (payloads : List Payload) :
    (q.enqueueAll payloads).2.length = payloads.length := by
  induction payloads generalizing q with
  | nil => rfl
  | cons payload rest ih => rw [enqueueAll_cons, List.length_cons, ih, List.length_cons]

@[simp] theorem numberedFrom_nil (first : SequenceId) : numberedFrom first [] = [] := rfl

@[simp] theorem numberedFrom_cons (first : SequenceId) (payload : Payload) (rest : List Payload) :
    numberedFrom first (payload :: rest) = ⟨first, payload⟩ :: numberedFrom first.next rest := rfl

@[simp] theorem length_numberedFrom (first : SequenceId) (payloads : List Payload) :
    (numberedFrom first payloads).length = payloads.length := by
  simp [numberedFrom]

theorem Made.enqueueAll {q : Outbox} (h : Made q) (payloads : List Payload) :
    Made (q.enqueueAll payloads).1 := by
  induction payloads generalizing q with
  | nil => exact h
  | cons payload rest ih => exact ih (h.enqueue payload)

/-- What many messages in a row do to a queue and what their receipts say. -/
structure Filled (q : Outbox) (payloads : List Payload) (q' : Outbox) (receipts : List Receipt) :
    Prop where
  /-- The policy decides once about all the messages. -/
  content : q'.messages.toList =
    q.policy.retain q.capacity (q.messages.toList ++ numberedFrom q.nextId payloads)
  /-- The messages are numbered in a row, whatever becomes of them. -/
  sequences : receipts.map (·.sequence.value) = List.range' q.nextId.value payloads.length
  /-- The position after them comes next. -/
  next : q'.nextId.value = q.nextId.value + payloads.length
  /-- What is too much is discarded. -/
  dropped : (receipts.map (·.dropped)).sum = q.length + payloads.length - q.capacity
  /-- What is discarded is counted. -/
  counted : q'.discarded = q.discarded + (receipts.map (·.dropped)).sum
  /-- The bounds of the queue stay. -/
  bounds : q'.capacity = q.capacity ∧ q'.policy = q.policy

theorem enqueueAll_spec (q : Outbox) (payloads : List Payload) (hc : 1 ≤ q.capacity)
    (hq : q.length ≤ q.capacity) :
    q.Filled payloads (q.enqueueAll payloads).1 (q.enqueueAll payloads).2 := by
  induction payloads generalizing q with
  | nil =>
    refine ⟨?_, rfl, rfl, ?_, rfl, rfl, rfl⟩
    · rw [numberedFrom_nil, List.append_nil, q.policy.retain_eq_self]
      · rfl
      · rwa [Fifo.length_toList]
    · show 0 = q.length + 0 - q.capacity
      omega
  | cons payload rest ih =>
    have he := q.enqueue_spec payload hc hq
    have hcontent := q.toList_enqueue payload hc hq
    have hpolicy := q.enqueue_policy payload
    have hdropped := q.enqueue_dropped payload hq
    have hcounted := q.enqueue_discarded payload
    have hrest := ih (q.enqueue payload).1 (he.capacity ▸ hc) he.bounded
    rw [enqueueAll_cons]
    generalize (q.enqueue payload).1 = q₁, (q.enqueue payload).2 = receipt at *
    have hnext : q₁.nextId.value = q.nextId.value + 1 := congrArg SequenceId.value he.next
    have hcount := he.count
    refine ⟨?_, ?_, ?_, ?_, ?_, ?_, ?_⟩
    · rw [hrest.content, hcontent, hpolicy, he.capacity, he.next, Policy.retain_append, awaiting,
        List.append_assoc]
      rfl
    · rw [List.map_cons, hrest.sequences, he.sequence, hnext, List.length_cons, List.range'_succ]
    · rw [hrest.next, hnext, List.length_cons]
      omega
    · -- The queue is by one longer, unless a message was discarded.
      have hsum := hrest.dropped
      rw [he.capacity] at hsum
      rw [List.map_cons, List.sum_cons, hsum, List.length_cons]
      omega
    · rw [hrest.counted, hcounted, List.map_cons, List.sum_cons, Nat.add_assoc]
    · exact hrest.bounds.1.trans he.capacity
    · exact hrest.bounds.2.trans hpolicy

/-- What a queue keeps of many messages in a row, whatever was in it before. If the oldest message
makes room, it keeps the last of all the messages, and if the new one is refused, the first; as many
as fit. The new messages are numbered in a row from the next position on, those that are refused
too. As many messages are discarded as are too many, and so say the receipts taken together and the
counter. And every receipt says whether its message was in the queue right after it was given. -/
theorem overflow_in_closed_form (q : Outbox) (payloads : List Payload) (hc : 1 ≤ q.capacity)
    (hq : q.length ≤ q.capacity) :
    let q' := (q.enqueueAll payloads).1
    let receipts := (q.enqueueAll payloads).2
    let all := q.messages.toList ++ numberedFrom q.nextId payloads
    (q.policy = .dropOldest →
      q'.messages.toList = all.rtake (min q.capacity (q.length + payloads.length))) ∧
    (q.policy = .rejectNew →
      q'.messages.toList = all.take (min q.capacity (q.length + payloads.length))) ∧
    receipts.map (·.sequence.value) = List.range' q.nextId.value payloads.length ∧
    q'.nextId.value = q.nextId.value + payloads.length ∧
    (receipts.map (·.dropped)).sum = q.length + payloads.length - q.capacity ∧
    q'.discarded = q.discarded + (q.length + payloads.length - q.capacity) ∧
    q'.capacity = q.capacity ∧ q'.policy = q.policy ∧
    (q.Made → ∀ pre payload post, payloads = pre ++ payload :: post →
      ∃ receipt, receipts[pre.length]? = some receipt ∧
        (receipt.accepted = true ↔ ⟨receipt.sequence, payload⟩ ∈
          (q.enqueueAll (pre ++ [payload])).1.messages.toList)) := by
  intro q' receipts all
  have h : q.Filled payloads q' receipts := q.enqueueAll_spec payloads hc hq
  have hlen : all.length = q.length + payloads.length := by
    rw [List.length_append, Fifo.length_toList, length_numberedFrom]
    rfl
  have hcontent : q'.messages.toList =
      q.policy.retain (min q.capacity (q.length + payloads.length)) all := by
    rw [← hlen, Policy.retain_min]
    exact h.content
  refine ⟨?_, ?_, h.sequences, h.next, h.dropped, ?_, h.bounds.1, h.bounds.2, ?_⟩
  · intro hp
    rw [hcontent, hp]
    rfl
  · intro hp
    rw [hcontent, hp]
    rfl
  · rw [h.counted, h.dropped]
  · rintro hm pre payload post rfl
    have hpre := (hm.enqueueAll pre).accepted_iff payload
    refine ⟨((q.enqueueAll pre).1.enqueue payload).2, ?_, ?_⟩
    · show (q.enqueueAll (pre ++ payload :: post)).2[pre.length]? = _
      rw [enqueueAll_append, List.getElem?_append_right (length_enqueueAll q pre).le,
        length_enqueueAll, Nat.sub_self]
      rfl
    · rw [enqueueAll_append]
      exact hpre

/-- Two messages fit and one is there: of three more, the first is taken, and then it is in the
queue; the second is refused, and then it is not. -/
theorem overflow_in_closed_form_rejecting :
    let q := ((Outbox.empty 2 .rejectNew).enqueue (.ofText "a")).1
    let payloads : List Payload := [.ofText "b", .ofText "c", .ofText "d"]
    let result := q.enqueueAll payloads
    1 ≤ q.capacity ∧ q.length ≤ q.capacity ∧ q.Made ∧
    result.1.messages.toList = [⟨⟨1⟩, .ofText "a"⟩, ⟨⟨2⟩, .ofText "b"⟩] ∧
    result.2.map (·.sequence.value) = [2, 3, 4] ∧ result.1.nextId.value = 5 ∧
    (result.2.map (·.dropped)).sum = 2 ∧ result.1.discarded = 2 ∧
    (result.2[0]? = some ⟨⟨2⟩, true, 0⟩ ∧
      ⟨⟨2⟩, .ofText "b"⟩ ∈ (q.enqueueAll [.ofText "b"]).1.messages.toList) ∧
    (result.2[1]? = some ⟨⟨3⟩, false, 1⟩ ∧
      ⟨⟨3⟩, .ofText "c"⟩ ∉ (q.enqueueAll [.ofText "b", .ofText "c"]).1.messages.toList) := by
  intro q payloads result
  have hc : 1 ≤ q.capacity := by decide
  have hq : q.length ≤ q.capacity := by decide
  have hm : q.Made := .enqueue _ (.empty 2 .rejectNew)
  obtain ⟨-, hcontent, hsequences, hnext, hdropped, hcounted, -, -, haccepted⟩ :=
    overflow_in_closed_form q payloads hc hq
  refine ⟨hc, hq, hm, hcontent rfl, hsequences, hnext, hdropped, hcounted, ⟨rfl, ?_⟩, rfl, ?_⟩
  · obtain ⟨receipt, hget, hiff⟩ := haccepted hm [] (.ofText "b") [.ofText "c", .ofText "d"] rfl
    cases hget
    exact hiff.mp rfl
  · obtain ⟨receipt, hget, hiff⟩ := haccepted hm [.ofText "b"] (.ofText "c") [.ofText "d"] rfl
    cases hget
    intro hmem
    cases hiff.mpr hmem

end Outbox

end Tether
