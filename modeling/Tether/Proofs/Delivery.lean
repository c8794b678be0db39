import Mathlib.Data.List.Perm.Basic
import Tether.Proofs.Moves
import Tether.Proofs.Preliminaries

/-!
# Delivery

What becomes of the messages that are given to a connection. The history tells which payloads were
given and which the transport accepted, and which positions were discarded or have left the queue.
`Delivered` says how these go together with the queue. Only two moves touch it, a message that is
queued and a flush, and `Outbox.enqueue_spec` and `Connection.flush_spec` say all that is needed of
them.
-/

namespace Tether

/-! ## What a history tells about messages -/

/-- The payloads that were given to be sent, in order. -/
def given (h : List Mark) : List Payload :=
  h.flatMap fun
    | .queued payload _ _ => [payload]
    | _ => []

/-- The receipts for them. -/
def receipts (h : List Mark) : List Receipt :=
  h.flatMap fun
    | .queued _ receipt _ => [receipt]
    | _ => []

/-- The positions of the messages that were discarded. -/
def discards (h : List Mark) : List SequenceId :=
  h.flatMap fun
    | .queued _ _ lost => lost
    | _ => []

/-- The positions of the messages that have left the queue for the transport. -/
def handovers (h : List Mark) : List SequenceId :=
  h.flatMap fun
    | .handed ids => ids
    | _ => []

/-- The payloads that the transport accepted. -/
def taken (h : List Mark) : List Payload :=
  h.flatMap fun
    | .sent payload none => [payload]
    | _ => []

/-- How many of the messages that were given were neither handed over nor discarded. -/
def backlog (h : List Mark) : Nat :=
  (given h).length - (handovers h).length - (discards h).length

/-- The payload that was given for a position. -/
def payloadOf (h : List Mark) (i : SequenceId) : Option Payload := (given h)[i.value - 1]?

/-- The first positions, counted from one. -/
def positions (n : Nat) : List SequenceId := (List.range' 1 n).map SequenceId.mk

@[simp] theorem given_append (a b : List Mark) : given (a ++ b) = given a ++ given b :=
  List.flatMap_append

@[simp] theorem receipts_append (a b : List Mark) :
    receipts (a ++ b) = receipts a ++ receipts b :=
  List.flatMap_append

@[simp] theorem discards_append (a b : List Mark) :
    discards (a ++ b) = discards a ++ discards b :=
  List.flatMap_append

@[simp] theorem handovers_append (a b : List Mark) :
    handovers (a ++ b) = handovers a ++ handovers b :=
  List.flatMap_append

@[simp] theorem taken_append (a b : List Mark) : taken (a ++ b) = taken a ++ taken b :=
  List.flatMap_append

theorem positions_succ (n : Nat) : positions (n + 1) = positions n ++ [⟨n + 1⟩] := by
  simp [positions, List.range'_1_concat, Nat.add_comm]

theorem mem_positions {n : Nat} {i : SequenceId} :
    i ∈ positions n ↔ 1 ≤ i.value ∧ i.value ≤ n := by
  simp only [positions, List.mem_map, List.mem_range'_1]
  constructor
  · rintro ⟨k, hk, rfl⟩
    exact ⟨hk.1, by show k ≤ n; omega⟩
  · intro hi
    exact ⟨i.value, by omega, rfl⟩

theorem nodup_of_increasing {l : List SequenceId} (hl : l.Pairwise (·.value < ·.value)) :
    l.Nodup := by
  refine hl.imp ?_
  rintro i j hlt rfl
  exact Nat.lt_irrefl _ hlt

/-- What is told of no message that is queued, handed over or accepted. -/
def Mark.isAside : Mark → Bool
  | queued .. | handed _ | sent _ none => false
  | _ => true

/-- Marks that tell of no message that was given, but of these payloads that were accepted and of
these positions that were handed over. -/
structure Outgoing (ms : List Mark) (payloads : List Payload) (ids : List SequenceId) : Prop where
  given : given ms = []
  receipts : receipts ms = []
  discards : discards ms = []
  handovers : handovers ms = ids
  taken : taken ms = payloads

namespace Outgoing

theorem of_isAside {ms : List Mark} (hm : ∀ m ∈ ms, m.isAside = true) : Outgoing ms [] [] := by
  constructor
  all_goals
    refine List.flatMap_eq_nil_iff.mpr fun m hmem => ?_
    have haside := hm m hmem
    split
    · cases haside
    · rfl

theorem append {a b : List Mark} {p q : List Payload} {i j : List SequenceId}
    (ha : Outgoing a p i) (hb : Outgoing b q j) : Outgoing (a ++ b) (p ++ q) (i ++ j) where
  given := by rw [given_append, ha.given, hb.given]; rfl
  receipts := by rw [receipts_append, ha.receipts, hb.receipts]; rfl
  discards := by rw [discards_append, ha.discards, hb.discards]; rfl
  handovers := by rw [handovers_append, ha.handovers, hb.handovers]
  taken := by rw [taken_append, ha.taken, hb.taken]

theorem acceptances (sent : List Message) :
    Outgoing (sent.map Message.acceptance) (sent.map (·.payload)) [] := by
  induction sent with
  | nil => exact ⟨rfl, rfl, rfl, rfl, rfl⟩
  | cons m sent ih =>
    have hm : Outgoing [m.acceptance] [m.payload] [] := ⟨rfl, rfl, rfl, rfl, rfl⟩
    exact hm.append ih

theorem queueMarks (before after : List SequenceId) :
    Outgoing (Connection.queueMarks before after) [] (Outbox.departed before after) := by
  unfold Connection.queueMarks
  split
  · next hnil =>
    rw [hnil]
    exact ⟨rfl, rfl, rfl, rfl, rfl⟩
  · exact ⟨rfl, rfl, rfl, List.append_nil _, rfl⟩

end Outgoing

namespace Outbox

/-- A queue loses nothing but what has departed. -/
theorem perm_departed {l l' : List SequenceId} (hn : l.Nodup) (hs : l'.Sublist l) :
    (l' ++ departed l l').Perm l := by
  have hd : (l' ++ departed l l').Nodup := by
    refine List.nodup_append.mpr ⟨hn.sublist hs, hn.filter _, ?_⟩
    rintro a ha b hb rfl
    have hb := (List.mem_filter.mp hb).2
    simp [ha] at hb
  refine (List.perm_ext_iff_of_nodup hd hn).mpr fun a => ?_
  have := hs.subset (a := a)
  by_cases ha : a ∈ l' <;> simp_all [departed]

theorem departed_append {a b : List SequenceId} (hn : (a ++ b).Nodup) :
    departed (a ++ b) b = a := by
  have hdis := (List.nodup_append.mp hn).2.2
  have ha : a.filter (· ∉ b) = a := by
    refine List.filter_eq_self.mpr fun x hx => ?_
    simpa using fun hb => hdis x hx x hb rfl
  have hb : b.filter (· ∉ b) = [] := by simp
  rw [departed, List.filter_append, ha, hb, List.append_nil]

/-- What queueing a message does, whether there is room for it or not. -/
structure Enqueued (q : Outbox) (payload : Payload) (q' : Outbox) (receipt : Receipt) : Prop where
  /-- The message gets the next position. -/
  sequence : receipt.sequence = q.nextId
  /-- The position after it comes next. -/
  next : q'.nextId = q.nextId.next
  /-- As many messages fit as before. -/
  capacity : q'.capacity = q.capacity
  /-- The message stands last, and nothing else is new or moved. -/
  sublist : q'.messages.toList.Sublist (q.messages.toList ++ [⟨q.nextId, payload⟩])
  /-- What is not in the queue is counted. -/
  count : q'.discarded + q'.length = q.discarded + q.length + 1
  /-- One message is discarded if the queue was full, and none otherwise. -/
  overflow : q'.discarded = q.discarded + if q.length = q.capacity then 1 else 0
  /-- No more messages wait than fit. -/
  bounded : q'.length ≤ q'.capacity

theorem length_ids (q : Outbox) : q.ids.length = q.length := by
  simp [ids, length]

theorem Enqueued.ids_sublist {q q' : Outbox} {payload : Payload} {receipt : Receipt}
    (he : q.Enqueued payload q' receipt) : q'.ids.Sublist (q.ids ++ [q.nextId]) := by
  have hs := he.sublist.map (·.sequence)
  rwa [List.map_append] at hs

theorem enqueue_spec (q : Outbox) (payload : Payload) (hc : 1 ≤ q.capacity)
    (hb : q.length ≤ q.capacity) :
    q.Enqueued payload (q.enqueue payload).1 (q.enqueue payload).2 := by
  have hcases := q.enqueue_cases payload
  generalize q.enqueue payload = result at hcases
  cases hcases with
  | room hr =>
    have hlen : (q.messages.push ⟨q.nextId, payload⟩).size = q.length + 1 := by
      rw [← Fifo.length_toList, Fifo.toList_push, List.length_append, Fifo.length_toList]
      rfl
    refine { sequence := rfl, next := rfl, capacity := rfl, sublist := ?_, count := ?_,
             overflow := ?_, bounded := ?_ }
    · rw [Fifo.toList_push]
    · show q.discarded + (q.messages.push ⟨q.nextId, payload⟩).size = _
      omega
    · rw [if_neg (by omega)]
      rfl
    · show (q.messages.push ⟨q.nextId, payload⟩).size ≤ q.capacity
      omega
  | evict hf hp =>
    have hlen : (q.messages.tail.push ⟨q.nextId, payload⟩).size = q.length := by
      rw [← Fifo.length_toList, Fifo.toList_push, Fifo.toList_tail, List.length_append,
        List.length_tail, Fifo.length_toList]
      show q.length - 1 + 1 = q.length
      omega
    refine { sequence := rfl, next := rfl, capacity := rfl, sublist := ?_, count := ?_,
             overflow := ?_, bounded := ?_ }
    · rw [Fifo.toList_push, Fifo.toList_tail]
      exact (List.tail_sublist _).append_right _
    · show q.discarded + 1 + (q.messages.tail.push ⟨q.nextId, payload⟩).size = _
      omega
    · rw [if_pos (by omega)]
    · show (q.messages.tail.push ⟨q.nextId, payload⟩).size ≤ q.capacity
      omega
  | refuse hf hp =>
    refine { sequence := rfl, next := rfl, capacity := rfl, sublist := ?_, count := ?_,
             overflow := ?_, bounded := hb }
    · exact List.sublist_append_left _ _
    · show q.discarded + 1 + q.length = _
      omega
    · rw [if_pos (by omega)]

end Outbox

/-! ## How history and queue go together -/

/-- Every message that was given is in its place. -/
structure Delivered (config : Config) (q : Outbox) (h : List Mark) : Prop where
  /-- The messages are numbered in the order in which they were given. -/
  numbered : (receipts h).map (·.sequence) = positions (given h).length
  /-- The next position is the first that was not given. -/
  next : q.nextId.value = (given h).length + 1
  /-- Every position was handed over, waits, or was discarded, and only once. -/
  partition : (handovers h ++ q.ids ++ discards h).Perm (positions (given h).length)
  /-- What was discarded is counted. -/
  count : (discards h).length = q.discarded
  /-- What was handed over was handed over in order, and what waits comes after it, in order. -/
  order : (handovers h ++ q.ids).Pairwise (·.value < ·.value)
  /-- The payloads that the transport accepted are those that were handed over. -/
  taken : (taken h).map some = (handovers h).map (payloadOf h)
  /-- The payloads that wait are those that were given. -/
  waiting : ∀ m ∈ q.messages.toList, payloadOf h m.sequence = some m.payload
  /-- One message was discarded for each that was given while as many waited as fit, and none for
  any other. -/
  overflow : ∀ before payload receipt lost after,
    h = before ++ .queued payload receipt lost :: after →
      lost.length = if backlog before = max config.capacity 1 then 1 else 0
  /-- As many messages fit as the settings say. -/
  capacity : q.capacity = max config.capacity 1
  /-- No more messages wait than fit. -/
  bounded : q.length ≤ q.capacity

namespace Delivered

variable {config : Config} {q : Outbox} {h : List Mark}

theorem init (config : Config) : Delivered config (.empty config.capacity config.policy) [] where
  numbered := rfl
  next := rfl
  partition := .refl _
  count := rfl
  order := .nil
  taken := rfl
  waiting := nofun
  overflow := by simp
  capacity := rfl
  bounded := Nat.zero_le _

/-- As many messages wait as were neither handed over nor discarded. -/
theorem length_eq_backlog (hd : Delivered config q h) : q.length = backlog h := by
  have hlen := hd.partition.length_eq
  simp only [List.length_append, Outbox.length_ids, positions, List.length_map,
    List.length_range'] at hlen
  unfold backlog
  omega

/-- Positions that were handed over or wait are among those that were given. -/
theorem mem_positions (hd : Delivered config q h) {i : SequenceId}
    (hi : i ∈ handovers h ++ q.ids) : 1 ≤ i.value ∧ i.value ≤ (given h).length :=
  Tether.mem_positions.mp (hd.partition.subset (List.mem_append_left _ hi))

/-- Another payload changes nothing for the positions before it. -/
theorem payloadOf_append (hd : Delivered config q h) {i : SequenceId}
    (hi : i ∈ handovers h ++ q.ids) (ms : List Mark) :
    payloadOf (h ++ ms) i = payloadOf h i := by
  have hle := hd.mem_positions hi
  rw [payloadOf, payloadOf, given_append, List.getElem?_append_left (by omega)]

theorem nextId_eq (hd : Delivered config q h) : q.nextId = ⟨(given h).length + 1⟩ :=
  congrArg SequenceId.mk hd.next

/-- The next message comes after all that were given. -/
theorem order_next (hd : Delivered config q h) :
    (handovers h ++ (q.ids ++ [q.nextId])).Pairwise (·.value < ·.value) := by
  rw [← List.append_assoc]
  refine List.pairwise_append.mpr ⟨hd.order, List.pairwise_singleton _ _, ?_⟩
  intro i hi j hj
  rw [List.mem_singleton.mp hj, hd.nextId_eq]
  exact Nat.lt_succ_of_le (hd.mem_positions hi).2

/-- A message is queued. -/
theorem enqueue (hd : Delivered config q h) (payload : Payload) :
    Delivered config (q.enqueue payload).1 (h ++ [.queued payload (q.enqueue payload).2
      (Outbox.departed (q.ids ++ [(q.enqueue payload).2.sequence])
        (q.enqueue payload).1.ids)]) := by
  have hcap : 1 ≤ q.capacity := by
    rw [hd.capacity]
    omega
  have he := q.enqueue_spec payload hcap hd.bounded
  generalize (q.enqueue payload).1 = q', (q.enqueue payload).2 = receipt at he
  rw [he.sequence]
  have hnodup : (q.ids ++ [q.nextId]).Nodup :=
    nodup_of_increasing (List.pairwise_append.mp hd.order_next).2.1
  have hperm := Outbox.perm_departed hnodup he.ids_sublist
  have hlen := hperm.length_eq
  set lost := Outbox.departed (q.ids ++ [q.nextId]) q'.ids
  have hlost : q'.discarded = q.discarded + lost.length := by
    have hcount := he.count
    simp only [List.length_append, Outbox.length_ids, List.length_singleton] at hlen
    omega
  set ms : List Mark := [.queued payload receipt lost] with hms
  have hgiven : (given (h ++ ms)).length = (given h).length + 1 := by simp [hms, given]
  have hhand : handovers (h ++ ms) = handovers h := by simp [hms, handovers]
  have hdisc : discards (h ++ ms) = discards h ++ lost := by simp [hms, discards]
  have htaken : Tether.taken (h ++ ms) = Tether.taken h := by simp [hms, Tether.taken]
  refine { numbered := ?_, next := ?_, partition := ?_, count := ?_, order := ?_, taken := ?_,
           waiting := ?_, overflow := ?_, capacity := he.capacity.trans hd.capacity,
           bounded := he.bounded }
  · rw [hgiven, positions_succ, ← hd.numbered]
    simp [hms, receipts, he.sequence, hd.nextId_eq]
  · rw [hgiven, he.next]
    exact congrArg (· + 1) hd.next
  · rw [hgiven, positions_succ, hhand, hdisc, ← hd.nextId_eq]
    refine List.perm_iff_count.mpr fun i => ?_
    have h₁ := hperm.count_eq i
    have h₂ := hd.partition.count_eq i
    simp only [List.count_append] at h₁ h₂ ⊢
    omega
  · rw [hdisc, List.length_append, hd.count, hlost]
  · rw [hhand]
    exact hd.order_next.sublist (he.ids_sublist.append_left _)
  · rw [htaken, hhand, hd.taken]
    refine List.map_congr_left fun i hi => ?_
    exact (hd.payloadOf_append (List.mem_append_left _ hi) ms).symm
  · intro m hm
    rcases List.mem_append.mp (he.sublist.subset hm) with hm | hm
    · rw [hd.payloadOf_append (List.mem_append_right _ (List.mem_map_of_mem hm))]
      exact hd.waiting m hm
    · obtain rfl := List.mem_singleton.mp hm
      simp [payloadOf, hms, given, hd.nextId_eq]
  · intro before payload' receipt' lost' after hsplit
    rcases List.append_singleton_eq_append_cons hsplit with ⟨mid, hmid⟩ | ⟨rfl, hmark⟩
    · exact hd.overflow before payload' receipt' lost' mid hmid
    · obtain ⟨-, -, rfl⟩ := Mark.queued.inj hmark
      rw [← hd.length_eq_backlog, ← hd.capacity]
      exact Nat.add_left_cancel (hlost.symm.trans he.overflow)

/-- The first messages of the queue are accepted and leave it. -/
theorem handOver (hd : Delivered config q h) {sent : List Message} {rest : Fifo Message}
    (hq : q.messages.toList = sent ++ rest.toList) {ms : List Mark}
    (hm : Outgoing ms (sent.map (·.payload)) (sent.map (·.sequence))) :
    Delivered config { q with messages := rest } (h ++ ms) := by
  have hids : q.ids = sent.map (·.sequence) ++ { q with messages := rest }.ids := by
    simp [Outbox.ids, hq]
  have hgiven : given (h ++ ms) = given h := by rw [given_append, hm.given, List.append_nil]
  have hdisc : discards (h ++ ms) = discards h := by
    rw [discards_append, hm.discards, List.append_nil]
  have hhand : handovers (h ++ ms) = handovers h ++ sent.map (·.sequence) := by
    rw [handovers_append, hm.handovers]
  have hpay : payloadOf (h ++ ms) = payloadOf h := by
    funext i
    rw [payloadOf, payloadOf, hgiven]
  refine { numbered := ?_, next := ?_, partition := ?_, count := ?_, order := ?_, taken := ?_,
           waiting := ?_, overflow := ?_, capacity := hd.capacity, bounded := ?_ }
  · rw [receipts_append, hm.receipts, List.append_nil, hgiven]
    exact hd.numbered
  · rw [hgiven]
    exact hd.next
  · rw [hgiven, hdisc, hhand, List.append_assoc (handovers h), ← hids]
    exact hd.partition
  · rw [hdisc]
    exact hd.count
  · rw [hhand, List.append_assoc, ← hids]
    exact hd.order
  · rw [taken_append, hm.taken, List.map_append, hd.taken, hhand, hpay, List.map_append]
    congr 1
    rw [List.map_map, List.map_map]
    refine List.map_congr_left fun m hmem => (hd.waiting m ?_).symm
    rw [hq]
    exact List.mem_append_left _ hmem
  · intro m hmem
    rw [hpay]
    refine hd.waiting m ?_
    rw [hq]
    exact List.mem_append_right _ hmem
  · intro before payload receipt lost after hsplit
    rcases List.append_eq_append_cons hsplit with ⟨mid, hmid, -⟩ | ⟨mid, -, hmid⟩
    · exact hd.overflow before payload receipt lost mid hmid
    · -- No message was given meanwhile.
      have hnone := hm.given
      simp [hmid, given] at hnone
  · have hlen := hd.bounded
    rw [← Outbox.length_ids, hids, List.length_append, Outbox.length_ids] at hlen
    exact Nat.le_trans (Nat.le_add_left _ _) hlen

/-- Nothing is accepted. -/
theorem aside (hd : Delivered config q h) {ms : List Mark} (hm : ∀ m ∈ ms, m.isAside = true) :
    Delivered config q (h ++ ms) :=
  hd.handOver (List.nil_append _).symm (.of_isAside hm)

theorem snoc (hd : Delivered config q h) {m : Mark} (hm : m.isAside = true) :
    Delivered config q (h ++ [m]) :=
  hd.aside (List.forall_mem_singleton.mpr hm)

end Delivered

namespace System

variable {τ : Type} [Transport τ] {config : Config} {s t : System τ}

/-- Every message is in its place. -/
def Delivers (config : Config) (s : System τ) : Prop :=
  Delivered config s.connection.outbox s.history

/-- An attempt touches no message. -/
theorem Delivers.openLink {c : Connection (Recorded τ)}
    (h : Delivered config c.outbox c.transport.history) : Delivers config (s.put c.openLink) := by
  cases he : c.endpoint with
  | none =>
    rw [c.openLink_of_none he]
    exact h
  | some endpoint =>
    obtain ⟨base, signals, log, hc, -⟩ := c.openLink_eq he
    rw [hc]
    exact h.snoc rfl

omit [Transport τ] in
/-- What was accepted has left the queue, and the timer does not matter. -/
theorem Delivers.conclude (h : Delivers config s) {c : Connection (Recorded τ)}
    {events : List Event} {sent : List Message} {rest : Fifo Message} {ms : List Mark}
    (hh : c.transport.history = s.history ++ ms)
    (ho : c.outbox = { s.connection.outbox with messages := rest })
    (hq : s.connection.outbox.messages.toList = sent ++ rest.toList)
    (hm : Outgoing ms (sent.map (·.payload)) []) : Delivers config (s.conclude (c, events)) := by
  have hids : s.connection.outbox.ids = sent.map (·.sequence) ++ c.outbox.ids := by
    simp [Outbox.ids, hq, ho]
  have hnodup : (sent.map (·.sequence) ++ c.outbox.ids).Nodup := by
    rw [← hids]
    exact nodup_of_increasing (List.pairwise_append.mp h.order).2.1
  have htimer : Outgoing (Connection.timerMarks s.connection.timer c.timer) [] [] := by
    refine .of_isAside fun m hmem => ?_
    obtain ⟨g, rfl | rfl⟩ := Connection.eq_of_mem_timerMarks hmem <;> rfl
  have hleft : Outgoing (Connection.queueMarks s.connection.outbox.ids c.outbox.ids) []
      (sent.map (·.sequence)) := by
    have hqm := Outgoing.queueMarks s.connection.outbox.ids c.outbox.ids
    rwa [hids, Outbox.departed_append hnodup, ← hids] at hqm
  show Delivered config c.outbox (c.transport.history ++ s.connection.aftermath c)
  rw [hh, ho, List.append_assoc]
  refine h.handOver hq ?_
  simpa only [Connection.aftermath, List.append_nil, List.nil_append] using
    hm.append (htimer.append hleft)

theorem Delivers.flush (h : Delivers config s) : Delivers config s.flush := by
  have hf := s.connection.flush_spec
  unfold System.flush
  generalize s.connection.flush.1 = c, s.connection.flush.2 = events at hf
  cases hf with
  | drained base sent log hq hl =>
    exact h.conclude rfl rfl (hq.trans (List.append_nil _).symm) (.acceptances sent)
  | halted base sent m rest error log hq he hl =>
    refine h.conclude rfl rfl (hq.trans (by rw [Fifo.toList_ofList])) ?_
    have hr : Outgoing [.sent m.payload (some error)] [] [] := .of_isAside (by simp [Mark.isAside])
    simpa only [List.append_nil] using (Outgoing.acceptances sent).append hr
  | lost base sent m rest error signals due log hq he hl =>
    refine h.conclude rfl rfl (hq.trans (by rw [Fifo.toList_ofList])) ?_
    have hr : Outgoing [.sent m.payload (some error), .closed] [] [] :=
      .of_isAside (by simp [Mark.isAside])
    simpa only [List.append_nil] using (Outgoing.acceptances sent).append hr

theorem Delivers.move (h : Delivers config s) (hm : Move s t) : Delivers config t := by
  cases hm with
  | note n hn => exact h
  | hear signal =>
    obtain ⟨signals, hc⟩ := s.connection.hear_eq signal
    rw [hc]
    exact h
  | wait millis => exact h
  | grant endpoint hh hs => exact Delivers.openLink (h.snoc rfl)
  | stop =>
    have hst := s.connection.stop_spec
    unfold System.stop
    generalize s.connection.stop = c at hst
    cases hst with
    | already => exact h.snoc rfl
    | unlinked => exact h.snoc rfl
    | linked => exact (h.snoc rfl).snoc rfl
  | letGo hs =>
    rw [Connection.assign_eq]
    exact h
  | send payload =>
    obtain ⟨errands, log, hsend, -, -⟩ := s.send_eq payload
    rw [hsend]
    exact h.enqueue payload
  | fire t ht he =>
    rw [Connection.assign_eq]
    exact h.snoc rfl
  | straggle generation hg =>
    rw [Connection.assign_eq]
    exact h.snoc rfl
  | publish event rest hb => exact h.snoc rfl
  | announce event rest he => exact h
  | check rest he => exact h
  | stale generation rest he hs => exact h.snoc rfl
  | retry rest he hs => exact Delivers.openLink (h.snoc rfl)
  | cease rest he =>
    obtain ⟨log, hd, -⟩ := Connection.disarm_eq { s.connection with errands := rest }
    unfold Connection.shut
    rw [hd]
    exact h
  | ignore signal rest he hp hi => exact h.snoc rfl
  | deliver payload rest he hp hs => exact h.snoc rfl
  | confirm rest he hp hs => exact h.snoc rfl
  | lose report code reason rest he hp hr hs =>
    obtain ⟨due, log, hlose, -⟩ := (s.connection.hearing
      ⟨s.connection.generation, report⟩ rest).loseLink_eq code reason
    rw [hlose]
    exact h.conclude rfl rfl (List.nil_append _).symm
      (.of_isAside (List.forall_mem_singleton.mpr rfl))
  | flush hs => exact h.flush

theorem delivers_run (config : Config) (transport : τ) (acts : List Act) :
    Delivers config ((System.init config transport).run acts) :=
  run_induction (P := Delivers config) (Delivered.init config) (fun _ _ => Delivers.move) acts

end System

/-- No message is lost, doubled, altered or moved. The messages that were given are numbered from
one on, each with its receipt. Each of the numbers is handed over to the transport, or waits in the
queue, or was discarded, and only one of these, once; discarded messages are counted. Over the
whole run messages are handed over in the order of their numbers, and those that wait come after
them, in that order too. The payloads that the transport accepted are those that were given for the
numbers handed over, one by one; the payloads that wait are those that were given. The queue is
never longer than the settings allow. And nothing is discarded but at a full queue: a message that
is given while as many wait as fit is the end of one message, and any other is the end of none. -/
theorem messages_delivered_in_order {τ : Type} [Transport τ] (config : Config) (transport : τ)
    (acts : List Act) :
    let s := (System.init config transport).run acts
    let h := s.history
    let q := s.connection.outbox
    (receipts h).map (·.sequence) = positions (given h).length ∧
    (handovers h ++ q.ids ++ discards h).Perm (positions (given h).length) ∧
    (discards h).length = q.discarded ∧
    (handovers h).Pairwise (·.value < ·.value) ∧
    q.ids.Pairwise (·.value < ·.value) ∧
    (∀ i ∈ handovers h, ∀ j ∈ q.ids, i.value < j.value) ∧
    (taken h).map some = (handovers h).map (payloadOf h) ∧
    (∀ m ∈ q.messages.toList, payloadOf h m.sequence = some m.payload) ∧
    q.length ≤ max config.capacity 1 ∧
    (config.validate = .ok () → q.length ≤ config.capacity) ∧
    q.length = backlog h ∧
    (∀ before payload receipt lost after, h = before ++ .queued payload receipt lost :: after →
      lost.length = if backlog before = max config.capacity 1 then 1 else 0) := by
  have hd := System.delivers_run config transport acts
  intro s h q
  obtain ⟨hhand, hids, hcross⟩ := List.pairwise_append.mp hd.order
  have hlen : q.length ≤ max config.capacity 1 := hd.capacity ▸ hd.bounded
  refine ⟨hd.numbered, hd.partition, hd.count, hhand, hids, hcross, hd.taken, hd.waiting, hlen, ?_,
    hd.length_eq_backlog, hd.overflow⟩
  intro hv
  have hcap := Config.one_le_capacity hv
  omega

end Tether
