import Tether.Proofs.Overflow
import Tether.Transport.Mock

/-!
# Letting go of a connection

Who lets go of a connection stops it and makes the end of the loop its last errand. The errands
before that one are still done. In a closed connection none of them can do harm: a look at the queue
reports what was discarded and hands nothing over, a timer is out of date, and events are announced
as ever. Signals have to wait until there is no errand, and by then the loop is over.

`System.Winding` says how the system stands meanwhile, and `System.Winding.step` what an act can
still do. With every turn and every publication less is left to do, whatever else happens between
them, so the loop ends as soon as it is given turns enough.
-/

namespace Tether

variable {τ : Type}

/-- What an act makes the loop take. -/
def System.takes (s : System τ) : Act → List Item
  | .turn => if s.batch.isEmpty then (s.connection.take?.map (·.1)).toList else []
  | _ => []

/-! ## A system and its bus -/

/-- A system and the bus on which its events are published. -/
structure Broadcast (τ : Type) where
  system : System τ
  bus : Bus := {}

/-- What can happen to a system and its bus. -/
inductive Deed where
  /-- Something happens to the system. -/
  | on (act : Act)
  /-- The owner, or a handler, changes the subscribers. -/
  | subscribe
  | unsubscribe (id : SubscriberId)
  | clear

namespace Broadcast

/-- A new system, and nobody hears it. -/
def init (config : Config) (transport : τ) : Broadcast τ := { system := .init config transport }

/-- Does something with the bus, which can be reached through the owner only. -/
def onBus (b : Broadcast τ) (f : Bus → Bus) : Broadcast τ :=
  if b.system.held then { b with bus := f b.bus } else b

/-- What a deed makes the loop take. -/
def takes (b : Broadcast τ) : Deed → List Item
  | .on act => b.system.takes act
  | .subscribe | .unsubscribe _ | .clear => []

theorem system_onBus (b : Broadcast τ) (f : Bus → Bus) : (b.onBus f).system = b.system := by
  unfold onBus
  split <;> rfl

variable [Transport τ]

/-- What a deed does. -/
def step (b : Broadcast τ) : Deed → Broadcast τ
  | .on act =>
    let system := b.system.step act
    let bus := if b.system.connection.serving then system.connection.busAfter b.bus else b.bus
    { system, bus }
  | .subscribe => b.onBus fun bus => bus.subscribe.1
  | .unsubscribe id => b.onBus fun bus => (bus.unsubscribe id).1
  | .clear => b.onBus Bus.clear

/-- What a sequence of deeds does. -/
def run (b : Broadcast τ) (deeds : List Deed) : Broadcast τ := deeds.foldl step b

/-- All that the loop takes in a sequence of deeds. -/
def taken (b : Broadcast τ) : List Deed → List Item
  | [] => []
  | deed :: deeds => b.takes deed ++ (b.step deed).taken deeds

theorem run_append (b : Broadcast τ) (deeds more : List Deed) :
    b.run (deeds ++ more) = (b.run deeds).run more :=
  List.foldl_append

theorem taken_append (b : Broadcast τ) (deeds more : List Deed) :
    b.taken (deeds ++ more) = b.taken deeds ++ (b.run deeds).taken more := by
  induction deeds generalizing b with
  | nil => rfl
  | cons deed deeds ih =>
    show b.takes deed ++ (b.step deed).taken (deeds ++ more) = _
    rw [ih, ← List.append_assoc]
    rfl

/-- The system does not see who hears it. -/
theorem exists_system_run (b : Broadcast τ) (deeds : List Deed) :
    ∃ acts, (b.run deeds).system = b.system.run acts := by
  induction deeds generalizing b with
  | nil => exact ⟨[], rfl⟩
  | cons deed deeds ih =>
    obtain ⟨acts, h⟩ := ih (b.step deed)
    cases deed with
    | on act => exact ⟨act :: acts, h⟩
    | subscribe | unsubscribe | clear => exact ⟨acts, h.trans (by rw [step, system_onBus])⟩

end Broadcast

/-! ## What is left to be done -/

/-- Whether something was asked of the transport. -/
def Mark.isCall : Mark → Bool
  | opened .. | sent .. | closed => true
  | _ => false

/-- What was asked of the transport. -/
def calls (h : List Mark) : List Mark := h.filter Mark.isCall

theorem calls_append (a b : List Mark) : calls (a ++ b) = calls a ++ calls b :=
  List.filter_append ..

/-- What is told to subscribers when a closed connection does an errand. -/
def Errand.news (unreported : Nat) : Errand → List Event
  | .checkQueue => if unreported = 0 then [] else [.overflow unreported]
  | .announce event => [event]
  | .retry _ | .cease => []

/-- Only a look at the queue has to do with how much is to be reported. -/
theorem flatMap_news {errands : List Errand} (h : .checkQueue ∉ errands) (m n : Nat) :
    errands.flatMap (·.news m) = errands.flatMap (·.news n) := by
  refine List.flatMap_congr fun e he => ?_
  cases e with
  | checkQueue => exact absurd he h
  | announce | retry | cease => rfl

namespace System

/-- What is announced when a connection is stopped. -/
def parting (s : System τ) : List Event :=
  if s.connection.state = .closed then [] else [.stopped]

/-- What is to be done once the owner lets go. -/
def agenda (s : System τ) : List Errand :=
  s.connection.errands ++ s.parting.map .announce ++ [.cease]

/-- A system that its owner has let go of and that has these errands to do before its loop ends. -/
structure Winding (todo : List Errand) (s : System τ) : Prop where
  held : s.held = false
  state : s.connection.state = .closed
  timer : s.connection.timer = none
  serving : s.connection.serving = !todo.isEmpty
  /-- Errands that came later stand behind. -/
  errands : todo <+: s.connection.errands
  /-- The end of the loop comes last. -/
  last : todo = [] ∨ ∃ before, todo = before ++ [.cease] ∧ .cease ∉ before
  /-- There is one look at the queue at most. -/
  once : todo.count .checkQueue ≤ 1

/-- The events that are still to be published. -/
def owes (s : System τ) (todo : List Errand) : List Event :=
  s.batch ++ todo.flatMap (·.news s.connection.unreported)

theorem owes_agenda (s : System τ) : s.owes s.agenda =
    s.batch ++ s.connection.errands.flatMap (·.news s.connection.unreported) ++ s.parting := by
  have hparting : (s.parting.map Errand.announce).flatMap (·.news s.connection.unreported) =
      s.parting := by
    rw [List.flatMap_map]
    exact List.flatMap_singleton' s.parting
  unfold owes agenda
  rw [List.flatMap_append, List.flatMap_append, hparting]
  simp [Errand.news]

/-- How many turns and publications the loop needs at most. -/
def effort (s : System τ) (todo : List Errand) : Nat := s.batch.length + 2 * todo.length

/-- How a system gets on that had `todo` to do and has `rest` left, after the loop took `items`. -/
structure Onward (s t : System τ) (items : List Item) (todo rest : List Errand) : Prop where
  taken : items ++ rest.map .errand = todo.map .errand
  told : publications t.history ++ t.owes rest = publications s.history ++ s.owes todo
  calls : calls t.history = calls s.history
  /-- Either nothing was done, or there is less to do. -/
  effort : t.batch = s.batch ∧ rest = todo ∨ t.effort rest < s.effort todo

variable {s t : System τ} {items : List Item} {todo rest : List Errand} {e : Errand}

theorem Onward.refl (s : System τ) (todo : List Errand) : Onward s s [] todo todo :=
  ⟨rfl, rfl, rfl, Or.inl ⟨rfl, rfl⟩⟩

theorem Onward.le (h : Onward s t items todo rest) : t.effort rest ≤ s.effort todo := by
  rcases h.effort with ⟨hb, rfl⟩ | hlt
  · have heq : t.effort rest = s.effort rest := by
      unfold System.effort
      rw [hb]
    omega
  · omega

theorem Onward.trans {u : System τ} {more : List Item} {final : List Errand}
    (h : Onward s t items todo rest) (h' : Onward t u more rest final) :
    Onward s u (items ++ more) todo final := by
  refine ⟨?_, h'.told.trans h.told, h'.calls.trans h.calls, ?_⟩
  · rw [List.append_assoc, h'.taken, h.taken]
  · have hle := h.le
    have hle' := h'.le
    rcases h'.effort with ⟨hb, rfl⟩ | hlt
    · rcases h.effort with ⟨hb', rfl⟩ | hlt
      · exact Or.inl ⟨hb.trans hb', rfl⟩
      · exact Or.inr (by omega)
    · exact Or.inr (by omega)

/-! ## What an act can still do -/

/-- What comes in from outside has to wait behind what is left to do. -/
theorem Winding.aside (h : Winding todo s) (ms : List Mark) {errands : List Errand}
    (signals : Fifo Signal) (clock : Nat) (log : List Note)
    (he : s.connection.errands <+: errands)
    (hcalls : Tether.calls ms = []) (hpubs : publications ms = []) :
    Winding todo (s.put { s.connection.marks ms with errands, signals, clock, log }) ∧
    Onward s (s.put { s.connection.marks ms with errands, signals, clock, log }) [] todo todo := by
  refine ⟨{ h with errands := h.errands.trans he }, rfl, ?_, ?_, Or.inl ⟨rfl, rfl⟩⟩
  · show publications (s.history ++ ms) ++ s.owes todo = publications s.history ++ s.owes todo
    rw [publications_append, hpubs, List.append_nil]
  · show Tether.calls (s.history ++ ms) = Tether.calls s.history
    rw [calls_append, hcalls, List.append_nil]

theorem batch_publish (s : System τ) : s.publish.batch = s.batch.tail := by
  unfold System.publish
  split
  · next hb => rw [hb]; rfl
  · next event batch hb => rw [hb]; rfl

theorem Winding.publish (h : Winding todo s) :
    Winding todo s.publish ∧ Onward s s.publish [] todo todo := by
  unfold System.publish
  split
  · exact ⟨h, .refl s todo⟩
  · next event batch hb =>
    refine ⟨{ h with }, rfl, ?_, ?_, Or.inr ?_⟩
    · show publications (s.history ++ [.published event]) ++ (batch ++ _) =
        publications s.history ++ (s.batch ++ _)
      rw [publications_append, hb, List.append_assoc]
      rfl
    · show Tether.calls (s.history ++ [.published event]) = Tether.calls s.history
      rw [calls_append]
      exact List.append_nil _
    · show batch.length + 2 * todo.length < s.batch.length + 2 * todo.length
      rw [hb, List.length_cons]
      omega

/-- The errands are done one after the other, and the last of them ends the loop. -/
theorem Winding.first (h : Winding (e :: rest) s) :
    e = .cease ∧ rest = [] ∨
    e ≠ .cease ∧ ∃ before, rest = before ++ [.cease] ∧ .cease ∉ before := by
  rcases h.last with hnil | ⟨before, heq, hnot⟩
  · cases hnil
  · cases before with
    | nil =>
      left
      simpa using heq
    | cons e' before =>
      right
      obtain ⟨rfl, rfl⟩ := List.cons.inj heq
      simp only [List.mem_cons, not_or] at hnot
      exact ⟨Ne.symm hnot.1, before, rfl, hnot.2⟩

/-- An errand other than the last is taken; it leaves the connection closed and the loop going. -/
theorem Winding.take (h : Winding (e :: rest) s) (hne : e ≠ .cease) {late : List Errand}
    (transport : Recorded τ) (unreported : Nat) (checkDue : Bool) (log : List Note)
    (batch : List Event) :
    Winding rest { s.put { s.connection with
      errands := rest ++ late, transport, unreported, checkDue, log } with batch } := by
  obtain ⟨heq, -⟩ | ⟨-, hlast⟩ := h.first
  · exact absurd heq hne
  · have hrest : rest.isEmpty = false := by
      obtain ⟨before, rfl, -⟩ := hlast
      simp
    have honce := h.once
    rw [List.count_cons] at honce
    refine { h with serving := ?_, errands := List.prefix_append .., last := Or.inr hlast,
                    once := by omega }
    show s.connection.serving = !rest.isEmpty
    rw [h.serving, hrest]
    rfl

/-- After a look at the queue there is none left among the errands. -/
theorem Winding.checked (h : Winding (.checkQueue :: rest) s) : .checkQueue ∉ rest := by
  have honce := h.once
  rw [List.count_cons_self] at honce
  exact List.count_eq_zero.mp (by omega)

/-- An errand is done: its news becomes the batch. -/
theorem Onward.done {ms : List Mark} (hb : s.batch = []) (hh : t.history = s.history ++ ms)
    (hcalls : Tether.calls ms = []) (hpubs : publications ms = [])
    (hnews : t.batch = e.news s.connection.unreported)
    (hrest : rest.flatMap (·.news t.connection.unreported) =
      rest.flatMap (·.news s.connection.unreported)) :
    Onward s t [.errand e] (e :: rest) rest := by
  have hlen : (e.news s.connection.unreported).length ≤ 1 := by
    cases e with
    | checkQueue =>
      show (if s.connection.unreported = 0 then [] else [_]).length ≤ 1
      split <;> simp
    | announce | retry | cease => simp [Errand.news]
  refine ⟨rfl, ?_, ?_, Or.inr ?_⟩
  · unfold owes
    rw [hh, publications_append, hpubs, hnews, hrest, hb]
    simp
  · rw [hh, calls_append, hcalls, List.append_nil]
  · unfold System.effort
    rw [hnews, hb, List.length_cons, List.length_nil]
    omega

theorem Winding.takes_turn (h : Winding (e :: rest) s) (hb : s.batch = []) :
    s.takes .turn = [.errand e] := by
  obtain ⟨late, he⟩ := h.errands
  simp [takes, hb, s.connection.take?_errand h.serving he.symm]

variable [Transport τ]

/-- A closed connection does nothing about an errand but give the news. -/
theorem turn_of_closed {late : List Errand} (hs : s.connection.state = .closed)
    (hv : s.connection.serving = true) (he : s.connection.errands = e :: late) (hne : e ≠ .cease) :
    ∃ ms unreported checkDue log,
      s.turn = { s.put { s.connection.marks ms with
        errands := late, unreported, checkDue, log } with
        batch := e.news s.connection.unreported } ∧
      Tether.calls ms = [] ∧ publications ms = [] ∧
      (e ≠ .checkQueue → unreported = s.connection.unreported) := by
  rw [turn_of_errand hv he]
  cases e with
  | checkQueue =>
    refine ⟨[], 0, false, s.connection.log, ?_, rfl, rfl, fun h => absurd rfl h⟩
    have hopen : s.connection.state ≠ .opened := by simp [hs]
    show s.conclude (Connection.onCheck { s.connection with errands := late }) = _
    rw [Connection.onCheck_of_ne { s.connection with errands := late } hopen, conclude_eq_put,
      Connection.marks_nil]
    · rfl
    · exact Or.inl rfl
    · rfl
  | retry g =>
    refine ⟨[.retrying g], s.connection.unreported, s.connection.checkDue,
      .staleTimer g s.connection.state :: s.connection.log, ?_, rfl, rfl, fun _ => rfl⟩
    have hstale : ¬((s.connection.retrying g late).state = .reconnecting ∧
        (s.connection.retrying g late).generation = g) := by
      intro h
      cases hs.symm.trans h.1
    show s.conclude ((s.connection.retrying g late).onRetry g, []) = _
    rw [Connection.onRetry_of_stale _ hstale, conclude_eq_put]
    · rfl
    · exact Or.inl rfl
    · rfl
  | announce event =>
    refine ⟨[], s.connection.unreported, s.connection.checkDue, s.connection.log, ?_, rfl, rfl,
      fun _ => rfl⟩
    show s.conclude ({ s.connection with errands := late }, [event]) = _
    rw [conclude_eq_put, Connection.marks_nil]
    · rfl
    · exact Or.inl rfl
    · rfl
  | cease => exact absurd rfl hne

/-- The last errand ends the loop. -/
theorem turn_of_cease {late : List Errand} (hv : s.connection.serving = true)
    (hb : s.batch = []) (he : s.connection.errands = .cease :: late) :
    ∃ log, s.turn = s.put { s.connection with
      timer := none, serving := false, errands := [], signals := .empty, log } := by
  rw [turn_of_errand hv he]
  obtain ⟨log, hd, -⟩ := Connection.disarm_eq { s.connection with errands := late }
  refine ⟨.loopEnded :: log, ?_⟩
  show s.conclude (Connection.shut { s.connection with errands := late }, []) = _
  unfold Connection.shut
  rw [hd]
  exact conclude_nil hb (Or.inr rfl) rfl

theorem Winding.turn (h : Winding todo s) (hb : s.batch = []) :
    ∃ rest, Winding rest s.turn ∧ Onward s s.turn (s.takes .turn) todo rest := by
  cases todo with
  | nil =>
    have hv : s.connection.serving = false := h.serving
    have htakes : s.takes .turn = [] := by simp [takes, s.connection.take?_rest (Or.inl hv)]
    rw [turn_of_rest (Or.inl hv), htakes]
    exact ⟨[], h, .refl s []⟩
  | cons e rest =>
    have hv : s.connection.serving = true := h.serving
    obtain ⟨late, he⟩ := h.errands
    replace he : s.connection.errands = e :: (rest ++ late) := he.symm
    rw [h.takes_turn hb]
    refine ⟨rest, ?_⟩
    obtain ⟨rfl, rfl⟩ | ⟨hne, -⟩ := h.first
    · obtain ⟨log, ht⟩ := turn_of_cease hv hb he
      rw [ht]
      exact ⟨⟨h.held, h.state, rfl, rfl, List.nil_prefix, Or.inl rfl, Nat.zero_le _⟩,
        .done hb (List.append_nil _).symm rfl rfl hb rfl⟩
    · obtain ⟨ms, unreported, checkDue, log, ht, hcalls, hpubs, hsame⟩ :=
        turn_of_closed h.state hv he hne
      rw [ht]
      refine ⟨h.take hne _ unreported checkDue log _, .done hb rfl hcalls hpubs rfl ?_⟩
      by_cases hcheck : e = .checkQueue
      · subst hcheck
        exact flatMap_news h.checked _ _
      · show rest.flatMap (·.news unreported) = _
        rw [hsame hcheck]

omit [Transport τ] in
/-- Without a timer, time goes on and does nothing else. -/
theorem advance_of_no_timer (ht : s.connection.timer = none) (millis : Nat) :
    s.become (s.connection.advance millis) =
      s.put { s.connection with clock := s.connection.clock + millis } := by
  have hadvance : s.connection.advance millis =
      { s.connection with clock := s.connection.clock + millis } := by
    simp [Connection.advance, ht]
  rw [hadvance]
  exact become_eq_put (Or.inl rfl) rfl

omit [Transport τ] in
theorem elapse_of_no_timer (ht : s.connection.timer = none) :
    s.become s.connection.elapse = s := by
  obtain h | ⟨t, hsome, -⟩ := s.elapse_cases
  · exact h
  · cases ht.symm.trans hsome

/-- Whatever happens, the errands that are left are done in order, and nothing else is. -/
theorem Winding.step (h : Winding todo s) (act : Act) :
    ∃ rest, Winding rest (s.step act) ∧ Onward s (s.step act) (s.takes act) todo rest := by
  have hsame : Winding todo s ∧ Onward s s [] todo todo := ⟨h, .refl s todo⟩
  have hheld : (s.held = true) = False := by simp [h.held]
  cases act with
  | start | stop | send | release =>
    refine ⟨todo, ?_⟩
    unfold System.step
    simp only [hheld, if_false]
    exact hsame
  | hear signal =>
    obtain ⟨signals, hc⟩ := s.connection.hear_eq signal
    have ha := h.aside [] signals s.connection.clock (.reported signal :: s.connection.log)
      (List.prefix_refl _) rfl rfl
    rw [Connection.marks_nil, ← hc] at ha
    exact ⟨todo, ha⟩
  | advance millis =>
    have ha := h.aside [] s.connection.signals (s.connection.clock + millis) s.connection.log
      (List.prefix_refl _) rfl rfl
    rw [Connection.marks_nil] at ha
    refine ⟨todo, ?_⟩
    show Winding todo (s.become (s.connection.advance millis)) ∧
      Onward s (s.become (s.connection.advance millis)) [] todo todo
    rw [advance_of_no_timer h.timer]
    exact ha
  | elapse =>
    refine ⟨todo, ?_⟩
    show Winding todo (s.become s.connection.elapse) ∧
      Onward s (s.become s.connection.elapse) [] todo todo
    rw [elapse_of_no_timer h.timer]
    exact hsame
  | straggle generation =>
    refine ⟨todo, ?_⟩
    show Winding todo (s.straggle generation) ∧ Onward s (s.straggle generation) [] todo todo
    unfold System.straggle
    split
    · rw [Connection.assign_eq]
      refine h.aside [.fired generation] s.connection.signals s.connection.clock s.connection.log
        ?_ rfl rfl
      split
      · exact List.prefix_append ..
      · exact List.prefix_refl _
    · exact hsame
  | turn =>
    by_cases hb : s.batch = []
    · have hstep : s.step .turn = s.turn := by simp [System.step, hb]
      rw [hstep]
      exact h.turn hb
    · have hstep : s.step .turn = s := by simp [System.step, hb]
      have htakes : s.takes .turn = [] := by simp [takes, hb]
      rw [hstep, htakes]
      exact ⟨todo, hsame⟩
  | publish => exact ⟨todo, h.publish⟩

/-! ## Letting go -/

/-- A stop closes the link, if there is one, and announces itself, unless there was one before. -/
theorem stop_effects (ho : Orderly s) (hv : s.connection.serving = true) :
    let c := s.connection.stop
    c.state = .closed ∧ c.timer = none ∧ c.serving = true ∧
    c.unreported = s.connection.unreported ∧
    c.errands = s.connection.errands ++ s.parting.map .announce ∧
    publications c.transport.history = publications s.history ∧
    Tether.calls c.transport.history =
      Tether.calls s.history ++ if s.connection.live then [.closed] else [] := by
  have hst := s.connection.stop_spec
  unfold parting
  generalize s.connection.stop = c at hst
  cases hst with
  | already hs =>
    have hlive : s.connection.live = false := by rw [ho.live, hs]; rfl
    have htimer : s.connection.timer = none := ho.timer_eq_none (by simp [hs])
    simp [hs, hv, hlive, htimer, history]
  | unlinked log hs hl => simp [hs, hv, hl, history]
  | linked base signals log hs hl =>
    refine ⟨rfl, rfl, hv, rfl, by simp [hs, hv], ?_, ?_⟩
    · show publications (s.history ++ [.closed]) = publications s.history
      rw [publications_append]
      exact List.append_nil _
    · show Tether.calls (s.history ++ [.closed]) = _
      rw [calls_append, hl]
      rfl

omit [Transport τ] in
theorem cease_last (ho : Orderly s) (hh : s.held = true) :
    .cease ∉ s.connection.errands ++ s.parting.map .announce := by
  intro hm
  rcases List.mem_append.mp hm with hm | hm
  · simp [ho.ceasing hm] at hh
  · simp at hm

omit [Transport τ] in
theorem count_agenda (hk : s.ledger.Kept) : s.agenda.count .checkQueue ≤ 1 := by
  have hnone : (s.parting.map Errand.announce ++ [Errand.cease]).count .checkQueue = 0 := by
    rw [List.count_eq_zero]
    simp
  have hfilter : s.ledger.errands.count .checkQueue = s.connection.errands.count .checkQueue :=
    List.count_filter rfl
  have hcount := hk.counted
  unfold agenda
  rw [List.append_assoc, List.count_append, hnone, ← hfilter, hcount]
  split <;> omega

/-- Who lets go of a connection leaves its errands, the notice of the stop and the end of the loop
to be done, in this order. -/
theorem release_effects (ho : Orderly s) (hk : s.ledger.Kept) (hh : s.held = true) :
    Winding s.agenda s.release ∧ s.release.effort s.agenda = s.effort s.agenda ∧
    s.release.owes s.agenda = s.owes s.agenda ∧
    publications s.release.history = publications s.history ∧
    Tether.calls s.release.history =
      Tether.calls s.history ++ if s.connection.live then [.closed] else [] := by
  have hserving : s.connection.serving = true := hk.serving hh
  obtain ⟨hs, ht, hv, hu, he, hp, hc⟩ := stop_effects ho hserving
  have hrelease : s.release = { s.put { s.connection.stop.marks [.stopped] with
      errands := s.agenda } with held := false } := by
    unfold System.release Connection.release
    rw [Connection.assign_eq, if_pos hv, he]
    rfl
  rw [hrelease]
  refine ⟨?_, rfl, ?_, ?_, ?_⟩
  · refine ⟨rfl, hs, ht, ?_, List.prefix_refl _, Or.inr ⟨_, rfl, cease_last ho hh⟩, count_agenda hk⟩
    show s.connection.stop.serving = !s.agenda.isEmpty
    simp [hv, agenda]
  · show s.batch ++ s.agenda.flatMap (·.news s.connection.stop.unreported) = _
    rw [hu]
    rfl
  · show publications (s.connection.stop.transport.history ++ [.stopped]) = _
    rw [publications_append, hp]
    exact List.append_nil _
  · show Tether.calls (s.connection.stop.transport.history ++ [.stopped]) = _
    rw [calls_append, hc]
    exact List.append_nil _

end System

namespace Broadcast

/-- A system that is winding up, and nobody is left on its bus once it has done so. -/
structure Closing (todo : List Errand) (b : Broadcast τ) : Prop where
  winding : b.system.Winding todo
  deserted : todo = [] → b.bus.subscribers = []

/-- What the loop does next: it publishes what there is to publish, and then takes a turn. -/
def due (b : Broadcast τ) : Deed := if b.system.batch.isEmpty then .on .turn else .on .publish

variable [Transport τ] {b : Broadcast τ} {todo rest : List Errand}

theorem Closing.step (h : Closing todo b) (deed : Deed) :
    ∃ rest, Closing rest (b.step deed) ∧
      b.system.Onward (b.step deed).system (b.takes deed) todo rest := by
  have hbus : ∀ f, b.onBus f = b := by
    intro f
    simp [onBus, h.winding.held]
  cases deed with
  | on act =>
    obtain ⟨rest, hw, hon⟩ := h.winding.step act
    refine ⟨rest, ⟨hw, ?_⟩, hon⟩
    rintro rfl
    have hover : (b.system.step act).connection.serving = false := hw.serving
    show (if b.system.connection.serving then (b.system.step act).connection.busAfter b.bus
      else b.bus).subscribers = []
    split
    · simp [Connection.busAfter, hover, Bus.clear]
    · next hv =>
      have htodo : todo = [] := by simpa [h.winding.serving] using hv
      exact h.deserted htodo
  | subscribe | unsubscribe | clear =>
    refine ⟨todo, ?_⟩
    unfold Broadcast.step
    dsimp only
    rw [hbus]
    exact ⟨h, .refl _ _⟩

theorem Closing.run (h : Closing todo b) (deeds : List Deed) :
    ∃ rest, Closing rest (b.run deeds) ∧
      b.system.Onward (b.run deeds).system (b.taken deeds) todo rest := by
  induction deeds generalizing b todo with
  | nil => exact ⟨todo, h, .refl _ _⟩
  | cons deed deeds ih =>
    obtain ⟨rest, hstep, hon⟩ := h.step deed
    obtain ⟨final, hrun, hon'⟩ := ih hstep
    exact ⟨final, hrun, hon.trans hon'⟩

/-! ## The loop ends -/

/-- As long as something is left to do, the loop gets on with it. -/
theorem Closing.due (h : Closing todo b) (hpos : 0 < b.system.effort todo) :
    ∃ rest, Closing rest (b.step b.due) ∧
      b.system.Onward (b.step b.due).system (b.takes b.due) todo rest ∧
      (b.step b.due).system.effort rest < b.system.effort todo := by
  obtain ⟨rest, hstep, hon⟩ := h.step b.due
  refine ⟨rest, hstep, hon, ?_⟩
  rcases hon.effort with ⟨hb, rfl⟩ | hlt
  · exfalso
    by_cases hempty : b.system.batch = []
    · -- A turn takes an errand, so not all of them can be left.
      have hdue : b.due = .on .turn := by simp [Broadcast.due, hempty]
      cases rest with
      | nil => simp [System.effort, hempty] at hpos
      | cons e rest =>
        have htakes : b.takes b.due = [.errand e] := by
          rw [hdue]
          exact h.winding.takes_turn hempty
        have hlen := congrArg List.length hon.taken
        rw [htakes] at hlen
        simp at hlen
    · have hdue : b.due = .on .publish := by simp [Broadcast.due, hempty]
      rw [hdue] at hb
      have htail : b.system.batch.tail = b.system.batch := b.system.batch_publish.symm.trans hb
      have hlen := congrArg List.length htail
      rw [List.length_tail] at hlen
      have := List.length_pos_iff.mpr hempty
      omega
  · exact hlt

/-- In a round the loop has the chance to publish and to take a turn, whatever else happens. -/
theorem Closing.round (h : Closing todo b) {round : List Deed} (ht : .on .turn ∈ round)
    (hp : .on .publish ∈ round) :
    ∃ rest, Closing rest (b.run round) ∧
      b.system.Onward (b.run round).system (b.taken round) todo rest ∧
      (b.run round).system.effort rest ≤ b.system.effort todo - 1 := by
  have hdue : b.due ∈ round := by
    unfold Broadcast.due
    split
    · exact ht
    · exact hp
  obtain ⟨before, after, rfl⟩ := List.append_of_mem hdue
  rw [run_append, taken_append]
  obtain ⟨mid, hbefore, hon⟩ := h.run before
  rcases hon.effort with ⟨hb, rfl⟩ | hlt
  · by_cases hpos : 0 < b.system.effort mid
    · -- Nothing was done before, so the deed that was due at first still is.
      have hsame : (b.run before).due = b.due := by
        unfold Broadcast.due
        rw [hb]
      have heffort : (b.run before).system.effort mid = b.system.effort mid := by
        unfold System.effort
        rw [hb]
      obtain ⟨next, hnext, hon', hlt⟩ := hbefore.due (heffort ▸ hpos)
      rw [hsame] at hnext hon' hlt
      obtain ⟨rest, hrest, hon''⟩ := hnext.run after
      have hle := hon''.le
      refine ⟨rest, hrest, hon.trans (hon'.trans hon''), ?_⟩
      show ((((b.run before).step b.due).run after).system).effort rest ≤ _
      omega
    · obtain ⟨rest, hrest, hon'⟩ := hbefore.run (b.due :: after)
      have hle := (hon.trans hon').le
      exact ⟨rest, hrest, hon.trans hon', by omega⟩
  · obtain ⟨rest, hrest, hon'⟩ := hbefore.run (b.due :: after)
    have hle := hon'.le
    exact ⟨rest, hrest, hon.trans hon', by omega⟩

/-- Given as many rounds as it needs, the loop does all that is left, and ends. -/
theorem Closing.rounds (h : Closing todo b) {rounds : List (List Deed)}
    (hr : ∀ round ∈ rounds, .on .turn ∈ round ∧ .on .publish ∈ round)
    (hn : b.system.effort todo ≤ rounds.length) :
    Closing [] (b.run rounds.flatten) ∧ (b.run rounds.flatten).system.batch = [] ∧
      b.system.Onward (b.run rounds.flatten).system (b.taken rounds.flatten) todo [] := by
  induction rounds generalizing b todo with
  | nil =>
    have hzero : b.system.batch.length = 0 ∧ todo.length = 0 := by
      unfold System.effort at hn
      simp only [List.length_nil] at hn
      omega
    obtain rfl := List.length_eq_zero_iff.mp hzero.2
    exact ⟨h, List.length_eq_zero_iff.mp hzero.1, .refl _ _⟩
  | cons round rounds ih =>
    obtain ⟨⟨ht, hp⟩, hr⟩ := List.forall_mem_cons.mp hr
    obtain ⟨rest, hround, hon, hlt⟩ := h.round ht hp
    rw [List.length_cons] at hn
    obtain ⟨hover, hbatch, hon'⟩ := ih hround hr (by omega)
    rw [List.flatten_cons, run_append, taken_append]
    exact ⟨hover, hbatch, hon.trans hon'⟩

end Broadcast

theorem Broadcast.invariants_run [Transport τ] (config : Config) (transport : τ)
    (deeds : List Deed) :
    let s := ((Broadcast.init config transport).run deeds).system
    s.Orderly ∧ s.ledger.Kept ∧ s.ledger.Accounted := by
  obtain ⟨acts, hacts⟩ := (Broadcast.init config transport).exists_system_run deeds
  rw [hacts]
  exact ⟨System.orderly_run config transport acts, System.kept_run config transport acts,
    System.accounted_run config transport acts⟩

/-- Once the loop has ended, every message that was discarded has been reported. -/
theorem System.reported_of_over {s : System τ} (hk : s.ledger.Kept) (ha : s.ledger.Accounted)
    (hv : s.connection.serving = false) (hb : s.batch = []) :
    reported (publications s.history) = s.connection.outbox.discarded := by
  have hdue : s.connection.checkDue = false := hk.checkDue_eq_false (hk.done hv).2
  have hzero : s.connection.unreported = 0 := ha.due hdue
  have hreported : reported (publications s.history ++ s.batch) + s.connection.unreported =
    s.connection.outbox.discarded := ha.reported
  rw [hb, hzero, List.append_nil] at hreported
  exact hreported

/-- Who lets go of a connection leaves nothing behind, in whatever state it is and whatever is in
its inboxes. From then on nothing is asked of the transport but to close the link that there was,
and the loop takes nothing but the errands that were there, the notice of the stop unless there was
one before, and its own end, in this order; it takes no signal. Once the loop was given enough
rounds, each with a chance to publish and to take a turn and with anything else that can happen, it
has taken them all and ended. By then everything was published that was under way or among the
errands, and last the notice of the stop; every message that was ever discarded has been reported;
and nobody is left on the bus. -/
theorem release_shuts_down_cleanly {τ : Type} [Transport τ] (config : Config) (transport : τ)
    (deeds : List Deed) (rounds : List (List Deed))
    (hh : ((Broadcast.init config transport).run deeds).system.held = true)
    (hr : ∀ round ∈ rounds, .on .turn ∈ round ∧ .on .publish ∈ round)
    (hn : ((Broadcast.init config transport).run deeds).system.effort
      ((Broadcast.init config transport).run deeds).system.agenda ≤ rounds.length) :
    let b := (Broadcast.init config transport).run deeds
    let s := b.system
    let c := s.connection
    let todo := (c.errands ++ s.parting.map Errand.announce ++ [Errand.cease]).map Item.errand
    let after := .on .release :: rounds.flatten
    let b' := b.run after
    let s' := b'.system
    (∀ more : List Deed,
      calls (b.run (.on .release :: more)).system.history =
        calls s.history ++ (if c.live then [.closed] else []) ∧
      b.taken (.on .release :: more) <+: todo) ∧
    s'.connection.serving = false ∧ s'.batch = [] ∧ b.taken after = todo ∧
    publications s'.history =
      publications s.history ++ (s.batch ++ c.errands.flatMap (·.news c.unreported) ++ s.parting) ∧
    reported (publications s'.history) = s'.connection.outbox.discarded ∧
    b'.bus.subscribers = [] := by
  intro b s c todo after b' s'
  obtain ⟨ho, hk, -⟩ := Broadcast.invariants_run config transport deeds
  obtain ⟨-, hk', ha'⟩ := Broadcast.invariants_run config transport (deeds ++ after)
  rw [Broadcast.run_append] at hk' ha'
  obtain ⟨hw, heffort, howes, hpubs, hcalls⟩ := System.release_effects ho hk hh
  have hstep : (b.step (.on .release)).system = s.release := if_pos hh
  have hclosing : (b.step (.on .release)).Closing s.agenda :=
    ⟨hstep ▸ hw, fun hnil => by simp [System.agenda] at hnil⟩
  obtain ⟨hover, hbatch, hon⟩ := hclosing.rounds hr (by rw [hstep, heffort]; exact hn)
  rw [hstep] at hon
  have hserving : s'.connection.serving = false := hover.winding.serving
  refine ⟨?_, hserving, hbatch, ?_, ?_, ?_, hover.deserted rfl⟩
  · intro more
    obtain ⟨rest, -, hmore⟩ := hclosing.run more
    rw [hstep] at hmore
    exact ⟨hmore.calls.trans hcalls, rest.map Item.errand, hmore.taken⟩
  · have htaken := hon.taken
    rw [List.map_nil, List.append_nil] at htaken
    exact htaken
  · have hpaid : s'.owes [] = [] := (List.append_nil _).trans hbatch
    have htold : publications s'.history ++ s'.owes [] =
      publications s.release.history ++ s.release.owes s.agenda := hon.told
    rw [hpaid, List.append_nil, hpubs, howes, s.owes_agenda] at htold
    exact htold
  · exact System.reported_of_over hk' ha' hserving hbatch

theorem release_shuts_down_cleanly_while_connecting :
    let config : Config := { capacity := 1 }
    let deeds : List Deed :=
      [.subscribe, .on (.start "ws://a"), .on .stop, .on (.start "ws://b"),
        .on (.send (.ofText "first")), .on (.send (.ofText "second")), .on (.hear ⟨⟨3⟩, .opened⟩)]
    let rounds : List (List Deed) := List.replicate 8 [.on .turn, .on .publish]
    let b := (Broadcast.init config ({} : Mock Generation)).run deeds
    let b' := b.run (.on .release :: rounds.flatten)
    b.system.held = true ∧ b.system.connection.live = true ∧ b.bus.subscribers = [⟨1⟩] ∧
    b.system.connection.errands = [.announce .stopped, .checkQueue] ∧
    b.system.connection.signals.toList = [⟨⟨3⟩, .opened⟩] ∧
    b'.system.connection.serving = false ∧ b'.bus.subscribers = [] ∧
    publications b'.system.history = [.stopped, .overflow 1, .stopped] := by
  intro config deeds rounds
  dsimp only
  have hh : ((Broadcast.init config ({} : Mock Generation)).run deeds).system.held = true := by
    decide +kernel
  have hr : ∀ round ∈ rounds, Deed.on .turn ∈ round ∧ Deed.on .publish ∈ round := by
    intro round hm
    obtain rfl := List.eq_of_mem_replicate hm
    simp
  obtain ⟨-, hserving, -, -, hpubs, -, hbus⟩ :=
    release_shuts_down_cleanly config ({} : Mock Generation) deeds rounds hh hr (by decide +kernel)
  refine ⟨hh, ?_, ?_, ?_, ?_, hserving, hbus, hpubs.trans ?_⟩
  · decide +kernel
  · decide +kernel
  · decide +kernel
  · decide +kernel
  · decide +kernel

end Tether
