import Tether.Proofs.Ledger

/-!
# What subscribers can rely on

Subscribers know about the link only what the events tell them. `Outlook.read` follows the events
in the order of publication and refuses those that do not fit; no run makes it refuse one. A stop
is told later than it happens, by an errand, and meanwhile the connection may be started again. So
the outlook after all that was told and all that is still to be announced is the one that agrees
with the state, and it is this that every step keeps.
-/

namespace Tether

/-- What is known about the link. -/
inductive Outlook where
  /-- It is not up. -/
  | down
  /-- It is up. -/
  | up
  /-- It has ended; when the next attempt follows must be told next. -/
  | ending
  deriving DecidableEq

namespace Outlook

/-- What is known after an event; nothing if the event does not fit. -/
def after : Outlook → Event → Option Outlook
  | ending, .reconnectScheduled _ _ => some down
  | ending, _ => none
  | down, .opened => some up
  | up, .messageReceived _ | up, .sendFailed _ _ => some up
  | _, .closed _ _ => some ending
  | _, .stopped => some down
  | o, .overflow dropped => if 0 < dropped then some o else none
  | _, _ => none

/-- What is known after some more events. -/
def follow (o : Outlook) (events : List Event) : Option Outlook := events.foldlM after o

/-- What is known after all the events. At first the link is not up. -/
def read (events : List Event) : Option Outlook := down.follow events

example : read [.opened, .sendFailed ⟨1⟩ "", .closed 1006 "", .reconnectScheduled ⟨100⟩ 1] =
    some down := rfl

example : read [.opened, .closed 1000 "", .opened] = none := rfl

theorem follow_append (o : Outlook) (a b : List Event) :
    o.follow (a ++ b) = (o.follow a).bind (follow · b) :=
  List.foldlM_append

theorem read_append {a b : List Event} {o : Outlook} (h : read a = some o) :
    read (a ++ b) = o.follow b := by
  rw [read, follow_append]
  exact congrArg (Option.bind · (follow · b)) h

/-- What was read at the end was read on the way. -/
theorem read_of_append {a b : List Event} {o : Outlook} (h : read (a ++ b) = some o) :
    ∃ o', read a = some o' ∧ o'.follow b = some o := by
  rw [read, follow_append] at h
  exact Option.bind_eq_some_iff.mp h

theorem follow_overflow {o : Outlook} (ho : o ≠ ending) {dropped : Nat} (hd : 0 < dropped) :
    o.follow [.overflow dropped] = some o := by
  cases o with
  | down | up => simp [follow, after, hd]
  | ending => exact absurd rfl ho

/-- Nothing but the next attempt is told of a link that has just ended. -/
theorem ne_ending_of_follow {o o' : Outlook} {events : List Event}
    (he : ∀ event ∈ events, event = .stopped) (h : o.follow events = some o')
    (ho : o' ≠ ending) : o ≠ ending := by
  rintro rfl
  cases events with
  | nil => exact ho (Option.some.inj h).symm
  | cons event rest =>
    obtain rfl := he event (List.mem_cons_self ..)
    cases h

end Outlook

/-- The outlook that agrees with a state. -/
def State.outlook (state : State) : Outlook := if state = .opened then .up else .down

theorem State.outlook_of_ne {state : State} (h : state ≠ .opened) : state.outlook = .down :=
  if_neg h

theorem State.outlook_ne_ending (state : State) : state.outlook ≠ .ending := by
  cases state <;> simp [outlook]

theorem State.follow_stopped (state : State) :
    state.outlook.follow [.stopped] = some .down := by
  cases state <;> rfl

theorem State.follow_closed (state : State) (code : Nat) (reason : String) (delay : Duration)
    (attempt : Nat) :
    state.outlook.follow [.closed code reason, .reconnectScheduled delay attempt] =
      some .down := by
  cases state <;> rfl

/-- The events that errands are to announce. -/
def notices (errands : List Errand) : List Event :=
  errands.filterMap fun
    | .announce event => some event
    | _ => none

theorem notices_append (a b : List Errand) : notices (a ++ b) = notices a ++ notices b :=
  List.filterMap_append

namespace Ledger

variable {l l' : Ledger}

theorem Kept.stopped_of_mem_notices (hk : Kept l) :
    ∀ event ∈ notices l.errands, event = .stopped := by
  intro event hm
  obtain ⟨e, he, hs⟩ := List.mem_filterMap.mp hm
  cases e with
  | announce event' =>
    obtain rfl := Option.some.inj hs
    exact hk.announced _ he
  | _ => cases hs

/-- What was told and is to be told agrees with the state. -/
structure Agreed (l : Ledger) : Prop where
  outlook : Outlook.read (l.told ++ notices l.errands) = some l.state.outlook
  /-- A link that is up has no stop behind it that is still to be announced. -/
  settled : l.state = .opened → notices l.errands = []

theorem Agreed.init (curve : Curve) : Agreed { backoff := { curve } } := ⟨rfl, nofun⟩

theorem Agreed.read_told (h : Agreed l) (hn : notices l.errands = []) :
    Outlook.read l.told = some l.state.outlook := by
  have ho := h.outlook
  rwa [hn, List.append_nil] at ho

/-- More is told when nothing is to be announced. -/
theorem Agreed.tell (h : Agreed l) (hn : notices l.errands = []) {events : List Event}
    {o : Outlook} (he : l.state.outlook.follow events = some o) :
    Outlook.read (l.told ++ events ++ notices l.errands) = some o := by
  rw [hn, List.append_nil, Outlook.read_append (h.read_told hn)]
  exact he

/-- Errands that announce nothing may be given and taken. -/
theorem Agreed.errands (h : Agreed l) {errands : List Errand}
    (hn : notices errands = notices l.errands) : Agreed { l with errands } := by
  refine ⟨?_, ?_⟩
  · show Outlook.read (l.told ++ notices errands) = _
    rw [hn]
    exact h.outlook
  · show l.state = .opened → notices errands = []
    rw [hn]
    exact h.settled

/-- Discarded messages may be reported before a stop is announced. -/
theorem Agreed.overflow (h : Agreed l) (hk : Kept l) {dropped : Nat} (hd : 0 < dropped) :
    Outlook.read (l.told ++ [.overflow dropped] ++ notices l.errands) = some l.state.outlook := by
  obtain ⟨o, htold, hrest⟩ := Outlook.read_of_append h.outlook
  have ho : o ≠ .ending :=
    Outlook.ne_ending_of_follow hk.stopped_of_mem_notices hrest l.state.outlook_ne_ending
  have hread : Outlook.read (l.told ++ [.overflow dropped]) = some o := by
    rw [Outlook.read_append htold, Outlook.follow_overflow ho hd]
  rw [Outlook.read_append hread, hrest]

theorem Agreed.step (h : Agreed l) (hk : Kept l) (hs : Step l l') : Agreed l' := by
  have ho := h.outlook
  cases hs with
  | start hs =>
    have hne : l.state ≠ .opened := fun he => by simp [he, State.isStartable] at hs
    rw [State.outlook_of_ne hne] at ho
    exact ⟨ho, fun hc => by cases hc⟩
  | retry hs =>
    rw [State.outlook_of_ne (by simp [hs])] at ho
    exact ⟨ho, fun hc => by cases hc⟩
  | stop hh hs =>
    rw [hk.assign_eq hh]
    refine ⟨?_, fun hc => by cases hc⟩
    show Outlook.read (l.told ++ notices (l.errands ++ [.announce .stopped])) = some .down
    rw [notices_append, ← List.append_assoc, Outlook.read_append ho]
    exact l.state.follow_stopped
  | letGo hh =>
    rw [hk.assign_eq hh]
    have ha : Agreed { l with errands := l.errands ++ [.cease] } :=
      h.errands (by simp [notices])
    exact { ha with }
  | send receipt hh =>
    split
    · exact { h with }
    · rw [hk.assign_eq hh]
      have ha : Agreed { l with errands := l.errands ++ [.checkQueue] } :=
        h.errands (by simp [notices])
      exact { ha with }
  | announce event rest he =>
    have hn : notices l.errands = event :: notices rest := by simp [notices, he]
    refine ⟨?_, ?_⟩
    · show Outlook.read (l.told ++ [event] ++ notices rest) = _
      rw [List.append_assoc, List.singleton_append, ← hn]
      exact ho
    · intro hs
      have := h.settled hs
      rw [hn] at this
      cases this
  | check rest he =>
    have hn : notices rest = notices l.errands := by simp [notices, he]
    have ha : Agreed { l with errands := rest } := h.errands hn
    refine { ha with outlook := ?_ }
    show Outlook.read (l.told ++ (if l.unreported = 0 then [] else [.overflow l.unreported]) ++
      notices rest) = _
    rw [hn]
    split
    · rw [List.append_nil]
      exact ho
    · exact h.overflow hk (by omega)
  | cease rest he =>
    obtain rfl : rest = [] := hk.last [] rest he
    have ha : Agreed { l with errands := [] } := h.errands (by simp [notices, he])
    exact { ha with }
  | deliver payload he hs =>
    have hn : notices l.errands = [] := by rw [he]; rfl
    refine { h with outlook := h.tell hn ?_ }
    rw [hs]
    rfl
  | confirm he hs =>
    have hn : notices l.errands = [] := by rw [he]; rfl
    refine ⟨h.tell hn ?_, fun _ => hn⟩
    rw [hs]
    rfl
  | lose code reason he hs =>
    have hn : notices l.errands = [] := by rw [he]; rfl
    exact ⟨h.tell hn (l.state.follow_closed ..), fun hc => by cases hc⟩
  | refuse sequence error hs he =>
    refine { h with outlook := h.tell (h.settled hs) ?_ }
    rw [hs]
    rfl
  | fail sequence error hs he ha =>
    refine ⟨h.tell (h.settled hs) ?_, fun hc => by cases hc⟩
    rw [hs]
    rfl

end Ledger

/-! ## Refused messages -/

def Event.isRefusal : Event → Bool
  | .sendFailed _ _ => true
  | _ => false

/-- Each refused message was told with the text of its error, in the order of the refusals, and if
the error means that the link is lost, that was told next. -/
structure Explained (errors : List Error) (events : List Event) : Prop where
  count : events.countP (·.isRefusal) = errors.length
  reason : ∀ pre sequence text post, events = pre ++ .sendFailed sequence text :: post →
    ∃ error, errors[pre.countP (·.isRefusal)]? = some error ∧ text = error.message ∧
      (error.meansLinkLost = true → ∃ delay rest,
        post = .closed abnormalClose text :: .reconnectScheduled delay 1 :: rest)

namespace Explained

variable {errors : List Error} {events : List Event}

theorem nil : Explained [] [] where
  count := rfl
  reason := by simp

/-- What was told before stays explained, whatever is told after it. -/
theorem reason_append (h : Explained errors events) (more : List Error) (later : List Event)
    {pre post : List Event} {sequence : SequenceId} {text : String}
    (he : events = pre ++ .sendFailed sequence text :: post) :
    ∃ error, (errors ++ more)[pre.countP (·.isRefusal)]? = some error ∧ text = error.message ∧
      (error.meansLinkLost = true → ∃ delay rest,
        post ++ later = .closed abnormalClose text :: .reconnectScheduled delay 1 :: rest) := by
  obtain ⟨error, hget, htext, hlost⟩ := h.reason pre sequence text post he
  refine ⟨error, ?_, htext, fun hl => ?_⟩
  · have hlt := (List.getElem?_eq_some_iff.mp hget).1
    rw [List.getElem?_append_left hlt, hget]
  · obtain ⟨delay, rest, rfl⟩ := hlost hl
    exact ⟨delay, rest ++ later, rfl⟩

theorem countP_eq_zero {later : List Event} (hl : ∀ event ∈ later, event.isRefusal = false) :
    later.countP (·.isRefusal) = 0 :=
  List.countP_eq_zero.mpr fun event hm => by simp [hl event hm]

theorem tell (h : Explained errors events) {later : List Event}
    (hl : ∀ event ∈ later, event.isRefusal = false) : Explained errors (events ++ later) := by
  refine ⟨?_, ?_⟩
  · rw [List.countP_append, h.count, countP_eq_zero hl, Nat.add_zero]
  · intro pre sequence text post he
    rcases List.append_eq_append_cons he with ⟨mid, hmid, rfl⟩ | ⟨mid, -, rfl⟩
    · simpa using h.reason_append [] later hmid
    · cases hl (.sendFailed sequence text) (by simp)

/-- A refusal, and what is told because of it. -/
theorem refuse (h : Explained errors events) (sequence : SequenceId) {error : Error}
    {later : List Event} (hl : ∀ event ∈ later, event.isRefusal = false)
    (hlost : error.meansLinkLost = true → ∃ delay rest,
      later = .closed abnormalClose error.message :: .reconnectScheduled delay 1 :: rest) :
    Explained (errors ++ [error]) (events ++ .sendFailed sequence error.message :: later) := by
  refine ⟨?_, ?_⟩
  · rw [List.countP_append, List.countP_cons_of_pos rfl, h.count, countP_eq_zero hl,
      List.length_append]
    rfl
  · intro pre sequence' text post he
    rcases List.append_eq_append_cons he with ⟨mid, hmid, rfl⟩ | ⟨mid, rfl, hmid⟩
    · exact h.reason_append [error] _ hmid
    · cases mid with
      | nil =>
        -- This is the refusal itself, and it is the last one.
        simp only [List.nil_append, List.cons.injEq, Event.sendFailed.injEq] at hmid
        obtain ⟨⟨rfl, rfl⟩, rfl⟩ := hmid
        exact ⟨error, by simp [h.count], rfl, hlost⟩
      | cons event mid =>
        obtain ⟨-, rfl⟩ := List.cons.inj hmid
        cases hl (.sendFailed sequence' text) (by simp)

end Explained

/-- Every refusal in a ledger is explained by what was told. -/
theorem Ledger.explained_step {l l' : Ledger} (h : Explained l.refusals l.told) (hk : l.Kept)
    (hs : l.Step l') : Explained l'.refusals l'.told := by
  cases hs with
  | start | retry | cease => exact h
  | stop hh hs => exact h
  | letGo hh => exact h
  | send receipt hh =>
    split <;> exact h
  | announce event rest he =>
    obtain rfl : event = .stopped := hk.announced event (by simp [he])
    exact h.tell (by simp [Event.isRefusal])
  | check rest he =>
    refine h.tell fun event hm => ?_
    split at hm
    · cases hm
    · obtain rfl := List.mem_singleton.mp hm
      rfl
  | deliver | confirm | lose => exact h.tell (by simp [Event.isRefusal])
  | refuse sequence error hs he =>
    exact h.refuse sequence (by simp) (by simp [he])
  | fail sequence error hs he ha =>
    have hone : l.backoff.fail.attempts = 1 := by
      have hf : l.backoff.fail.attempts = min (l.backoff.attempts + 1) (2 ^ 32 - 1) := rfl
      omega
    exact h.refuse sequence (by simp [Event.isRefusal]) fun _ => ⟨_, [], by rw [hone]⟩

namespace System

variable {τ : Type} [Transport τ]

theorem agreed_run (config : Config) (transport : τ) (acts : List Act) :
    ((System.init config transport).run acts).ledger.Agreed :=
  ledger_invariant (.init _) (fun _ _ hk ha hs => ha.step hk hs) acts

theorem explained_run (config : Config) (transport : τ) (acts : List Act) :
    Explained ((System.init config transport).run acts).ledger.refusals
      ((System.init config transport).run acts).ledger.told :=
  ledger_invariant (P := fun l => Explained l.refusals l.told) .nil
    (fun _ _ hk he hs => Ledger.explained_step he hk hs) acts

end System

/-- Subscribers are told a consistent story, and it agrees with the state. The events that were
published, and after them those about to be published, can be followed from a link that is down:
it is told to be up only when it was down; messages arrive and are refused only while it is up; an
end is told together with the next attempt, and nothing in between; a stop leaves it down; and
overflow is reported only if messages were discarded. Each refused message is told with the text
of its error, in the order of the refusals, and if the error means that the link is lost, its end
is told next, with that text and the abnormal code, and the first attempt after that. Whenever no
errand is left and nothing is about to be published, the link is told to be up just if the
connection is open. -/
theorem events_follow_lifecycle {τ : Type} [Transport τ] (config : Config) (transport : τ)
    (acts : List Act) :
    let s := (System.init config transport).run acts
    let h := s.history
    let events := publications h ++ s.batch
    (Outlook.read events = some .down ∨ Outlook.read events = some .up) ∧
    (Outlook.read (publications h)).isSome = true ∧
    events.countP (·.isRefusal) = (refusals h).length ∧
    (∀ pre sequence text post, events = pre ++ .sendFailed sequence text :: post →
      ∃ error, (refusals h)[pre.countP (·.isRefusal)]? = some error ∧ text = error.message ∧
        (error.meansLinkLost = true → ∃ delay rest,
          post = .closed 1006 text :: .reconnectScheduled delay 1 :: rest)) ∧
    (s.connection.errands = [] → s.batch = [] →
      (Outlook.read (publications h) = some .up ↔ s.connection.state = .opened)) := by
  have ha := System.agreed_run config transport acts
  have hk := System.kept_run config transport acts
  have he := System.explained_run config transport acts
  intro s h events
  obtain ⟨o, hevents, hrest⟩ := Outlook.read_of_append ha.outlook
  have ho : o ≠ .ending :=
    Outlook.ne_ending_of_follow hk.stopped_of_mem_notices hrest (State.outlook_ne_ending _)
  refine ⟨?_, ?_, he.count, he.reason, ?_⟩
  · cases o with
    | down => exact Or.inl hevents
    | up => exact Or.inr hevents
    | ending => exact absurd rfl ho
  · obtain ⟨o', hpub, -⟩ := Outlook.read_of_append hevents
    rw [hpub]
    rfl
  · intro herr hb
    have hn : notices s.ledger.errands = [] := by
      rw [show s.ledger.errands = [] from System.business_nil herr]
      rfl
    have hread : Outlook.read (publications h) = some s.connection.state.outlook := by
      have := ha.read_told hn
      rwa [System.told_eq hb] at this
    rw [hread]
    cases s.connection.state <;> simp [State.outlook]

end Tether
