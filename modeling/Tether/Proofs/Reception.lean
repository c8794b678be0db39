import Tether.Proofs.Inbox
import Tether.Proofs.LateSignals
import Tether.Proofs.Ledger

/-!
# Messages that arrive

Whether a message is passed on is decided when its signal is taken, by the state of the connection
and its generation. Told by the history, a link has its messages passed on from the moment it is
first heard to be open until it is heard to have ended, refuses a payload because it is gone, or the
connection is stopped. Here it is shown that both come to the same. Two facts are carried through
every move: the link that was asked for last and not interrupted since is the one that the
connection has, and it was heard to be open just if the connection is open.
-/

namespace Tether

/-! ## What a history tells about messages that arrive -/

/-- After this, no message of the link is passed on. -/
def Mark.interrupts (generation : Generation) (m : Mark) : Bool :=
  m.reportsEnd generation || m.isLoss || m = .stopped

/-- Since the link was asked for, it was heard to be open, and nothing interrupted it. -/
def isReceiving (generation : Generation) (h : List Mark) : Bool :=
  .heard ⟨generation, .opened⟩ ∈ since generation h &&
    (since generation h).all (!·.interrupts generation)

/-- The message to be passed on, if the next mark tells of one. -/
def arrival (past : List Mark) : Mark → List Payload
  | .heard ⟨generation, .message payload⟩ => if isReceiving generation past then [payload] else []
  | _ => []

/-- The messages to be passed on, after what was told before. -/
def arrivalsAfter (past : List Mark) : List Mark → List Payload
  | [] => []
  | m :: h => arrival past m ++ arrivalsAfter (past ++ [m]) h

/-- The messages to be passed on, in the order in which they were heard. -/
def arrivals (h : List Mark) : List Payload := arrivalsAfter [] h

/-- The messages of which events tell. -/
def received (events : List Event) : List Payload := events.filterMap Event.payload?

theorem arrivalsAfter_append (past a b : List Mark) :
    arrivalsAfter past (a ++ b) = arrivalsAfter past a ++ arrivalsAfter (past ++ a) b := by
  induction a generalizing past with
  | nil => rw [List.append_nil]; rfl
  | cons m a ih =>
    simp only [List.cons_append, arrivalsAfter]
    rw [ih, ← List.append_cons, List.append_assoc]

theorem arrivals_append (a b : List Mark) : arrivals (a ++ b) = arrivals a ++ arrivalsAfter a b :=
  arrivalsAfter_append [] a b

theorem received_append (a b : List Event) : received (a ++ b) = received a ++ received b :=
  List.filterMap_append

/-! ## Since a link was asked for -/

theorem since_of_mem {g : Generation} {h : List Mark} (hg : g ∈ openings h) (ms : List Mark) :
    since g (h ++ ms) = since g h ++ ms := by
  induction h with
  | nil => cases hg
  | cons m h ih =>
    cases m with
    | opened endpoint g' =>
      by_cases hgg : g' = g
      · simp [since, hgg]
      · have hg : g ∈ openings h := by
          rcases List.mem_cons.mp hg with rfl | hg
          · exact absurd rfl hgg
          · exact hg
        simp [since, hgg, ih hg]
    | _ => exact ih hg

theorem since_of_not_mem {g : Generation} {h : List Mark} (hg : g ∉ openings h) (ms : List Mark) :
    since g (h ++ ms) = since g ms := by
  induction h with
  | nil => rfl
  | cons m h ih =>
    cases m with
    | opened endpoint g' =>
      obtain ⟨hgg, hg⟩ : g ≠ g' ∧ g ∉ openings h :=
        not_or.mp fun hmem => hg (List.mem_cons.mpr hmem)
      simp [since, hgg.symm, ih hg]
    | _ => exact ih hg

/-- The link was asked for, and nothing has interrupted it. -/
def Intact (g : Generation) (h : List Mark) : Prop :=
  g ∈ openings h ∧ ∀ m ∈ since g h, m.interrupts g = false

theorem openings_eq_of_not_isOpening (h : List Mark) {ms : List Mark}
    (hm : ∀ m ∈ ms, m.isOpening = false) : openings (h ++ ms) = openings h := by
  have hn : openings ms = [] := by
    refine List.filterMap_eq_nil_iff.mpr fun m hmem => ?_
    have := hm m hmem
    cases m <;> first | rfl | cases this
  rw [openings_append, hn, List.append_nil]

theorem intact_append {g : Generation} (h : List Mark) {ms : List Mark}
    (hm : ∀ m ∈ ms, m.isOpening = false) :
    Intact g (h ++ ms) ↔ Intact g h ∧ ∀ m ∈ ms, m.interrupts g = false := by
  unfold Intact
  rw [openings_eq_of_not_isOpening h hm, and_assoc]
  refine and_congr_right fun hg => ?_
  rw [since_of_mem hg]
  exact List.forall_mem_append

/-- A link that is heard to be open and not interrupted is intact. -/
theorem isReceiving_iff {g : Generation} {h : List Mark} :
    isReceiving g h = true ↔ Intact g h ∧ .heard ⟨g, .opened⟩ ∈ since g h := by
  have hall : (since g h).all (!·.interrupts g) = true ↔
      ∀ m ∈ since g h, m.interrupts g = false := by simp
  unfold isReceiving Intact
  rw [Bool.and_eq_true, decide_eq_true_eq, hall]
  constructor
  · rintro ⟨hheard, hno⟩
    refine ⟨⟨?_, hno⟩, hheard⟩
    by_contra hg
    have hnil : since g h = [] := by
      have := since_of_not_mem hg []
      rwa [List.append_nil] at this
    rw [hnil] at hheard
    cases hheard
  · rintro ⟨⟨-, hno⟩, hheard⟩
    exact ⟨hheard, hno⟩

/-- What is told of no link, of no signal and of no event. -/
def Mark.isUnrelated : Mark → Bool
  | heard _ | opened .. | stopped | published _ => false
  | sent _ (some error) => !error.meansLinkLost
  | _ => true

namespace Mark

variable {m : Mark} (hm : m.isUnrelated = true)

include hm

theorem isOpening_of_isUnrelated : m.isOpening = false := by
  cases m <;> first | rfl | cases hm

theorem interrupts_of_isUnrelated (g : Generation) : m.interrupts g = false := by
  cases m with
  | sent payload refusal =>
    cases refusal with
    | none => rfl
    | some error => simpa [interrupts, reportsEnd, isLoss, isUnrelated] using hm
  | heard | stopped => cases hm
  | _ => rfl

theorem ne_heard_of_isUnrelated (signal : Signal) : m ≠ .heard signal := by
  rintro rfl
  cases hm

theorem arrival_of_isUnrelated (past : List Mark) : arrival past m = [] := by
  cases m <;> first | rfl | cases hm

end Mark

theorem arrivalsAfter_unrelated (past : List Mark) {ms : List Mark}
    (hm : ∀ m ∈ ms, m.isUnrelated = true) : arrivalsAfter past ms = [] := by
  induction ms generalizing past with
  | nil => rfl
  | cons m ms ih =>
    obtain ⟨hm, hms⟩ := List.forall_mem_cons.mp hm
    simp only [arrivalsAfter]
    rw [Mark.arrival_of_isUnrelated hm, ih _ hms]
    rfl

theorem publications_unrelated {ms : List Mark} (hm : ∀ m ∈ ms, m.isUnrelated = true) :
    publications ms = [] := by
  refine List.flatMap_eq_nil_iff.mpr fun m hmem => ?_
  have := hm m hmem
  split
  · cases this
  · rfl

theorem isUnrelated_acceptances (sent : List Message) :
    ∀ m ∈ sent.map Message.acceptance, m.isUnrelated = true :=
  List.forall_mem_map.mpr fun _ _ => rfl

theorem isUnrelated_aftermath {τ : Type} (c d : Connection (Recorded τ)) :
    ∀ m ∈ c.aftermath d, m.isUnrelated = true := by
  intro m hm
  rcases List.mem_append.mp hm with hm | hm
  · obtain ⟨g, rfl | rfl⟩ := Connection.eq_of_mem_timerMarks hm <;> rfl
  · obtain ⟨ids, rfl⟩ := Connection.eq_handed_of_mem_queueMarks hm
    rfl

namespace System

variable {τ : Type} {s t : System τ}

/-! ## The link that the connection has -/

/-- The history tells which link the connection has, and whether it is open. -/
structure Receptive (s : System τ) : Prop where
  /-- The connection has the link that is intact. -/
  intact : ∀ g, Intact g s.history ↔
    s.connection.state.hasLink = true ∧ s.connection.generation = g
  /-- Its link was heard to be open just if the connection is open. -/
  confirmed : s.connection.state.hasLink = true →
    (.heard ⟨s.connection.generation, .opened⟩ ∈ since s.connection.generation s.history ↔
      s.connection.state = .opened)

theorem Receptive.init (config : Config) (transport : τ) : Receptive (init config transport) where
  intact := by
    intro g
    constructor
    · rintro ⟨hg, -⟩
      cases hg
    · rintro ⟨hl, -⟩
      cases hl
  confirmed := nofun

/-- Messages are passed on just while the connection is open. -/
theorem Receptive.isReceiving_iff (h : Receptive s) {g : Generation} :
    isReceiving g s.history = true ↔
      s.connection.state = .opened ∧ s.connection.generation = g := by
  rw [Tether.isReceiving_iff, h.intact]
  constructor
  · rintro ⟨⟨hl, rfl⟩, hheard⟩
    exact ⟨(h.confirmed hl).mp hheard, rfl⟩
  · rintro ⟨hs, rfl⟩
    have hl : s.connection.state.hasLink = true := by rw [hs]; rfl
    exact ⟨⟨hl, rfl⟩, (h.confirmed hl).mpr hs⟩

/-- The link stays as it is, as long as it is not interrupted or heard to be open. -/
theorem Receptive.stay (h : Receptive s) (ms : List Mark) (hh : t.history = s.history ++ ms)
    (hm : ∀ m ∈ ms, m.isOpening = false)
    (hi : s.connection.state.hasLink = true →
      ∀ m ∈ ms, m.interrupts s.connection.generation = false)
    (ho : s.connection.state = .connecting → .heard ⟨s.connection.generation, .opened⟩ ∉ ms)
    (hs : t.connection.state = s.connection.state)
    (hg : t.connection.generation = s.connection.generation) : Receptive t := by
  refine { intact := fun g => ?_, confirmed := ?_ }
  · rw [hh, hs, hg, intact_append _ hm, h.intact]
    constructor
    · exact fun hb => hb.1
    · rintro ⟨hl, rfl⟩
      exact ⟨⟨hl, rfl⟩, hi hl⟩
  · rw [hh, hs, hg]
    intro hl
    obtain ⟨hopen, -⟩ := (h.intact _).mpr ⟨hl, rfl⟩
    rw [since_of_mem hopen, List.mem_append, h.confirmed hl]
    constructor
    · rintro (hst | hmem)
      · exact hst
      · cases hst : s.connection.state with
        | connecting => exact absurd hmem (ho hst)
        | opened => rfl
        | idle | reconnecting | closed => simp [hst, State.hasLink] at hl
    · exact Or.inl

/-- In particular, whatever is unrelated may be told. -/
theorem Receptive.aside (h : Receptive s) (ms : List Mark) (hh : t.history = s.history ++ ms)
    (hm : ∀ m ∈ ms, m.isUnrelated = true) (hs : t.connection.state = s.connection.state)
    (hg : t.connection.generation = s.connection.generation) : Receptive t := by
  refine h.stay ms hh (fun m hmem => Mark.isOpening_of_isUnrelated (hm m hmem)) ?_ ?_ hs hg
  · exact fun _ m hmem => Mark.interrupts_of_isUnrelated (hm m hmem) _
  · exact fun _ hmem => Mark.ne_heard_of_isUnrelated (hm _ hmem) _ rfl

/-- The link is interrupted, and the connection has none after that. -/
theorem Receptive.interrupt (h : Receptive s) (ms : List Mark)
    (hh : t.history = s.history ++ ms) (hm : ∀ m ∈ ms, m.isOpening = false)
    (hi : ∃ m ∈ ms, m.interrupts s.connection.generation = true)
    (hl : t.connection.state.hasLink = false) : Receptive t := by
  refine { intact := fun g => ?_, confirmed := fun hc => by simp [hl] at hc }
  rw [hh, hl, intact_append _ hm, h.intact]
  constructor
  · rintro ⟨⟨-, rfl⟩, hno⟩
    obtain ⟨m, hmem, hm⟩ := hi
    exact absurd (hno m hmem) (by simp [hm])
  · rintro ⟨hf, -⟩
    cases hf

/-- A new link is asked for, when the connection has none. -/
theorem Receptive.connect (h : Receptive s) (hl : s.connection.state.hasLink = false) {m : Mark}
    {endpoint : Endpoint} {g : Generation} (hm : m.isOpening = false)
    (hh : t.history = s.history ++ [m] ++ [.opened endpoint g]) (hg : g ∉ openings s.history)
    (hs : t.connection.state = .connecting) (hgen : t.connection.generation = g) :
    Receptive t := by
  have hopenings : openings (s.history ++ [m]) = openings s.history :=
    openings_eq_of_not_isOpening _ (List.forall_mem_singleton.mpr hm)
  have hsince : since g t.history = [] := by
    rw [hh, since_of_not_mem (by rw [hopenings]; exact hg)]
    simp [since]
  have hmem : ∀ g', g' ∈ openings t.history ↔ g' ∈ openings s.history ∨ g' = g := by
    intro g'
    rw [hh, openings_append, hopenings, List.mem_append]
    exact or_congr_right List.mem_singleton
  refine { intact := fun g' => ?_, confirmed := fun _ => ?_ }
  · rw [hs, hgen]
    constructor
    · rintro ⟨hg', hno⟩
      refine ⟨rfl, ?_⟩
      rcases (hmem g').mp hg' with hold | rfl
      · -- An earlier link would have been intact before, but the connection had none.
        have hintact : Intact g' s.history := by
          refine ⟨hold, fun m' hm' => hno m' ?_⟩
          rw [hh, List.append_assoc, since_of_mem hold]
          exact List.mem_append_left _ hm'
        have := ((h.intact g').mp hintact).1
        simp [hl] at this
      · rfl
    · rintro ⟨-, rfl⟩
      refine ⟨(hmem g).mpr (Or.inr rfl), ?_⟩
      rw [hsince]
      simp
  · rw [hgen, hs, hsince]
    simp

variable [Transport τ]

theorem Receptive.flush (h : Receptive s) : Receptive s.flush := by
  have hf := s.connection.flush_spec
  unfold System.flush
  generalize s.connection.flush.1 = c, s.connection.flush.2 = events at hf
  have hafter := isUnrelated_aftermath s.connection c
  cases hf with
  | drained base sent log hq hl =>
    refine h.aside _ (List.append_assoc _ _ _) ?_ rfl rfl
    exact List.forall_mem_append.mpr ⟨isUnrelated_acceptances sent, hafter⟩
  | halted base sent m rest error log hq he hl =>
    refine h.aside _ (List.append_assoc _ _ _) ?_ rfl rfl
    refine List.forall_mem_append.mpr ⟨List.forall_mem_append.mpr
      ⟨isUnrelated_acceptances sent, List.forall_mem_singleton.mpr ?_⟩, hafter⟩
    simp [Mark.isUnrelated, he]
  | lost base sent m rest error signals due log hq he hl =>
    refine h.interrupt _ (List.append_assoc _ _ _) ?_ ?_ rfl
    · refine List.forall_mem_append.mpr ⟨List.forall_mem_append.mpr ⟨?_, ?_⟩, ?_⟩
      · exact fun m hm => Mark.isOpening_of_isUnrelated (isUnrelated_acceptances sent m hm)
      · simp [Mark.isOpening]
      · exact fun m hm => Mark.isOpening_of_isUnrelated (hafter m hm)
    · exact ⟨.sent m.payload (some error), by simp, by simp [Mark.interrupts, Mark.isLoss, he]⟩

theorem Receptive.stop (h : Receptive s) : Receptive s.stop := by
  have hst := s.connection.stop_spec
  unfold System.stop
  generalize s.connection.stop = c at hst
  have hstopped : Mark.stopped.interrupts s.connection.generation = true := by
    simp [Mark.interrupts]
  cases hst with
  | already hs =>
    refine h.interrupt [.stopped] rfl (by simp [Mark.isOpening])
      ⟨.stopped, by simp, hstopped⟩ ?_
    show s.connection.state.hasLink = false
    rw [hs]
    rfl
  | unlinked log hs hv hl =>
    exact h.interrupt [.stopped] rfl (by simp [Mark.isOpening]) ⟨.stopped, by simp, hstopped⟩ rfl
  | linked base signals log hs hv hl =>
    exact h.interrupt [.closed, .stopped] (List.append_assoc _ [_] [_]) (by simp [Mark.isOpening])
      ⟨.stopped, by simp, hstopped⟩ rfl

/-- Every move keeps what the history tells about the link. -/
theorem Receptive.move {φ : Phase} (h : Receptive s) (ho : Orderly s) (htr : Tracked φ s)
    (hm : Move s t) : Receptive t := by
  have hsame : s.history = s.history ++ [] := (List.append_nil _).symm
  have hfresh : s.connection.generation.next ∉ openings s.history := by
    intro hg
    have hle : s.connection.generation.value + 1 ≤ s.connection.generation.value :=
      htr.dated.opened _ hg
    omega
  cases hm with
  | note n hn => exact { h with }
  | hear signal =>
    obtain ⟨signals, hc⟩ := s.connection.hear_eq signal
    rw [hc]
    exact { h with }
  | wait millis => exact { h with }
  | grant endpoint hh hs =>
    obtain ⟨base, signals, log, hc, -⟩ := ({ s.connection.marks [.started] with
      endpoint := some endpoint
      backoff := s.connection.backoff.reset } : Connection (Recorded τ)).openLink_eq rfl
    rw [hc]
    refine h.connect ?_ (m := .started) rfl rfl hfresh rfl rfl
    cases hst : s.connection.state <;> simp_all [State.isStartable, State.hasLink]
  | stop => exact h.stop
  | letGo hs =>
    rw [Connection.assign_eq]
    exact { h with }
  | send payload =>
    obtain ⟨errands, log, hsend, -⟩ := s.send_eq payload
    rw [hsend]
    exact h.aside [_] rfl (List.forall_mem_singleton.mpr rfl) rfl rfl
  | fire t ht he =>
    rw [Connection.assign_eq]
    exact h.aside [.fired t.generation] rfl (List.forall_mem_singleton.mpr rfl) rfl rfl
  | straggle generation hg =>
    rw [Connection.assign_eq]
    exact h.aside [.fired generation] rfl (List.forall_mem_singleton.mpr rfl) rfl rfl
  | publish event rest hb =>
    refine h.stay [.published event] rfl (by simp [Mark.isOpening]) ?_ (by simp) rfl rfl
    simp [Mark.interrupts, Mark.reportsEnd, Mark.isLoss]
  | announce event rest he => exact { h with }
  | check rest he => exact { h with }
  | stale generation rest he hs =>
    exact h.aside [.retrying generation] rfl (List.forall_mem_singleton.mpr rfl) rfl rfl
  | retry rest he hs =>
    obtain ⟨endpoint, hendpoint⟩ := Option.isSome_iff_exists.mp
      (ho.endpoint (by simp [hs, State.isUnderWay]))
    obtain ⟨base, signals, log, hc, -⟩ := ({ s.connection.retrying s.connection.generation rest with
      timer := none } : Connection (Recorded τ)).openLink_eq hendpoint
    rw [hc]
    exact h.connect (by simp [hs, State.hasLink]) (m := .retrying s.connection.generation) rfl rfl
      hfresh rfl rfl
  | cease rest he =>
    obtain ⟨log, hd, -⟩ := Connection.disarm_eq { s.connection with errands := rest }
    unfold Connection.shut
    rw [hd]
    exact { h with }
  | ignore signal rest he hp hi =>
    refine h.stay [.heard signal] rfl (by simp [Mark.isOpening]) ?_ ?_ rfl rfl
    · intro hl
      refine List.forall_mem_singleton.mpr ?_
      by_contra hint
      have hend : signal.generation = s.connection.generation ∧ signal.report.isEnd = true := by
        simpa [Mark.interrupts, Mark.reportsEnd, Mark.isLoss] using hint
      have hno := hi hend.1
      rw [Report.countsIn_of_isEnd hend.2, hl] at hno
      cases hno
    · intro hs hmem
      obtain rfl := Mark.heard.inj (List.mem_singleton.mp hmem).symm
      have hno := hi rfl
      simp [Report.countsIn, hs] at hno
  | deliver payload rest he hp hs =>
    refine h.stay [.heard ⟨s.connection.generation, .message payload⟩] rfl
      (by simp [Mark.isOpening]) ?_ (by simp [hs]) rfl rfl
    simp [Mark.interrupts, Mark.reportsEnd, Mark.isLoss, Report.isEnd]
  | confirm rest he hp hs =>
    have hlink : s.connection.state.hasLink = true := by rw [hs]; rfl
    obtain ⟨hopen, hno⟩ := (h.intact _).mpr ⟨hlink, rfl⟩
    refine { intact := fun g => ?_, confirmed := fun _ => ?_ }
    · show Intact g (s.history ++ [.heard ⟨s.connection.generation, .opened⟩]) ↔
        true = true ∧ s.connection.generation = g
      rw [intact_append _ (by simp [Mark.isOpening]), h.intact, hlink]
      simp [Mark.interrupts, Mark.reportsEnd, Mark.isLoss, Report.isEnd]
    · show .heard ⟨s.connection.generation, .opened⟩ ∈ since s.connection.generation
        (s.history ++ [.heard ⟨s.connection.generation, .opened⟩]) ↔ State.opened = .opened
      rw [since_of_mem hopen]
      simp
  | lose report code reason rest he hp hr hs =>
    obtain ⟨due, log, hlose, hl⟩ := (s.connection.hearing
      ⟨s.connection.generation, report⟩ rest).loseLink_eq code reason
    rw [hlose]
    refine h.interrupt _ (List.append_assoc _ [_] _) ?_ ?_ rfl
    · refine List.forall_mem_append.mpr ⟨by simp [Mark.isOpening], fun m hm => ?_⟩
      exact Mark.isOpening_of_isUnrelated (isUnrelated_aftermath _ _ m hm)
    · refine ⟨.heard ⟨s.connection.generation, report⟩, by simp, ?_⟩
      simp [Mark.interrupts, Mark.reportsEnd, Report.isEnd_of_ending hr]
  | flush hs => exact h.flush

/-! ## The messages that are passed on -/

/-- What was published and is about to be tells of the messages that arrived. -/
def Faithful (s : System τ) : Prop :=
  received (publications s.history ++ s.batch) = arrivals s.history

omit [Transport τ] in
theorem Faithful.init (config : Config) (transport : τ) : Faithful (init config transport) := rfl

omit [Transport τ] in
/-- More is told, and the messages among it arrived meanwhile. -/
theorem Faithful.extend (h : Faithful s) (ms : List Mark) (hh : t.history = s.history ++ ms)
    (hr : received (publications ms ++ t.batch) =
      received s.batch ++ arrivalsAfter s.history ms) : Faithful t := by
  unfold Faithful at h ⊢
  calc received (publications t.history ++ t.batch)
      = received (publications s.history) ++ received (publications ms ++ t.batch) := by
        rw [hh, publications_append, List.append_assoc, received_append]
    _ = received (publications s.history ++ s.batch) ++ arrivalsAfter s.history ms := by
        rw [hr, received_append, List.append_assoc]
    _ = arrivals t.history := by rw [h, hh, arrivals_append]

omit [Transport τ] in
/-- What is unrelated is told, and events of which none brings a message. -/
theorem Faithful.aside (h : Faithful s) (ms : List Mark) (hh : t.history = s.history ++ ms)
    (hm : ∀ m ∈ ms, m.isUnrelated = true) (hb : received t.batch = received s.batch) :
    Faithful t := by
  refine h.extend ms hh ?_
  rw [publications_unrelated hm, arrivalsAfter_unrelated _ hm, List.nil_append, List.append_nil, hb]

omit [Transport τ] in
/-- A signal is taken that is no message, or that is not to be passed on. -/
theorem Faithful.hear (h : Faithful s) (signal : Signal) (ms : List Mark)
    (hh : t.history = s.history ++ .heard signal :: ms)
    (ha : arrival s.history (.heard signal) = []) (hm : ∀ m ∈ ms, m.isUnrelated = true)
    (hb : received t.batch = received s.batch) : Faithful t := by
  refine h.extend (.heard signal :: ms) hh ?_
  have hp : publications (.heard signal :: ms) = publications ms := rfl
  rw [hp, publications_unrelated hm, arrivalsAfter, ha, arrivalsAfter_unrelated _ hm,
    List.nil_append, hb]
  exact (List.append_nil _).symm

theorem Faithful.flush (h : Faithful s) : Faithful s.flush := by
  have hf := s.connection.flush_spec
  unfold System.flush
  generalize s.connection.flush.1 = c, s.connection.flush.2 = events at hf
  have hafter := isUnrelated_aftermath s.connection c
  -- The link may be lost, but messages are neither taken nor published.
  have hplain : ∀ (sent : List Message) (ms : List Mark),
      c.transport.history = s.history ++ (sent.map Message.acceptance ++ ms) →
      publications ms = [] → (∀ past, arrivalsAfter past ms = []) → received events = [] →
      Faithful (s.conclude (c, s.batch ++ events)) := by
    intro sent ms hh hp ha he
    have hs := isUnrelated_acceptances sent
    let told := sent.map Message.acceptance ++ ms ++ s.connection.aftermath c
    have hnone : publications told = [] := by
      rw [publications_append, publications_append, publications_unrelated hs, hp,
        publications_unrelated hafter]
      rfl
    have hno : arrivalsAfter s.history told = [] := by
      rw [arrivalsAfter_append, arrivalsAfter_append, arrivalsAfter_unrelated _ hs, ha,
        arrivalsAfter_unrelated _ hafter]
      rfl
    refine h.extend told ?_ ?_
    · show c.transport.history ++ s.connection.aftermath c = _
      rw [hh, List.append_assoc]
    · show received (publications told ++ (s.batch ++ events)) = _
      rw [hnone, hno, List.nil_append, List.append_nil, received_append, he, List.append_nil]
  cases hf with
  | drained base sent log hq hl =>
    exact hplain sent [] (by rw [List.append_nil]; rfl) rfl (fun _ => rfl) rfl
  | halted base sent m rest error log hq he hl =>
    exact hplain sent [.sent m.payload (some error)] rfl rfl (fun _ => rfl) rfl
  | lost base sent m rest error signals due log hq he hl =>
    exact hplain sent [.sent m.payload (some error), .closed] rfl rfl (fun _ => rfl) rfl

theorem Faithful.stop (h : Faithful s) : Faithful s.stop := by
  have hst := s.connection.stop_spec
  unfold System.stop
  generalize s.connection.stop = c at hst
  cases hst with
  | already | unlinked =>
    refine h.extend [.stopped] rfl ?_
    exact (List.append_nil _).symm
  | linked base signals log hs hv hl =>
    refine h.extend [.closed, .stopped] (List.append_assoc _ [_] [_]) ?_
    exact (List.append_nil _).symm

/-- Every move passes on what arrives with it. -/
theorem Faithful.move (h : Faithful s) (ho : Orderly s) (hk : s.ledger.Kept) (hr : Receptive s)
    (hm : Move s t) : Faithful t := by
  cases hm with
  | note n hn => exact h
  | hear signal =>
    obtain ⟨signals, hc⟩ := s.connection.hear_eq signal
    rw [hc]
    exact h
  | wait millis => exact h
  | grant endpoint hh hs =>
    obtain ⟨base, signals, log, hc, -⟩ := ({ s.connection.marks [.started] with
      endpoint := some endpoint
      backoff := s.connection.backoff.reset } : Connection (Recorded τ)).openLink_eq rfl
    rw [hc]
    refine h.extend [.started, .opened endpoint s.connection.generation.next]
      (List.append_assoc _ [_] [_]) ?_
    exact (List.append_nil _).symm
  | stop => exact h.stop
  | letGo hs =>
    rw [Connection.assign_eq]
    exact h
  | send payload =>
    obtain ⟨errands, log, hsend, -⟩ := s.send_eq payload
    rw [hsend]
    exact h.aside [_] rfl (List.forall_mem_singleton.mpr rfl) rfl
  | fire t ht he =>
    rw [Connection.assign_eq]
    exact h.aside [.fired t.generation] rfl (List.forall_mem_singleton.mpr rfl) rfl
  | straggle generation hg =>
    rw [Connection.assign_eq]
    exact h.aside [.fired generation] rfl (List.forall_mem_singleton.mpr rfl) rfl
  | publish event rest hb =>
    refine h.extend [.published event] rfl ?_
    show received ([event] ++ rest) = received s.batch ++ []
    rw [List.append_nil, hb]
    rfl
  | announce event rest he hb =>
    have hmem : .announce event ∈ s.ledger.errands := by
      show .announce event ∈ s.connection.business
      rw [business_cons he rfl]
      exact List.mem_cons_self ..
    obtain rfl := hk.announced event hmem
    refine h.aside [] (List.append_nil _).symm (by simp) ?_
    show received [.stopped] = received s.batch
    rw [hb]
    rfl
  | check rest he hb =>
    refine h.aside [] (List.append_nil _).symm (by simp) ?_
    show received (if s.connection.unreported = 0 then [] else
      [.overflow s.connection.unreported]) = received s.batch
    rw [hb]
    split <;> rfl
  | stale generation rest he hs =>
    exact h.aside [.retrying generation] rfl (List.forall_mem_singleton.mpr rfl) rfl
  | retry rest he hs =>
    obtain ⟨endpoint, hendpoint⟩ := Option.isSome_iff_exists.mp
      (ho.endpoint (by simp [hs, State.isUnderWay]))
    obtain ⟨base, signals, log, hc, -⟩ := ({ s.connection.retrying s.connection.generation rest with
      timer := none } : Connection (Recorded τ)).openLink_eq hendpoint
    rw [hc]
    refine h.extend [.retrying s.connection.generation,
      .opened endpoint s.connection.generation.next] (List.append_assoc _ [_] [_]) ?_
    exact (List.append_nil _).symm
  | cease rest he =>
    obtain ⟨log, hd, -⟩ := Connection.disarm_eq { s.connection with errands := rest }
    unfold Connection.shut
    rw [hd]
    exact h
  | ignore signal rest he hp hi =>
    refine h.hear signal [] rfl ?_ (by simp) rfl
    obtain ⟨g, report⟩ := signal
    cases report with
    | message payload =>
      refine if_neg fun hrec => ?_
      -- A message that is to be passed on is of the present link, and counts.
      obtain ⟨hs, rfl⟩ := hr.isReceiving_iff.mp hrec
      have hno := hi rfl
      simp [Report.countsIn, hs] at hno
    | opened | closed | failed => rfl
  | deliver payload rest he hp hs hb =>
    refine h.extend [.heard ⟨s.connection.generation, .message payload⟩] rfl ?_
    have hrec : isReceiving s.connection.generation s.history = true :=
      hr.isReceiving_iff.mpr ⟨hs, rfl⟩
    simp [arrivalsAfter, arrival, hrec, hb, received, publications, Event.payload?]
  | confirm rest he hp hs hb =>
    refine h.hear ⟨s.connection.generation, .opened⟩ [] rfl rfl (by simp) ?_
    rw [hb]
    rfl
  | lose report code reason rest he hp hend hs hb =>
    obtain ⟨due, log, hlose, hl⟩ := (s.connection.hearing
      ⟨s.connection.generation, report⟩ rest).loseLink_eq code reason
    rw [hlose]
    refine h.hear ⟨s.connection.generation, report⟩ _ (List.append_assoc _ [_] _) ?_
      (isUnrelated_aftermath _ _) ?_
    · cases report <;> first | rfl | cases hend
    · rw [hb]
      rfl
  | flush hs => exact h.flush

theorem faithful_run (config : Config) (transport : τ) (acts : List Act) :
    Faithful ((System.init config transport).run acts) := by
  have h : Traced ((System.init config transport).run acts) ∧
      ((System.init config transport).run acts).ledger.Kept ∧
      Receptive ((System.init config transport).run acts) ∧
      Faithful ((System.init config transport).run acts) := by
    refine run_induction
      (P := fun s => Traced s ∧ s.ledger.Kept ∧ Receptive s ∧ Faithful s)
      ⟨.init config transport, .init _, .init config transport, .init config transport⟩ ?_ acts
    rintro s t ⟨htr, hk, hr, hf⟩ hm
    obtain ⟨φ, hφ⟩ := htr.2
    exact ⟨htr.move hm, kept_move htr.1 hk hm, hr.move htr.1 hφ hm, hf.move htr.1 hk hr hm⟩
  exact h.2.2.2

end System

/-- Every message that arrives over a link that is up is passed on, once and in order, and no other.
The messages of which the published events tell, and after them the one that is about to be
published, are those that were heard, in this order, after their link was asked for and first heard
to be open, and before it was heard to have ended, refused a payload because it was gone, or the
connection was stopped. Signals are heard in the order in which they were reported, and as long as
the loop goes on none gets lost. -/
theorem messages_received_exactly {τ : Type} [Transport τ] (config : Config) (transport : τ)
    (acts : List Act) :
    let s := (System.init config transport).run acts
    let h := s.history
    let c := s.connection
    received (publications h) ++ received s.batch = arrivals h ∧
    hearings h ++ c.signals.toList <+: emissions c.log ∧
    (c.serving = true → hearings h ++ c.signals.toList = emissions c.log) := by
  have hf := System.faithful_run config transport acts
  have ho := System.ordered_run config transport acts
  intro s h c
  refine ⟨?_, ho.order, ho.complete⟩
  rw [← received_append]
  exact hf

end Tether
