import Tether.Proofs.Attempts
import Tether.Proofs.Likeness
import Tether.Transport.Mock

/-!
# Signals of links that are over

A link is over when it is reported to have ended, when the transport refuses a payload because it
is gone, when the connection is stopped, or when another link is asked for. What a link has to say
after that may still be in the inbox, or may come at any time. Here it is shown that none of it is
ever noticed: two runs that differ in such signals only show the same to whoever looks.

Two things are needed for it. A signal of an earlier generation is told by its generation. But the
generation goes up with the next attempt or the next stop only, not with the end of a link, so a
late signal may well be of the present one. Then the connection has no link, and in such a state no
report counts.
-/

namespace Tether

/-- After this, the link of a generation is over. -/
def Mark.isFatal (generation : Generation) : Mark → Bool
  | stopped | opened .. => true
  | sent _ (some error) => error.meansLinkLost
  | heard signal => signal.generation = generation && signal.report.isEnd
  | _ => false

/-- What was told since the link of a generation was asked for. -/
def since (generation : Generation) : List Mark → List Mark
  | [] => []
  | .opened _ g :: h => if g = generation then h else since generation h
  | _ :: h => since generation h

/-- The link of a generation is over. -/
def isOver (generation : Generation) (h : List Mark) : Bool :=
  (since generation h).any (·.isFatal generation)

theorem exists_of_isOver {g : Generation} {h : List Mark} (ho : isOver g h = true) :
    ∃ pre endpoint post, h = pre ++ .opened endpoint g :: post ∧
      ∃ m ∈ post, m.isFatal g = true := by
  induction h with
  | nil => cases ho
  | cons m h ih =>
    -- Unless this is where the link is asked for, it stands in what follows.
    have hskip : isOver g h = true → ∃ pre endpoint post,
        m :: h = pre ++ .opened endpoint g :: post ∧ ∃ m ∈ post, m.isFatal g = true := by
      intro ho
      obtain ⟨pre, endpoint, post, rfl, hm⟩ := ih ho
      exact ⟨m :: pre, endpoint, post, rfl, hm⟩
    cases m with
    | opened endpoint g' =>
      by_cases hg : g' = g
      · subst hg
        rw [isOver, since, if_pos rfl] at ho
        exact ⟨[], endpoint, h, rfl, List.any_eq_true.mp ho⟩
      · rw [isOver, since, if_neg hg] at ho
        exact hskip ho
    | _ => exact hskip ho

/-! ## Without a link -/

namespace Phase

/-- The link that is asked for and has not proved to be gone. -/
def intact? : Phase → Option Generation
  | pending generation | up generation => some generation
  | _ => none

theorem Step.intact_origin {φ χ : Phase} {m : Mark} {g : Generation} (hs : Step φ m χ)
    (hχ : χ.intact? = some g) : φ.intact? = some g ∨ ∃ endpoint, m = .opened endpoint g := by
  cases hs with
  | first endpoint g' | again _ endpoint g' =>
    obtain rfl : g' = g := Option.some.inj hχ
    exact Or.inr ⟨endpoint, rfl⟩
  | confirm | accept | refuse | pass => exact Or.inl hχ
  | start | fail | finish | close | arm | fire | take | stop => cases hχ

theorem Path.intact_origin {h : List Mark} {φ ψ : Phase} {g : Generation} (hp : Path φ h ψ)
    (hψ : ψ.intact? = some g) : φ.intact? = some g ∨ ∃ endpoint, .opened endpoint g ∈ h := by
  induction h generalizing φ with
  | nil => exact Or.inl (hp ▸ hψ)
  | cons m h ih =>
    obtain ⟨χ, hs, hp⟩ := hp
    rcases ih hp with hχ | ⟨endpoint, hmem⟩
    · rcases hs.intact_origin hχ with hφ | ⟨endpoint, rfl⟩
      · exact Or.inl hφ
      · exact Or.inr ⟨endpoint, List.mem_cons_self ..⟩
    · exact Or.inr ⟨endpoint, List.mem_cons_of_mem _ hmem⟩

theorem Step.not_intact {φ χ : Phase} {m : Mark} {g : Generation} (hs : Step φ m χ)
    (hm : m.isFatal g = true) (hn : ∀ endpoint, m ≠ .opened endpoint g) : χ.intact? ≠ some g := by
  intro hχ
  have hquiet : m.isQuiet = true → m.reportsEnd g = false → False := by
    intro hq he
    cases m <;> simp_all [Mark.isFatal, Mark.isQuiet, Mark.reportsEnd]
  cases hs with
  | first endpoint g' | again _ endpoint g' =>
    obtain rfl : g' = g := Option.some.inj hχ
    exact hn endpoint rfl
  | confirm g' => simp [Mark.isFatal, Report.isEnd] at hm
  | accept => cases hm
  | refuse _ _ _ he => simp [Mark.isFatal, he] at hm
  | pass _ _ hi =>
    cases hi with
    | pending g' hq _ he | up g' hq he =>
      obtain rfl : g' = g := Option.some.inj hχ
      exact hquiet hq he
    | rest | waiting | elapsed => cases hχ
  | start | fail | finish | close | arm | fire | take | stop => cases hχ

end Phase

/-- A link is asked for under a generation once. -/
theorem Dated.opened_once {present g : Generation} {ended : Prop} {pre post : List Mark}
    {endpoint endpoint' : Endpoint} (hd : Dated present ended (pre ++ .opened endpoint g :: post)) :
    .opened endpoint' g ∉ post := by
  intro hmem
  have hg : g ∈ Tether.openings post := List.mem_filterMap.mpr ⟨_, hmem, rfl⟩
  have hpair := hd.openings
  rw [openings_append] at hpair
  have hlt := (List.pairwise_cons.mp (List.pairwise_append.mp hpair).2.1).1 g hg
  exact Nat.lt_irrefl _ hlt

namespace System

variable {τ υ : Type}

/-- Once the link of the present generation is over, the connection has no link. -/
theorem Tracked.hasLink_eq_false {φ : Phase} {s : System τ} (h : Tracked φ s)
    (ho : isOver s.connection.generation s.history = true) :
    s.connection.state.hasLink = false := by
  by_contra hl
  have hintact : φ.intact? = some s.connection.generation := by
    rcases h.mirrors.of_hasLink (by simpa using hl) with hφ | hφ <;> rw [hφ] <;> rfl
  obtain ⟨pre, endpoint, post, hhist, m, hm, hfatal⟩ := exists_of_isOver ho
  have hpath := h.path
  have hdated := h.dated
  rw [hhist] at hpath hdated
  obtain ⟨a, b, rfl⟩ := List.append_of_mem hm
  have hnone : ∀ endpoint', .opened endpoint' s.connection.generation ∉ a ++ m :: b :=
    fun _ => hdated.opened_once
  obtain ⟨_, _, -, -, hafter⟩ := hpath.at
  obtain ⟨_, ω, -, hstep, hrest⟩ := hafter.at
  rcases hrest.intact_origin hintact with hω | ⟨endpoint', hmem⟩
  · refine hstep.not_intact hfatal ?_ hω
    rintro endpoint' rfl
    exact hnone endpoint' (by simp)
  · exact hnone endpoint' (by simp [hmem])

/-- An act that may be added to a run: a link reports something more, or the loop, with no errand to
do, takes nothing or the signal of a link that is over. -/
def isBelated (s : System τ) : Act → Bool
  | .hear _ => true
  | .turn => s.connection.errands.isEmpty &&
      s.nextSignal?.all fun signal => isOver signal.generation s.history
  | _ => false

/-- Two runs that differ in belated acts only. Acts that both have are done to both at once, and a
turn that both take is for the same signal. -/
inductive Alongside [Transport τ] [Transport υ] :
    System τ → System υ → List Act → List Act → Prop where
  | done (s : System τ) (t : System υ) : Alongside s t [] []
  | both {s : System τ} {t : System υ} {acts acts' : List Act} (act : Act)
      (hx : act = .turn → s.nextSignal? = t.nextSignal?)
      (h : Alongside (s.step act) (t.step act) acts acts') :
      Alongside s t (act :: acts) (act :: acts')
  | left {s : System τ} {t : System υ} {acts acts' : List Act} (act : Act)
      (hb : s.isBelated act = true) (h : Alongside (s.step act) t acts acts') :
      Alongside s t (act :: acts) acts'
  | right {s : System τ} {t : System υ} {acts acts' : List Act} (act : Act)
      (hb : t.isBelated act = true) (h : Alongside s (t.step act) acts acts') :
      Alongside s t acts (act :: acts')

variable [Transport τ] [Transport υ]

/-- A signal of a link that is over leaves a note at most. -/
theorem onSignal_of_isOver {φ : Phase} {s : System τ} (h : Tracked φ s) {signal : Signal}
    (ho : isOver signal.generation s.history = true) (rest : Fifo Signal) :
    ∃ ns, (s.connection.hearing signal rest).onSignal signal =
      ((s.connection.hearing signal rest).notes ns, []) := by
  by_cases hg : signal.generation = s.connection.generation
  · have hl : s.connection.state.hasLink = false := h.hasLink_eq_false (hg ▸ ho)
    have hr := (s.connection.hearing signal rest).report_spec signal.report
    rw [(s.connection.hearing signal rest).onSignal_of_eq hg]
    generalize (s.connection.hearing signal rest).onReport signal.report = result at hr
    -- Without a link, a report is neither a confirmation nor a message nor an end.
    cases hr with
    | confirmed _ hc =>
      have hc : s.connection.state = .connecting := hc
      simp [hc, State.hasLink] at hl
    | delivered _ _ hc =>
      have hc : s.connection.state = .opened := hc
      simp [hc, State.hasLink] at hl
    | ended _ _ _ _ hc =>
      have hc : s.connection.state.hasLink = true := hc
      simp [hc] at hl
    | ignored ns => exact ⟨ns, rfl⟩
  · exact ⟨[.staleSignal signal.generation s.connection.generation],
      (s.connection.hearing signal rest).onSignal_of_ne hg⟩

/-- A belated act leaves a system as it was, apart from signals and log. -/
theorem like_of_isBelated {φ : Phase} {s : System τ} (h : Tracked φ s) {act : Act}
    (ha : s.isBelated act = true) : Like (· = ·) s (s.step act) := by
  cases act with
  | hear signal => exact ⟨(Like.refl s).connection.hear_right signal, rfl, rfl⟩
  | turn =>
    obtain ⟨he, hover⟩ := Bool.and_eq_true_iff.mp ha
    have he := List.isEmpty_iff.mp he
    unfold System.step
    dsimp only
    split
    · next hb =>
      have hb := List.isEmpty_iff.mp hb
      cases hv : s.connection.serving with
      | false =>
        rw [turn_of_rest (Or.inl hv)]
        exact .refl s
      | true =>
        cases hp : s.connection.signals.pop? with
        | none =>
          rw [turn_of_rest (Or.inr ⟨he, hp⟩)]
          exact .refl s
        | some next =>
          obtain ⟨signal, rest⟩ := next
          rw [nextSignal?_eq hb hv he, hp] at hover
          obtain ⟨ns, hns⟩ := onSignal_of_isOver h hover rest
          have hheard : unheard (s.connection.transport.history ++ [.heard signal]) =
              unheard s.connection.transport.history := by
            rw [unheard_append]
            exact List.append_nil _
          rw [turn_of_signal hv he hp, hns, Connection.notes_eq, conclude_nil hb]
          · refine ⟨⟨?_, rfl⟩, rfl, rfl⟩
            show s.connection.muted = { s.connection.muted with
              transport := unheard (s.connection.transport.history ++ [.heard signal]) }
            rw [hheard]
            rfl
          · exact Or.inl rfl
          · rfl
    · exact .refl s
  | _ => cases ha

end System

/-- What can be seen of a connection from outside, apart from its log: how it stands, what is in its
queue, and what was told of it apart from what it heard, so the calls of the transport, the
publications, the receipts and the timers among it. -/
structure Glimpse where
  state : State
  generation : Generation
  attempts : Nat
  queue : List Message
  told : List Mark
  deriving DecidableEq

namespace System

variable {τ υ : Type}

/-- What can be seen now. -/
def glimpse (s : System τ) : Glimpse where
  state := s.connection.state
  generation := s.connection.generation
  attempts := s.connection.backoff.attempts
  queue := s.connection.outbox.messages.toList
  told := unheard s.history

theorem Like.glimpse {R : τ → υ → Prop} {s : System τ} {t : System υ} (h : Like R s t) :
    s.glimpse = t.glimpse := by
  unfold System.glimpse
  rw [h.connection.state, h.connection.generation, h.connection.backoff, h.connection.outbox]
  exact congrArg (Glimpse.mk _ _ _ _) h.connection.history

variable [Transport τ] [Transport υ]

/-- What can be seen in the course of a run, change by change. -/
def course : System τ → List Act → List Glimpse
  | s, [] => [s.glimpse]
  | s, act :: acts =>
    if (s.step act).glimpse = s.glimpse then (s.step act).course acts
    else s.glimpse :: (s.step act).course acts

/-- A belated act does not show. -/
theorem course_cons {s : System τ} {act : Act} (hs : Like (· = ·) s (s.step act))
    (acts : List Act) : s.course (act :: acts) = (s.step act).course acts :=
  if_pos hs.glimpse.symm

theorem Alongside.course_eq {R : τ → υ → Prop} (hR : Transport.Alike R) {s : System τ}
    {t : System υ} {acts acts' : List Act} (ha : Alongside s t acts acts') (hs : Traced s)
    (ht : Traced t) (h : Like R s t) : s.course acts = t.course acts' := by
  induction ha with
  | done => exact congrArg (fun g => [g]) h.glimpse
  | both act hx _ ih =>
    have hnext := h.step hR act hx
    have hrest := ih (hs.step act) (ht.step act) hnext
    unfold course
    rw [h.glimpse, hnext.glimpse, hrest]
  | left act hb _ ih =>
    obtain ⟨φ, hφ⟩ := hs.2
    have hl := like_of_isBelated hφ hb
    rw [course_cons hl]
    exact ih (hs.step act) ht (h.congr_left hl)
  | right act hb _ ih =>
    obtain ⟨φ, hφ⟩ := ht.2
    have hl := like_of_isBelated hφ hb
    rw [course_cons hl]
    exact ih hs (ht.step act) (h.congr_right hl)

end System

/-- Nothing that a link says after it is over is ever noticed. Of two runs, over transports that
answer alike, that differ in signals only, all of which are taken when their link is over, the same
can be seen, change by change: the states, the generations and attempts, the queue, the calls of the
transport and what is published. -/
theorem late_signals_unobservable {τ υ : Type} [Transport τ] [Transport υ] {R : τ → υ → Prop}
    (hR : Transport.Alike R) (config : Config) {t : τ} {u : υ} (htu : R t u) {acts acts' : List Act}
    (h : System.Alongside (System.init config t) (System.init config u) acts acts') :
    (System.init config t).course acts = (System.init config u).course acts' :=
  h.course_eq hR (.init config t) (.init config u) (.init config htu)

theorem late_signals_unobservable_once_lost :
    let s := System.init {} ({} : Mock Generation)
    let lost : List Act :=
      [.start "ws://a", .hear ⟨⟨1⟩, .failed "refused"⟩, .turn, .publish, .publish]
    let late : List Act := [.hear ⟨⟨1⟩, .opened⟩, .hear ⟨⟨1⟩, .closed 1000 ""⟩, .turn, .turn]
    let retry : List Act := [.elapse, .turn]
    System.Alongside s s (lost ++ retry) (lost ++ late ++ retry ++ late) ∧
      s.course (lost ++ retry) = s.course (lost ++ late ++ retry ++ late) := by
  intro s lost late retry
  have h : System.Alongside s s (lost ++ retry) (lost ++ late ++ retry ++ late) := by
    refine .both _ (fun _ => rfl) (.both _ (fun _ => rfl) (.both _ (fun _ => rfl) ?_))
    refine .both _ (fun _ => rfl) (.both _ (fun _ => rfl) ?_)
    refine .right _ rfl (.right _ rfl (.right _ ?_ (.right _ ?_ ?_)))
    · decide +kernel
    · decide +kernel
    refine .both _ nofun (.both _ (fun _ => ?_) ?_)
    · decide +kernel
    refine .right _ rfl (.right _ rfl (.right _ ?_ (.right _ ?_ (.done _ _))))
    · decide +kernel
    · decide +kernel
  exact ⟨h, late_signals_unobservable Transport.alike_eq {} rfl h⟩

end Tether
