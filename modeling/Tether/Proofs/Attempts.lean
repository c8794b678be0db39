import Tether.Proofs.Lifecycle
import Tether.Proofs.Phases

/-!
# Attempts

The history of every run follows the grammar of histories, and the phase that it has come to agrees
with the state of the connection. What makes this an invariant is the part about timers: the errand
of a timer may stay in the inbox while the connection is stopped and started again, but then it is
of an older generation than the connection, and of the present generation there is none unless the
phase says that its timer has fired.
-/

namespace Tether

/-- A report that ends a link counts as long as there is one. -/
theorem Report.countsIn_of_isEnd {report : Report} (h : report.isEnd = true) (state : State) :
    report.countsIn state = state.hasLink := by
  cases report <;> first | rfl | cases h

theorem Report.isEnd_of_ending {report : Report} {code : Nat} {reason : String}
    (h : report.ending? = some (code, reason)) : report.isEnd = true := by
  cases report <;> first | rfl | cases h

/-- What is told about publications and the queue. -/
def Mark.isNeutral : Mark → Bool
  | queued .. | handed _ | published _ => true
  | _ => false

namespace Phase

variable {τ : Type}

/-- The phase agrees with the state of a connection. -/
def Mirrors (c : Connection (Recorded τ)) : Phase → Prop
  | rest => c.state.isStartable = true
  | pending generation => c.state = .connecting ∧ generation = c.generation
  | up generation => c.state = .opened ∧ generation = c.generation
  | waiting generation | elapsed generation => c.state = .reconnecting ∧ generation = c.generation
  | granted | failing _ | broken _ | due _ => False

variable {φ : Phase} {c : Connection (Recorded τ)}

/-- Only state and generation matter. -/
theorem Mirrors.congr (h : φ.Mirrors c) {d : Connection (Recorded τ)} (hs : d.state = c.state)
    (hg : d.generation = c.generation) : φ.Mirrors d := by
  unfold Mirrors at h ⊢
  rw [hs, hg]
  exact h

theorem Mirrors.of_startable (h : φ.Mirrors c) (hs : c.state.isStartable = true) : φ = rest := by
  cases φ <;> simp_all [Mirrors, State.isStartable]

theorem Mirrors.of_connecting (h : φ.Mirrors c) (hs : c.state = .connecting) :
    φ = pending c.generation := by
  cases φ <;> simp_all [Mirrors, State.isStartable]

theorem Mirrors.of_opened (h : φ.Mirrors c) (hs : c.state = .opened) : φ = up c.generation := by
  cases φ <;> simp_all [Mirrors, State.isStartable]

theorem Mirrors.of_reconnecting (h : φ.Mirrors c) (hs : c.state = .reconnecting) :
    φ = waiting c.generation ∨ φ = elapsed c.generation := by
  cases φ <;> simp_all [Mirrors, State.isStartable]

theorem Mirrors.of_hasLink (h : φ.Mirrors c) (hs : c.state.hasLink = true) :
    φ = pending c.generation ∨ φ = up c.generation := by
  cases φ <;> simp_all [Mirrors, State.hasLink, State.isStartable]
  cases hst : c.state <;> simp_all

/-- Without a link there is nothing to close before a stop. -/
theorem Mirrors.stop (h : φ.Mirrors c) (hs : c.state.hasLink = false) : Step φ .stopped rest := by
  refine .stop φ ?_
  cases φ with
  | rest => exact Or.inl rfl
  | waiting g => exact Or.inr (Or.inr (Or.inl ⟨g, rfl⟩))
  | elapsed g => exact Or.inr (Or.inr (Or.inr ⟨g, rfl⟩))
  | pending g | up g => simp [h.1, State.hasLink] at hs
  | granted | failing _ | broken _ | due _ => cases h

/-- What makes no difference for a connection makes none for its phase. -/
theorem Mirrors.indifferent (h : φ.Mirrors c) {m : Mark} (hq : m.isQuiet = true)
    (ho : c.state = .connecting → m ≠ .heard ⟨c.generation, .opened⟩)
    (he : c.state.hasLink = true → m.reportsEnd c.generation = false)
    (hf : c.state = .reconnecting → m ≠ .fired c.generation)
    (hr : c.state = .reconnecting → m ≠ .retrying c.generation) : Indifferent m φ := by
  cases φ with
  | rest => exact .rest hq
  | pending g =>
    obtain ⟨hs, rfl⟩ := h
    exact .pending _ hq (ho hs) (he (by rw [hs]; rfl))
  | up g =>
    obtain ⟨hs, rfl⟩ := h
    exact .up _ hq (he (by rw [hs]; rfl))
  | waiting g =>
    obtain ⟨hs, rfl⟩ := h
    exact .waiting _ hq (hf hs)
  | elapsed g =>
    obtain ⟨hs, rfl⟩ := h
    exact .elapsed _ hq (hr hs)
  | granted | failing _ | broken _ | due _ => cases h

/-- What is told about publications and the queue makes no difference. -/
theorem Mirrors.indifferent_of_isNeutral (h : φ.Mirrors c) {m : Mark} (hm : m.isNeutral = true) :
    Indifferent m φ := by
  cases m with
  | queued | handed | published =>
    exact h.indifferent rfl (by simp) (fun _ => rfl) (by simp) (by simp)
  | _ => cases hm

end Phase

namespace System

variable {τ : Type} {φ ψ : Phase} {s : System τ}

/-- A system whose history has come to a phase. -/
structure Tracked (φ : Phase) (s : System τ) : Prop where
  /-- The history follows the grammar. -/
  path : Phase.Path .rest s.history φ
  /-- The phase agrees with the state. -/
  mirrors : φ.Mirrors s.connection
  /-- The errand of a timer is out of date, or the phase says that the timer has fired. -/
  errand : ∀ g, .retry g ∈ s.connection.errands →
    g.value < s.connection.generation.value ∨ φ = .elapsed g
  /-- The timer is that of the present generation. -/
  timer : ∀ t, s.connection.timer = some t → t.generation = s.connection.generation
  /-- The generations in the history go up to the present one. -/
  dated : Dated s.connection.generation (s.connection.state = .reconnecting) s.history

theorem Tracked.init (config : Config) (transport : τ) :
    Tracked .rest (init config transport) where
  path := rfl
  mirrors := rfl
  errand := by simp [System.init, Connection.create]
  timer := by simp [System.init, Connection.create]
  dated := .nil _ _

/-- No errand of a timer is of a later generation than the present one. -/
theorem Tracked.errand_le (h : Tracked φ s) {g : Generation}
    (hg : .retry g ∈ s.connection.errands) : g.value ≤ s.connection.generation.value := by
  rcases h.errand g hg with hlt | rfl
  · omega
  · exact Nat.le_of_eq (congrArg Generation.value h.mirrors.2)

/-! ## What leaves the phase as it is -/

/-- As long as state, generation and the errands of timers stay, anything may be told that leads
back to the phase. -/
theorem Tracked.stay (h : Tracked φ s) {c : Connection (Recorded τ)} {ms : List Mark}
    (hh : c.transport.history = s.history ++ ms) (hp : Phase.Path φ ms φ)
    (hm : ∀ m ∈ ms, m.isNumbered = false) (hs : c.state = s.connection.state)
    (hg : c.generation = s.connection.generation)
    (he : ∀ g, .retry g ∈ c.errands → .retry g ∈ s.connection.errands)
    (ht : c.timer = s.connection.timer) : Tracked φ (s.put c) := by
  refine { path := ?_, mirrors := h.mirrors.congr hs hg, errand := ?_, timer := ?_, dated := ?_ }
  · show Phase.Path .rest c.transport.history φ
    rw [hh]
    exact Phase.path_append.mpr ⟨φ, h.path, hp⟩
  · show ∀ g, .retry g ∈ c.errands → g.value < c.generation.value ∨ φ = .elapsed g
    intro g hmem
    rw [hg]
    exact h.errand g (he g hmem)
  · show ∀ t, c.timer = some t → t.generation = c.generation
    rw [hg, ht]
    exact h.timer
  · show Dated c.generation (c.state = .reconnecting) c.transport.history
    rw [hh, hg, hs]
    exact h.dated.append hm

/-- In particular, whatever makes no difference in the phase may be told. -/
theorem Tracked.pass (h : Tracked φ s) {c : Connection (Recorded τ)} {ms : List Mark}
    (hh : c.transport.history = s.history ++ ms) (hm : ∀ m ∈ ms, Phase.Indifferent m φ)
    (hs : c.state = s.connection.state) (hg : c.generation = s.connection.generation)
    (he : ∀ g, .retry g ∈ c.errands → .retry g ∈ s.connection.errands)
    (ht : c.timer = s.connection.timer) : Tracked φ (s.put c) :=
  h.stay hh (Phase.path_of_indifferent hm) (fun m hmem => (hm m hmem).isNumbered) hs hg he ht

/-- So may what has left the queue. -/
theorem Tracked.conclude {c : Connection (Recorded τ)} (h : Tracked φ (s.put c))
    {events : List Event} (ht : c.timer = s.connection.timer) :
    Tracked φ (s.conclude (c, events)) := by
  have hm : ∀ m ∈ s.connection.aftermath c, Phase.Indifferent m φ := by
    intro m hm
    rw [Connection.aftermath, Connection.timerMarks_eq_nil (Or.inl ht), List.nil_append] at hm
    obtain ⟨ids, rfl⟩ := Connection.eq_handed_of_mem_queueMarks hm
    exact h.mirrors.indifferent_of_isNeutral rfl
  have hp : Tracked φ (s.put (c.marks (s.connection.aftermath c))) :=
    h.pass rfl hm rfl rfl (fun _ => id) rfl
  exact { hp with }

/-! ## What goes over to another phase -/

/-- A timer of an earlier generation, or of the present one that is over, puts its errand in. If it
is of the present one, its timer has fired now, whether it had before or not. -/
theorem Tracked.fire (h : Tracked φ s) {c : Connection (Recorded τ)} {g : Generation}
    (hg : g.value < s.connection.generation.value ∨
      g = s.connection.generation ∧ s.connection.state = .reconnecting)
    (hh : c.transport.history = s.history)
    (hs : c.state = s.connection.state) (hgen : c.generation = s.connection.generation)
    (he : c.errands = s.connection.errands)
    (ht : ∀ t, c.timer = some t → t.generation = s.connection.generation) :
    ∃ ψ, Tracked ψ (s.put ((c.assign (.retry g)).marks [.fired g])) := by
  have herr : ∀ g', .retry g' ∈ (c.assign (.retry g)).errands →
      .retry g' ∈ s.connection.errands ∨ g' = g := by
    intro g' hmem
    rcases mem_errands_assign hmem with hmem | hmem
    · exact Or.inl (he ▸ hmem)
    · exact Or.inr (Errand.retry.inj hmem)
  rw [Connection.assign_eq] at herr ⊢
  -- What the new errand and the new mark mean depends on the phase alone.
  have hfire : ∀ ψ, Phase.Step φ (.fired g) ψ → ψ.Mirrors c →
      (∀ g', φ = .elapsed g' → ψ = .elapsed g') →
      (g.value < s.connection.generation.value ∨ ψ = .elapsed g) →
      Tracked ψ (s.put ({ c with
        errands := if c.serving then c.errands ++ [Errand.retry g] else c.errands }.marks
          [.fired g])) := by
    intro ψ hstep hmir hkeep hnew
    refine { path := ?_, mirrors := hmir.congr rfl rfl, errand := ?_, timer := ?_, dated := ?_ }
    · show Phase.Path .rest (c.transport.history ++ [.fired g]) ψ
      rw [hh]
      exact h.path.snoc hstep
    · intro g' hmem
      show g'.value < c.generation.value ∨ ψ = .elapsed g'
      rw [hgen]
      rcases herr g' hmem with hold | rfl
      · exact (h.errand g' hold).imp_right (hkeep g')
      · exact hnew
    · show ∀ t, c.timer = some t → t.generation = c.generation
      rw [hgen]
      exact ht
    · show Dated c.generation (c.state = .reconnecting) (c.transport.history ++ [.fired g])
      rw [hh, hgen, hs]
      exact h.dated.snoc rfl
  have hmir : φ.Mirrors c := h.mirrors.congr hs hgen
  by_cases hnow : g = s.connection.generation ∧ s.connection.state = .reconnecting
  · obtain ⟨rfl, hrec⟩ := hnow
    have helapsed : Phase.Mirrors c (.elapsed s.connection.generation) := ⟨hs.trans hrec, hgen.symm⟩
    rcases h.mirrors.of_reconnecting hrec with rfl | rfl
    · exact ⟨_, hfire _ (.fire _) helapsed (fun _ hf => by cases hf) (Or.inr rfl)⟩
    · exact ⟨_, hfire _ (.pass _ _ (.elapsed _ rfl (by simp))) helapsed (fun _ hf => hf)
        (Or.inr rfl)⟩
  · have hlt : g.value < s.connection.generation.value :=
      hg.resolve_right hnow
    have hne : g ≠ s.connection.generation := fun heq => by
      rw [heq] at hlt
      exact Nat.lt_irrefl _ hlt
    refine ⟨φ, hfire φ (.pass _ _ ?_) hmir (fun _ hf => hf) (Or.inl hlt)⟩
    exact h.mirrors.indifferent rfl (by simp) (fun _ => rfl)
      (fun _ hf => hne (Mark.fired.inj hf)) (by simp)

variable [Transport τ]

/-- An attempt is made, once what was told last has led to a phase that allows it. -/
theorem Tracked.openLink (h : Tracked φ s) {c : Connection (Recorded τ)} {m : Mark} {χ : Phase}
    {endpoint : Endpoint} (he : c.endpoint = some endpoint)
    (hh : c.transport.history = s.history ++ [m]) (hs : Phase.Step φ m χ)
    (hχ : ∀ g, Phase.Step χ (.opened endpoint g) (.pending g))
    (hm : m.isNumbered = false)
    (hg : c.generation = s.connection.generation) (ht : c.timer = none)
    (herr : ∀ g, .retry g ∈ c.errands → .retry g ∈ s.connection.errands) :
    Tracked (.pending s.connection.generation.next) (s.put c.openLink) := by
  obtain ⟨base, signals, log, hc, -⟩ := c.openLink_eq he
  rw [hc, hg, hh]
  refine { path := ?_, mirrors := ⟨rfl, rfl⟩, errand := ?_, timer := ?_, dated := ?_ }
  · exact (h.path.snoc hs).snoc (hχ _)
  · intro g hmem
    exact Or.inl (Nat.lt_succ_of_le (h.errand_le (herr g hmem)))
  · intro t hsome
    have hsome : c.timer = some t := hsome
    rw [ht] at hsome
    cases hsome
  · exact (h.dated.snoc hm).openNext endpoint _

omit [Transport τ] in
/-- A link is lost, and the timer is armed. -/
theorem Tracked.lose (h : Tracked φ s) (hl : s.connection.state.hasLink = true)
    (hn : s.connection.timer = none) {c : Connection (Recorded τ)} {events : List Event}
    {ms : List Mark} {due : Nat}
    (hh : c.transport.history = s.history ++ ms)
    (hp : Phase.Path φ ms (.broken s.connection.generation))
    (hm : ∀ m ∈ ms, m.isNumbered = false) (hs : c.state = .reconnecting)
    (hg : c.generation = s.connection.generation)
    (ht : c.timer = some { generation := s.connection.generation, due := due })
    (he : c.errands = s.connection.errands) :
    Tracked (.waiting s.connection.generation) (s.conclude (c, events)) := by
  have hmarks : s.connection.aftermath c = .armed s.connection.generation ::
      Connection.queueMarks s.connection.outbox.ids c.outbox.ids := by
    simp [Connection.aftermath, Connection.timerMarks, hn, ht]
  have hnr : ¬ s.connection.state = .reconnecting := by
    intro hr
    simp [hr, State.hasLink] at hl
  set hist := s.history ++ ms ++ [.armed s.connection.generation] with hdef
  have hist_eq : (s.conclude (c, events)).history =
      hist ++ Connection.queueMarks s.connection.outbox.ids c.outbox.ids := by
    show c.transport.history ++ s.connection.aftermath c = _
    rw [hmarks, hh, hdef]
    simp
  have hq : ∀ m ∈ Connection.queueMarks s.connection.outbox.ids c.outbox.ids,
      Phase.Indifferent m (.waiting s.connection.generation) := by
    intro m hm
    obtain ⟨ids, rfl⟩ := Connection.eq_handed_of_mem_queueMarks hm
    exact .waiting _ rfl (by simp)
  refine { path := ?_, mirrors := ⟨hs, hg.symm⟩, errand := ?_, timer := ?_, dated := ?_ }
  · rw [hist_eq]
    refine Phase.path_append.mpr ⟨_, ?_, Phase.path_of_indifferent hq⟩
    exact (Phase.path_append.mpr ⟨_, h.path, hp⟩).snoc (.arm _)
  · intro g hmem
    have hmem : .retry g ∈ c.errands := hmem
    rw [he] at hmem
    show g.value < c.generation.value ∨ _
    rw [hg]
    -- Of the present generation there is no errand of a timer, because it has a link.
    refine (h.errand g hmem).imp_right fun hφ => ?_
    rcases h.mirrors.of_hasLink hl with hφ' | hφ' <;> rw [hφ] at hφ' <;> cases hφ'
  · intro t hsome
    have hsome : c.timer = some t := hsome
    rw [ht] at hsome
    obtain rfl := Option.some.inj hsome
    exact hg.symm
  · rw [hist_eq]
    show Dated c.generation (c.state = .reconnecting) _
    rw [hg]
    exact ((h.dated.append hm).arm hnr hs).append fun m hmem => (hq m hmem).isNumbered

/-- A flush sends over a link that is up, and keeps it or loses it. -/
theorem Tracked.flush (h : Tracked φ s) (ho : Orderly s) (hs : s.connection.state = .opened) :
    ∃ ψ, Tracked ψ s.flush := by
  have hup : φ = .up s.connection.generation := h.mirrors.of_opened hs
  subst hup
  have hf := s.connection.flush_spec
  unfold System.flush
  generalize s.connection.flush.1 = c, s.connection.flush.2 = events at hf
  have hsent : ∀ sent : List Message, Phase.Path (.up s.connection.generation)
      (sent.map Message.acceptance) (.up s.connection.generation) := by
    intro sent
    induction sent with
    | nil => rfl
    | cons m sent ih => exact ⟨_, .accept _ _, ih⟩
  have hnum : ∀ sent : List Message, ∀ m ∈ sent.map Message.acceptance, m.isNumbered = false := by
    intro sent
    exact List.forall_mem_map.mpr fun _ _ => rfl
  cases hf with
  | drained base sent log hq hl =>
    refine ⟨.up s.connection.generation, Tracked.conclude ?_ rfl⟩
    exact h.stay rfl (hsent sent) (hnum sent) rfl rfl (fun _ => id) rfl
  | halted base sent m rest error log hq he hl =>
    refine ⟨.up s.connection.generation, Tracked.conclude ?_ rfl⟩
    refine h.stay rfl ((hsent sent).snoc (.refuse _ _ _ he)) ?_ rfl rfl (fun _ => id) rfl
    exact List.forall_mem_append.mpr ⟨hnum sent, List.forall_mem_singleton.mpr rfl⟩
  | lost base sent m rest error signals due log hq he hl =>
    refine ⟨.waiting s.connection.generation, ?_⟩
    refine h.lose (by simp [hs, State.hasLink]) (ho.timer_eq_none (by simp [hs])) rfl ?_ ?_ rfl
      rfl rfl rfl
    · exact Phase.path_append.mpr ⟨_, hsent sent, _, .fail _ _ _ he, _, .close _ _ rfl, rfl⟩
    · exact List.forall_mem_append.mpr ⟨hnum sent, by simp [Mark.isNumbered]⟩

/-- Stopping leads to rest. -/
theorem Tracked.stop (h : Tracked φ s) (ho : Orderly s) : Tracked .rest s.stop := by
  have hst := s.connection.stop_spec
  unfold System.stop
  generalize s.connection.stop = c at hst
  have herr : ∀ g, .retry g ∈ (s.connection.assign (.announce .stopped)).errands →
      g.value < s.connection.generation.next.value :=
    fun g hmem => Nat.lt_succ_of_le (h.errand_le (mem_errands_of_assign hmem (by simp)))
  rw [Connection.assign_eq] at herr
  cases hst with
  | already hs =>
    obtain rfl := h.mirrors.of_startable (by rw [hs]; rfl)
    exact h.stay rfl (Phase.path_singleton.mpr (.stop _ (Or.inl rfl)))
      (List.forall_mem_singleton.mpr rfl) rfl rfl (fun _ => id) rfl
  | unlinked log hs hv hl =>
    have hstep : Phase.Step φ .stopped .rest := h.mirrors.stop (by rw [← ho.live, hv])
    refine { path := h.path.snoc hstep, mirrors := rfl, timer := nofun, dated := ?_,
             errand := fun g hmem => Or.inl (herr g hmem) }
    exact (h.dated.next _).snoc rfl
  | linked base signals log hs hv hl =>
    have hlink : φ.link? = some s.connection.generation := by
      rcases h.mirrors.of_hasLink (by rw [← ho.live, hv]) with rfl | rfl <;> rfl
    refine { path := ?_, mirrors := rfl, errand := fun g hmem => Or.inl (herr g hmem),
             timer := nofun, dated := ?_ }
    · exact (h.path.snoc (.close _ _ hlink)).snoc (.stop _ (Or.inr (Or.inl ⟨_, rfl⟩)))
    · exact ((h.dated.next _).snoc rfl).snoc rfl

/-! ## Every move -/

/-- After every move the history has come to some phase. -/
theorem Tracked.move {s t : System τ} (h : Tracked φ s) (ho : Orderly s) (hm : Move s t) :
    ∃ ψ, Tracked ψ t := by
  cases hm with
  | note n hn => exact ⟨φ, { h with }⟩
  | hear signal =>
    obtain ⟨signals, hc⟩ := s.connection.hear_eq signal
    rw [hc]
    exact ⟨φ, { h with }⟩
  | wait millis => exact ⟨φ, { h with }⟩
  | grant endpoint hh hs =>
    obtain rfl := h.mirrors.of_startable hs
    refine ⟨_, h.openLink rfl rfl .start (fun g => .first endpoint g) rfl rfl ?_ (fun _ => id)⟩
    refine ho.timer_eq_none fun hr => ?_
    simp [hr, State.isStartable] at hs
  | stop => exact ⟨.rest, h.stop ho⟩
  | letGo hs =>
    have herr : ∀ g, .retry g ∈ (s.connection.assign .cease).errands →
        .retry g ∈ s.connection.errands :=
      fun g hg => mem_errands_of_assign hg (by simp)
    rw [Connection.assign_eq] at herr ⊢
    exact ⟨φ, { h with errand := fun g hg => h.errand g (herr g hg) }⟩
  | send payload =>
    obtain ⟨errands, log, hsend, he, -⟩ := s.send_eq payload
    rw [hsend]
    refine ⟨φ, h.pass rfl ?_ rfl rfl (fun g hg => ?_) rfl⟩
    · exact List.forall_mem_singleton.mpr (h.mirrors.indifferent_of_isNeutral rfl)
    · rcases he _ hg with hg | hg
      · exact hg
      · cases hg
  | fire t ht he =>
    have hrec : s.connection.state = .reconnecting := ho.timer.mp (by rw [ht]; rfl)
    refine h.fire (Or.inr ⟨h.timer t ht, hrec⟩) rfl rfl rfl rfl ?_
    intro t' ht'
    obtain rfl := Option.some.inj ht'
    exact h.timer t ht
  | straggle generation hg =>
    exact h.fire (h.dated.armed _ (mem_armings.mpr hg)) rfl rfl rfl rfl h.timer
  | publish event rest hb =>
    have hp : Tracked φ (s.put (s.connection.marks [.published event])) := by
      refine h.pass rfl ?_ rfl rfl (fun _ => id) rfl
      exact List.forall_mem_singleton.mpr (h.mirrors.indifferent_of_isNeutral rfl)
    exact ⟨φ, { hp with }⟩
  | announce event rest he =>
    exact ⟨φ, { h with errand := fun g hg => h.errand g (mem_errands_of_rest he hg) }⟩
  | check rest he =>
    exact ⟨φ, { h with errand := fun g hg => h.errand g (mem_errands_of_rest he hg) }⟩
  | stale generation rest he hs =>
    refine ⟨φ, h.pass rfl ?_ rfl rfl (fun g hg => mem_errands_of_rest he hg) rfl⟩
    refine List.forall_mem_singleton.mpr (h.mirrors.indifferent rfl (by simp) (fun _ => rfl)
      (by simp) fun hrec hr => ?_)
    exact hs ⟨hrec, (Mark.retrying.inj hr).symm⟩
  | retry rest he hs =>
    obtain ⟨endpoint, hendpoint⟩ := Option.isSome_iff_exists.mp
      (ho.endpoint (by simp [hs, State.isUnderWay]))
    -- The errand is of the present generation, so its timer has fired.
    have hφ : φ = .elapsed s.connection.generation := by
      rcases h.errand _ (by rw [he]; exact List.mem_cons_self ..) with hlt | hφ
      · exact absurd hlt (Nat.lt_irrefl _)
      · exact hφ
    subst hφ
    exact ⟨_, h.openLink hendpoint rfl (.take _) (fun g => .again _ endpoint g) rfl rfl rfl
      (fun g hg => mem_errands_of_rest he hg)⟩
  | cease rest he =>
    obtain ⟨log, hd, hl⟩ := Connection.disarm_eq { s.connection with errands := rest }
    unfold Connection.shut
    rw [hd]
    refine ⟨φ, { h with errand := ?_, timer := ?_ }⟩
    · intro g hg
      cases hg
    · intro t ht
      cases ht
  | ignore signal rest he hp hi =>
    refine ⟨φ, h.pass rfl (List.forall_mem_singleton.mpr ?_) rfl rfl (fun _ => id) rfl⟩
    refine h.mirrors.indifferent rfl ?_ ?_ (by simp) (by simp)
    · intro hs hm
      obtain rfl := Mark.heard.inj hm
      have := hi rfl
      simp [Report.countsIn, hs] at this
    · intro hs
      simp only [Mark.reportsEnd, Bool.and_eq_false_imp, decide_eq_true_eq]
      intro hg
      cases hend : signal.report.isEnd with
      | false => rfl
      | true =>
        have := hi hg
        rw [Report.countsIn_of_isEnd hend, hs] at this
        cases this
  | deliver payload rest he hp hs =>
    have hd : Tracked φ (s.put (s.connection.hearing
        ⟨s.connection.generation, .message payload⟩ rest)) := by
      refine h.pass rfl ?_ rfl rfl (fun _ => id) rfl
      refine List.forall_mem_singleton.mpr (h.mirrors.indifferent rfl (by simp) (fun _ => ?_)
        (by simp) (by simp))
      simp [Mark.reportsEnd, Report.isEnd]
    exact ⟨φ, { hd with }⟩
  | confirm rest he hp hs =>
    obtain rfl := h.mirrors.of_connecting hs
    have hd : Dated s.connection.generation (State.opened = .reconnecting) s.history :=
      h.dated.mono (by rw [hs]; intro hc; cases hc)
    exact ⟨.up s.connection.generation,
      { path := h.path.snoc (.confirm _)
        mirrors := ⟨rfl, rfl⟩
        errand := fun g hg => (h.errand g hg).imp_right fun hφ => by cases hφ
        timer := h.timer
        dated := hd.snoc rfl }⟩
  | lose report code reason rest he hp hr hs =>
    obtain ⟨due, log, hlose, hl⟩ := (s.connection.hearing
      ⟨s.connection.generation, report⟩ rest).loseLink_eq code reason
    rw [hlose]
    have hn : s.connection.timer = none :=
      ho.timer_eq_none fun hrec => by simp [hrec, State.hasLink] at hs
    refine ⟨.waiting s.connection.generation, ?_⟩
    refine h.lose hs hn rfl (Phase.path_singleton.mpr ?_) (List.forall_mem_singleton.mpr rfl)
      rfl rfl rfl rfl
    exact .finish φ _ report (h.mirrors.of_hasLink hs) (Report.isEnd_of_ending hr)
  | flush hs => exact h.flush ho hs

/-- A system as a run leaves it: in order, and with a history that follows the grammar. -/
def Traced (s : System τ) : Prop := Orderly s ∧ ∃ φ, Tracked φ s

omit [Transport τ] in
theorem Traced.init (config : Config) (transport : τ) : Traced (System.init config transport) :=
  ⟨Orderly.init config transport, .rest, Tracked.init config transport⟩

theorem Traced.move {s t : System τ} (h : Traced s) (hm : Move s t) : Traced t := by
  obtain ⟨ho, φ, ht⟩ := h
  exact ⟨ho.move hm, ht.move ho hm⟩

theorem Traced.step (h : Traced s) (act : Act) : Traced (s.step act) :=
  step_keeps (fun _ _ => Traced.move) h act

/-- The history of every run follows the grammar. -/
theorem tracked_run (config : Config) (transport : τ) (acts : List Act) :
    ∃ φ, Tracked φ ((System.init config transport).run acts) := by
  have h : Traced ((System.init config transport).run acts) :=
    run_induction (Traced.init config transport) (fun _ _ => Traced.move) acts
  exact h.2

end System

/-- Every attempt has its reason. Either a start was just granted, or the errand of a timer was just
taken: that timer was armed last of all, has fired since, and meanwhile there was no stop, no start
and no call of the transport. Every timer is armed for a generation of its own, and causes one
attempt at most. So once a stop has returned, a start must be granted before the next attempt,
whatever was still in the inboxes or under way when the connection was stopped. -/
theorem attempts_accounted_for {τ : Type} [Transport τ] (config : Config) (transport : τ)
    (acts : List Act) :
    let h := ((System.init config transport).run acts).history
    (∀ (pre : List Mark) endpoint g post, h = pre ++ .opened endpoint g :: post →
      (∃ p : List Mark, pre = p ++ [.started]) ∨
      ∃ (p : List Mark) (g' : Generation) (q : List Mark),
        pre = p ++ .armed g' :: (q ++ [.retrying g']) ∧ .fired g' ∈ q ∧
        ∀ m ∈ q, m.isQuiet = true) ∧
    (armings h).Pairwise (·.value < ·.value) ∧
    (∀ g (p q r : List Mark) endpoint₁ g₁ endpoint₂ g₂,
      h ≠ p ++ .retrying g :: .opened endpoint₁ g₁ ::
        (q ++ .retrying g :: .opened endpoint₂ g₂ :: r)) ∧
    (∀ (pre mid post : List Mark) endpoint g,
      h = pre ++ .stopped :: (mid ++ .opened endpoint g :: post) → .started ∈ mid) := by
  obtain ⟨φ, ht⟩ := System.tracked_run config transport acts
  intro h
  have hp : Phase.Path .rest h φ := ht.path
  have hd : (armings h).Pairwise (·.value < ·.value) := ht.dated.armings
  refine ⟨?_, hd, ?_, ?_⟩
  · intro pre endpoint g post heq
    rw [heq] at hp
    exact hp.opened_past
  · intro g p q r endpoint₁ g₁ endpoint₂ g₂ heq
    rw [heq] at hp hd
    obtain ⟨hfirst, hsecond⟩ := hp.retried_twice
    rw [armings_append] at hd
    have hlt : g.value < g.value := (List.pairwise_append.mp hd).2.2 g (mem_armings.mpr hfirst) g
      (mem_armings.mpr (by simp [hsecond]))
    exact Nat.lt_irrefl _ hlt
  · intro pre mid post endpoint g heq
    rw [heq] at hp
    exact hp.started_between

/-- There is one link at a time, and it is used only while it is confirmed. Between two attempts the
link of the earlier one was closed or heard to have ended. A payload is handed over only after the
latest link was heard to be open, and since it was asked for it was not closed, did not end and
refused nothing because it was gone. Only such a link is closed that was neither closed nor heard to
have ended since it was asked for. And every attempt has a later generation than those before it. -/
theorem links_used_while_confirmed {τ : Type} [Transport τ] (config : Config) (transport : τ)
    (acts : List Act) :
    let h := ((System.init config transport).run acts).history
    (∀ (pre mid post : List Mark) endpoint₁ g₁ endpoint₂ g₂,
      h = pre ++ .opened endpoint₁ g₁ :: (mid ++ .opened endpoint₂ g₂ :: post) →
      ∃ m ∈ mid, m.ends g₁ = true) ∧
    (∀ (pre post : List Mark) payload refusal, h = pre ++ .sent payload refusal :: post →
      ∃ (a : List Mark) (endpoint : Endpoint) (g : Generation) (b c : List Mark),
        pre = a ++ .opened endpoint g :: (b ++ .heard ⟨g, .opened⟩ :: c) ∧
        ∀ m ∈ b ++ c, m.isOpening = false ∧ m.ends g = false ∧ m.isLoss = false) ∧
    (∀ pre post : List Mark, h = pre ++ .closed :: post →
      ∃ (a : List Mark) (endpoint : Endpoint) (g : Generation) (b : List Mark),
        pre = a ++ .opened endpoint g :: b ∧
        ∀ m ∈ b, m.isOpening = false ∧ m.ends g = false) ∧
    (openings h).Pairwise (·.value < ·.value) := by
  obtain ⟨φ, ht⟩ := System.tracked_run config transport acts
  intro h
  have hp : Phase.Path .rest h φ := ht.path
  refine ⟨?_, ?_, ?_, ht.dated.openings⟩
  · intro pre mid post endpoint₁ g₁ endpoint₂ g₂ heq
    rw [heq] at hp
    exact hp.ended_between
  · intro pre post payload refusal heq
    rw [heq] at hp
    obtain ⟨a, endpoint, g, b, c, hpre, hbc⟩ := hp.sent_past
    exact ⟨a, endpoint, g, b, c, hpre, fun m hm => and_assoc.mp (hbc m hm)⟩
  · intro pre post heq
    rw [heq] at hp
    exact hp.closed_past

end Tether
