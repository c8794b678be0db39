import Mathlib.Data.List.Induction
import Tether.Proofs.History

/-!
# The grammar of histories

A history is read from its beginning, and the phase says how far a connection has come: whether
anything entitles it to ask for a link, whether a link is asked for, confirmed, failing or gone,
and how far the timer for the next attempt is. `Phase.Step` lists what may be told in which phase.
Four phases are passing: what may be told next is fixed there.

The second half of the module reads histories backwards: what must have been told before a phase is
reached, and what cannot have been told since.
-/

namespace Tether

/-- Whether a report ends its link. -/
def Report.isEnd : Report → Bool
  | .closed _ _ | .failed _ => true
  | .opened | .message _ => false

namespace Mark

/-- What may be told while nothing changes for the links: no call of the transport, no start, no
stop, and no timer that is armed. -/
def isQuiet : Mark → Bool
  | queued .. | fired _ | retrying _ | heard _ | handed _ | published _ => true
  | started | stopped | armed _ | opened .. | sent .. | closed => false

/-- A link is asked for under a new generation, or a timer is armed for one. -/
def isNumbered : Mark → Bool
  | opened .. | armed _ => true
  | _ => false

/-- The link of this generation is reported to have ended. -/
def reportsEnd (generation : Generation) : Mark → Bool
  | heard signal => signal.generation = generation && signal.report.isEnd
  | _ => false

/-- The link of this generation is closed, or is reported to have ended. -/
def ends (generation : Generation) : Mark → Bool
  | closed => true
  | m => m.reportsEnd generation

/-- A link is asked for. -/
def isOpening : Mark → Bool
  | opened .. => true
  | _ => false

/-- A payload is refused because the link is gone. -/
def isLoss : Mark → Bool
  | sent _ (some error) => error.meansLinkLost
  | _ => false

/-- The link of this generation is neither replaced nor ended. -/
def Spares (generation : Generation) (m : Mark) : Prop :=
  m.isOpening = false ∧ m.ends generation = false

theorem spares_of_isQuiet {m : Mark} {generation : Generation} (hq : m.isQuiet = true)
    (he : m.reportsEnd generation = false) : m.Spares generation ∧ m.isLoss = false := by
  cases m <;> simp_all [Spares, isQuiet, isOpening, ends, reportsEnd, isLoss]

end Mark

/-- How far a connection has come. -/
inductive Phase where
  /-- It was never started, or was stopped. -/
  | rest
  /-- A start was granted; the link is asked for next. -/
  | granted
  /-- A link is asked for. -/
  | pending (generation : Generation)
  /-- The link is confirmed. -/
  | up (generation : Generation)
  /-- The link has proved to be gone; it is closed next. -/
  | failing (generation : Generation)
  /-- The link is over; either the timer is armed next, or a stop returns. -/
  | broken (generation : Generation)
  /-- The timer for the next attempt runs. -/
  | waiting (generation : Generation)
  /-- The timer has put its errand in. -/
  | elapsed (generation : Generation)
  /-- The errand of the timer was taken; the link is asked for next. -/
  | due (generation : Generation)
  deriving DecidableEq

namespace Phase

/-- The link that is asked for and not known to be over. -/
def link? : Phase → Option Generation
  | pending generation | up generation | failing generation => some generation
  | _ => none

/-- The generation whose timer is armed and has not led to the next attempt yet. -/
def timer? : Phase → Option Generation
  | waiting generation | elapsed generation | due generation => some generation
  | _ => none

/-- Something is told that makes no difference in a phase. In a passing phase nothing is. -/
inductive Indifferent (m : Mark) : Phase → Prop where
  | rest (hq : m.isQuiet = true) : Indifferent m rest
  | pending (generation : Generation) (hq : m.isQuiet = true)
      (ho : m ≠ .heard ⟨generation, .opened⟩) (he : m.reportsEnd generation = false) :
      Indifferent m (pending generation)
  | up (generation : Generation) (hq : m.isQuiet = true) (he : m.reportsEnd generation = false) :
      Indifferent m (up generation)
  | waiting (generation : Generation) (hq : m.isQuiet = true) (hf : m ≠ .fired generation) :
      Indifferent m (waiting generation)
  | elapsed (generation : Generation) (hq : m.isQuiet = true) (hr : m ≠ .retrying generation) :
      Indifferent m (elapsed generation)

/-- What may be told in a phase, and the phase that comes of it. -/
inductive Step : Phase → Mark → Phase → Prop where
  | start : Step rest .started granted
  | first (endpoint : Endpoint) (generation : Generation) :
      Step granted (.opened endpoint generation) (pending generation)
  | confirm (generation : Generation) :
      Step (pending generation) (.heard ⟨generation, .opened⟩) (up generation)
  | accept (generation : Generation) (payload : Payload) :
      Step (up generation) (.sent payload none) (up generation)
  | refuse (generation : Generation) (payload : Payload) (error : Error)
      (he : error.meansLinkLost = false) :
      Step (up generation) (.sent payload (some error)) (up generation)
  | fail (generation : Generation) (payload : Payload) (error : Error)
      (he : error.meansLinkLost = true) :
      Step (up generation) (.sent payload (some error)) (failing generation)
  | finish (φ : Phase) (generation : Generation) (report : Report)
      (hφ : φ = pending generation ∨ φ = up generation) (hr : report.isEnd = true) :
      Step φ (.heard ⟨generation, report⟩) (broken generation)
  | close (φ : Phase) (generation : Generation) (hφ : φ.link? = some generation) :
      Step φ .closed (broken generation)
  | arm (generation : Generation) :
      Step (broken generation) (.armed generation) (waiting generation)
  | fire (generation : Generation) :
      Step (waiting generation) (.fired generation) (elapsed generation)
  | take (generation : Generation) :
      Step (elapsed generation) (.retrying generation) (due generation)
  | again (previous : Generation) (endpoint : Endpoint) (generation : Generation) :
      Step (due previous) (.opened endpoint generation) (pending generation)
  | stop (φ : Phase) (hφ : φ = rest ∨ (∃ g, φ = broken g) ∨ (∃ g, φ = waiting g) ∨
      ∃ g, φ = elapsed g) : Step φ .stopped rest
  | pass (φ : Phase) (m : Mark) (hi : Indifferent m φ) : Step φ m φ

/-- What may be told from one phase to another. -/
def Path : Phase → List Mark → Phase → Prop
  | φ, [], ψ => φ = ψ
  | φ, m :: h, ψ => ∃ χ, Step φ m χ ∧ Path χ h ψ

theorem path_append {φ ψ : Phase} {a b : List Mark} :
    Path φ (a ++ b) ψ ↔ ∃ χ, Path φ a χ ∧ Path χ b ψ := by
  induction a generalizing φ with
  | nil => simp [Path]
  | cons m a ih =>
    simp only [List.cons_append, Path, ih]
    constructor
    · rintro ⟨χ, hs, ω, ha, hb⟩
      exact ⟨ω, ⟨χ, hs, ha⟩, hb⟩
    · rintro ⟨ω, ⟨χ, hs, ha⟩, hb⟩
      exact ⟨χ, hs, ω, ha, hb⟩

theorem path_singleton {φ ψ : Phase} {m : Mark} : Path φ [m] ψ ↔ Step φ m ψ := by
  simp [Path]

theorem Path.snoc {φ χ ψ : Phase} {h : List Mark} {m : Mark} (hp : Path φ h χ)
    (hs : Step χ m ψ) : Path φ (h ++ [m]) ψ :=
  path_append.mpr ⟨χ, hp, path_singleton.mpr hs⟩

/-- The phase in which something was told. -/
theorem Path.at {φ ψ : Phase} {pre post : List Mark} {m : Mark} (hp : Path φ (pre ++ m :: post) ψ) :
    ∃ χ ω, Path φ pre χ ∧ Step χ m ω ∧ Path ω post ψ := by
  obtain ⟨χ, h₁, ω, hs, h₂⟩ := path_append.mp hp
  exact ⟨χ, ω, h₁, hs, h₂⟩

/-- The last thing that was told. -/
theorem Path.last {φ ψ : Phase} {h : List Mark} {m : Mark} (hp : Path φ (h ++ [m]) ψ) :
    ∃ χ, Path φ h χ ∧ Step χ m ψ := by
  obtain ⟨χ, ω, h₁, hs, h₂⟩ := hp.at
  cases h₂
  exact ⟨χ, h₁, hs⟩

theorem Path.exists_last {φ ψ : Phase} {h : List Mark} (hp : Path φ h ψ) (hne : φ ≠ ψ) :
    ∃ a m χ, h = a ++ [m] ∧ Path φ a χ ∧ Step χ m ψ := by
  rcases List.eq_nil_or_concat h with rfl | ⟨a, m, rfl⟩
  · exact absurd hp hne
  · rw [List.concat_eq_append] at hp ⊢
    obtain ⟨χ, hχ, hs⟩ := hp.last
    exact ⟨a, m, χ, rfl, hχ, hs⟩

theorem path_of_indifferent {φ : Phase} {h : List Mark} (hm : ∀ m ∈ h, Indifferent m φ) :
    Path φ h φ := by
  induction h with
  | nil => rfl
  | cons m h ih =>
    obtain ⟨hm, hh⟩ := List.forall_mem_cons.mp hm
    exact ⟨φ, .pass φ m hm, ih hh⟩

theorem Indifferent.isNumbered {φ : Phase} {m : Mark} (h : Indifferent m φ) :
    m.isNumbered = false := by
  have hq : m.isQuiet = true := by cases h <;> assumption
  cases m <;> simp_all [Mark.isQuiet, Mark.isNumbered]

/-! ## Reading backwards: the timer -/

theorem Path.granted_past {h : List Mark} (hp : Path rest h granted) :
    ∃ a, h = a ++ [.started] := by
  obtain ⟨a, m, χ, rfl, _, hs⟩ := hp.exists_last (by simp)
  cases hs with
  | start => exact ⟨a, rfl⟩
  | pass _ _ hi => cases hi

/-- While a timer runs, nothing but quiet things were told since it was armed. -/
theorem Path.waiting_past {h : List Mark} {g : Generation} (hp : Path rest h (waiting g)) :
    ∃ a b, h = a ++ .armed g :: b ∧ ∀ m ∈ b, m.isQuiet = true := by
  induction h using List.reverseRecOn with
  | nil => cases hp
  | append_singleton h m ih =>
    obtain ⟨χ, hχ, hs⟩ := hp.last
    cases hs with
    | arm => exact ⟨h, [], rfl, by simp⟩
    | pass _ _ hi =>
      cases hi with
      | waiting _ hq hf =>
        obtain ⟨a, b, rfl, hb⟩ := ih hχ
        exact ⟨a, b ++ [m], by simp,
          List.forall_mem_append.mpr ⟨hb, List.forall_mem_singleton.mpr hq⟩⟩

/-- Once it has elapsed, its firing is among these. -/
theorem Path.elapsed_past {h : List Mark} {g : Generation} (hp : Path rest h (elapsed g)) :
    ∃ a b, h = a ++ .armed g :: b ∧ .fired g ∈ b ∧ ∀ m ∈ b, m.isQuiet = true := by
  induction h using List.reverseRecOn with
  | nil => cases hp
  | append_singleton h m ih =>
    obtain ⟨χ, hχ, hs⟩ := hp.last
    cases hs with
    | fire =>
      obtain ⟨a, b, rfl, hb⟩ := hχ.waiting_past
      exact ⟨a, b ++ [.fired g], by simp, by simp,
        List.forall_mem_append.mpr ⟨hb, List.forall_mem_singleton.mpr rfl⟩⟩
    | pass _ _ hi =>
      cases hi with
      | elapsed _ hq hr =>
        obtain ⟨a, b, rfl, hf, hb⟩ := ih hχ
        exact ⟨a, b ++ [m], by simp, List.mem_append_left _ hf,
          List.forall_mem_append.mpr ⟨hb, List.forall_mem_singleton.mpr hq⟩⟩

/-- Only two phases allow asking for a link. -/
theorem Step.opened {φ χ : Phase} {endpoint : Endpoint} {g : Generation}
    (hs : Step φ (.opened endpoint g) χ) : (φ = granted ∨ ∃ g', φ = due g') ∧ χ = pending g := by
  cases hs with
  | first => exact ⟨Or.inl rfl, rfl⟩
  | again g' => exact ⟨Or.inr ⟨g', rfl⟩, rfl⟩
  | pass _ _ hi => cases hi <;> contradiction

/-- A link is asked for when a start was just granted, or when the errand of a timer was just
taken, which was armed and has fired with nothing but quiet things told since. -/
theorem Path.opened_past {φ : Phase} {pre post : List Mark} {endpoint : Endpoint} {g : Generation}
    (hp : Path rest (pre ++ .opened endpoint g :: post) φ) :
    (∃ a, pre = a ++ [.started]) ∨
    ∃ a g' b, pre = a ++ .armed g' :: (b ++ [.retrying g']) ∧ .fired g' ∈ b ∧
      ∀ m ∈ b, m.isQuiet = true := by
  obtain ⟨χ, _, hpre, hs, -⟩ := hp.at
  rcases hs.opened.1 with rfl | ⟨g', rfl⟩
  · exact Or.inl hpre.granted_past
  · right
    obtain ⟨h, m, χ, rfl, hχ, hs⟩ := hpre.exists_last (by simp)
    cases hs with
    | take =>
      obtain ⟨a, b, rfl, hf, hb⟩ := hχ.elapsed_past
      exact ⟨a, g', b, by simp, hf, hb⟩
    | pass _ _ hi => cases hi

/-- A timer that is there was there before, or has just been armed. -/
theorem Step.timer_origin {φ χ : Phase} {m : Mark} {g : Generation} (hs : Step φ m χ)
    (hχ : χ.timer? = some g) : φ.timer? = some g ∨ m = .armed g := by
  cases hs with
  | arm g' =>
    obtain rfl : g' = g := Option.some.inj hχ
    exact Or.inr rfl
  | fire | take | pass => exact Or.inl hχ
  | start | first | confirm | accept | refuse | fail | finish | close | again | stop => cases hχ

theorem Path.timer_origin {h : List Mark} {φ ψ : Phase} {g : Generation} (hp : Path φ h ψ)
    (hψ : ψ.timer? = some g) : φ.timer? = some g ∨ .armed g ∈ h := by
  induction h generalizing φ with
  | nil => exact Or.inl (hp ▸ hψ)
  | cons m h ih =>
    obtain ⟨χ, hs, hp⟩ := hp
    rcases ih hp with hχ | hmem
    · rcases hs.timer_origin hχ with hφ | rfl
      · exact Or.inl hφ
      · exact Or.inr (List.mem_cons_self ..)
    · exact Or.inr (List.mem_cons_of_mem _ hmem)

/-- An attempt that directly follows the errand of a timer is made for that timer. -/
theorem Path.retried {φ ψ : Phase} {p r : List Mark} {g g' : Generation} {endpoint : Endpoint}
    (hp : Path φ (p ++ .retrying g :: .opened endpoint g' :: r) ψ) :
    Path φ p (elapsed g) ∧ Path (pending g') r ψ := by
  obtain ⟨χ, ω, h₁, hs, ω', hs', h₂⟩ := hp.at
  cases hs with
  | take =>
    cases hs' with
    | again => exact ⟨h₁, h₂⟩
    | pass _ _ hi => cases hi
  | pass _ _ hi =>
    cases hs' with
    | first => cases hi
    | again => cases hi
    | pass _ _ hi' => cases hi' <;> contradiction

/-- Two attempts that are made for timers of one generation are made for two timers. -/
theorem Path.retried_twice {φ : Phase} {p q r : List Mark} {g g₁ g₂ : Generation}
    {endpoint₁ endpoint₂ : Endpoint} (hp : Path rest (p ++ .retrying g :: .opened endpoint₁ g₁ ::
      (q ++ .retrying g :: .opened endpoint₂ g₂ :: r)) φ) : .armed g ∈ p ∧ .armed g ∈ q := by
  obtain ⟨hfirst, hrest⟩ := hp.retried
  obtain ⟨hsecond, -⟩ := hrest.retried
  exact ⟨(hfirst.timer_origin rfl).resolve_left nofun,
    (hsecond.timer_origin rfl).resolve_left nofun⟩

/-- From rest, nothing but a start leads on. -/
theorem Path.rest_stays {h : List Mark} {ψ : Phase} (hp : Path rest h ψ) (hm : .started ∉ h) :
    ψ = rest := by
  induction h with
  | nil => exact hp.symm
  | cons m h ih =>
    obtain ⟨χ, hs, hp⟩ := hp
    have hne : .started ≠ m := fun he => hm (he ▸ List.mem_cons_self ..)
    have hχ : χ = rest := by
      cases hs with
      | start => exact absurd rfl hne
      | finish _ _ _ hφ => rcases hφ with hφ | hφ <;> cases hφ
      | close _ _ hφ => cases hφ
      | stop => rfl
      | pass => rfl
    exact ih (hχ ▸ hp) (fun h' => hm (List.mem_cons_of_mem _ h'))

/-- Between a stop and the next attempt there is a start. -/
theorem Path.started_between {φ ψ : Phase} {pre mid post : List Mark} {endpoint : Endpoint}
    {g : Generation} (hp : Path φ (pre ++ .stopped :: (mid ++ .opened endpoint g :: post)) ψ) :
    .started ∈ mid := by
  obtain ⟨_, ω, -, hs, hafter⟩ := hp.at
  obtain ⟨χ, _, hmid, hs', -⟩ := hafter.at
  have hω : ω = rest := by
    cases hs with
    | stop => rfl
    | pass _ _ hi => cases hi <;> contradiction
  subst hω
  by_contra hno
  obtain rfl := hmid.rest_stays hno
  rcases hs'.opened.1 with h | ⟨g', h⟩ <;> cases h

/-! ## Reading backwards: the link -/

/-- Since a link was asked for, no other was, and it did not end. -/
theorem Path.pending_past {h : List Mark} {g : Generation} (hp : Path rest h (pending g)) :
    ∃ a endpoint b, h = a ++ .opened endpoint g :: b ∧ ∀ m ∈ b, m.Spares g ∧ m.isLoss = false := by
  induction h using List.reverseRecOn with
  | nil => cases hp
  | append_singleton h m ih =>
    obtain ⟨χ, hχ, hs⟩ := hp.last
    cases hs with
    | first endpoint => exact ⟨h, endpoint, [], rfl, by simp⟩
    | again _ endpoint => exact ⟨h, endpoint, [], rfl, by simp⟩
    | pass _ _ hi =>
      cases hi with
      | pending _ hq ho he =>
        obtain ⟨a, endpoint, b, rfl, hb⟩ := ih hχ
        exact ⟨a, endpoint, b ++ [m], by simp, List.forall_mem_append.mpr
          ⟨hb, List.forall_mem_singleton.mpr (Mark.spares_of_isQuiet hq he)⟩⟩

/-- While a link is up, its confirmation was heard, and nothing since it was asked for disturbed
it. -/
theorem Path.up_past {h : List Mark} {g : Generation} (hp : Path rest h (up g)) :
    ∃ a endpoint b c, h = a ++ .opened endpoint g :: (b ++ .heard ⟨g, .opened⟩ :: c) ∧
      ∀ m ∈ b ++ c, m.Spares g ∧ m.isLoss = false := by
  induction h using List.reverseRecOn with
  | nil => cases hp
  | append_singleton h m ih =>
    obtain ⟨χ, hχ, hs⟩ := hp.last
    -- Whatever keeps a link up is told after what was told before.
    have hkeep : χ = up g → m.Spares g → m.isLoss = false → ∃ a endpoint b c,
        h ++ [m] = a ++ .opened endpoint g :: (b ++ .heard ⟨g, .opened⟩ :: c) ∧
          ∀ m ∈ b ++ c, m.Spares g ∧ m.isLoss = false := by
      rintro rfl hsp hl
      obtain ⟨a, endpoint, b, c, rfl, hbc⟩ := ih hχ
      refine ⟨a, endpoint, b, c ++ [m], by simp, ?_⟩
      rw [← List.append_assoc]
      exact List.forall_mem_append.mpr ⟨hbc, List.forall_mem_singleton.mpr ⟨hsp, hl⟩⟩
    cases hs with
    | confirm =>
      obtain ⟨a, endpoint, b, rfl, hb⟩ := hχ.pending_past
      exact ⟨a, endpoint, b, [], by simp, by simpa using hb⟩
    | accept => exact hkeep rfl ⟨rfl, rfl⟩ rfl
    | refuse _ _ _ he => exact hkeep rfl ⟨rfl, rfl⟩ he
    | pass _ _ hi =>
      cases hi with
      | up _ hq he =>
        obtain ⟨hsp, hl⟩ := Mark.spares_of_isQuiet hq he
        exact hkeep rfl hsp hl

/-- As long as there is a link, it is the one that was asked for last, and it did not end. -/
theorem Path.link_past {h : List Mark} {φ : Phase} {g : Generation} (hp : Path rest h φ)
    (hφ : φ.link? = some g) :
    ∃ a endpoint b, h = a ++ .opened endpoint g :: b ∧ ∀ m ∈ b, m.Spares g := by
  have hup : ∀ h', Path rest h' (up g) →
      ∃ a endpoint b, h' = a ++ .opened endpoint g :: b ∧ ∀ m ∈ b, m.Spares g := by
    intro h' hp'
    obtain ⟨a, endpoint, b, c, rfl, hbc⟩ := hp'.up_past
    obtain ⟨hb, hc⟩ := List.forall_mem_append.mp hbc
    exact ⟨a, endpoint, _, rfl, List.forall_mem_append.mpr ⟨fun m hm => (hb m hm).1,
      List.forall_mem_cons.mpr ⟨⟨rfl, by simp [Mark.ends, Mark.reportsEnd, Report.isEnd]⟩,
        fun m hm => (hc m hm).1⟩⟩⟩
  cases φ with
  | pending g' =>
    obtain rfl : g' = g := Option.some.inj hφ
    obtain ⟨a, endpoint, b, rfl, hb⟩ := hp.pending_past
    exact ⟨a, endpoint, b, rfl, fun m hm => (hb m hm).1⟩
  | up g' =>
    obtain rfl : g' = g := Option.some.inj hφ
    exact hup h hp
  | failing g' =>
    obtain rfl : g' = g := Option.some.inj hφ
    obtain ⟨h, m, χ, rfl, hχ, hs⟩ := hp.exists_last (by simp)
    cases hs with
    | fail _ payload error =>
      obtain ⟨a, endpoint, b, rfl, hb⟩ := hup _ hχ
      exact ⟨a, endpoint, b ++ [.sent payload (some error)], by simp,
        List.forall_mem_append.mpr ⟨hb, List.forall_mem_singleton.mpr ⟨rfl, rfl⟩⟩⟩
    | pass _ _ hi => cases hi
  | _ => cases hφ

/-- A link is there until it is closed or reported to have ended. -/
theorem Step.link_stays {φ χ : Phase} {m : Mark} {g : Generation} (hs : Step φ m χ)
    (hφ : φ.link? = some g) (hm : m.ends g = false) : χ.link? = some g := by
  cases hs with
  | confirm | accept | refuse | fail | pass => exact hφ
  | start | first | arm | fire | take | again => cases hφ
  | close => cases hm
  | finish _ g' report hor hr =>
    obtain rfl : g' = g := by rcases hor with rfl | rfl <;> exact Option.some.inj hφ
    simp [Mark.ends, Mark.reportsEnd, hr] at hm
  | stop _ hor => rcases hor with rfl | ⟨_, rfl⟩ | ⟨_, rfl⟩ | ⟨_, rfl⟩ <;> cases hφ

theorem Path.link_stays {h : List Mark} {φ ψ : Phase} {g : Generation} (hp : Path φ h ψ)
    (hφ : φ.link? = some g) (hm : ∀ m ∈ h, m.ends g = false) : ψ.link? = some g := by
  induction h generalizing φ with
  | nil => exact hp ▸ hφ
  | cons m h ih =>
    obtain ⟨χ, hs, hp⟩ := hp
    obtain ⟨hm, hh⟩ := List.forall_mem_cons.mp hm
    exact ih hp (hs.link_stays hφ hm) hh

/-- Between two attempts, the link of the first is closed or reported to have ended. -/
theorem Path.ended_between {φ ψ : Phase} {pre mid post : List Mark} {endpoint₁ endpoint₂ : Endpoint}
    {g₁ g₂ : Generation}
    (hp : Path φ (pre ++ .opened endpoint₁ g₁ :: (mid ++ .opened endpoint₂ g₂ :: post)) ψ) :
    ∃ m ∈ mid, m.ends g₁ = true := by
  obtain ⟨_, ω, -, hs, hafter⟩ := hp.at
  obtain ⟨χ, _, hmid, hs', -⟩ := hafter.at
  obtain ⟨-, rfl⟩ := hs.opened
  by_contra hno
  have hends : ∀ m ∈ mid, m.ends g₁ = false := by
    intro m hm
    cases he : m.ends g₁ with
    | false => rfl
    | true => exact absurd ⟨m, hm, he⟩ hno
  have hlink := hmid.link_stays rfl hends
  rcases hs'.opened.1 with rfl | ⟨g', rfl⟩ <;> cases hlink

/-- A payload is handed over while the link is up. -/
theorem Path.sent_past {φ : Phase} {pre post : List Mark} {payload : Payload}
    {refusal : Option Error} (hp : Path rest (pre ++ .sent payload refusal :: post) φ) :
    ∃ a endpoint g b c, pre = a ++ .opened endpoint g :: (b ++ .heard ⟨g, .opened⟩ :: c) ∧
      ∀ m ∈ b ++ c, m.Spares g ∧ m.isLoss = false := by
  obtain ⟨χ, _, hpre, hs, -⟩ := hp.at
  have hup : ∃ g, χ = up g := by
    cases hs with
    | accept g | refuse g | fail g => exact ⟨g, rfl⟩
    | pass _ _ hi => cases hi <;> contradiction
  obtain ⟨g, rfl⟩ := hup
  obtain ⟨a, endpoint, b, c, heq, hbc⟩ := hpre.up_past
  exact ⟨a, endpoint, g, b, c, heq, hbc⟩

/-- A link is closed while it is there. -/
theorem Path.closed_past {φ : Phase} {pre post : List Mark}
    (hp : Path rest (pre ++ .closed :: post) φ) :
    ∃ a endpoint g b, pre = a ++ .opened endpoint g :: b ∧ ∀ m ∈ b, m.Spares g := by
  obtain ⟨χ, _, hpre, hs, -⟩ := hp.at
  have hlink : ∃ g, χ.link? = some g := by
    cases hs with
    | close _ g hφ => exact ⟨g, hφ⟩
    | pass _ _ hi => cases hi <;> contradiction
  obtain ⟨g, hg⟩ := hlink
  obtain ⟨a, endpoint, b, heq, hb⟩ := hpre.link_past hg
  exact ⟨a, endpoint, g, b, heq, hb⟩

end Phase

/-! ## Generations -/

/-- The generations for which a link was asked for, in order. -/
def openings (h : List Mark) : List Generation :=
  h.filterMap fun
    | .opened _ generation => some generation
    | _ => none

/-- The generations for which a timer was armed, in order. -/
def armings (h : List Mark) : List Generation :=
  h.filterMap fun
    | .armed generation => some generation
    | _ => none

theorem mem_armings {h : List Mark} {g : Generation} : g ∈ armings h ↔ .armed g ∈ h := by
  simp only [armings, List.mem_filterMap]
  constructor
  · rintro ⟨m, hm, hg⟩
    cases m <;> simp_all
  · exact fun hm => ⟨_, hm, rfl⟩

theorem openings_eq_nil {h : List Mark} (hm : ∀ m ∈ h, m.isNumbered = false) : openings h = [] := by
  refine List.filterMap_eq_nil_iff.mpr fun m hmem => ?_
  have := hm m hmem
  cases m <;> simp_all [Mark.isNumbered]

theorem armings_eq_nil {h : List Mark} (hm : ∀ m ∈ h, m.isNumbered = false) : armings h = [] := by
  refine List.filterMap_eq_nil_iff.mpr fun m hmem => ?_
  have := hm m hmem
  cases m <;> simp_all [Mark.isNumbered]

theorem openings_append (a b : List Mark) : openings (a ++ b) = openings a ++ openings b :=
  List.filterMap_append

theorem armings_append (a b : List Mark) : armings (a ++ b) = armings a ++ armings b :=
  List.filterMap_append

/-- The generations in a history go up, as far as the present one. Whether a timer may have been
armed for that one too is left open. -/
structure Dated (present : Generation) (ended : Prop) (h : List Mark) : Prop where
  /-- Every attempt has a later generation than those before it. -/
  openings : (openings h).Pairwise (·.value < ·.value)
  /-- No attempt has a later generation than the present one. -/
  opened : ∀ g ∈ Tether.openings h, g.value ≤ present.value
  /-- Every timer is armed for a later generation than those before it. -/
  armings : (armings h).Pairwise (·.value < ·.value)
  /-- Every timer was armed for an earlier generation than the present one, or for that one. -/
  armed : ∀ g ∈ Tether.armings h, g.value < present.value ∨ g = present ∧ ended

namespace Dated

variable {present : Generation} {ended : Prop} {h : List Mark}

theorem nil (present : Generation) (ended : Prop) : Dated present ended [] where
  openings := .nil
  opened := by simp [Tether.openings]
  armings := .nil
  armed := by simp [Tether.armings]

theorem armed_le (hd : Dated present ended h) {g : Generation} (hg : g ∈ Tether.armings h) :
    g.value ≤ present.value := by
  rcases hd.armed g hg with hlt | ⟨rfl, _⟩
  · exact Nat.le_of_lt hlt
  · exact Nat.le_refl _

/-- What tells of no attempt and of no timer that is armed may be told at any time. -/
theorem append (hd : Dated present ended h) {ms : List Mark}
    (hm : ∀ m ∈ ms, m.isNumbered = false) : Dated present ended (h ++ ms) := by
  have ho : Tether.openings (h ++ ms) = Tether.openings h := by
    rw [openings_append, openings_eq_nil hm, List.append_nil]
  have ha : Tether.armings (h ++ ms) = Tether.armings h := by
    rw [armings_append, armings_eq_nil hm, List.append_nil]
  exact
    { openings := ho ▸ hd.openings
      opened := ho ▸ hd.opened
      armings := ha ▸ hd.armings
      armed := ha ▸ hd.armed }

theorem snoc (hd : Dated present ended h) {m : Mark} (hm : m.isNumbered = false) :
    Dated present ended (h ++ [m]) :=
  hd.append (List.forall_mem_singleton.mpr hm)

theorem mono (hd : Dated present ended h) {ended' : Prop} (hi : ended → ended') :
    Dated present ended' h :=
  { hd with armed := fun g hg => (hd.armed g hg).imp_right (And.imp_right hi) }

/-- With a new generation nothing in the past is of the present. -/
theorem next (hd : Dated present ended h) (ended' : Prop) : Dated present.next ended' h where
  openings := hd.openings
  opened := fun g hg => Nat.le_succ_of_le (hd.opened g hg)
  armings := hd.armings
  armed := fun _ hg => Or.inl (Nat.lt_succ_of_le (hd.armed_le hg))

/-- An attempt gets a new generation. -/
theorem openNext (hd : Dated present ended h) (endpoint : Endpoint) (ended' : Prop) :
    Dated present.next ended' (h ++ [.opened endpoint present.next]) := by
  have ha : Tether.armings (h ++ [.opened endpoint present.next]) = Tether.armings h := by
    rw [armings_append]
    exact List.append_nil _
  refine { openings := ?_, opened := ?_, armings := ?_, armed := ?_ }
  · rw [openings_append]
    refine List.pairwise_append.mpr ⟨hd.openings, List.pairwise_singleton _ _, ?_⟩
    intro a hmem b hb
    rw [List.mem_singleton.mp hb]
    exact Nat.lt_succ_of_le (hd.opened a hmem)
  · rw [openings_append]
    refine List.forall_mem_append.mpr ⟨(hd.next ended').opened, ?_⟩
    exact List.forall_mem_singleton.mpr (Nat.le_refl _)
  · rw [ha]
    exact hd.armings
  · rw [ha]
    exact (hd.next ended').armed

/-- When the present generation is ended, its timer is armed. -/
theorem arm (hd : Dated present ended h) (hn : ¬ended) {ended' : Prop} (ho : ended') :
    Dated present ended' (h ++ [.armed present]) := by
  have hopen : Tether.openings (h ++ [.armed present]) = Tether.openings h := by
    rw [openings_append]
    exact List.append_nil _
  have hlt : ∀ g ∈ Tether.armings h, g.value < present.value := by
    intro g hg
    rcases hd.armed g hg with hlt | ⟨_, hended⟩
    · exact hlt
    · exact absurd hended hn
  refine { openings := ?_, opened := ?_, armings := ?_, armed := ?_ }
  · rw [hopen]
    exact hd.openings
  · rw [hopen]
    exact hd.opened
  · rw [armings_append]
    refine List.pairwise_append.mpr ⟨hd.armings, List.pairwise_singleton _ _, ?_⟩
    intro a hmem b hb
    rw [List.mem_singleton.mp hb]
    exact hlt a hmem
  · rw [armings_append]
    refine List.forall_mem_append.mpr ⟨fun g hg => Or.inl (hlt g hg), ?_⟩
    exact List.forall_mem_singleton.mpr (Or.inr ⟨rfl, ho⟩)

end Dated

end Tether
