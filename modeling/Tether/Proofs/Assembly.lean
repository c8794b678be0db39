import Mathlib.Logic.Function.Basic
import Tether.Bus

/-!
# Assemblies

A bus with subscribers that act. What a subscriber does when it is called is a `Program`: it may
look at a memory that all of them share and change it, add subscribers, remove any of them, publish
events, and ends with a reaction of its own choice. Programs are well-founded trees, so each of
them comes to an end; that they publish events to each other without end is cut off at a depth of
publications inside publications, which is any number.

An assembly keeps a diary of what happens on its bus. The diary is read by a reader that knows the
subscribers and which publications are under way: one that begins has those for its audience who
are on the bus, the innermost one must call its audience in order, one after the other and each with
the event it is about, and it must come to an end when all were called, with the right count. That
every diary is read without an objection is what `Course` carries through a run.
-/

namespace Tether.Bus

/-- What a subscriber does, call by call; `σ` is what the subscribers remember in common. -/
inductive Program (σ : Type) where
  /-- It has done. -/
  | finish (reaction : Reaction)
  /-- It looks at the memory. -/
  | consult (next : σ → Program σ)
  /-- It changes the memory. -/
  | keep (memory : σ) (next : Program σ)
  /-- It adds a subscriber that follows a program on each event. -/
  | subscribe (handler : Event → Program σ) (next : SubscriberId → Program σ)
  /-- It adds a subscriber that keeps the events. -/
  | listen (next : SubscriberId → Program σ)
  /-- It removes a subscriber, itself or another. -/
  | unsubscribe (id : SubscriberId) (next : Bool → Program σ)
  /-- It removes all subscribers. -/
  | clear (next : Program σ)
  /-- It publishes an event. -/
  | publish (event : Event) (next : Nat → Program σ)

/-- Who is behind a handle. -/
inductive Listener (σ : Type) where
  /-- A subscriber that follows a program on each event. -/
  | handler (program : Event → Program σ)
  /-- A subscriber that keeps the events. -/
  | channel

/-- What happens on a bus. -/
inductive Entry where
  /-- A subscriber was added. -/
  | joined (id : SubscriberId)
  /-- A subscriber that keeps the events was added. -/
  | tuned (id : SubscriberId)
  /-- A subscriber was to be removed, and was there or not. -/
  | left (id : SubscriberId) (found : Bool)
  /-- All subscribers were removed. -/
  | cleared
  /-- A publication begins, with these subscribers on the bus. -/
  | began (event : Event) (audience : List SubscriberId)
  /-- A subscriber is called with an event. -/
  | called (id : SubscriberId) (event : Event)
  /-- It comes back from the call. -/
  | answered (id : SubscriberId) (reaction : Reaction)
  /-- A publication ends, with so many successful deliveries. -/
  | ended (delivered : Nat)
  /-- A publication was not begun, for being too deep inside others. -/
  | cutOff (event : Event)
  deriving DecidableEq

/-- A bus and its subscribers. -/
structure Assembly (σ : Type) where
  /-- The bus. -/
  bus : Bus := {}
  /-- Who is behind each handle. -/
  listeners : SubscriberId → Listener σ := fun _ => .handler fun _ => .finish .ok
  /-- What the subscribers remember. -/
  memory : σ
  /-- The events that the subscribers have kept, in the order in which they got them. -/
  received : SubscriberId → List Event := fun _ => []
  /-- What happened so far, in order. -/
  diary : List Entry := []

instance {σ : Type} : HasBus (Assembly σ) where
  bus w := w.bus
  withBus w bus := { w with bus }
  withNote w _ := w

variable {σ : Type}

namespace Assembly

/-- Writes into the diary. -/
def enter (w : Assembly σ) (entry : Entry) : Assembly σ := { w with diary := w.diary ++ [entry] }

/-- Adds a subscriber. -/
def enrol (w : Assembly σ) (listener : Listener σ) : Assembly σ :=
  { w with
    bus := w.bus.subscribe.1
    listeners := Function.update w.listeners w.bus.subscribe.2 listener }

/-- Adds an event to those that a subscriber has kept. -/
def receive (w : Assembly σ) (id : SubscriberId) (event : Event) : Assembly σ :=
  { w with received := Function.update w.received id (w.received id ++ [event]) }

/-- Does what a program says, given what publishing does. -/
def perform (publish : Event → Assembly σ → Assembly σ × Nat) :
    Program σ → Assembly σ → Assembly σ × Reaction
  | .finish reaction, w => (w, reaction)
  | .consult next, w => perform publish (next w.memory) w
  | .keep memory next, w => perform publish next { w with memory }
  | .subscribe handler next, w =>
    perform publish (next w.bus.subscribe.2)
      ((w.enrol (.handler handler)).enter (.joined w.bus.subscribe.2))
  | .listen next, w =>
    perform publish (next w.bus.subscribe.2)
      ((w.enrol .channel).enter (.tuned w.bus.subscribe.2))
  | .unsubscribe id next, w =>
    let (bus, found) := w.bus.unsubscribe id
    perform publish (next found) ({ w with bus }.enter (.left id found))
  | .clear next, w => perform publish next ({ w with bus := w.bus.clear }.enter .cleared)
  | .publish event next, w =>
    let (w, delivered) := publish event w
    perform publish (next delivered) w

/-- What becomes of a call, before the subscriber comes back from it. -/
def attend (publish : Event → Assembly σ → Assembly σ × Nat) (id : SubscriberId) (event : Event)
    (w : Assembly σ) : Assembly σ × Reaction :=
  match w.listeners id with
  | .channel => (w.receive id event, .ok)
  | .handler program => w.perform publish (program event)

/-- A subscriber is called. -/
def react (publish : Event → Assembly σ → Assembly σ × Nat) (id : SubscriberId) (event : Event)
    (w : Assembly σ) : Assembly σ × Reaction :=
  let (w, reaction) := attend publish id event (w.enter (.called id event))
  (w.enter (.answered id reaction), reaction)

/-- Publishes an event, with publications inside it at most `depth` deep. -/
def publish : Nat → Event → Assembly σ → Assembly σ × Nat
  | 0, event, w => (w.enter (.cutOff event), 0)
  | depth + 1, event, w =>
    let (w, delivered) :=
      Bus.publish (react (publish depth)) event (w.enter (.began event w.bus.subscribers))
    (w.enter (.ended delivered), delivered)

theorem publish_succ (depth : Nat) (event : Event) (w : Assembly σ) :
    (publish (depth + 1) event w).1 =
      (deliver (react (publish depth)) event w.bus.subscribers
        (w.enter (.began event w.bus.subscribers))).1.enter
          (.ended (publish (depth + 1) event w).2) := rfl

/-- A new bus, and a program that is carried out on it from outside. -/
def run (depth : Nat) (memory : σ) (program : Program σ) : Assembly σ :=
  (perform (publish depth) program { memory }).1

end Assembly

/-! ## Reading a diary -/

/-- What is under way on a bus. -/
inductive Frame where
  /-- A publication that has these subscribers still to call, after so many good deliveries. -/
  | round (event : Event) (left : List SubscriberId) (delivered : Nat)
  /-- A call of a subscriber. -/
  | call (id : SubscriberId)

/-- What a reader knows: who is on the bus, and what is under way, innermost first. -/
structure Reader where
  /-- The subscribers in the order of registration. -/
  registered : List SubscriberId := []
  /-- What is under way. -/
  frames : List Frame := []

namespace Reader

/-- Whether somebody has the word, a subscriber that was called or the outside. -/
def isFree (r : Reader) : Bool :=
  match r.frames with
  | .round .. :: _ => false
  | _ => true

/-- Reads an entry; nothing comes of one that is out of place. -/
def read (r : Reader) (entry : Entry) : Option Reader :=
  match entry, r.frames with
  | .called id event, .round e (next :: left) n :: frames =>
    if id = next ∧ event = e then some { r with frames := .call id :: .round e left n :: frames }
    else none
  | .answered id reaction, .call called :: .round e left n :: frames =>
    if id = called then
      some { r with frames := .round e left (n + if reaction.isOk then 1 else 0) :: frames }
    else none
  | .ended delivered, .round _ [] n :: frames =>
    if delivered = n then some { r with frames } else none
  | .began event audience, frames =>
    if r.isFree ∧ audience = r.registered then
      some { r with frames := .round event audience 0 :: frames }
    else none
  | .joined id, _ | .tuned id, _ =>
    if r.isFree ∧ id ∉ r.registered then some { r with registered := r.registered ++ [id] }
    else none
  | .left id found, _ =>
    if r.isFree ∧ found = r.registered.contains id then
      some { r with registered := r.registered.filter (· != id) }
    else none
  | .cleared, _ => if r.isFree then some { r with registered := [] } else none
  | .cutOff _, _ => if r.isFree then some r else none
  | _, _ => none

/-- Reads a diary from its beginning to its end. -/
def readAll (r : Reader) : List Entry → Option Reader
  | [] => some r
  | entry :: rest => (r.read entry).bind (readAll · rest)

theorem readAll_append (r : Reader) (a b : List Entry) :
    r.readAll (a ++ b) = (r.readAll a).bind (·.readAll b) := by
  induction a generalizing r with
  | nil => rfl
  | cons x a ih =>
    simp only [List.cons_append, readAll]
    cases r.read x with
    | none => rfl
    | some r' => exact ih r'

end Reader

/-! ## What a diary tells -/

/-- The events that a subscriber was called with, in order. -/
def heard (id : SubscriberId) (diary : List Entry) : List Event :=
  diary.flatMap fun
    | .called i event => if i = id then [event] else []
    | _ => []

/-- Whether a call failed. -/
def Entry.isFailure : Entry → Bool
  | .answered _ reaction => !reaction.isOk
  | _ => false

/-- Entries of which nothing follows for those who are called or keep events. -/
def Entry.isPlain : Entry → Bool
  | .called .. | .tuned _ => false
  | _ => true

/-- How many calls failed. -/
def failures (diary : List Entry) : Nat := diary.countP (·.isFailure)

@[simp] theorem heard_append (id : SubscriberId) (a b : List Entry) :
    heard id (a ++ b) = heard id a ++ heard id b :=
  List.flatMap_append

@[simp] theorem failures_append (a b : List Entry) :
    failures (a ++ b) = failures a + failures b :=
  List.countP_append

theorem heard_eq_nil {id : SubscriberId} {diary : List Entry}
    (h : ∀ event, .called id event ∉ diary) : heard id diary = [] := by
  refine List.flatMap_eq_nil_iff.mpr fun x hx => ?_
  cases x with
  | called i event =>
    by_cases hi : i = id
    · subst hi
      exact absurd hx (h event)
    · exact if_neg hi
  | _ => rfl

namespace Assembly

/-! ## What holds of every assembly -/

/-- Handles are given out in order, and those who keep events have kept what they were called
with. -/
structure Sound (w : Assembly σ) : Prop where
  /-- Whoever is on the bus has a handle that was given out. -/
  below : ∀ id ∈ w.bus.subscribers, id.value < w.bus.nextHandle.value
  /-- The subscribers stand in the order of their handles. -/
  increasing : w.bus.subscribers.Pairwise (·.value < ·.value)
  /-- Whoever was called has a handle that was given out. -/
  known : ∀ id event, .called id event ∈ w.diary → id.value < w.bus.nextHandle.value
  /-- Whoever was added to keep events is still there to do so. -/
  tuned : ∀ id, .tuned id ∈ w.diary →
    id.value < w.bus.nextHandle.value ∧ w.listeners id = .channel
  /-- Those who keep events have kept all they were called with. -/
  kept : ∀ id, id.value < w.bus.nextHandle.value → w.listeners id = .channel →
    w.received id = heard id w.diary
  /-- Nothing is kept under a handle that was not given out. -/
  blank : ∀ id, w.bus.nextHandle.value ≤ id.value → w.received id = []

theorem Sound.nextHandle_not_mem {w : Assembly σ} (hw : w.Sound) :
    w.bus.nextHandle ∉ w.bus.subscribers :=
  fun h => Nat.lt_irrefl _ (hw.below _ h)

theorem Sound.init (memory : σ) : Sound ({ memory } : Assembly σ) where
  below := nofun
  increasing := .nil
  known := nofun
  tuned := nofun
  kept := fun _ _ _ => rfl
  blank := fun _ _ => rfl

/-- An entry is added, and subscribers may have left. -/
theorem Sound.plain {w w' : Assembly σ} (hw : w.Sound) (entry : Entry) (hplain : entry.isPlain)
    (hsub : w'.bus.subscribers.Sublist w.bus.subscribers)
    (hnext : w'.bus.nextHandle = w.bus.nextHandle) (hlisten : w'.listeners = w.listeners)
    (hreceived : w'.received = w.received) (hdiary : w'.diary = w.diary ++ [entry]) :
    w'.Sound := by
  have hcalled : ∀ id event, .called id event ∈ w'.diary → .called id event ∈ w.diary := by
    intro id event hmem
    rw [hdiary] at hmem
    rcases List.mem_append.mp hmem with h | h
    · exact h
    · rw [← List.mem_singleton.mp h] at hplain
      cases hplain
  have hheard : ∀ id, heard id w'.diary = heard id w.diary := by
    intro id
    have hlast : heard id [entry] = [] := by
      refine heard_eq_nil fun event hmem => ?_
      rw [← List.mem_singleton.mp hmem] at hplain
      cases hplain
    rw [hdiary, heard_append, hlast, List.append_nil]
  constructor
  · intro id hid
    rw [hnext]
    exact hw.below id (hsub.subset hid)
  · exact hw.increasing.sublist hsub
  · intro id event hmem
    rw [hnext]
    exact hw.known id event (hcalled id event hmem)
  · intro id hmem
    rw [hnext, hlisten]
    rw [hdiary] at hmem
    rcases List.mem_append.mp hmem with h | h
    · exact hw.tuned id h
    · rw [← List.mem_singleton.mp h] at hplain
      cases hplain
  · intro id hid hc
    rw [hnext] at hid
    rw [hlisten] at hc
    rw [hreceived, hheard]
    exact hw.kept id hid hc
  · intro id hid
    rw [hnext] at hid
    rw [hreceived]
    exact hw.blank id hid

/-- Another subscriber is added, under a handle that nobody had before. -/
theorem Sound.enrol {w : Assembly σ} (hw : w.Sound) (listener : Listener σ) (entry : Entry)
    (hentry : ∀ id event, entry ≠ .called id event)
    (htuned : ∀ id, entry = .tuned id → id = w.bus.nextHandle ∧ listener = .channel) :
    ((w.enrol listener).enter entry).Sound := by
  have hnext : (w.enrol listener).bus.nextHandle.value = w.bus.nextHandle.value + 1 := rfl
  have hsubs : (w.enrol listener).bus.subscribers = w.bus.subscribers ++ [w.bus.nextHandle] := rfl
  have hother : ∀ id : SubscriberId, id.value < w.bus.nextHandle.value →
      (w.enrol listener).listeners id = w.listeners id := by
    intro id hid
    refine Function.update_of_ne ?_ _ _
    rintro rfl
    exact Nat.lt_irrefl _ hid
  have hcalled : ∀ id event, .called id event ∈ w.diary ++ [entry] →
      id.value < w.bus.nextHandle.value := by
    intro id event hmem
    rcases List.mem_append.mp hmem with h | h
    · exact hw.known id event h
    · exact absurd (List.mem_singleton.mp h).symm (hentry id event)
  have hheard : ∀ id, heard id (w.diary ++ [entry]) = heard id w.diary := by
    intro id
    have hlast : heard id [entry] = [] :=
      heard_eq_nil fun event hmem => hentry id event (List.mem_singleton.mp hmem).symm
    rw [heard_append, hlast, List.append_nil]
  constructor
  · intro id hid
    show id.value < w.bus.nextHandle.value + 1
    rcases List.mem_append.mp (hsubs ▸ hid) with h | h
    · exact Nat.lt_succ_of_lt (hw.below id h)
    · rw [List.mem_singleton.mp h]
      exact Nat.lt_succ_self _
  · show (w.bus.subscribers ++ [w.bus.nextHandle]).Pairwise _
    refine List.pairwise_append.mpr ⟨hw.increasing, List.pairwise_singleton _ _, ?_⟩
    intro i hi j hj
    rw [List.mem_singleton.mp hj]
    exact hw.below i hi
  · intro id event hmem
    exact Nat.lt_succ_of_lt (hcalled id event hmem)
  · intro id hmem
    rcases List.mem_append.mp hmem with h | h
    · obtain ⟨hlt, hc⟩ := hw.tuned id h
      exact ⟨Nat.lt_succ_of_lt hlt, (hother id hlt).trans hc⟩
    · obtain ⟨rfl, rfl⟩ := htuned id (List.mem_singleton.mp h).symm
      exact ⟨Nat.lt_succ_self _, Function.update_self _ _ _⟩
  · intro id hid hc
    show w.received id = heard id (w.diary ++ [entry])
    rw [hheard]
    by_cases hlt : id.value < w.bus.nextHandle.value
    · exact hw.kept id hlt ((hother id hlt).symm.trans hc)
    · -- The handle is new: nothing was kept under it, and nobody was called by it.
      rw [hw.blank id (Nat.le_of_not_lt hlt), heard_eq_nil]
      intro event hmem
      exact hlt (hw.known id event hmem)
  · intro id hid
    exact hw.blank id (Nat.le_of_succ_le hid)

/-! ## The course of a run -/

/-- What leads from one moment of a run to a later one: entries that a reader follows, from what
was under way to what is under way then. -/
structure Course (w w' : Assembly σ) (frames frames' : List Frame) : Prop where
  /-- The entries are read without an objection, and tell how many deliveries failed. -/
  told : ∃ entries, w'.diary = w.diary ++ entries ∧
    Reader.readAll ⟨w.bus.subscribers, frames⟩ entries = some ⟨w'.bus.subscribers, frames'⟩ ∧
    w'.bus.failed = w.bus.failed + failures entries
  /-- Handles are given out in order. -/
  handles : w.bus.nextHandle.value ≤ w'.bus.nextHandle.value
  /-- All is well afterwards. -/
  sound : w'.Sound

theorem Course.refl {w : Assembly σ} (hw : w.Sound) (frames : List Frame) :
    Course w w frames frames where
  told := ⟨[], (List.append_nil _).symm, rfl, rfl⟩
  handles := Nat.le_refl _
  sound := hw

theorem Course.trans {u v w : Assembly σ} {a b c : List Frame} (h : Course u v a b)
    (h' : Course v w b c) : Course u w a c where
  told := by
    obtain ⟨ms, hd, hr, hf⟩ := h.told
    obtain ⟨ms', hd', hr', hf'⟩ := h'.told
    refine ⟨ms ++ ms', ?_, ?_, ?_⟩
    · rw [hd', hd, List.append_assoc]
    · rw [Reader.readAll_append, hr]
      exact hr'
    · rw [hf', hf, failures_append, Nat.add_assoc]
  handles := Nat.le_trans h.handles h'.handles
  sound := h'.sound

/-- A single entry. -/
theorem Course.single {w w' : Assembly σ} {frames frames' : List Frame} (hs : w'.Sound)
    {entry : Entry} (hdiary : w'.diary = w.diary ++ [entry])
    (hread : Reader.read ⟨w.bus.subscribers, frames⟩ entry = some ⟨w'.bus.subscribers, frames'⟩)
    (hfailed : w'.bus.failed = w.bus.failed + if entry.isFailure then 1 else 0)
    (hnext : w.bus.nextHandle.value ≤ w'.bus.nextHandle.value) : Course w w' frames frames' where
  told := by
    refine ⟨[entry], hdiary, ?_, ?_⟩
    · simp [Reader.readAll, hread]
    · rw [hfailed]
      simp [failures, List.countP_cons]
  handles := hnext
  sound := hs

/-- A program leaves what is under way as it found it, if publishing does. -/
theorem course_perform {publish : Event → Assembly σ → Assembly σ × Nat} {frames : List Frame}
    (hfree : ∀ ids, Reader.isFree ⟨ids, frames⟩)
    (hpublish : ∀ event w, w.Sound → Course w (publish event w).1 frames frames)
    (program : Program σ) (w : Assembly σ) (hw : w.Sound) :
    Course w (perform publish program w).1 frames frames := by
  induction program generalizing w with
  | finish reaction => exact .refl hw frames
  | consult next ih => exact ih w.memory w hw
  | keep memory next ih =>
    have hw' : Sound { w with memory } := ⟨hw.1, hw.2, hw.3, hw.4, hw.5, hw.6⟩
    exact ⟨(ih _ hw').told, (ih _ hw').handles, (ih _ hw').sound⟩
  | subscribe handler next _ ih =>
    have hs := hw.enrol (.handler handler) (.joined w.bus.subscribe.2) nofun nofun
    have h : Course w ((w.enrol (.handler handler)).enter (.joined w.bus.subscribe.2))
        frames frames :=
      .single hs rfl (if_pos ⟨hfree _, hw.nextHandle_not_mem⟩) rfl (Nat.le_succ _)
    exact h.trans (ih _ _ hs)
  | listen next ih =>
    have hs := hw.enrol .channel (.tuned w.bus.subscribe.2) nofun
      (fun id hid => ⟨(Entry.tuned.inj hid).symm, rfl⟩)
    have h : Course w ((w.enrol .channel).enter (.tuned w.bus.subscribe.2)) frames frames :=
      .single hs rfl (if_pos ⟨hfree _, hw.nextHandle_not_mem⟩) rfl (Nat.le_succ _)
    exact h.trans (ih _ _ hs)
  | unsubscribe id next ih =>
    have hs : Sound ({ w with bus := (w.bus.unsubscribe id).1 }.enter
        (.left id (w.bus.unsubscribe id).2)) :=
      hw.plain _ rfl List.filter_sublist rfl rfl rfl rfl
    have h : Course w ({ w with bus := (w.bus.unsubscribe id).1 }.enter
        (.left id (w.bus.unsubscribe id).2)) frames frames :=
      .single hs rfl (if_pos ⟨hfree _, rfl⟩) rfl (Nat.le_refl _)
    exact h.trans (ih _ _ hs)
  | clear next ih =>
    have hs : Sound ({ w with bus := w.bus.clear }.enter .cleared) :=
      hw.plain _ rfl (List.nil_sublist _) rfl rfl rfl rfl
    have h : Course w ({ w with bus := w.bus.clear }.enter .cleared) frames frames :=
      .single hs rfl (if_pos (hfree _)) rfl (Nat.le_refl _)
    exact h.trans (ih _ hs)
  | publish event next ih =>
    have h := hpublish event w hw
    exact h.trans (ih _ _ h.sound)

/-- A subscriber that follows a program is called. -/
theorem Sound.called {w : Assembly σ} (hw : w.Sound) {id : SubscriberId} (event : Event)
    (hid : id.value < w.bus.nextHandle.value) (hl : w.listeners id ≠ .channel) :
    (w.enter (.called id event)).Sound := by
  refine ⟨hw.below, hw.increasing, ?_, ?_, ?_, hw.blank⟩
  · intro i e hmem
    rcases List.mem_append.mp hmem with h | h
    · exact hw.known i e h
    · cases List.mem_singleton.mp h
      exact hid
  · intro i hmem
    rcases List.mem_append.mp hmem with h | h
    · exact hw.tuned i h
    · cases List.mem_singleton.mp h
  · intro i hi hc
    have hne : id ≠ i := by
      rintro rfl
      exact hl hc
    show w.received i = heard i (w.diary ++ [.called id event])
    rw [heard_append, show heard i [.called id event] = [] by simp [heard, hne], List.append_nil]
    exact hw.kept i hi hc

/-- A subscriber that keeps events is called, and keeps the event. -/
theorem Sound.receive {w : Assembly σ} (hw : w.Sound) {id : SubscriberId} (event : Event)
    (hid : id.value < w.bus.nextHandle.value) (hl : w.listeners id = .channel) :
    ((w.enter (.called id event)).receive id event).Sound := by
  have hsame : ∀ i, i ≠ id →
      ((w.enter (.called id event)).receive id event).received i = w.received i := by
    intro i hi
    exact Function.update_of_ne hi _ _
  refine ⟨hw.below, hw.increasing, ?_, ?_, ?_, ?_⟩
  · intro i e hmem
    rcases List.mem_append.mp hmem with h | h
    · exact hw.known i e h
    · cases List.mem_singleton.mp h
      exact hid
  · intro i hmem
    rcases List.mem_append.mp hmem with h | h
    · exact hw.tuned i h
    · cases List.mem_singleton.mp h
  · intro i hi hc
    show _ = heard i (w.diary ++ [.called id event])
    rw [heard_append]
    by_cases h : i = id
    · subst h
      rw [show heard i [.called i event] = [event] by simp [heard], ← hw.kept i hi hl]
      exact Function.update_self _ _ _
    · rw [show heard i [.called id event] = [] by simp [heard, Ne.symm h], List.append_nil,
        hsame i h]
      exact hw.kept i hi hc
  · intro i hi
    have hne : i ≠ id := by
      rintro rfl
      exact Nat.lt_irrefl _ (Nat.lt_of_lt_of_le hid hi)
    rw [hsame i hne]
    exact hw.blank i hi

theorem conclude_eq (id : SubscriberId) (event : Event) (w : Assembly σ) (reaction : Reaction) :
    conclude id event w reaction = { w with bus := w.bus.count reaction } := by
  unfold conclude
  split <;> rfl

section Publishing

variable {publish : Event → Assembly σ → Assembly σ × Nat}

/-- Publishing leaves what is under way as it found it. -/
def IsCoursing (publish : Event → Assembly σ → Assembly σ × Nat) : Prop :=
  ∀ event (w : Assembly σ) frames, (∀ ids, Reader.isFree ⟨ids, frames⟩) → w.Sound →
    Course w (publish event w).1 frames frames

theorem course_attend (hp : IsCoursing publish) (id : SubscriberId) (event : Event)
    (left : List SubscriberId) (n : Nat) (frames : List Frame) (w : Assembly σ) (hw : w.Sound)
    (hid : id.value < w.bus.nextHandle.value) :
    Course w (attend publish id event (w.enter (.called id event))).1
      (.round event (id :: left) n :: frames) (.call id :: .round event left n :: frames) := by
  have hread : Reader.read ⟨w.bus.subscribers, .round event (id :: left) n :: frames⟩
      (.called id event) = some ⟨w.bus.subscribers, .call id :: .round event left n :: frames⟩ :=
    if_pos ⟨rfl, rfl⟩
  unfold attend
  split
  · next hl => exact .single (hw.receive event hid hl) rfl hread rfl (Nat.le_refl _)
  · next program hl =>
    have hl' : w.listeners id ≠ .channel := by
      rw [show w.listeners id = .handler program from hl]
      exact nofun
    have hs := hw.called event hid hl'
    have hcalled : Course w (w.enter (.called id event)) (.round event (id :: left) n :: frames)
        (.call id :: .round event left n :: frames) :=
      .single hs rfl hread rfl (Nat.le_refl _)
    have hfree : ∀ ids, Reader.isFree ⟨ids, .call id :: .round event left n :: frames⟩ :=
      fun _ => rfl
    exact hcalled.trans (course_perform hfree (fun e v => hp e v _ hfree) _ _ hs)

theorem course_answer (id : SubscriberId) (event : Event) (reaction : Reaction)
    (left : List SubscriberId) (n : Nat) (frames : List Frame) (w : Assembly σ) (hw : w.Sound) :
    Course w (conclude id event (w.enter (.answered id reaction)) reaction)
      (.call id :: .round event left n :: frames)
      (.round event left (n + if reaction.isOk then 1 else 0) :: frames) := by
  rw [conclude_eq]
  have hsubs := count_subscribers w.bus reaction
  have hnext := count_nextHandle w.bus reaction
  have hfailed :
      (w.bus.count reaction).failed = w.bus.failed + if !reaction.isOk then 1 else 0 := by
    unfold count
    cases reaction.isOk <;> rfl
  have hs : Sound { w.enter (.answered id reaction) with bus := w.bus.count reaction } :=
    hw.plain (.answered id reaction) rfl (hsubs ▸ List.Sublist.refl _) hnext rfl rfl rfl
  refine .single hs rfl ?_ hfailed (Nat.le_of_eq (congrArg _ hnext.symm))
  show (if id = id then some _ else none) = some (Reader.mk (w.bus.count reaction).subscribers _)
  rw [if_pos rfl, hsubs]

/-- The calls of a publication, one after the other. -/
theorem course_deliver (hp : IsCoursing publish) (event : Event) (ids : List SubscriberId)
    (n : Nat) (frames : List Frame) (w : Assembly σ) (hw : w.Sound)
    (hids : ∀ id ∈ ids, id.value < w.bus.nextHandle.value) :
    Course w (deliver (react publish) event ids w).1 (.round event ids n :: frames)
      (.round event [] (n + (deliver (react publish) event ids w).2) :: frames) := by
  induction ids generalizing n w with
  | nil => exact .refl hw _
  | cons id left ih =>
    have hattend := course_attend hp id event left n frames w hw (hids id List.mem_cons_self)
    have hanswer :=
      course_answer id event (react publish id event w).2 left n frames _ hattend.sound
    have hcall := hattend.trans hanswer
    have hleft : ∀ i ∈ left, i.value < (conclude id event (react publish id event w).1
        (react publish id event w).2).bus.nextHandle.value :=
      fun i hi => Nat.lt_of_lt_of_le (hids i (List.mem_cons_of_mem _ hi)) hcall.handles
    have hrest := ih (n + if (react publish id event w).2.isOk then 1 else 0) _ hcall.sound hleft
    have hcount : n + (deliver (react publish) event (id :: left) w).2 =
        (n + if (react publish id event w).2.isOk then 1 else 0) +
          (deliver (react publish) event left (conclude id event (react publish id event w).1
            (react publish id event w).2)).2 := by
      rw [Nat.add_right_comm, Nat.add_assoc]
      rfl
    rw [hcount]
    exact hcall.trans hrest

end Publishing

theorem isCoursing_publish (depth : Nat) : IsCoursing (publish (σ := σ) depth) := by
  induction depth with
  | zero =>
    intro event w frames hfree hw
    have hs : (w.enter (.cutOff event)).Sound := hw.plain _ rfl (.refl _) rfl rfl rfl rfl
    exact .single hs rfl (if_pos (hfree _)) rfl (Nat.le_refl _)
  | succ depth ih =>
    intro event w frames hfree hw
    have hs : (w.enter (.began event w.bus.subscribers)).Sound :=
      hw.plain _ rfl (.refl _) rfl rfl rfl rfl
    have hbegan : Course w (w.enter (.began event w.bus.subscribers)) frames
        (.round event w.bus.subscribers 0 :: frames) :=
      .single hs rfl (if_pos ⟨hfree _, rfl⟩) rfl (Nat.le_refl _)
    have hcalls := course_deliver ih event w.bus.subscribers 0 frames _ hs hw.below
    have hbody := hbegan.trans hcalls
    rw [Nat.zero_add] at hbody
    rw [publish_succ]
    exact hbody.trans (.single (hbody.sound.plain (.ended _) rfl (.refl _) rfl rfl rfl rfl) rfl
      (if_pos rfl) rfl (Nat.le_refl _))

/-- Whatever program is carried out on a new bus, its diary is read without an objection, and all
that was under way comes to an end. -/
theorem course_run (depth : Nat) (memory : σ) (program : Program σ) :
    Course { memory } (run depth memory program) [] [] :=
  course_perform (fun _ => rfl) (fun event w => isCoursing_publish depth event w [] fun _ => rfl)
    program _ (.init memory)

end Assembly

end Tether.Bus
