import Mathlib.Data.List.Perm.Basic
import Tether.Proofs.Assembly

/-!
# Publications

What follows from a diary that is read without an objection. Each law compares what entries tell
with what is under way before and after them, so it is one case analysis over the entries a reader
follows, `Reader.Reads`, and one induction over the diary:

* who was to be called is accounted for by deliveries that succeeded, deliveries that failed, and
  calls still to be made;
* the events for a subscriber are those it was called with and those it is still to be called with.

The order of events is that of the publications only as long as these do not run inside one another:
a publication that a subscriber makes is over before the one it was called by goes on.

How calls end has no influence on who is called. For this two runs are compared whose programs
differ in their reactions alone.
-/

namespace Tether.Bus

/-! ## The entries that a reader follows -/

/-- What reading an entry does, case by case. -/
inductive Reader.Reads : Reader → Entry → Reader → Prop where
  | called {ids : List SubscriberId} {id : SubscriberId} {event : Event}
      {left : List SubscriberId} {n : Nat} {frames : List Frame} :
      Reads ⟨ids, .round event (id :: left) n :: frames⟩ (.called id event)
        ⟨ids, .call id :: .round event left n :: frames⟩
  | answered {ids : List SubscriberId} {id : SubscriberId} {reaction : Reaction} {event : Event}
      {left : List SubscriberId} {n : Nat} {frames : List Frame} :
      Reads ⟨ids, .call id :: .round event left n :: frames⟩ (.answered id reaction)
        ⟨ids, .round event left (n + if reaction.isOk then 1 else 0) :: frames⟩
  | ended {ids : List SubscriberId} {event : Event} {n : Nat} {frames : List Frame} :
      Reads ⟨ids, .round event [] n :: frames⟩ (.ended n) ⟨ids, frames⟩
  | began {ids : List SubscriberId} {event : Event} {frames : List Frame} :
      Reads ⟨ids, frames⟩ (.began event ids) ⟨ids, .round event ids 0 :: frames⟩
  | joined {ids : List SubscriberId} {id : SubscriberId} {frames : List Frame} (hnew : id ∉ ids) :
      Reads ⟨ids, frames⟩ (.joined id) ⟨ids ++ [id], frames⟩
  | tuned {ids : List SubscriberId} {id : SubscriberId} {frames : List Frame} (hnew : id ∉ ids) :
      Reads ⟨ids, frames⟩ (.tuned id) ⟨ids ++ [id], frames⟩
  | left {ids : List SubscriberId} {id : SubscriberId} {found : Bool} {frames : List Frame} :
      Reads ⟨ids, frames⟩ (.left id found) ⟨ids.filter (· != id), frames⟩
  | cleared {ids : List SubscriberId} {frames : List Frame} :
      Reads ⟨ids, frames⟩ .cleared ⟨[], frames⟩
  | cutOff {ids : List SubscriberId} {event : Event} {frames : List Frame} :
      Reads ⟨ids, frames⟩ (.cutOff event) ⟨ids, frames⟩

theorem Reader.reads_of_read {r r' : Reader} {entry : Entry} (h : r.read entry = some r') :
    Reads r entry r' := by
  obtain ⟨ids, frames⟩ := r
  unfold read at h
  split at h
  · next hframes =>
    cases hframes
    split at h
    · next hif => obtain ⟨rfl, rfl⟩ := hif; cases h; exact .called
    · cases h
  · next hframes =>
    cases hframes
    split at h
    · next hif => subst hif; cases h; exact .answered
    · cases h
  · next hframes =>
    cases hframes
    split at h
    · next hif => subst hif; cases h; exact .ended
    · cases h
  · split at h
    · next hif => obtain ⟨-, rfl⟩ := hif; cases h; exact .began
    · cases h
  · split at h
    · next hif => cases h; exact .joined hif.2
    · cases h
  · split at h
    · next hif => cases h; exact .tuned hif.2
    · cases h
  · split at h
    · cases h; exact .left
    · cases h
  · split at h
    · cases h; exact .cleared
    · cases h
  · split at h
    · cases h; exact .cutOff
    · cases h
  · cases h

/-- What a law has to be shown for: it holds of an empty diary, and each entry carries it on. -/
theorem Reader.readAll_induction {P : Reader → List Entry → Reader → Prop} (nil : ∀ r, P r [] r)
    (cons : ∀ r entry r' entries r'', Reads r entry r' → P r' entries r'' →
      P r (entry :: entries) r'')
    {r r' : Reader} {entries : List Entry} (h : r.readAll entries = some r') :
    P r entries r' := by
  induction entries generalizing r with
  | nil =>
    cases h
    exact nil _
  | cons entry entries ih =>
    obtain ⟨next, hread, hrest⟩ := Option.bind_eq_some_iff.mp h
    exact cons r entry next entries r' (reads_of_read hread) (ih hrest)

/-! ## Who was called is accounted for -/

/-- The sum of the numbers that publications came to. -/
def delivered : List Entry → Nat
  | [] => 0
  | .ended n :: rest => n + delivered rest
  | _ :: rest => delivered rest

/-- The sum of the sizes of the audiences of publications. -/
def summoned : List Entry → Nat
  | [] => 0
  | .began _ audience :: rest => audience.length + summoned rest
  | _ :: rest => summoned rest

/-- The deliveries of publications that are under way: those that succeeded, those still to be made
and the one that is being made. -/
def outstanding : List Frame → Nat
  | [] => 0
  | .round _ left n :: frames => left.length + n + outstanding frames
  | .call _ :: frames => 1 + outstanding frames

theorem failures_cons (entry : Entry) (entries : List Entry) :
    failures (entry :: entries) = failures entries + if entry.isFailure then 1 else 0 :=
  List.countP_cons

theorem summoned_balance {r r' : Reader} {entries : List Entry}
    (h : r.readAll entries = some r') :
    summoned entries + outstanding r.frames =
      delivered entries + failures entries + outstanding r'.frames := by
  refine Reader.readAll_induction (P := fun r entries r' =>
    summoned entries + outstanding r.frames =
      delivered entries + failures entries + outstanding r'.frames) ?_ ?_ h
  · intro r
    rfl
  · intro r entry r' entries r'' hread ih
    rw [failures_cons]
    cases hread with
    | called =>
      simp only [outstanding, summoned, delivered, Entry.isFailure, List.length_cons,
        Bool.false_eq_true, if_false] at ih ⊢
      omega
    | @answered _ _ reaction =>
      by_cases hok : reaction.isOk
      · simp only [outstanding, summoned, delivered, Entry.isFailure, hok, Bool.not_true,
          Bool.false_eq_true, if_false, if_true] at ih ⊢
        omega
      · simp only [outstanding, summoned, delivered, Entry.isFailure, hok, Bool.not_false,
          Bool.false_eq_true, if_false, if_true] at ih ⊢
        omega
    | ended =>
      simp only [outstanding, summoned, delivered, Entry.isFailure, List.length_nil,
        Bool.false_eq_true, if_false] at ih ⊢
      omega
    | began =>
      simp only [outstanding, summoned, delivered, Entry.isFailure, Bool.false_eq_true,
        if_false] at ih ⊢
      omega
    | joined | tuned | left | cleared | cutOff => exact ih

/-! ## The events for a subscriber -/

/-- The events of the publications that had a subscriber in their audience, in the order in which
these began. -/
def addressed (id : SubscriberId) (diary : List Entry) : List Event :=
  diary.flatMap fun
    | .began event audience => if id ∈ audience then [event] else []
    | _ => []

/-- The events that a subscriber is still to be called with. -/
def pending (id : SubscriberId) (frames : List Frame) : List Event :=
  frames.flatMap fun
    | .round event left _ => if id ∈ left then [event] else []
    | .call _ => []

/-- No subscriber is on the bus twice, or to be called twice. -/
structure Reader.Tidy (r : Reader) : Prop where
  registered : r.registered.Nodup
  left : ∀ event left n, .round event left n ∈ r.frames → left.Nodup

theorem Reader.Reads.tidy {r r' : Reader} {entry : Entry} (h : Reads r entry r') (ht : r.Tidy) :
    r'.Tidy := by
  obtain ⟨hreg, hleft⟩ := ht
  cases h with
  | called =>
    refine ⟨hreg, fun event left n hmem => ?_⟩
    rcases List.mem_cons.mp hmem with h | hmem
    · cases h
    · rcases List.mem_cons.mp hmem with h | hmem
      · cases h
        exact (List.nodup_cons.mp (hleft _ _ _ List.mem_cons_self)).2
      · exact hleft event left n (List.mem_cons_of_mem _ hmem)
  | answered =>
    refine ⟨hreg, fun event left n hmem => ?_⟩
    rcases List.mem_cons.mp hmem with h | hmem
    · cases h
      exact hleft _ _ _ (List.mem_cons_of_mem _ List.mem_cons_self)
    · exact hleft event left n (List.mem_cons_of_mem _ (List.mem_cons_of_mem _ hmem))
  | ended => exact ⟨hreg, fun event left n hmem => hleft event left n (List.mem_cons_of_mem _ hmem)⟩
  | began =>
    refine ⟨hreg, fun event left n hmem => ?_⟩
    rcases List.mem_cons.mp hmem with h | hmem
    · cases h
      exact hreg
    · exact hleft event left n hmem
  | joined hnew | tuned hnew =>
    refine ⟨?_, hleft⟩
    refine List.nodup_append.mpr ⟨hreg, List.pairwise_singleton _ _, ?_⟩
    rintro a ha b hb rfl
    exact hnew (List.mem_singleton.mp hb ▸ ha)
  | left => exact ⟨hreg.filter _, hleft⟩
  | cleared => exact ⟨List.nodup_nil, hleft⟩
  | cutOff => exact ⟨hreg, hleft⟩

theorem heard_cons (id : SubscriberId) (entry : Entry) (entries : List Entry) :
    heard id (entry :: entries) = heard id [entry] ++ heard id entries :=
  heard_append id [entry] entries

theorem addressed_append (id : SubscriberId) (a b : List Entry) :
    addressed id (a ++ b) = addressed id a ++ addressed id b :=
  List.flatMap_append

theorem addressed_cons (id : SubscriberId) (entry : Entry) (entries : List Entry) :
    addressed id (entry :: entries) = addressed id [entry] ++ addressed id entries :=
  addressed_append id [entry] entries

/-- An entry other than the beginning of a publication leaves the events for a subscriber as they
are, and the one it is called with is the first of them. -/
theorem Reader.Reads.pending_eq {r r' : Reader} {entry : Entry} (h : Reads r entry r')
    (ht : r.Tidy) (id : SubscriberId) (hb : ∀ event audience, entry ≠ .began event audience) :
    addressed id [entry] = [] ∧ pending id r.frames = heard id [entry] ++ pending id r'.frames := by
  cases h with
  | @called ids i event left n frames =>
    have hnodup := List.nodup_cons.mp (ht.left _ _ _ List.mem_cons_self)
    refine ⟨rfl, ?_⟩
    by_cases hi : i = id
    · subst hi
      simp [pending, heard, hnodup.1]
    · simp [pending, heard, hi, Ne.symm hi]
  | answered => exact ⟨rfl, rfl⟩
  | ended => exact ⟨rfl, by simp [pending, heard]⟩
  | began => exact absurd rfl (hb _ _)
  | joined | tuned | left | cleared | cutOff => exact ⟨rfl, rfl⟩

/-- The events for a subscriber are those it was called with and those it is still to be called
with. -/
theorem addressed_balance {r r' : Reader} {entries : List Entry} (id : SubscriberId) (ht : r.Tidy)
    (h : r.readAll entries = some r') :
    (addressed id entries ++ pending id r.frames).Perm
      (heard id entries ++ pending id r'.frames) := by
  refine Reader.readAll_induction (P := fun r entries r' => r.Tidy →
    (addressed id entries ++ pending id r.frames).Perm
      (heard id entries ++ pending id r'.frames)) ?_ ?_ h ht
  · intro r _
    exact .refl _
  · intro r entry r' entries r'' hread ih ht
    have ih := ih (hread.tidy ht)
    rw [addressed_cons, heard_cons, List.append_assoc, List.append_assoc]
    have hstep : (addressed id [entry] ++ pending id r.frames).Perm
        (heard id [entry] ++ pending id r'.frames) := by
      by_cases hb : ∃ event audience, entry = .began event audience
      · obtain ⟨event, audience, rfl⟩ := hb
        cases hread
        simp [addressed, heard, pending]
      · obtain ⟨haddressed, hpending⟩ := hread.pending_eq ht id (by simpa using hb)
        rw [haddressed, hpending, List.nil_append]
    calc addressed id [entry] ++ (addressed id entries ++ pending id r.frames)
        |>.Perm (addressed id entries ++ (addressed id [entry] ++ pending id r.frames)) :=
          List.perm_append_comm_assoc ..
      _ |>.Perm (addressed id entries ++ (heard id [entry] ++ pending id r'.frames)) :=
          hstep.append_left _
      _ |>.Perm (heard id [entry] ++ (addressed id entries ++ pending id r'.frames)) :=
          List.perm_append_comm_assoc ..
      _ |>.Perm (heard id [entry] ++ (heard id entries ++ pending id r''.frames)) :=
          ih.append_left _

/-! ## Publications one after the other -/

/-- Whether an entry begins a publication. -/
def Entry.isBeginning : Entry → Bool
  | .began .. => true
  | _ => false

/-- Whether an entry ends a publication. -/
def Entry.isEnding : Entry → Bool
  | .ended _ => true
  | _ => false

/-- No publication begins before those that began earlier have ended; `n` were under way at
first. -/
def Successive (n : Nat) (diary : List Entry) : Prop :=
  ∀ before event audience after, diary = before ++ .began event audience :: after →
    n + before.countP (·.isBeginning) = before.countP (·.isEnding)

/-- How many publications are under way. -/
def rounds (frames : List Frame) : Nat :=
  frames.countP fun
    | .round .. => true
    | .call _ => false

theorem pending_of_rounds {frames : List Frame} (h : rounds frames = 0) (id : SubscriberId) :
    pending id frames = [] := by
  refine List.flatMap_eq_nil_iff.mpr fun frame hmem => ?_
  cases frame with
  | round event left n => exact absurd rfl (List.countP_eq_zero.mp h _ hmem)
  | call i => rfl

theorem Reader.Reads.rounds_eq {r r' : Reader} {entry : Entry} (h : Reads r entry r') :
    rounds r.frames + (if entry.isBeginning then 1 else 0) =
      rounds r'.frames + if entry.isEnding then 1 else 0 := by
  cases h <;> simp [rounds, Entry.isBeginning, Entry.isEnding]

theorem Successive.tail {n m : Nat} {entry : Entry} {diary : List Entry}
    (h : Successive n (entry :: diary))
    (hm : n + (if entry.isBeginning then 1 else 0) = m + if entry.isEnding then 1 else 0) :
    Successive m diary := by
  intro before event audience after heq
  have hcount := h (entry :: before) event audience after (by rw [heq, List.cons_append])
  rw [List.countP_cons, List.countP_cons] at hcount
  omega

/-- As long as publications come one after the other, a subscriber is called with their events in
the order of the publications. -/
theorem addressed_eq_heard {r r' : Reader} {entries : List Entry} (id : SubscriberId) (ht : r.Tidy)
    (hone : rounds r.frames ≤ 1) (hs : Successive (rounds r.frames) entries)
    (h : r.readAll entries = some r') :
    pending id r.frames ++ addressed id entries = heard id entries ++ pending id r'.frames := by
  refine Reader.readAll_induction (P := fun r entries r' => r.Tidy → rounds r.frames ≤ 1 →
    Successive (rounds r.frames) entries →
    pending id r.frames ++ addressed id entries = heard id entries ++ pending id r'.frames)
    ?_ ?_ h ht hone hs
  · intro r _ _ _
    exact List.append_nil _
  · intro r entry r' entries r'' hread ih ht hone hs
    have hrounds := hread.rounds_eq
    have hstep : pending id r.frames ++ addressed id [entry] =
        heard id [entry] ++ pending id r'.frames ∧ rounds r'.frames ≤ 1 := by
      by_cases hb : ∃ event audience, entry = .began event audience
      · obtain ⟨event, audience, rfl⟩ := hb
        -- Nothing was under way when this publication began.
        have hzero : rounds r.frames = 0 := hs [] event audience entries rfl
        have hnone := pending_of_rounds hzero id
        rw [hzero] at hrounds
        simp only [Entry.isBeginning, Entry.isEnding, Bool.false_eq_true, if_true, if_false]
          at hrounds
        refine ⟨?_, by omega⟩
        cases hread
        simp only at hnone
        simp only [pending] at hnone
        simp [addressed, heard, pending, hnone]
      · obtain ⟨haddressed, hpending⟩ := hread.pending_eq ht id (by simpa using hb)
        have hbeginning : entry.isBeginning = false := by
          cases entry <;> simp_all [Entry.isBeginning]
        rw [hbeginning] at hrounds
        refine ⟨by rw [haddressed, hpending, List.append_nil], ?_⟩
        simp only [Bool.false_eq_true, if_false] at hrounds
        omega
    have ih := ih (hread.tidy ht) hstep.2 (hs.tail hrounds)
    rw [addressed_cons, heard_cons, ← List.append_assoc, hstep.1, List.append_assoc, ih,
      List.append_assoc]

/-! ## How calls end -/

variable {σ : Type}

/-- Two programs that differ in reactions only. What they do after a publication does not depend on
what it came to, for that is a count of reactions. -/
inductive Program.Alike : Program σ → Program σ → Prop where
  | finish (a b : Reaction) : Alike (.finish a) (.finish b)
  | consult {f g : σ → Program σ} (h : ∀ memory, Alike (f memory) (g memory)) :
      Alike (.consult f) (.consult g)
  | keep (memory : σ) {p q : Program σ} (h : Alike p q) : Alike (.keep memory p) (.keep memory q)
  | subscribe {a b : Event → Program σ} {f g : SubscriberId → Program σ}
      (hab : ∀ event, Alike (a event) (b event)) (h : ∀ id, Alike (f id) (g id)) :
      Alike (.subscribe a f) (.subscribe b g)
  | listen {f g : SubscriberId → Program σ} (h : ∀ id, Alike (f id) (g id)) :
      Alike (.listen f) (.listen g)
  | unsubscribe (id : SubscriberId) {f g : Bool → Program σ}
      (h : ∀ found, Alike (f found) (g found)) : Alike (.unsubscribe id f) (.unsubscribe id g)
  | clear {p q : Program σ} (h : Alike p q) : Alike (.clear p) (.clear q)
  | publish (event : Event) {f g : Nat → Program σ} (h : ∀ m n, Alike (f m) (g n)) :
      Alike (.publish event f) (.publish event g)

/-- Two subscribers that differ in reactions only. -/
inductive Listener.Alike : Listener σ → Listener σ → Prop where
  | handler {a b : Event → Program σ} (h : ∀ event, (a event).Alike (b event)) :
      Alike (.handler a) (.handler b)
  | channel : Alike .channel .channel

/-- What an entry tells, apart from how calls ended. -/
def Entry.outline : Entry → Entry
  | .answered id _ => .answered id .ok
  | .ended _ => .ended 0
  | entry => entry

namespace Assembly

/-- Two assemblies in which the same happened, apart from how calls ended. -/
structure Similar (w v : Assembly σ) : Prop where
  nextHandle : w.bus.nextHandle = v.bus.nextHandle
  subscribers : w.bus.subscribers = v.bus.subscribers
  memory : w.memory = v.memory
  listeners : ∀ id, (w.listeners id).Alike (v.listeners id)
  diary : w.diary.map Entry.outline = v.diary.map Entry.outline

namespace Similar

theorem enter {w v : Assembly σ} (h : Similar w v) {a b : Entry} (hab : a.outline = b.outline) :
    Similar (w.enter a) (v.enter b) where
  nextHandle := h.nextHandle
  subscribers := h.subscribers
  memory := h.memory
  listeners := h.listeners
  diary := by
    show (w.diary ++ [a]).map _ = (v.diary ++ [b]).map _
    rw [List.map_append, List.map_append, h.diary, List.map_singleton, List.map_singleton, hab]

theorem enrol {w v : Assembly σ} (h : Similar w v) {a b : Listener σ} (hab : a.Alike b) :
    Similar (w.enrol a) (v.enrol b) where
  nextHandle := by
    show SubscriberId.mk _ = SubscriberId.mk _
    rw [h.nextHandle]
  subscribers := by
    show w.bus.subscribers ++ [w.bus.nextHandle] = v.bus.subscribers ++ [v.bus.nextHandle]
    rw [h.subscribers, h.nextHandle]
  memory := h.memory
  listeners := by
    intro id
    have hnew : w.bus.subscribe.2 = v.bus.subscribe.2 := h.nextHandle
    unfold Assembly.enrol
    dsimp only
    rw [hnew]
    by_cases hid : id = v.bus.subscribe.2
    · subst hid
      rw [Function.update_self, Function.update_self]
      exact hab
    · rw [Function.update_of_ne hid, Function.update_of_ne hid]
      exact h.listeners id
  diary := h.diary

theorem perform {publish : Event → Assembly σ → Assembly σ × Nat}
    (hp : ∀ event w v, Similar w v → Similar (publish event w).1 (publish event v).1)
    {p q : Program σ} (hpq : p.Alike q) {w v : Assembly σ} (h : Similar w v) :
    Similar (Assembly.perform publish p w).1 (Assembly.perform publish q v).1 := by
  induction hpq generalizing w v with
  | finish a b => exact h
  | consult _ ih =>
    unfold Assembly.perform
    rw [h.memory]
    exact ih _ h
  | keep memory _ ih =>
    exact ih (⟨h.nextHandle, h.subscribers, rfl, h.listeners, h.diary⟩ :
      Similar { w with memory } { v with memory })
  | subscribe hab _ _ ih =>
    have hnew : w.bus.subscribe.2 = v.bus.subscribe.2 := h.nextHandle
    unfold Assembly.perform
    rw [hnew]
    exact ih _ ((h.enrol (.handler hab)).enter rfl)
  | listen _ ih =>
    have hnew : w.bus.subscribe.2 = v.bus.subscribe.2 := h.nextHandle
    unfold Assembly.perform
    rw [hnew]
    exact ih _ ((h.enrol .channel).enter rfl)
  | unsubscribe id _ ih =>
    have hfound : (w.bus.unsubscribe id).2 = (v.bus.unsubscribe id).2 := by
      show w.bus.subscribers.contains id = v.bus.subscribers.contains id
      rw [h.subscribers]
    have hleft : Similar { w with bus := (w.bus.unsubscribe id).1 }
        { v with bus := (v.bus.unsubscribe id).1 } := by
      refine ⟨h.nextHandle, ?_, h.memory, h.listeners, h.diary⟩
      show w.bus.subscribers.filter _ = v.bus.subscribers.filter _
      rw [h.subscribers]
    unfold Assembly.perform
    dsimp only
    rw [hfound]
    exact ih _ (hleft.enter rfl)
  | clear _ ih =>
    have hclear : Similar { w with bus := w.bus.clear } { v with bus := v.bus.clear } :=
      ⟨h.nextHandle, rfl, h.memory, h.listeners, h.diary⟩
    exact ih (hclear.enter rfl)
  | publish event _ ih => exact ih _ _ (hp event w v h)

theorem conclude {w v : Assembly σ} (h : Similar w v) (id : SubscriberId) (event : Event)
    (a b : Reaction) :
    Similar (Bus.conclude id event w a) (Bus.conclude id event v b) := by
  rw [conclude_eq, conclude_eq]
  refine ⟨?_, ?_, h.memory, h.listeners, h.diary⟩
  · show (w.bus.count a).nextHandle = (v.bus.count b).nextHandle
    rw [count_nextHandle, count_nextHandle, h.nextHandle]
  · show (w.bus.count a).subscribers = (v.bus.count b).subscribers
    rw [count_subscribers, count_subscribers, h.subscribers]

theorem react {publish : Event → Assembly σ → Assembly σ × Nat}
    (hp : ∀ event w v, Similar w v → Similar (publish event w).1 (publish event v).1)
    (id : SubscriberId) (event : Event) {w v : Assembly σ} (h : Similar w v) :
    Similar (Assembly.react publish id event w).1 (Assembly.react publish id event v).1 := by
  have hcalled : Similar (w.enter (.called id event)) (v.enter (.called id event)) := h.enter rfl
  have hattend : Similar (attend publish id event (w.enter (.called id event))).1
      (attend publish id event (v.enter (.called id event))).1 := by
    unfold attend
    have hl := hcalled.listeners id
    revert hl
    generalize (w.enter (.called id event)).listeners id = a
    generalize (v.enter (.called id event)).listeners id = b
    intro hl
    cases hl with
    | handler hab => exact hcalled.perform hp (hab event)
    | channel => exact ⟨h.nextHandle, h.subscribers, h.memory, h.listeners, hcalled.diary⟩
  exact hattend.enter rfl

theorem deliver {publish : Event → Assembly σ → Assembly σ × Nat}
    (hp : ∀ event w v, Similar w v → Similar (publish event w).1 (publish event v).1)
    (event : Event) (ids : List SubscriberId) {w v : Assembly σ} (h : Similar w v) :
    Similar (Bus.deliver (Assembly.react publish) event ids w).1
      (Bus.deliver (Assembly.react publish) event ids v).1 := by
  induction ids generalizing w v with
  | nil => exact h
  | cons id ids ih => exact ih ((h.react hp id event).conclude id event _ _)

theorem publish (depth : Nat) (event : Event) {w v : Assembly σ} (h : Similar w v) :
    Similar (Assembly.publish depth event w).1 (Assembly.publish depth event v).1 := by
  induction depth generalizing event w v with
  | zero => exact h.enter rfl
  | succ depth ih =>
    have hbegan : Similar (w.enter (.began event w.bus.subscribers))
        (v.enter (.began event v.bus.subscribers)) := h.enter (by rw [h.subscribers])
    have hcalls := hbegan.deliver (fun e _ _ => ih e) event w.bus.subscribers
    rw [publish_succ, publish_succ, ← h.subscribers]
    rw [← h.subscribers] at hcalls
    exact hcalls.enter rfl

end Similar

theorem similar_run (depth : Nat) (memory : σ) {p q : Program σ} (h : p.Alike q) :
    Similar (run depth memory p) (run depth memory q) := by
  have hinit : Similar ({ memory } : Assembly σ) { memory } :=
    ⟨rfl, rfl, rfl, fun _ => .handler fun _ => .finish .ok .ok, rfl⟩
  exact hinit.perform (fun event _ _ => Similar.publish depth event) h

/-- A publication has those for its audience who are on the bus when it begins. It calls each of
them once, with its event and in the order of registration, whatever the subscribers do meanwhile,
and comes to the number of calls that ended well: so the diary of any run is read without an
objection. Programs that differ in reactions only make the same calls in the same order. Over a
whole run, what publications came to and what failed are together the sizes of their audiences.

A subscriber that keeps events has kept those of the publications that had it in their audience,
each once, in the order in which it was called; and as long as no publication begins inside another,
this is the order of the publications. -/
theorem publications_reach_their_audience (depth : Nat) (memory : σ) (p : Program σ) :
    let w := run depth memory p
    Reader.readAll {} w.diary = some ⟨w.bus.subscribers, []⟩ ∧
    (∀ q : Program σ, p.Alike q →
      (run depth memory q).diary.map Entry.outline = w.diary.map Entry.outline) ∧
    delivered w.diary + w.bus.failed = summoned w.diary ∧
    (∀ id, .tuned id ∈ w.diary →
      w.received id = heard id w.diary ∧
      (w.received id).Perm (addressed id w.diary) ∧
      (Successive 0 w.diary → w.received id = addressed id w.diary)) := by
  intro w
  have hcourse := course_run depth memory p
  obtain ⟨entries, hdiary, hread, hfailed⟩ := hcourse.told
  have hd : w.diary = entries := hdiary
  have hread : Reader.readAll {} w.diary = some ⟨w.bus.subscribers, []⟩ := by
    rw [hd]
    exact hread
  have htidy : Reader.Tidy {} := ⟨List.nodup_nil, nofun⟩
  refine ⟨hread, ?_, ?_, ?_⟩
  · intro q hq
    exact (similar_run depth memory hq).diary.symm
  · have hbalance := summoned_balance hread
    have hf : w.bus.failed = failures w.diary := by
      rw [hd]
      exact hfailed.trans (Nat.zero_add _)
    rw [hf]
    exact hbalance.symm
  · intro id htuned
    obtain ⟨hid, hchannel⟩ := hcourse.sound.tuned id htuned
    have hkept := hcourse.sound.kept id hid hchannel
    have hperm := addressed_balance id htidy hread
    refine ⟨hkept, ?_, ?_⟩
    · rw [hkept]
      simpa [pending] using hperm.symm
    · intro hs
      have horder := addressed_eq_heard id htidy (Nat.zero_le 1) hs hread
      rw [hkept]
      simpa [pending] using horder.symm

/-- A subscriber that publishes another event when it hears that the link is up, and after it one
that keeps events. -/
def overtaking : Program Unit :=
  .subscribe
    (fun
      | .opened => .publish .stopped fun _ => .finish .ok
      | _ => .finish .ok)
    fun _ => .listen fun _ => .publish .opened fun _ => .finish .ok

/-- The event of a publication that was made later can come first. -/
theorem order_of_publications_not_kept :
    (run 2 () overtaking).received ⟨2⟩ = [.stopped, .opened] ∧
      addressed ⟨2⟩ (run 2 () overtaking).diary = [.opened, .stopped] ∧
      ∀ event, .cutOff event ∉ (run 2 () overtaking).diary :=
  ⟨rfl, rfl, fun event hin => by
    have hdiary :
        (run 2 () overtaking).diary.any (fun entry => entry.outline == .cutOff event) = false := rfl
    simp [Entry.outline] at hdiary
    exact hdiary _ hin rfl⟩

end Assembly

end Tether.Bus
