import Mathlib.Data.List.Nodup
import Tether.Proofs.Assembly
import Tether.Proofs.Preliminaries

/-!
# Handles

A handle belongs to one subscriber for good. Handles are counted up, also by subscribers that add
others while they are called, and the count is never turned back; so whoever is on a bus stands
there in the order of registration, and a handle that has left the bus does not return to it.

A run is looked at moment by moment: `moments` lists the worlds that it passes through, those inside
publications and calls included. From one moment to the next there is one operation on the bus, or
something that leaves its subscribers alone (`Step`). What holds of handles is one case analysis
over such steps, `Accounted.step`, and one induction over the moments, `Leads`.
-/

namespace Tether.Bus

/-! ## What a diary tells about handles -/

/-- The handle that was given out. -/
def Entry.handle? : Entry → Option SubscriberId
  | .joined id | .tuned id => some id
  | _ => none

/-- Whether a subscriber that was there is there no longer. -/
def Entry.removes (id : SubscriberId) : Entry → Bool
  | .left i found => found && i == id
  | .cleared => true
  | _ => false

/-- Entries of which nothing follows for who is on the bus. -/
def Entry.isQuiet : Entry → Bool
  | .joined _ | .tuned _ | .left .. | .cleared => false
  | _ => true

/-- The handles that were given out, in order. -/
def issued (diary : List Entry) : List SubscriberId := diary.filterMap (·.handle?)

/-- A handle was given out, and its subscriber was not removed since. -/
def Standing (id : SubscriberId) (diary : List Entry) : Prop :=
  ∃ before entry after, diary = before ++ entry :: after ∧ entry.handle? = some id ∧
    ∀ later ∈ after, later.removes id = false

theorem issued_append (a b : List Entry) : issued (a ++ b) = issued a ++ issued b :=
  List.filterMap_append

theorem issued_singleton {entry : Entry} {id : SubscriberId} (h : entry.handle? = some id) :
    issued [entry] = [id] := by
  simp [issued, h]

theorem Entry.removes_of_handle? {entry : Entry} {i : SubscriberId} (h : entry.handle? = some i)
    (id : SubscriberId) : entry.removes id = false := by
  cases entry with
  | joined | tuned => rfl
  | _ => cases h

theorem Entry.handle?_of_isQuiet {entry : Entry} (h : entry.isQuiet) : entry.handle? = none := by
  cases entry with
  | joined | tuned => cases h
  | _ => rfl

theorem Entry.removes_of_isQuiet {entry : Entry} (h : entry.isQuiet) (id : SubscriberId) :
    entry.removes id = false := by
  cases entry with
  | left | cleared => cases h
  | _ => rfl

theorem issued_of_isQuiet {entries : List Entry} (h : ∀ entry ∈ entries, entry.isQuiet) :
    issued entries = [] :=
  List.filterMap_eq_nil_iff.mpr fun entry hmem => Entry.handle?_of_isQuiet (h entry hmem)

theorem count_left_eq_zero {entries : List Entry} {id : SubscriberId}
    (h : ∀ entry ∈ entries, entry.removes id = false) : entries.count (.left id true) = 0 := by
  refine List.count_eq_zero.mpr fun hmem => ?_
  have := h _ hmem
  simp [Entry.removes] at this

theorem standing_nil (id : SubscriberId) : ¬ Standing id [] := by
  rintro ⟨before, entry, after, heq, -⟩
  simp at heq

theorem standing_singleton {id : SubscriberId} {entry : Entry} :
    Standing id [entry] ↔ entry.handle? = some id := by
  constructor
  · rintro ⟨before, e, after, heq, hhandle, -⟩
    have hmem : e ∈ [entry] := by
      rw [heq]
      exact List.mem_append_right _ List.mem_cons_self
    rw [← List.mem_singleton.mp hmem]
    exact hhandle
  · intro h
    exact ⟨[], entry, [], rfl, h, nofun⟩

theorem standing_append {id : SubscriberId} {a b : List Entry} :
    Standing id (a ++ b) ↔
      Standing id b ∨ Standing id a ∧ ∀ later ∈ b, later.removes id = false := by
  constructor
  · rintro ⟨before, entry, after, heq, hhandle, hafter⟩
    rcases List.append_eq_append_cons heq with ⟨mid, ha, rfl⟩ | ⟨mid, -, hb⟩
    · refine .inr ⟨⟨before, entry, mid, ha, hhandle, ?_⟩, ?_⟩
      · exact fun later hl => hafter later (List.mem_append_left _ hl)
      · exact fun later hl => hafter later (List.mem_append_right _ hl)
    · exact .inl ⟨mid, entry, after, hb, hhandle, hafter⟩
  · rintro (⟨before, entry, after, rfl, hhandle, hafter⟩ |
      ⟨⟨before, entry, after, rfl, hhandle, hafter⟩, hb⟩)
    · exact ⟨a ++ before, entry, after, (List.append_assoc ..).symm, hhandle, hafter⟩
    · refine ⟨before, entry, after ++ b, by simp, hhandle, fun later hl => ?_⟩
      rcases List.mem_append.mp hl with hl | hl
      · exact hafter later hl
      · exact hb later hl

theorem not_standing_of_isQuiet {id : SubscriberId} {entries : List Entry}
    (h : ∀ entry ∈ entries, entry.isQuiet) : ¬ Standing id entries := by
  rintro ⟨before, entry, after, rfl, hhandle, -⟩
  have hquiet := h entry (List.mem_append_right _ List.mem_cons_self)
  rw [Entry.handle?_of_isQuiet hquiet] at hhandle
  cases hhandle

/-! ## Removing a subscriber -/

theorem unsubscribe_snd_iff {b : Bus} {id : SubscriberId} :
    (b.unsubscribe id).2 = true ↔ id ∈ b.subscribers :=
  List.contains_iff_mem

/-- Nobody else is removed, and the others keep their order. -/
theorem unsubscribe_of_mem {b : Bus} {id : SubscriberId} (hb : b.subscribers.Nodup)
    (hid : id ∈ b.subscribers) :
    ∃ before after, b.subscribers = before ++ id :: after ∧
      (b.unsubscribe id).1 = { b with subscribers := before ++ after } := by
  obtain ⟨before, after, heq⟩ := List.append_of_mem hid
  refine ⟨before, after, heq, ?_⟩
  rw [heq] at hb
  obtain ⟨-, hafter, hdisjoint⟩ := List.nodup_append.mp hb
  have hbefore : id ∉ before := fun h => hdisjoint id h id List.mem_cons_self rfl
  have hfilter : b.subscribers.filter (· != id) = before ++ after := by
    rw [heq, List.filter_append, List.filter_cons_of_neg (by simp),
      List.filter_bne_eq_self_of_not_mem hbefore,
      List.filter_bne_eq_self_of_not_mem (List.nodup_cons.mp hafter).1]
  unfold unsubscribe
  rw [hfilter]

theorem unsubscribe_of_not_mem {b : Bus} {id : SubscriberId} (hid : id ∉ b.subscribers) :
    (b.unsubscribe id).1 = b := by
  unfold unsubscribe
  rw [List.filter_bne_eq_self_of_not_mem hid]

/-- Each removal that is reported takes a subscriber off the bus. -/
theorem count_unsubscribe_le (b : Bus) (i id : SubscriberId) :
    [Entry.left i (b.unsubscribe i).2].count (.left id true) +
      (b.unsubscribe i).1.subscribers.count id ≤ b.subscribers.count id := by
  have hsub : (b.unsubscribe i).1.subscribers.Sublist b.subscribers := List.filter_sublist
  by_cases hreported : i = id ∧ i ∈ b.subscribers
  · obtain ⟨rfl, hi⟩ := hreported
    have hgone : (b.unsubscribe i).1.subscribers.count i = 0 :=
      List.count_eq_zero.mpr fun h => by simp [unsubscribe] at h
    have hone : [Entry.left i (b.unsubscribe i).2].count (.left i true) ≤ 1 := List.count_le_length
    have hthere : 0 < b.subscribers.count i := List.count_pos_iff.mpr hi
    omega
  · have hnone : [Entry.left i (b.unsubscribe i).2].count (.left id true) = 0 := by
      refine List.count_eq_zero.mpr fun h => hreported ?_
      obtain ⟨rfl, hfound⟩ := Entry.left.inj (List.mem_singleton.mp h)
      exact ⟨rfl, unsubscribe_snd_iff.mp hfound.symm⟩
    have := hsub.count_le id
    omega

variable {σ : Type}

namespace Assembly

/-! ## The moments of a run -/

section Moments

variable (publish : Event → Assembly σ → Assembly σ × Nat)
  (inside : Event → Assembly σ → List (Assembly σ))

/-- The worlds that a program passes through after the one it begins in, given what publishing does
and passes through. -/
def performing : Program σ → Assembly σ → List (Assembly σ)
  | .finish _, _ => []
  | .consult next, w => performing (next w.memory) w
  | .keep memory next, w => { w with memory } :: performing next { w with memory }
  | .subscribe handler next, w =>
    let w' := (w.enrol (.handler handler)).enter (.joined w.bus.subscribe.2)
    w' :: performing (next w.bus.subscribe.2) w'
  | .listen next, w =>
    let w' := (w.enrol .channel).enter (.tuned w.bus.subscribe.2)
    w' :: performing (next w.bus.subscribe.2) w'
  | .unsubscribe id next, w =>
    let (bus, found) := w.bus.unsubscribe id
    let w' := { w with bus }.enter (.left id found)
    w' :: performing (next found) w'
  | .clear next, w =>
    let w' := { w with bus := w.bus.clear }.enter .cleared
    w' :: performing next w'
  | .publish event next, w =>
    inside event w ++ performing (next (publish event w).2) (publish event w).1

/-- The worlds that a call passes through before the subscriber comes back from it. -/
def attending (id : SubscriberId) (event : Event) (w : Assembly σ) : List (Assembly σ) :=
  match w.listeners id with
  | .channel => [w.receive id event]
  | .handler program => performing publish inside (program event) w

/-- The worlds that the calls of a publication pass through. -/
def delivering (event : Event) : List SubscriberId → Assembly σ → List (Assembly σ)
  | [], _ => []
  | id :: rest, w =>
    let called := w.enter (.called id event)
    let answered := (react publish id event w).1
    let concluded := conclude id event answered (react publish id event w).2
    called :: (attending publish inside id event called ++
      answered :: concluded :: delivering event rest concluded)

end Moments

/-- The worlds that a publication passes through. -/
def publishing : Nat → Event → Assembly σ → List (Assembly σ)
  | 0, event, w => [w.enter (.cutOff event)]
  | depth + 1, event, w =>
    let began := w.enter (.began event w.bus.subscribers)
    began :: (delivering (publish depth) (publishing depth) event w.bus.subscribers began ++
      [(publish (depth + 1) event w).1])

/-- The worlds that a run passes through, from the new bus on. -/
def moments (depth : Nat) (memory : σ) (program : Program σ) : List (Assembly σ) :=
  { memory } :: performing (publish depth) (publishing depth) program { memory }

/-! ## From one moment to the next -/

/-- What leads from one moment to the next. -/
inductive Step (w v : Assembly σ) : Prop where
  /-- A subscriber is added. -/
  | added (entry : Entry) (handle : entry.handle? = some w.bus.subscribe.2)
      (bus : v.bus = w.bus.subscribe.1) (diary : v.diary = w.diary ++ [entry])
  /-- A subscriber is to be removed. -/
  | removed (id : SubscriberId) (bus : v.bus = (w.bus.unsubscribe id).1)
      (diary : v.diary = w.diary ++ [.left id (w.bus.unsubscribe id).2])
  /-- All subscribers are removed. -/
  | cleared (bus : v.bus = w.bus.clear) (diary : v.diary = w.diary ++ [.cleared])
  /-- The subscribers are left alone. -/
  | quiet (entries : List Entry) (quiet : ∀ entry ∈ entries, entry.isQuiet)
      (subscribers : v.bus.subscribers = w.bus.subscribers)
      (nextHandle : v.bus.nextHandle = w.bus.nextHandle) (diary : v.diary = w.diary ++ entries)

theorem Step.enter (w : Assembly σ) {entry : Entry} (h : entry.isQuiet) : Step w (w.enter entry) :=
  .quiet [entry] (List.forall_mem_singleton.mpr h) rfl rfl rfl

/-- Step by step through a list of worlds, to the last of them. -/
inductive Leads : Assembly σ → List (Assembly σ) → Assembly σ → Prop where
  | nil (w : Assembly σ) : Leads w [] w
  | cons {u v w : Assembly σ} {worlds : List (Assembly σ)} (step : Step u v)
      (rest : Leads v worlds w) : Leads u (v :: worlds) w

theorem Leads.append {u v w : Assembly σ} {a b : List (Assembly σ)} (h : Leads u a v)
    (h' : Leads v b w) : Leads u (a ++ b) w := by
  induction h with
  | nil => exact h'
  | cons step _ ih => exact .cons step (ih h')

theorem Leads.mem {v w : Assembly σ} {worlds : List (Assembly σ)} (h : Leads v worlds w) :
    w ∈ v :: worlds := by
  induction h with
  | nil w => exact List.mem_cons_self
  | cons _ _ ih => exact List.mem_cons_of_mem _ ih

section Publishing

variable {publish : Event → Assembly σ → Assembly σ × Nat}
  {inside : Event → Assembly σ → List (Assembly σ)}

theorem leads_performing (h : ∀ event w, Leads w (inside event w) (publish event w).1)
    (program : Program σ) (w : Assembly σ) :
    Leads w (performing publish inside program w) (perform publish program w).1 := by
  induction program generalizing w with
  | finish reaction => exact .nil w
  | consult next ih => exact ih w.memory w
  | keep memory next ih => exact .cons (.quiet [] nofun rfl rfl (List.append_nil _).symm) (ih _)
  | subscribe handler next _ ih =>
    exact .cons (.added (.joined w.bus.subscribe.2) rfl rfl rfl) (ih _ _)
  | listen next ih => exact .cons (.added (.tuned w.bus.subscribe.2) rfl rfl rfl) (ih _ _)
  | unsubscribe id next ih => exact .cons (.removed id rfl rfl) (ih _ _)
  | clear next ih => exact .cons (.cleared rfl rfl) (ih _)
  | publish event next ih => exact (h event w).append (ih _ _)

theorem leads_attending (h : ∀ event w, Leads w (inside event w) (publish event w).1)
    (id : SubscriberId) (event : Event) (w : Assembly σ) :
    Leads w (attending publish inside id event w) (attend publish id event w).1 := by
  unfold attending attend
  cases w.listeners id with
  | channel => exact .cons (.quiet [] nofun rfl rfl (List.append_nil _).symm) (.nil _)
  | handler program => exact leads_performing h (program event) w

theorem step_conclude (id : SubscriberId) (event : Event) (w : Assembly σ) (reaction : Reaction) :
    Step w (conclude id event w reaction) := by
  rw [conclude_eq]
  exact .quiet [] nofun (count_subscribers _ _) (count_nextHandle _ _) (List.append_nil _).symm

theorem leads_delivering (h : ∀ event w, Leads w (inside event w) (publish event w).1)
    (event : Event) (ids : List SubscriberId) (w : Assembly σ) :
    Leads w (delivering publish inside event ids w) (deliver (react publish) event ids w).1 := by
  induction ids generalizing w with
  | nil => exact .nil w
  | cons id rest ih =>
    have hattend := leads_attending h id event (w.enter (.called id event))
    have hanswer : Step (attend publish id event (w.enter (.called id event))).1
        (react publish id event w).1 := .enter _ rfl
    have hrest := ih (conclude id event (react publish id event w).1 (react publish id event w).2)
    exact .cons (.enter w rfl) (hattend.append (.cons hanswer (.cons (step_conclude ..) hrest)))

end Publishing

theorem leads_publishing (depth : Nat) (event : Event) (w : Assembly σ) :
    Leads w (publishing depth event w) (publish depth event w).1 := by
  induction depth generalizing event w with
  | zero => exact .cons (.enter w rfl) (.nil _)
  | succ depth ih =>
    have hcalls := leads_delivering ih event w.bus.subscribers
      (w.enter (.began event w.bus.subscribers))
    have hend : Step (deliver (react (publish depth)) event w.bus.subscribers
        (w.enter (.began event w.bus.subscribers))).1 (publish (depth + 1) event w).1 :=
      .enter _ rfl
    exact .cons (.enter w rfl) (hcalls.append (.cons hend (.nil _)))

theorem leads_moments (depth : Nat) (memory : σ) (p : Program σ) :
    Leads { memory } (moments depth memory p).tail (run depth memory p) :=
  leads_performing (leads_publishing depth) p _

/-! ## What holds at every moment -/

/-- The diary accounts for the handles of the bus. -/
structure Accounted (w : Assembly σ) : Prop where
  /-- The handles that were given out are all those before the next one. -/
  numbered : ∃ n, w.bus.nextHandle = ⟨n + 1⟩ ∧
    issued w.diary = (List.range' 1 n).map SubscriberId.mk
  /-- The subscribers stand in the order in which they got their handles. -/
  ordered : w.bus.subscribers.Sublist (issued w.diary)
  /-- Those are on the bus who were added and not removed since. -/
  standing : ∀ id, id ∈ w.bus.subscribers ↔ Standing id w.diary
  /-- A handle is given out for each subscriber that is on the bus or was removed. -/
  once : ∀ id, w.diary.count (.left id true) + w.bus.subscribers.count id ≤
    (issued w.diary).count id

theorem Accounted.init (memory : σ) : Accounted ({ memory } : Assembly σ) where
  numbered := ⟨0, rfl, rfl⟩
  ordered := .slnil
  standing id := ⟨nofun, fun h => absurd h (standing_nil id)⟩
  once _ := Nat.le_refl _

namespace Accounted

variable {w v : Assembly σ}

theorem issued_increasing (hw : w.Accounted) : (issued w.diary).Pairwise (·.value < ·.value) := by
  obtain ⟨n, -, hissued⟩ := hw.numbered
  rw [hissued, List.pairwise_map]
  exact List.pairwise_lt_range'

theorem issued_nodup (hw : w.Accounted) : (issued w.diary).Nodup :=
  hw.issued_increasing.imp fun hlt heq => Nat.ne_of_lt hlt (congrArg _ heq)

/-- The next handle was not given out before. -/
theorem nextHandle_not_mem (hw : w.Accounted) : w.bus.nextHandle ∉ issued w.diary := by
  obtain ⟨n, hnext, hissued⟩ := hw.numbered
  rw [hnext, hissued]
  intro hmem
  obtain ⟨i, hi, heq⟩ := List.mem_map.mp hmem
  have hlt := (List.mem_range'_1.mp hi).2
  have := SubscriberId.mk.inj heq
  omega

theorem added (hw : w.Accounted) {entry : Entry} (handle : entry.handle? = some w.bus.subscribe.2)
    (bus : v.bus = w.bus.subscribe.1) (diary : v.diary = w.diary ++ [entry]) : v.Accounted := by
  have hsubs : v.bus.subscribers = w.bus.subscribers ++ [w.bus.nextHandle] := by rw [bus]; rfl
  have hissued : issued v.diary = issued w.diary ++ [w.bus.nextHandle] := by
    rw [diary, issued_append, issued_singleton handle]
    rfl
  have hkeeps : ∀ id, ∀ later ∈ [entry], later.removes id = false := fun id =>
    List.forall_mem_singleton.mpr (Entry.removes_of_handle? handle id)
  constructor
  · obtain ⟨n, hnext, hn⟩ := hw.numbered
    refine ⟨n + 1, ?_, ?_⟩
    · rw [bus]
      show SubscriberId.mk (w.bus.nextHandle.value + 1) = _
      rw [hnext]
    · rw [hissued, hn, hnext, List.range'_concat, List.map_append, Nat.one_mul, Nat.add_comm 1 n]
      rfl
  · rw [hsubs, hissued]
    exact hw.ordered.append (.refl _)
  · intro id
    rw [hsubs, diary, standing_append, standing_singleton, handle, List.mem_append, hw.standing]
    constructor
    · rintro (hid | hid)
      · exact .inr ⟨hid, hkeeps id⟩
      · exact .inl (congrArg some (List.mem_singleton.mp hid).symm)
    · rintro (hid | ⟨hid, -⟩)
      · exact .inr (List.mem_singleton.mpr (Option.some.inj hid).symm)
      · exact .inl hid
  · intro id
    have honce := hw.once id
    rw [hissued, diary, hsubs, List.count_append, List.count_append, List.count_append,
      count_left_eq_zero (hkeeps id)]
    omega

theorem removed (hw : w.Accounted) {id : SubscriberId} (bus : v.bus = (w.bus.unsubscribe id).1)
    (diary : v.diary = w.diary ++ [.left id (w.bus.unsubscribe id).2]) : v.Accounted := by
  have hsub : v.bus.subscribers.Sublist w.bus.subscribers := by
    rw [bus]
    exact List.filter_sublist
  have hissued : issued v.diary = issued w.diary := by
    rw [diary, issued_append]
    exact List.append_nil _
  constructor
  · rw [hissued, bus]
    exact hw.numbered
  · rw [hissued]
    exact hsub.trans hw.ordered
  · intro i
    have hmem : i ∈ v.bus.subscribers ↔ i ∈ w.bus.subscribers ∧ i ≠ id := by
      rw [bus]
      simp [unsubscribe]
    rw [hmem, diary, standing_append, standing_singleton, List.forall_mem_singleton,
      ← hw.standing]
    constructor
    · rintro ⟨hi, hne⟩
      exact .inr ⟨hi, by simp [Entry.removes, hne.symm]⟩
    · rintro (h | ⟨hi, hstays⟩)
      · cases h
      · refine ⟨hi, ?_⟩
        rintro rfl
        -- It was there, so the entry tells that it was removed.
        rw [unsubscribe_snd_iff.mpr hi] at hstays
        simp [Entry.removes] at hstays
  · intro i
    have honce := hw.once i
    have hcount := count_unsubscribe_le w.bus id i
    rw [hissued, diary, List.count_append, bus]
    omega

theorem cleared (hw : w.Accounted) (bus : v.bus = w.bus.clear)
    (diary : v.diary = w.diary ++ [.cleared]) : v.Accounted := by
  have hsubs : v.bus.subscribers = [] := by rw [bus]; rfl
  have hissued : issued v.diary = issued w.diary := by
    rw [diary, issued_append]
    exact List.append_nil _
  constructor
  · rw [hissued, bus]
    exact hw.numbered
  · rw [hsubs]
    exact List.nil_sublist _
  · intro id
    rw [hsubs, diary, standing_append, standing_singleton, List.forall_mem_singleton]
    constructor
    · intro h
      cases h
    · rintro (h | ⟨-, h⟩) <;> cases h
  · intro id
    have honce := hw.once id
    have hnone : [Entry.cleared].count (.left id true) = 0 := List.count_eq_zero.mpr (by simp)
    rw [hissued, diary, hsubs, List.count_append, hnone, List.count_nil]
    omega

theorem quiet (hw : w.Accounted) {entries : List Entry}
    (hquiet : ∀ entry ∈ entries, entry.isQuiet)
    (subscribers : v.bus.subscribers = w.bus.subscribers)
    (nextHandle : v.bus.nextHandle = w.bus.nextHandle) (diary : v.diary = w.diary ++ entries) :
    v.Accounted := by
  have hissued : issued v.diary = issued w.diary := by
    rw [diary, issued_append, issued_of_isQuiet hquiet, List.append_nil]
  have hkeeps : ∀ id, ∀ later ∈ entries, later.removes id = false := fun id later hlater =>
    Entry.removes_of_isQuiet (hquiet later hlater) id
  constructor
  · rw [hissued, nextHandle]
    exact hw.numbered
  · rw [hissued, subscribers]
    exact hw.ordered
  · intro id
    rw [subscribers, diary, standing_append, hw.standing]
    constructor
    · exact fun h => .inr ⟨h, hkeeps id⟩
    · rintro (h | ⟨h, -⟩)
      · exact absurd h (not_standing_of_isQuiet hquiet)
      · exact h
  · intro id
    rw [hissued, diary, subscribers, List.count_append, count_left_eq_zero (hkeeps id)]
    exact hw.once id

theorem step (hw : w.Accounted) (h : Step w v) : v.Accounted := by
  cases h with
  | added entry handle bus diary => exact hw.added handle bus diary
  | removed id bus diary => exact hw.removed bus diary
  | cleared bus diary => exact hw.cleared bus diary
  | quiet entries quiet subscribers nextHandle diary =>
    exact hw.quiet quiet subscribers nextHandle diary

end Accounted

/-! ## What holds from one moment to a later one -/

/-- The diary goes on, and no handle that was given out returns to the bus. -/
structure Precedes (w v : Assembly σ) : Prop where
  /-- The diary goes on. -/
  diary : w.diary <+: v.diary
  /-- Who is not on the bus any more stays away. -/
  gone : ∀ id ∈ issued w.diary, id ∉ w.bus.subscribers → id ∉ v.bus.subscribers

theorem Precedes.trans {u v w : Assembly σ} (h : Precedes u v) (h' : Precedes v w) :
    Precedes u w where
  diary := h.diary.trans h'.diary
  gone id hid hnot :=
    h'.gone id ((h.diary.filterMap _).subset hid) (h.gone id hid hnot)

theorem Step.precedes {w v : Assembly σ} (h : Step w v) (hw : w.Accounted) : Precedes w v := by
  cases h with
  | added entry handle bus diary =>
    refine ⟨⟨_, diary.symm⟩, fun id hid hnot hmem => ?_⟩
    rw [bus] at hmem
    rcases List.mem_append.mp hmem with h | h
    · exact hnot h
    · -- The one handle that comes to the bus was not given out before.
      exact hw.nextHandle_not_mem (List.mem_singleton.mp h ▸ hid)
  | removed id bus diary =>
    refine ⟨⟨_, diary.symm⟩, fun i _ hnot hmem => hnot ?_⟩
    rw [bus] at hmem
    exact List.mem_of_mem_filter hmem
  | cleared bus diary =>
    refine ⟨⟨_, diary.symm⟩, fun id _ _ hmem => ?_⟩
    rw [bus] at hmem
    cases hmem
  | quiet entries _ subscribers _ diary =>
    refine ⟨⟨_, diary.symm⟩, fun id _ hnot => ?_⟩
    rw [subscribers]
    exact hnot

theorem Leads.accounted {v w : Assembly σ} {worlds : List (Assembly σ)} (h : Leads v worlds w)
    (hv : v.Accounted) : ∀ u ∈ v :: worlds, u.Accounted := by
  induction h with
  | nil w => exact List.forall_mem_singleton.mpr hv
  | cons step _ ih => exact List.forall_mem_cons.mpr ⟨hv, ih (hv.step step)⟩

theorem Leads.precedes {v w : Assembly σ} {worlds : List (Assembly σ)} (h : Leads v worlds w)
    (hv : v.Accounted) : (v :: worlds).Pairwise Precedes := by
  induction h with
  | nil w => exact List.pairwise_singleton _ _
  | cons step _ ih =>
    have hrest := ih (hv.step step)
    have hnext := step.precedes hv
    refine List.pairwise_cons.mpr ⟨List.forall_mem_cons.mpr ⟨hnext, fun u hu => ?_⟩, hrest⟩
    exact hnext.trans ((List.pairwise_cons.mp hrest).1 u hu)

theorem Precedes.not_reissued {w v : Assembly σ} (h : Precedes w v) (hv : v.Accounted) :
    ∃ entries, v.diary = w.diary ++ entries ∧ ∀ id ∈ issued w.diary, id ∉ issued entries := by
  obtain ⟨entries, hdiary⟩ := h.diary
  refine ⟨entries, hdiary.symm, fun id hid hagain => ?_⟩
  have hnodup := hv.issued_nodup
  rw [← hdiary, issued_append] at hnodup
  exact (List.nodup_append.mp hnodup).2.2 id hid id hagain rfl

/-- A handle belongs to one subscriber for good, whoever adds and removes subscribers and whether or
not a publication is under way.

A run goes step by step through its moments. At each of them the handles given out so far are
distinct, being the first numbers in order. The subscribers on the bus have increasing handles and
stand in the order of registration; they are those who were added and not removed since. To remove a
subscriber succeeds if and only if it is on the bus, takes away no other and leaves the rest in
order, and no handle was removed with success twice. From each moment on, no handle that was given
out before is given out again, and none that is not on the bus any more comes back to it. -/
theorem handles_never_confused (depth : Nat) (memory : σ) (p : Program σ) :
    Leads { memory } (moments depth memory p).tail (run depth memory p) ∧
    (∀ w ∈ moments depth memory p,
      (issued w.diary).Nodup ∧
      issued w.diary = (List.range' 1 (issued w.diary).length).map SubscriberId.mk ∧
      w.bus.subscribers.Pairwise (·.value < ·.value) ∧
      w.bus.subscribers.Sublist (issued w.diary) ∧
      (∀ id, id ∈ w.bus.subscribers ↔ Standing id w.diary) ∧
      (∀ id, (w.bus.unsubscribe id).2 = true ↔ id ∈ w.bus.subscribers) ∧
      (∀ id ∈ w.bus.subscribers, ∃ before after, w.bus.subscribers = before ++ id :: after ∧
        (w.bus.unsubscribe id).1 = { w.bus with subscribers := before ++ after }) ∧
      (∀ id ∉ w.bus.subscribers, (w.bus.unsubscribe id).1 = w.bus) ∧
      ∀ id, w.diary.count (.left id true) ≤ 1) ∧
    (moments depth memory p).Pairwise fun w v =>
      (∃ entries, v.diary = w.diary ++ entries ∧ ∀ id ∈ issued w.diary, id ∉ issued entries) ∧
      ∀ id ∈ issued w.diary, id ∉ w.bus.subscribers → id ∉ v.bus.subscribers := by
  have hleads := leads_moments depth memory p
  have haccounted : ∀ w ∈ moments depth memory p, w.Accounted := hleads.accounted (.init memory)
  have hprecedes : (moments depth memory p).Pairwise Precedes := hleads.precedes (.init memory)
  refine ⟨hleads, fun w hmem => ?_, ?_⟩
  · have hw := haccounted w hmem
    have hnodup := hw.issued_nodup
    refine ⟨hnodup, ?_, hw.issued_increasing.sublist hw.ordered, hw.ordered, hw.standing,
      fun id => unsubscribe_snd_iff, fun id => unsubscribe_of_mem (hnodup.sublist hw.ordered),
      fun id => unsubscribe_of_not_mem, fun id => ?_⟩
    · obtain ⟨n, -, hissued⟩ := hw.numbered
      rw [hissued, List.length_map, List.length_range']
    · have honce := hw.once id
      have hissued := List.nodup_iff_count_le_one.mp hnodup id
      omega
  · refine hprecedes.imp_of_mem fun {w v} _ hv h => ?_
    exact ⟨h.not_reissued (haccounted v hv), h.gone⟩

/-- A subscriber that removes itself when it is called, adds another, removes all and has events
kept. Afterwards it is to be removed again, the one that keeps events is removed, and a last one is
added. -/
def revolving : Program Unit :=
  .subscribe
    (fun _ => .unsubscribe ⟨1⟩ fun _ => .subscribe (fun _ => .finish .ok) fun _ => .clear <|
      .listen fun _ => .finish .ok)
    fun _ => .publish .opened fun _ => .unsubscribe ⟨1⟩ fun _ => .unsubscribe ⟨3⟩ fun _ =>
      .listen fun _ => .finish .ok

theorem handles_never_confused_revolving :
    (run 1 () revolving).bus.subscribers = [⟨4⟩] ∧
      issued (run 1 () revolving).diary = [⟨1⟩, ⟨2⟩, ⟨3⟩, ⟨4⟩] ∧
      .left ⟨1⟩ true ∈ (run 1 () revolving).diary ∧
      .left ⟨1⟩ false ∈ (run 1 () revolving).diary ∧
      run 1 () revolving ∈ moments 1 () revolving ∧
      (issued (run 1 () revolving).diary).Nodup ∧
      ∀ id, (run 1 () revolving).diary.count (.left id true) ≤ 1 := by
  obtain ⟨hleads, hmoments, -⟩ := handles_never_confused 1 () revolving
  have hmem : run 1 () revolving ∈ moments 1 () revolving := hleads.mem
  obtain ⟨hnodup, -, -, -, -, -, -, -, honce⟩ := hmoments _ hmem
  exact ⟨rfl, rfl, by decide, by decide, hmem, hnodup, honce⟩

end Assembly

end Tether.Bus
