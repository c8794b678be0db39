import Tether.Proofs.LinkLife
import Tether.Proofs.Preliminaries

/-!
# The orders of a link

A link is told to write payloads and at last to close. Orders wait until its task takes them, and
payloads that were taken wait until they are written: first for the handshake, then for their turn.
All this together is one queue. What was written is the beginning of what the link was told to
write, and a task that closes the link because it was told to has written all of it.
-/

namespace Tether.Link

/-- The payload that is to be written. -/
def Order.payload? : Order → Option Payload
  | send payload => some payload
  | close => none

/-- The payloads that a task has taken and not written yet. -/
def Task.waiting (t : Task) : List Payload :=
  match t.phase with
  | .connecting early => early
  | .up pending => pending
  | .ended => []

/-! ## What a task has done with its orders -/

theorem close_not_mem_sends (payloads : List Payload) : Order.close ∉ payloads.map .send := by
  intro h
  obtain ⟨payload, -, hp⟩ := List.mem_map.mp h
  cases hp

theorem filterMap_sends (payloads : List Payload) :
    (payloads.map .send).filterMap Order.payload? = payloads := by
  rw [List.filterMap_map]
  exact List.filterMap_some

/-- What a task has written of the payloads among the orders it took. -/
inductive Progress (framing : Framing) (taken : List Order) (t : Task) : Prop
  /-- The handshake is under way. -/
  | connecting (early : List Payload) (hp : t.phase = .connecting early)
      (ht : taken = early.map .send) (hw : t.written = []) (hr : .opened ∉ t.reports)
  /-- The link is up. -/
  | up (sent pending : List Payload) (hp : t.phase = .up pending)
      (ht : taken = (sent ++ pending).map .send) (hw : t.written = sent.map framing.encode)
  /-- The task has ended, and not because it was told to close. -/
  | broken (sent rest : List Payload) (hp : t.phase = .ended)
      (ht : taken = (sent ++ rest).map .send) (hw : t.written = sent.map framing.encode)
  /-- The task was told to close during the handshake. -/
  | cancelled (early : List Payload) (hp : t.phase = .ended)
      (ht : taken = early.map .send ++ [.close]) (hw : t.written = []) (hr : .opened ∉ t.reports)
  /-- The task closed a link that was up because its owner wanted no more of it. -/
  | closed (sent : List Payload) (hp : t.phase = .ended)
      (ht : taken = sent.map .send ∨ taken = sent.map .send ++ [.close])
      (hw : t.written = sent.map framing.encode ++ [Frame.close none])

section Progress

variable {framing : Framing} {taken : List Order} {t t' : Task} {o : Occurrence} {order : Order}

/-- The task takes something that is no order. -/
theorem Progress.meet (hf : t.framing = framing) (h : Progress framing taken t)
    (ho : ∀ order, o ≠ .order order) (ht : t.Takes t.phase o t') : Progress framing taken t' := by
  cases h with
  | connecting early hp htaken hw hr =>
    rw [hp] at ht
    cases ht with
    | connect => exact .up [] early rfl htaken hw
    | fail => exact .broken [] early rfl htaken hw
    | collect => exact absurd rfl (ho _)
    | cancel => exact .broken [] early rfl htaken hw
  | up sent pending hp htaken hw =>
    rw [hp] at ht
    cases ht with
    | write payload rest =>
      refine .up (sent ++ [payload]) rest rfl ?_ ?_
      · rw [List.append_assoc]
        exact htaken
      · show t.written ++ [t.framing.encode payload] = _
        rw [hw, hf, List.map_append]
        rfl
    | accept => exact absurd rfl (ho _)
    | deliver | skip => exact .up sent [] hp htaken hw
    | part => exact .broken sent pending rfl htaken hw
    | dismiss =>
      -- No order was taken: the owner has gone without one.
      rw [List.append_nil] at htaken
      exact .closed sent rfl (.inl htaken) (by rw [← hw])
  | broken _ _ hp | cancelled _ hp | closed _ hp =>
    rw [hp] at ht
    cases ht

/-- The task takes an order. -/
theorem Progress.obey (h : Progress framing taken t) (ht : t.Takes t.phase (.order order) t') :
    Progress framing (taken ++ [order]) t' := by
  cases h with
  | connecting early hp htaken hw hr =>
    rw [hp] at ht
    cases ht with
    | fail _ _ _ ho => cases ho
    | collect _ payload =>
      refine .connecting (early ++ [payload]) rfl ?_ hw hr
      rw [htaken, List.map_append]
      rfl
    | cancel _ _ ho =>
      cases order with
      | send => cases ho
      | close => exact .cancelled early rfl (by rw [htaken]) hw hr
  | up sent pending hp htaken hw =>
    rw [hp] at ht
    cases ht with
    | accept payload =>
      rw [List.append_nil] at htaken
      refine .up sent [payload] rfl ?_ hw
      rw [htaken, List.map_append]
      rfl
    | part _ _ _ ho => cases order <;> cases ho
    | dismiss _ ho =>
      rw [List.append_nil] at htaken
      cases order with
      | send => cases ho
      | close => exact .closed sent rfl (.inr (by rw [htaken])) (by rw [← hw])
  | broken _ _ hp | cancelled _ hp | closed _ hp =>
    rw [hp] at ht
    cases ht

/-- What was written is the beginning of what was taken, and as long as the task goes on the rest
waits. -/
theorem Progress.written (h : Progress framing taken t) :
    ∃ sent rest, taken.filterMap Order.payload? = sent ++ rest ∧
      (t.written = sent.map framing.encode ∨
        t.isEnded = true ∧ t.written = sent.map framing.encode ++ [Frame.close none]) ∧
      (t.isEnded = false → rest = t.waiting) := by
  have hlive : ∀ {rest : List Payload}, t.phase = .ended →
      t.isEnded = false → rest = t.waiting := by
    intro rest hp hn
    simp [Task.isEnded, hp] at hn
  cases h with
  | connecting early hp ht hw =>
    refine ⟨[], early, ?_, .inl hw, fun _ => ?_⟩
    · rw [ht, filterMap_sends]
      rfl
    · simp [Task.waiting, hp]
  | up sent pending hp ht hw =>
    refine ⟨sent, pending, ?_, .inl hw, fun _ => ?_⟩
    · rw [ht, filterMap_sends]
    · simp [Task.waiting, hp]
  | broken sent rest hp ht hw =>
    refine ⟨sent, rest, ?_, .inl hw, hlive hp⟩
    rw [ht, filterMap_sends]
  | cancelled early hp ht hw =>
    refine ⟨[], early, ?_, .inl hw, hlive hp⟩
    rw [ht, List.filterMap_append, filterMap_sends]
    exact List.append_nil early
  | closed sent hp ht hw =>
    refine ⟨sent, [], ?_, .inr ⟨beq_of_eq hp, hw⟩, hlive hp⟩
    rcases ht with ht | ht
    · rw [ht, filterMap_sends, List.append_nil]
    · rw [ht, List.filterMap_append, filterMap_sends]
      rfl

/-- A task that was told to close when the link was up has written all it took. -/
theorem Progress.written_all (h : Progress framing taken t) (hc : .close ∈ taken)
    (hr : .opened ∈ t.reports) :
    t.written = (taken.filterMap Order.payload?).map framing.encode ++ [Frame.close none] := by
  cases h with
  | connecting early _ ht => exact absurd (ht ▸ hc) (close_not_mem_sends _)
  | up sent pending _ ht => exact absurd (ht ▸ hc) (close_not_mem_sends _)
  | broken sent rest _ ht => exact absurd (ht ▸ hc) (close_not_mem_sends _)
  | cancelled _ _ _ _ hn => exact absurd hr hn
  | closed sent _ ht hw =>
    have ht : taken.filterMap Order.payload? = sent := by
      rcases ht with ht | ht
      · rw [ht, filterMap_sends]
      · rw [ht, List.filterMap_append, filterMap_sends]
        exact List.append_nil sent
    rw [hw, ht]

end Progress

/-! ## One link -/

/-- What happens to the task of a link. -/
inductive Work where
  /-- It takes its next order, if it listens. -/
  | take
  /-- Something becomes available to it. Orders do so only by being taken. -/
  | occur (o : Occurrence)

namespace Handle

/-- All orders given to a link, oldest first. -/
def stream (h : Handle) : List Order := h.taken ++ h.orders

/-- The payloads that a link was told to write, oldest first. -/
def payloads (h : Handle) : List Payload := h.stream.filterMap Order.payload?

/-- A link as its owner sees it: its attempt and the payloads it was told to write. -/
def share (h : Handle) : Generation × List Payload := (h.generation, h.payloads)

def work (h : Handle) : Work → Handle
  | .take => h.takeOrder
  | .occur (.order _) => h
  | .occur o => h.occur o

variable {h h' : Handle} {t : Task} {o : Occurrence} {framing : Framing}

/-- What can happen to a link: nothing, its task takes something that is no order, or its next
order. -/
inductive Advance (h : Handle) : Handle → Prop
  | rest : Advance h h
  | meet (o : Occurrence) (t : Task) (ho : ∀ order, o ≠ .order order)
      (ht : h.task.Takes h.task.phase o t) : Advance h { h with task := t }
  | obey (order : Order) (rest : List Order) (t : Task) (ho : h.orders = order :: rest)
      (ht : h.task.Takes h.task.phase (.order order) t) :
      Advance h { h with task := t, taken := h.taken ++ [order], orders := rest }

theorem awaits_order (t : Task) (order : Order) : t.awaits (.order order) = t.isListening := by
  unfold Task.awaits Task.isListening
  cases t.phase with
  | connecting early => rfl
  | up pending => cases pending <;> rfl
  | ended => rfl

theorem advance_occur (h : Handle) (ho : ∀ order, o ≠ .order order) :
    Advance h (h.occur o) := by
  by_cases ha : h.task.awaits o = true
  · exact .meet o _ ho (Task.takes_of_awaits ha)
  · have hn : h.occur o = h := by
      unfold occur
      rw [Task.step_of_not_awaits (Bool.eq_false_iff.mpr ha)]
    rw [hn]
    exact .rest

theorem advance_takeOrder (h : Handle) : Advance h h.takeOrder := by
  unfold takeOrder
  split
  · exact .rest
  · rename_i order rest ho
    split
    · rename_i hl
      rw [← awaits_order _ order] at hl
      exact .obey order rest _ ho (Task.takes_of_awaits hl)
    · exact .rest

theorem advance_work (h : Handle) (w : Work) : Advance h (h.work w) := by
  cases w with
  | take => exact h.advance_takeOrder
  | occur o =>
    cases o with
    | order order => exact .rest
    | _ => exact h.advance_occur (by intro order ho; cases ho)

theorem Advance.stream_eq (ha : Advance h h') : h'.stream = h.stream := by
  cases ha with
  | rest => rfl
  | meet => rfl
  | obey order rest t ho =>
    show h.taken ++ [order] ++ rest = h.taken ++ h.orders
    rw [ho, List.append_assoc]
    rfl

theorem Advance.share_eq (ha : Advance h h') : h'.share = h.share := by
  have hg : h'.generation = h.generation := by cases ha <;> rfl
  unfold share payloads
  rw [ha.stream_eq, hg]

theorem phase_of_isEnded {t : Task} (h : t.isEnded = true) : t.phase = .ended := eq_of_beq h

theorem Advance.isEnded (ha : Advance h h') (he : h.task.isEnded = true) :
    h'.task.isEnded = true := by
  cases ha with
  | rest => exact he
  | meet _ _ _ ht | obey _ _ _ _ ht =>
    rw [phase_of_isEnded he] at ht
    cases ht

theorem Advance.framing_eq (ha : Advance h h') : h'.task.framing = h.task.framing := by
  cases ha with
  | rest => rfl
  | meet _ _ _ ht | obey _ _ _ _ ht => exact ht.settings.2.1

/-- A link that belongs to a transport with this framing. -/
structure Sound (framing : Framing) (h : Handle) : Prop where
  framing_eq : h.task.framing = framing
  progress : Progress framing h.taken h.task

/-- The link was told to write payloads and nothing else. -/
def OnlySends (h : Handle) : Prop := ∃ payloads : List Payload, h.stream = payloads.map .send

/-- At last the link was told to close, or there was no need to, for its task had ended. -/
def LetGo (h : Handle) : Prop :=
  (∃ payloads : List Payload, h.stream = payloads.map .send ++ [.close]) ∨
    h.OnlySends ∧ h.task.isEnded = true

theorem Sound.advance (hs : h.Sound framing) (ha : Advance h h') : h'.Sound framing := by
  refine ⟨ha.framing_eq.trans hs.framing_eq, ?_⟩
  cases ha with
  | rest => exact hs.progress
  | meet _ _ ho ht => exact hs.progress.meet hs.framing_eq ho ht
  | obey _ _ _ _ ht => exact hs.progress.obey ht

theorem OnlySends.advance (hs : h.OnlySends) (ha : Advance h h') : h'.OnlySends := by
  obtain ⟨payloads, hp⟩ := hs
  exact ⟨payloads, ha.stream_eq.trans hp⟩

theorem LetGo.advance (hl : h.LetGo) (ha : Advance h h') : h'.LetGo := by
  rcases hl with ⟨payloads, hp⟩ | ⟨hs, he⟩
  · exact .inl ⟨payloads, ha.stream_eq.trans hp⟩
  · exact .inr ⟨hs.advance ha, ha.isEnded he⟩

theorem stream_order (h : Handle) (order : Order) : (h.order order).stream = h.stream ++ [order] :=
  (List.append_assoc _ _ _).symm

theorem payloads_order (h : Handle) (order : Order) :
    (h.order order).payloads = h.payloads ++ order.payload?.toList := by
  unfold payloads
  rw [stream_order, List.filterMap_append]
  cases order <;> rfl

theorem OnlySends.send (hs : h.OnlySends) (payload : Payload) :
    (h.order (.send payload)).OnlySends := by
  obtain ⟨payloads, hp⟩ := hs
  refine ⟨payloads ++ [payload], ?_⟩
  rw [stream_order, hp, List.map_append]
  rfl

theorem share_release (h : Handle) : h.release.share = h.share := by
  unfold release
  split
  · unfold share
    rw [payloads_order]
    exact congrArg _ (List.append_nil _)
  · rfl

theorem Sound.release (hs : h.Sound framing) : h.release.Sound framing := by
  unfold Handle.release
  split
  · exact ⟨hs.framing_eq, hs.progress⟩
  · exact hs

theorem OnlySends.release (hs : h.OnlySends) : h.release.LetGo := by
  unfold Handle.release
  split
  · obtain ⟨payloads, hp⟩ := hs
    refine .inl ⟨payloads, ?_⟩
    rw [stream_order, hp]
  · rename_i hc
    refine .inr ⟨hs, ?_⟩
    simpa [isOpen] using hc

theorem Sound.written (hs : h.Sound framing) :
    ∃ sent rest, h.payloads = sent ++ rest ∧
      (h.task.written = sent.map framing.encode ∨
        h.task.isEnded = true ∧ h.task.written = sent.map framing.encode ++ [Frame.close none]) ∧
      (h.task.isEnded = false → rest = h.task.waiting ++ h.orders.filterMap Order.payload?) := by
  obtain ⟨sent, rest, hp, hw, hr⟩ := hs.progress.written
  refine ⟨sent, rest ++ h.orders.filterMap Order.payload?, ?_, hw, fun hn => by rw [hr hn]⟩
  unfold payloads stream
  rw [List.filterMap_append, hp, List.append_assoc]

/-- Nothing is ordered after the order to close. -/
theorem orders_eq_nil {payloads : List Payload} (hs : h.stream = payloads.map .send ++ [.close])
    (hc : .close ∈ h.taken) : h.orders = [] := by
  -- The order to close at the end is among the orders taken, or these end within the payloads.
  rcases List.append_eq_append_cons hs with ⟨rest, -, hnil⟩ | ⟨rest, hp, -⟩
  · exact (List.append_eq_nil_iff.mp hnil.symm).2
  · have hmem : .close ∈ payloads.map Order.send := by
      rw [hp]
      exact List.mem_append_left rest hc
    exact absurd hmem (close_not_mem_sends payloads)

theorem Sound.written_all (hs : h.Sound framing) {payloads : List Payload}
    (hst : h.stream = payloads.map .send ∨ h.stream = payloads.map .send ++ [.close])
    (hc : .close ∈ h.taken) (hr : .opened ∈ h.task.reports) :
    h.task.written = h.payloads.map framing.encode ++ [Frame.close none] := by
  rcases hst with hst | hst
  · have hmem : .close ∈ payloads.map Order.send := by
      rw [← hst]
      exact List.mem_append_left _ hc
    exact absurd hmem (close_not_mem_sends payloads)
  · unfold Handle.payloads stream
    rw [orders_eq_nil hst hc, List.append_nil]
    exact hs.progress.written_all hc hr

end Handle

end Tether.Link
