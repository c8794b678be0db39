import Tether.Proofs.LinkOrders

/-!
# The payloads of a transport

A transport is called to open and close links and to send payloads, while the tasks of all its
links, the present one and those let go of, go on at their own pace. Every payload that is accepted
belongs to the link of the latest opening; every link is told to write payloads and at most once, at
last, to close; and its task writes its payloads in the order in which they were accepted, those
first that it collected during the handshake.
-/

namespace Tether.Link

/-! ## The links of a transport -/

namespace WebSocket

/-- All links, latest first. -/
def links (w : WebSocket) : List Handle := w.link.toList ++ w.former

/-- What holds of the links of a transport. -/
structure Sound (framing : Framing) (w : WebSocket) : Prop where
  framing_eq : w.framing = framing
  sound : ∀ h ∈ w.links, h.Sound framing
  present : ∀ h, w.link = some h → h.OnlySends
  former : ∀ h ∈ w.former, h.LetGo

variable {framing : Framing} {w : WebSocket}

theorem mem_links {h : Handle} : h ∈ w.links ↔ w.link = some h ∨ h ∈ w.former := by
  unfold links
  rw [List.mem_append, Option.mem_toList]

theorem close_link (w : WebSocket) : w.close.link = none := by
  unfold close
  split
  · assumption
  · rfl

theorem close_settings (w : WebSocket) :
    w.close.framing = w.framing ∧ w.close.hasRuntime = w.hasRuntime := by
  unfold close
  split <;> exact ⟨rfl, rfl⟩

theorem start_of_hasRuntime {endpoint : String} {generation : Generation}
    (hr : w.hasRuntime = true) :
    (w.start endpoint generation).1 = { w.close with
      link := some { generation, task := {
        endpoint, framing := w.close.framing, connectTimeout := w.close.connectTimeout } } } := by
  have hc : w.close.hasRuntime = true := w.close_settings.2.trans hr
  simp only [start, if_pos hc]

theorem start_of_not_hasRuntime {endpoint : String} {generation : Generation}
    (hr : ¬ w.hasRuntime = true) : (w.start endpoint generation).1 = w.close := by
  have hc : ¬ w.close.hasRuntime = true := by rwa [w.close_settings.2]
  simp only [start, if_neg hc]

/-- Every link that was there is let go of now. -/
theorem share_close (w : WebSocket) :
    w.close.former.map Handle.share = w.links.map Handle.share := by
  unfold close links
  split
  · rename_i hl
    rw [hl]
    rfl
  · rename_i h hl
    rw [hl]
    show h.release.share :: _ = h.share :: _
    rw [h.share_release]
    rfl

theorem Sound.close (hw : w.Sound framing) : w.close.Sound framing := by
  unfold WebSocket.close
  split
  · exact hw
  · rename_i h hl
    have hs : h.Sound framing := hw.sound h (mem_links.mpr (.inl hl))
    refine ⟨hw.framing_eq, ?_, fun _ hn => (by cases hn), ?_⟩
    · intro h' hm
      rcases mem_links.mp hm with hn | hm
      · cases hn
      · rcases List.mem_cons.mp hm with rfl | hm
        · exact hs.release
        · exact hw.sound h' (mem_links.mpr (.inr hm))
    · intro h' hm
      rcases List.mem_cons.mp hm with rfl | hm
      · exact (hw.present h hl).release
      · exact hw.former h' hm

/-- The transport holds another link in place of the present one. -/
theorem Sound.attach {h : Handle} (hw : w.Sound framing) (hs : h.Sound framing)
    (ho : h.OnlySends) : WebSocket.Sound framing { w with link := some h } := by
  refine ⟨hw.framing_eq, ?_, ?_, hw.former⟩
  · intro h' hm
    rcases mem_links.mp hm with hl | hm
    · obtain rfl := Option.some.inj hl
      exact hs
    · exact hw.sound h' (mem_links.mpr (.inr hm))
  · intro h' hl
    obtain rfl := Option.some.inj hl
    exact ho

theorem Sound.start (hw : w.Sound framing) (endpoint : String) (generation : Generation) :
    (w.start endpoint generation).1.Sound framing := by
  have hc := hw.close
  by_cases hr : w.hasRuntime = true
  · rw [start_of_hasRuntime hr]
    refine hc.attach ⟨hc.framing_eq, ?_⟩ ⟨[], rfl⟩
    exact .connecting [] rfl rfl rfl (by intro hm; cases hm)
  · rw [start_of_not_hasRuntime hr]
    exact hc

theorem send_cases (w : WebSocket) (payload : Payload) :
    (∃ error, w.send payload = (w, some error)) ∨
      ∃ h, w.link = some h ∧
        w.send payload = ({ w with link := some (h.order (.send payload)) }, none) := by
  unfold WebSocket.send
  split
  · exact .inl ⟨_, rfl⟩
  · rename_i h hl
    split
    · exact .inr ⟨h, hl, rfl⟩
    · exact .inl ⟨_, rfl⟩

theorem Sound.order {h : Handle} (hw : w.Sound framing) (hl : w.link = some h)
    (payload : Payload) :
    WebSocket.Sound framing { w with link := some (h.order (.send payload)) } := by
  have hs : h.Sound framing := hw.sound h (mem_links.mpr (.inl hl))
  exact hw.attach ⟨hs.framing_eq, hs.progress⟩ ((hw.present h hl).send payload)

/-- Something happens to the present link. -/
theorem Sound.work (hw : w.Sound framing) (a : Work) :
    WebSocket.Sound framing { w with link := w.link.map (·.work a) } := by
  cases hl : w.link with
  | none =>
    have he : { w with link := (none : Option Handle).map (·.work a) } = w := by
      rw [Option.map_none, ← hl]
    rw [he]
    exact hw
  | some h =>
    have hs : h.Sound framing := hw.sound h (mem_links.mpr (.inl hl))
    exact hw.attach (hs.advance (h.advance_work a)) ((hw.present h hl).advance (h.advance_work a))

theorem mem_modify_work {links : List Handle} {i : Nat} {a : Work} {h : Handle}
    (hm : h ∈ links.modify i (·.work a)) : h ∈ links ∨ ∃ h' ∈ links, h = h'.work a := by
  induction links generalizing i with
  | nil => simp at hm
  | cons h' links ih =>
    cases i with
    | zero =>
      rcases List.mem_cons.mp hm with rfl | hm
      · exact .inr ⟨h', List.mem_cons_self .., rfl⟩
      · exact .inl (List.mem_cons_of_mem _ hm)
    | succ i =>
      rcases List.mem_cons.mp hm with rfl | hm
      · exact .inl (List.mem_cons_self ..)
      · rcases ih hm with hl | ⟨h'', hl, he⟩
        · exact .inl (List.mem_cons_of_mem _ hl)
        · exact .inr ⟨h'', List.mem_cons_of_mem _ hl, he⟩

theorem share_work (w : WebSocket) (a : Work) :
    ({ w with link := w.link.map (·.work a) } : WebSocket).links.map Handle.share =
      w.links.map Handle.share := by
  unfold links
  cases w.link with
  | none => rfl
  | some h => exact congrArg (· :: w.former.map Handle.share) (h.advance_work a).share_eq

theorem share_workFormer (w : WebSocket) (i : Nat) (a : Work) :
    ({ w with former := w.former.modify i (·.work a) } : WebSocket).links.map Handle.share =
      w.links.map Handle.share := by
  have hmap : ∀ (former : List Handle) (i : Nat),
      (former.modify i (·.work a)).map Handle.share = former.map Handle.share := by
    intro former
    induction former with
    | nil => intro i; simp
    | cons h former ih =>
      intro i
      cases i with
      | zero =>
        rw [List.modify_zero_cons, List.map_cons, (h.advance_work a).share_eq, List.map_cons]
      | succ i => rw [List.modify_succ_cons, List.map_cons, ih, List.map_cons]
  unfold links
  rw [List.map_append, List.map_append, hmap]

/-- Something happens to a link that was let go of. -/
theorem Sound.workFormer (hw : w.Sound framing) (i : Nat) (a : Work) :
    WebSocket.Sound framing { w with former := w.former.modify i (·.work a) } := by
  refine ⟨hw.framing_eq, ?_, hw.present, ?_⟩
  · intro h hm
    rcases mem_links.mp hm with hl | hm
    · exact hw.sound h (mem_links.mpr (.inl hl))
    · rcases mem_modify_work hm with hl | ⟨h', hl, rfl⟩
      · exact hw.sound h (mem_links.mpr (.inr hl))
      · exact (hw.sound h' (mem_links.mpr (.inr hl))).advance (h'.advance_work a)
  · intro h hm
    rcases mem_modify_work hm with hl | ⟨h', hl, rfl⟩
    · exact hw.former h hl
    · exact (hw.former h' hl).advance (h'.advance_work a)

end WebSocket

/-! ## Calls -/

/-- A call of a transport, and how it went. -/
inductive Call where
  /-- A link was asked for, and there was something to run it on or not. -/
  | opened (generation : Generation) (started : Bool)
  /-- A payload was handed over, and accepted or refused. -/
  | handed (payload : Payload) (accepted : Bool)
  /-- Closing was asked for. -/
  | closed

def Call.isHanding : Call → Bool
  | handed .. => true
  | _ => false

def Call.accepted? : Call → Option Payload
  | handed payload true => some payload
  | _ => none

/-- The payloads that were accepted, in order. -/
def accepted (calls : List Call) : List Payload := calls.filterMap Call.accepted?

/-- For every opening that started a link, its attempt and the payloads that were accepted before
the next opening or closing. -/
def shares : List Call → List (Generation × List Payload)
  | [] => []
  | .opened generation true :: calls =>
    (generation, accepted (calls.takeWhile (·.isHanding))) :: shares calls
  | _ :: calls => shares calls

/-- The latest opening started a link, and closing was not asked for since. -/
def IsAttached (calls : List Call) : Prop :=
  ∃ past generation since, calls = past ++ .opened generation true :: since ∧
    ∀ c ∈ since, c.isHanding = true

section Calls

variable {calls : List Call} {c : Call}

theorem accepted_append (a b : List Call) : accepted (a ++ b) = accepted a ++ accepted b :=
  List.filterMap_append

theorem takeWhile_isHanding (calls : List Call) (hc : c.isHanding = false) (rest : List Call) :
    (calls ++ c :: rest).takeWhile (·.isHanding) = calls.takeWhile (·.isHanding) := by
  induction calls with
  | nil => simp [hc]
  | cons d calls ih => by_cases hd : d.isHanding = true <;> simp [hd, ih]

theorem shares_append (calls : List Call) (hc : c.isHanding = false) (rest : List Call) :
    shares (calls ++ c :: rest) = shares calls ++ shares (c :: rest) := by
  -- An opening or closing ends the share before it, so what follows makes no difference to it.
  induction calls with
  | nil => rfl
  | cons d calls ih =>
    cases d with
    | opened generation started =>
      cases started with
      | true =>
        show (generation, accepted ((calls ++ c :: rest).takeWhile _)) ::
          shares (calls ++ c :: rest) = _
        rw [takeWhile_isHanding calls hc, ih]
        rfl
      | false => exact ih
    | handed | closed => exact ih

theorem shares_handings {since : List Call} (h : ∀ c ∈ since, c.isHanding = true) :
    shares since = [] := by
  induction since with
  | nil => rfl
  | cons c since ih =>
    obtain ⟨hc, hrest⟩ := List.forall_mem_cons.mp h
    cases c with
    | handed => exact ih hrest
    | opened | closed => cases hc

theorem shares_attached {past since : List Call} {generation : Generation}
    (h : ∀ c ∈ since, c.isHanding = true) :
    shares (past ++ .opened generation true :: since) =
      shares past ++ [(generation, accepted since)] := by
  have hall : (since ++ []).takeWhile (·.isHanding) = since ++ [] :=
    List.takeWhile_append_of_pos h
  rw [List.append_nil] at hall
  rw [shares_append past rfl, shares, hall, shares_handings h]

theorem accepted_takeWhile_refused (calls : List Call) (payload : Payload) :
    accepted ((calls ++ [Call.handed payload false]).takeWhile (·.isHanding)) =
      accepted (calls.takeWhile (·.isHanding)) := by
  induction calls with
  | nil => rfl
  | cons d calls ih =>
    by_cases hd : d.isHanding = true
    · simp only [List.cons_append, List.takeWhile_cons, if_pos hd]
      simp only [accepted, List.filterMap_cons] at ih ⊢
      rw [ih]
    · simp [hd]

theorem shares_refused (calls : List Call) (payload : Payload) :
    shares (calls ++ [.handed payload false]) = shares calls := by
  induction calls with
  | nil => rfl
  | cons d calls ih =>
    cases d with
    | opened generation started =>
      cases started with
      | true =>
        show (generation, accepted ((calls ++ [Call.handed payload false]).takeWhile _)) ::
          shares (calls ++ [Call.handed payload false]) = _
        rw [accepted_takeWhile_refused, ih]
        rfl
      | false => exact ih
    | handed | closed => exact ih

theorem shares_opened (calls : List Call) (generation : Generation) :
    shares (calls ++ [.opened generation true]) = shares calls ++ [(generation, [])] :=
  shares_append calls rfl []

theorem shares_closed (calls : List Call)
    (hc : c = .closed ∨ ∃ generation, c = .opened generation false) :
    shares (calls ++ [c]) = shares calls := by
  rcases hc with rfl | ⟨generation, rfl⟩
  · exact (shares_append calls rfl []).trans (List.append_nil _)
  · exact (shares_append calls rfl []).trans (List.append_nil _)

/-- A payload that is accepted goes to the latest link. -/
theorem shares_accepted (h : IsAttached calls) (payload : Payload) :
    ∃ past generation payloads, shares calls = past ++ [(generation, payloads)] ∧
      shares (calls ++ [.handed payload true]) = past ++ [(generation, payloads ++ [payload])] := by
  obtain ⟨past, generation, since, rfl, hs⟩ := h
  refine ⟨shares past, generation, accepted since, shares_attached hs, ?_⟩
  have hall : ∀ c ∈ since ++ [.handed payload true], c.isHanding = true := by
    intro c hc
    rcases List.mem_append.mp hc with hc | hc
    · exact hs c hc
    · obtain rfl := List.mem_singleton.mp hc
      rfl
  rw [List.append_assoc, List.cons_append, shares_attached hall, accepted_append]
  rfl

theorem IsAttached.handed (h : IsAttached calls) (hc : c.isHanding = true) :
    IsAttached (calls ++ [c]) := by
  obtain ⟨past, generation, since, rfl, hs⟩ := h
  refine ⟨past, generation, since ++ [c], ?_, ?_⟩
  · rw [List.append_assoc, List.cons_append]
  · intro d hd
    rcases List.mem_append.mp hd with hd | hd
    · exact hs d hd
    · obtain rfl := List.mem_singleton.mp hd
      exact hc

end Calls

/-! ## Runs -/

/-- A transport, and the calls it has had. -/
structure Site where
  transport : WebSocket
  calls : List Call := []

namespace Site

/-- What happens at a site: a call, or something to one of the links. -/
inductive Act where
  /-- A link is asked for. -/
  | openLink (hasRuntime : Bool) (endpoint : Endpoint) (generation : Generation)
  /-- A payload is handed over. -/
  | send (payload : Payload)
  /-- Closing is asked for. -/
  | close
  /-- Something happens to the present link. -/
  | work (a : Work)
  /-- Something happens to a link that was let go of; they are counted from the latest. -/
  | workFormer (i : Nat) (a : Work)

def step (s : Site) : Act → Site
  | .openLink hasRuntime endpoint generation =>
    { transport := (Transport.openLink { s.transport with hasRuntime } endpoint generation).1
      calls := s.calls ++ [.opened generation hasRuntime] }
  | .send payload =>
    let answer := Transport.send s.transport payload
    { transport := answer.1, calls := s.calls ++ [.handed payload answer.2.isNone] }
  | .close =>
    { transport := (Transport.closeLink s.transport).1, calls := s.calls ++ [.closed] }
  | .work a => { s with transport.link := s.transport.link.map (·.work a) }
  | .workFormer i a => { s with transport.former := s.transport.former.modify i (·.work a) }

def run (s : Site) (acts : List Act) : Site := acts.foldl step s

/-- The links of a site are as they should be, and have the payloads that its calls gave them. -/
structure Sound (framing : Framing) (s : Site) : Prop where
  transport : s.transport.Sound framing
  attached : ∀ h, s.transport.link = some h → IsAttached s.calls
  shared : s.transport.links.reverse.map Handle.share = shares s.calls
  whole : accepted s.calls = (shares s.calls).flatMap (·.2)

variable {framing : Framing} {s : Site}

theorem Sound.init (framing : Framing) (connectTimeout : Duration) :
    Sound framing { transport := { framing, connectTimeout } } := by
  refine ⟨⟨rfl, ?_, ?_, ?_⟩, ?_, rfl, rfl⟩
  · intro h hm
    cases hm
  · intro h hl
    cases hl
  · intro h hm
    cases hm
  · intro h hl
    cases hl

/-- The present link, if there is one, is let go of. -/
theorem Sound.close {c : Call} (hs : s.Sound framing)
    (hc : c = .closed ∨ ∃ generation, c = .opened generation false) :
    Sound framing { transport := s.transport.close, calls := s.calls ++ [c] } := by
  refine ⟨hs.transport.close, ?_, ?_, ?_⟩
  · intro h hl
    rw [s.transport.close_link] at hl
    cases hl
  · rw [shares_closed s.calls hc, ← hs.shared]
    unfold WebSocket.links
    rw [s.transport.close_link, List.map_reverse, List.map_reverse]
    exact congrArg List.reverse s.transport.share_close
  · have hn : accepted [c] = [] := by
      rcases hc with rfl | ⟨generation, rfl⟩ <;> rfl
    rw [shares_closed s.calls hc, accepted_append, hn, List.append_nil, hs.whole]

theorem Sound.start (hs : s.Sound framing) (endpoint : String) (generation : Generation)
    (hr : s.transport.hasRuntime = true) :
    Sound framing { transport := (s.transport.start endpoint generation).1
                    calls := s.calls ++ [.opened generation true] } := by
  refine ⟨hs.transport.start endpoint generation, ?_, ?_, ?_⟩
  · intro h _
    exact ⟨s.calls, generation, [], rfl, fun c hc => (by cases hc)⟩
  · rw [shares_opened, ← hs.shared, WebSocket.start_of_hasRuntime hr]
    show (_ :: s.transport.close.former).reverse.map Handle.share = _
    rw [List.reverse_cons, List.map_append, List.map_reverse, s.transport.share_close,
      List.map_reverse]
    rfl
  · rw [shares_opened, accepted_append, List.flatMap_append, hs.whole]
    rfl

theorem Sound.refuse (hs : s.Sound framing) (payload : Payload) :
    Sound framing { s with calls := s.calls ++ [.handed payload false] } := by
  refine ⟨hs.transport, fun h hl => (hs.attached h hl).handed rfl, ?_, ?_⟩
  · rw [shares_refused]
    exact hs.shared
  · rw [shares_refused, accepted_append, hs.whole]
    exact List.append_nil _

theorem Sound.accept {h : Handle} (hs : s.Sound framing) (hl : s.transport.link = some h)
    (payload : Payload) :
    Sound framing { transport := { s.transport with link := some (h.order (.send payload)) }
                    calls := s.calls ++ [.handed payload true] } := by
  obtain ⟨past, generation, payloads, hbefore, hafter⟩ :=
    shares_accepted (hs.attached h hl) payload
  refine ⟨hs.transport.order hl payload, fun _ _ => (hs.attached h hl).handed rfl, ?_, ?_⟩
  · -- The latest share is that of the present link, and the others stay as they are.
    have hshared := hs.shared
    unfold WebSocket.links at hshared
    rw [hbefore, hl] at hshared
    change (h :: s.transport.former).reverse.map Handle.share = _ at hshared
    rw [List.reverse_cons, List.map_append] at hshared
    obtain ⟨hpast, hlast⟩ := List.append_inj' hshared rfl
    obtain ⟨hg, hp⟩ := Prod.mk.inj (List.cons.inj hlast).1
    rw [hafter, ← hpast, ← hg, ← hp]
    show (h.order (.send payload) :: s.transport.former).reverse.map Handle.share = _
    rw [List.reverse_cons, List.map_append]
    exact congrArg (fun ps => _ ++ [(h.generation, ps)]) (h.payloads_order _)
  · have hwhole := hs.whole
    rw [hbefore, List.flatMap_append] at hwhole
    rw [hafter, accepted_append, hwhole, List.flatMap_append, List.append_assoc]
    simp [accepted, Call.accepted?]

/-- Tasks go on, and no call is made. -/
theorem Sound.carryOn {w : WebSocket} (hs : s.Sound framing) (hw : w.Sound framing)
    (ha : ∀ h, w.link = some h → IsAttached s.calls)
    (hl : w.links.map Handle.share = s.transport.links.map Handle.share) :
    Sound framing { s with transport := w } := by
  refine ⟨hw, ha, ?_, hs.whole⟩
  show w.links.reverse.map Handle.share = shares s.calls
  rw [List.map_reverse, hl, ← List.map_reverse, hs.shared]

theorem Sound.step (hs : s.Sound framing) (act : Act) : (s.step act).Sound framing := by
  cases act with
  | openLink hasRuntime endpoint generation =>
    -- Links do not depend on whether there is something to run the next one on.
    have hr : Sound framing { s with transport.hasRuntime := hasRuntime } :=
      ⟨⟨hs.transport.framing_eq, hs.transport.sound, hs.transport.present, hs.transport.former⟩,
        hs.attached, hs.shared, hs.whole⟩
    cases hasRuntime with
    | true => exact hr.start endpoint.href generation rfl
    | false =>
      have hc := hr.close (.inr ⟨generation, rfl⟩)
      rwa [← WebSocket.start_of_not_hasRuntime (by intro h; cases h)] at hc
  | send payload =>
    show Sound framing { transport := (s.transport.send payload).1
                         calls := s.calls ++ [.handed payload (s.transport.send payload).2.isNone] }
    rcases s.transport.send_cases payload with ⟨error, he⟩ | ⟨h, hl, ha⟩
    · rw [he]
      exact hs.refuse payload
    · rw [ha]
      exact hs.accept hl payload
  | close => exact hs.close (.inl rfl)
  | work a =>
    refine hs.carryOn (hs.transport.work a) ?_ (s.transport.share_work a)
    intro h hl
    obtain ⟨h', hl', -⟩ := Option.map_eq_some_iff.mp hl
    exact hs.attached h' hl'
  | workFormer i a =>
    exact hs.carryOn (hs.transport.workFormer i a) hs.attached (s.transport.share_workFormer i a)

theorem Sound.run (hs : s.Sound framing) (acts : List Act) : (s.run acts).Sound framing := by
  induction acts generalizing s with
  | nil => exact hs
  | cons act acts ih => exact ih (hs.step act)

end Site

/-- Payloads reach the link of the latest opening and are written in order, whichever calls are made
and however the tasks of the links go on between them. Every link was told to write exactly the
payloads that were accepted after its opening and before the next opening or closing, and these are
all that were accepted. All it was told is to write payloads and at most once, at last, to close;
and that is what every link that was let go of was told, unless its task had ended. The frames
written are those of the first of its payloads, and after them, if its owner wanted no more of it,
the one that closes the link; as long as the task goes on it has the rest still before it. When it
took the order to close and the link was up, it has written all of them. -/
theorem payloads_reach_latest_link (framing : Framing) (connectTimeout : Duration)
    (acts : List Site.Act) :
    let s := Site.run { transport := { framing, connectTimeout } } acts
    let w := s.transport
    w.links.reverse.map Handle.share = shares s.calls ∧
    accepted s.calls = (shares s.calls).flatMap (·.2) ∧
    (∀ h ∈ w.links, ∃ payloads : List Payload,
      h.stream = payloads.map .send ∨ h.stream = payloads.map .send ++ [.close]) ∧
    (∀ h ∈ w.former, .close ∈ h.stream ∨ h.task.isEnded = true) ∧
    (∀ h ∈ w.links, ∃ sent rest, h.payloads = sent ++ rest ∧
      (h.task.written = sent.map framing.encode ∨
        h.task.isEnded = true ∧ h.task.written = sent.map framing.encode ++ [Frame.close none]) ∧
      (h.task.isEnded = false → rest = h.task.waiting ++ h.orders.filterMap Order.payload?)) ∧
    (∀ h ∈ w.links, .close ∈ h.taken → .opened ∈ h.task.reports →
      h.task.written = h.payloads.map framing.encode ++ [Frame.close none]) := by
  intro s w
  have hs : s.Sound framing := (Site.Sound.init framing connectTimeout).run acts
  have hform : ∀ h ∈ w.links, ∃ payloads : List Payload,
      h.stream = payloads.map .send ∨ h.stream = payloads.map .send ++ [.close] := by
    intro h hm
    rcases WebSocket.mem_links.mp hm with hl | hm
    · obtain ⟨payloads, hp⟩ := hs.transport.present h hl
      exact ⟨payloads, .inl hp⟩
    · rcases hs.transport.former h hm with ⟨payloads, hp⟩ | ⟨⟨payloads, hp⟩, -⟩
      · exact ⟨payloads, .inr hp⟩
      · exact ⟨payloads, .inl hp⟩
  refine ⟨hs.shared, hs.whole, hform, ?_, fun h hm => (hs.transport.sound h hm).written, ?_⟩
  · intro h hm
    rcases hs.transport.former h hm with ⟨payloads, hp⟩ | ⟨-, he⟩
    · exact .inl (by rw [hp]; exact List.mem_append_right _ (List.mem_singleton.mpr rfl))
    · exact .inr he
  · intro h hm hc hr
    obtain ⟨payloads, hp⟩ := hform h hm
    exact (hs.transport.sound h hm).written_all hp hc hr

end Tether.Link
