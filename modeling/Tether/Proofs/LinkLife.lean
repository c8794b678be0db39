import Tether.Link.WebSocket
import Tether.Proofs.Phases

/-!
# The life of a link

Whatever becomes available to the task of a link, and in whichever order, its reports tell a
well-formed life. Only what the task was looking for when it became available counts: during the
handshake its outcome and orders, while a payload is being written the outcome of the write, and
otherwise frames and orders.
-/

namespace Tether.Link

/-! ## What a step can do -/

namespace Occurrence

/-- The owner wants no more of the link. -/
def isDismissal : Occurrence → Bool
  | order .close | abandoned => true
  | _ => false

/-- Why the handshake did not succeed. -/
def handshakeError? (connectTimeout : Duration) : Occurrence → Option Error
  | refused fault => some (.webSocket fault)
  | deadline => some (.timeout connectTimeout.millisWord)
  | _ => none

/-- What is reported last when a link that was up ends in this way. -/
def farewell? : Occurrence → Option Report
  | wrote (some fault) => some (.failed ("write failed: " ++ (Error.webSocket fault).message))
  | received (.close (some (code, reason))) => some (.closed code reason)
  | received (.close none) => some (.closed abnormalClose "")
  | readFailed fault => some (.failed (Error.webSocket fault).message)
  | streamEnded => some (.closed abnormalClose "stream ended")
  | _ => none

/-- A link that is up stays up. -/
def isOrdinary (o : Occurrence) : Bool := !o.isDismissal && o.farewell?.isNone

/-- The message that was received. -/
def message? : Occurrence → Option Payload
  | received frame => frame.payload?
  | _ => none

theorem isEnd_of_farewell {o : Occurrence} {r : Report} (h : o.farewell? = some r) :
    r.isEnd = true := by
  unfold farewell? at h
  split at h <;> cases h <;> rfl

end Occurrence

namespace Task

/-- Whether a task is looking for what becomes available. -/
def awaits (t : Task) (o : Occurrence) : Bool :=
  match t.phase, o with
  | .connecting _, .connected | .connecting _, .refused _ | .connecting _, .deadline
  | .connecting _, .order _ | .connecting _, .abandoned => true
  | .up (_ :: _), .wrote _ => true
  | .up [], .received _ | .up [], .readFailed _ | .up [], .streamEnded
  | .up [], .order _ | .up [], .abandoned => true
  | _, _ => false

/-- What a task does, in the phase it is in, with something it is looking for. -/
inductive Takes (t : Task) : Phase → Occurrence → Task → Prop
  | connect (early : List Payload) :
      Takes t (.connecting early) .connected { t.report .opened with phase := .up early }
  | fail (early : List Payload) (o : Occurrence) (error : Error)
      (ho : o.handshakeError? t.connectTimeout = some error) :
      Takes t (.connecting early) o (t.finishWith (t.connectFailure error))
  | collect (early : List Payload) (payload : Payload) :
      Takes t (.connecting early) (.order (.send payload))
        { t with phase := .connecting (early ++ [payload]) }
  | cancel (early : List Payload) (o : Occurrence) (ho : o.isDismissal = true) :
      Takes t (.connecting early) o t.finish
  | write (payload : Payload) (rest : List Payload) :
      Takes t (.up (payload :: rest)) (.wrote none)
        { t with phase := .up rest, written := t.written ++ [t.framing.encode payload] }
  | accept (payload : Payload) :
      Takes t (.up []) (.order (.send payload)) { t with phase := .up [payload] }
  | deliver (frame : Frame) (payload : Payload) (hf : frame.payload? = some payload) :
      Takes t (.up []) (.received frame) (t.report (.message payload))
  | skip (frame : Frame) (hf : frame.payload? = none)
      (hc : (Occurrence.received frame).farewell? = none) : Takes t (.up []) (.received frame) t
  | part (pending : List Payload) (o : Occurrence) (r : Report) (ho : o.farewell? = some r) :
      Takes t (.up pending) o (t.finishWith r)
  | dismiss (o : Occurrence) (ho : o.isDismissal = true) :
      Takes t (.up []) o { t with written := t.written ++ [Frame.close none], phase := .ended }

variable {t t' : Task} {o : Occurrence}

theorem takes_of_awaits (h : t.awaits o = true) : Takes t t.phase o (t.step o) := by
  unfold awaits at h
  unfold step
  split at h
  case h_1 early hp => rw [hp]; exact .connect early
  case h_2 early fault hp => rw [hp]; exact .fail early _ _ rfl
  case h_3 early hp => rw [hp]; exact .fail early _ _ rfl
  case h_4 early order hp =>
    rw [hp]
    cases order with
    | send payload => exact .collect early payload
    | close => exact .cancel early _ rfl
  case h_5 early hp => rw [hp]; exact .cancel early _ rfl
  case h_6 payload rest fault hp =>
    rw [hp]
    cases fault with
    | none => exact .write payload rest
    | some fault => exact .part _ _ _ rfl
  case h_7 frame hp =>
    rw [hp]
    cases frame with
    | text content => exact .deliver _ _ rfl
    | binary content => exact .deliver _ _ rfl
    | ping content => exact .skip _ rfl rfl
    | pong content => exact .skip _ rfl rfl
    | close status =>
      cases status with
      | none => exact .part _ _ _ rfl
      | some status => exact .part _ _ _ rfl
  case h_8 fault hp => rw [hp]; exact .part _ _ _ rfl
  case h_9 hp => rw [hp]; exact .part _ _ _ rfl
  case h_10 order hp =>
    rw [hp]
    cases order with
    | send payload => exact .accept payload
    | close => exact .dismiss _ rfl
  case h_11 hp => rw [hp]; exact .dismiss _ rfl
  case h_12 => cases h

theorem step_of_not_awaits (h : t.awaits o = false) : t.step o = t := by
  unfold awaits at h
  unfold step
  split at h <;> cases h
  -- Each case of a step is one that a task looks for, and these are out of the way.
  split <;> simp_all

/-- What a task took of all that became available, in order. -/
def taken (t : Task) : List Occurrence → List Occurrence
  | [] => []
  | o :: os => if t.awaits o then o :: taken (t.step o) os else taken (t.step o) os

/-! ## Lives -/

/-- Orders to write payloads. -/
def sends (payloads : List Payload) : List Occurrence := payloads.map (.order <| .send ·)

/-- Reports of the messages that were received. -/
def messages (os : List Occurrence) : List Report := (os.filterMap (·.message?)).map .message

/-- What the task of a link takes and reports from its beginning to its end. -/
inductive Life (endpoint : String) (connectTimeout : Duration) :
    List Occurrence → List Report → Prop
  /-- Its owner wanted no more of the link before the handshake was over. -/
  | cancelled (early : List Payload) (o : Occurrence) (ho : o.isDismissal = true) :
      Life endpoint connectTimeout (sends early ++ [o]) []
  /-- The handshake did not succeed. -/
  | unconnected (early : List Payload) (o : Occurrence) (error : Error)
      (ho : o.handshakeError? connectTimeout = some error) :
      Life endpoint connectTimeout (sends early ++ [o])
        [.failed ("connect to " ++ endpoint ++ " failed: " ++ error.message)]
  /-- Its owner wanted no more of a link that was up. -/
  | dismissed (early : List Payload) (os : List Occurrence) (o : Occurrence)
      (h : ∀ o ∈ os, o.isOrdinary = true) (ho : o.isDismissal = true) :
      Life endpoint connectTimeout (sends early ++ .connected :: os ++ [o])
        (.opened :: messages os)
  /-- A link that was up was closed or failed. -/
  | parted (early : List Payload) (os : List Occurrence) (o : Occurrence) (r : Report)
      (h : ∀ o ∈ os, o.isOrdinary = true) (ho : o.farewell? = some r) (hr : r.isEnd = true) :
      Life endpoint connectTimeout (sends early ++ .connected :: os ++ [o])
        (.opened :: messages os ++ [r])

theorem messages_append (a b : List Occurrence) : messages (a ++ b) = messages a ++ messages b := by
  unfold messages
  rw [List.filterMap_append, List.map_append]

theorem messages_singleton {o : Occurrence} (h : o.message? = none) : messages [o] = [] := by
  simp [messages, h]

/-! ## What a task did so far -/

/-- What a task took and reported so far fits to where it stands. -/
inductive Accounted (t : Task) : List Occurrence → Prop
  | connecting (early : List Payload) (hp : t.phase = .connecting early) (hr : t.reports = []) :
      Accounted t (sends early)
  | up (pending early : List Payload) (os : List Occurrence) (hp : t.phase = .up pending)
      (h : ∀ o ∈ os, o.isOrdinary = true) (hr : t.reports = .opened :: messages os) :
      Accounted t (sends early ++ .connected :: os)
  | ended (os : List Occurrence) (hp : t.phase = .ended)
      (h : Life t.endpoint t.connectTimeout os t.reports) : Accounted t os

/-- A link that is up stays up with what it takes. -/
theorem Accounted.goOn {os : List Occurrence} {early : List Payload} (pending : List Payload)
    (h : ∀ o ∈ os, o.isOrdinary = true) (ho : o.isOrdinary = true)
    (hp : t.phase = .up pending) (hr : t.reports = .opened :: (messages os ++ messages [o])) :
    Accounted t (sends early ++ .connected :: os ++ [o]) := by
  have hall : ∀ m ∈ os ++ [o], m.isOrdinary = true := by
    intro m hm
    rcases List.mem_append.mp hm with hm | hm
    · exact h m hm
    · obtain rfl := List.mem_singleton.mp hm
      exact ho
  have hs := Accounted.up pending early (os ++ [o]) hp hall (by rw [hr, messages_append])
  rwa [← List.cons_append, ← List.append_assoc] at hs

theorem Accounted.take {past : List Occurrence} (h : Accounted t past)
    (ht : Takes t t.phase o t') : Accounted t' (past ++ [o]) := by
  cases h with
  | connecting early hp hr =>
    rw [hp] at ht
    cases ht with
    | connect =>
      refine .up early early [] rfl (by simp) ?_
      show t.reports ++ [.opened] = [.opened]
      rw [hr, List.nil_append]
    | fail _ _ error ho =>
      refine .ended _ rfl ?_
      show Life t.endpoint t.connectTimeout _ (t.reports ++ [t.connectFailure error])
      rw [hr]
      exact .unconnected early o error ho
    | collect _ payload =>
      have hs : sends early ++ [.order (.send payload)] = sends (early ++ [payload]) := by
        simp [sends]
      rw [hs]
      exact .connecting _ rfl hr
    | cancel _ _ ho =>
      refine .ended _ rfl ?_
      show Life t.endpoint t.connectTimeout _ t.reports
      rw [hr]
      exact .cancelled early o ho
  | up pending early os hp hos hr =>
    rw [hp] at ht
    cases ht with
    | write payload rest =>
      refine .goOn rest hos rfl rfl ?_
      rw [messages_singleton rfl, List.append_nil]
      exact hr
    | accept payload =>
      refine .goOn [payload] hos rfl rfl ?_
      rw [messages_singleton rfl, List.append_nil]
      exact hr
    | deliver frame payload hf =>
      have ho : (Occurrence.received frame).isOrdinary = true := by
        cases frame <;> first | rfl | cases hf
      refine .goOn [] hos ho hp ?_
      show t.reports ++ [.message payload] = _
      simp [hr, messages, Occurrence.message?, hf]
    | skip frame hf hc =>
      have ho : (Occurrence.received frame).isOrdinary = true := by
        simp [Occurrence.isOrdinary, Occurrence.isDismissal, hc]
      refine .goOn [] hos ho hp ?_
      rw [messages_singleton (o := .received frame) hf, List.append_nil]
      exact hr
    | part _ _ r ho =>
      refine .ended _ rfl ?_
      show Life t.endpoint t.connectTimeout _ (t.reports ++ [r])
      rw [hr]
      exact .parted early os o r hos ho (Occurrence.isEnd_of_farewell ho)
    | dismiss _ ho =>
      refine .ended _ rfl ?_
      show Life t.endpoint t.connectTimeout _ t.reports
      rw [hr]
      exact .dismissed early os o hos ho
  | ended _ hp =>
    -- A task that has ended looks for nothing.
    rw [hp] at ht
    cases ht

theorem Accounted.run {past : List Occurrence} (h : Accounted t past) (os : List Occurrence) :
    Accounted (t.run os) (past ++ t.taken os) := by
  induction os generalizing t past with
  | nil =>
    rw [taken, List.append_nil]
    exact h
  | cons o os ih =>
    show Accounted ((t.step o).run os) (past ++ t.taken (o :: os))
    by_cases ha : t.awaits o = true
    · have hs := ih (h.take (takes_of_awaits ha))
      rwa [taken, if_pos ha, List.append_cons]
    · have hn : t.step o = t := step_of_not_awaits (Bool.eq_false_iff.mpr ha)
      rw [taken, if_neg ha, hn]
      exact ih h

/-- What a task was started with stays as it is. -/
theorem Takes.settings {φ : Phase} (h : Takes t φ o t') :
    t'.endpoint = t.endpoint ∧ t'.framing = t.framing ∧
      t'.connectTimeout = t.connectTimeout := by
  cases h <;> exact ⟨rfl, rfl, rfl⟩

end Task

end Tether.Link
