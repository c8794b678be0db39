import Mathlib.Algebra.GroupWithZero.Nat
import Tether.Proofs.Ledger

/-!
# Reports of discarded messages

A discarded message is counted in four places on its way to the subscribers: by the queue, in the
receipt of the message that it made room for or that it was itself, among the messages not yet
reported, and in an event. Sending adds to the first three, a look at the queue moves the third
into the fourth, and nothing else touches any of them.
-/

namespace Tether

/-- How many discarded messages are reported by events. -/
def reported (events : List Event) : Nat :=
  (events.map fun
    | .overflow dropped => dropped
    | _ => 0).sum

theorem reported_append (a b : List Event) : reported (a ++ b) = reported a + reported b := by
  simp [reported]

namespace Ledger

variable {l l' : Ledger}

/-- The four counts agree. -/
structure Accounted (l : Ledger) : Prop where
  /-- What was discarded was reported or is to be reported. -/
  reported : reported l.told + l.unreported = l.discarded
  /-- What was discarded stands in the receipts. -/
  receipts : (l.receipts.map (·.dropped)).sum = l.discarded
  /-- What is to be reported waits for a look at the queue. -/
  due : l.checkDue = false → l.unreported = 0

theorem Accounted.init (curve : Curve) : Accounted { backoff := { curve } } :=
  ⟨rfl, rfl, fun _ => rfl⟩

/-- Events that report nothing may be told at any time. -/
theorem Accounted.tell (h : Accounted l) {events : List Event} (he : Tether.reported events = 0) :
    Tether.reported (l.told ++ events) + l.unreported = l.discarded := by
  rw [reported_append, he]
  exact h.reported

theorem Accounted.step (h : Accounted l) (hk : Kept l) (hs : Step l l') : Accounted l' := by
  have hr := h.reported
  have hc := h.receipts
  cases hs with
  | start | retry | cease => exact { h with }
  | stop hh hs =>
    rw [hk.assign_eq hh]
    exact { h with }
  | letGo hh =>
    rw [hk.assign_eq hh]
    exact { h with }
  | send receipt hh =>
    have htold : (if l.checkDue then l else l.assign .checkQueue).told = l.told := by
      split <;> rfl
    refine { reported := ?_, receipts := ?_, due := nofun }
    · show Tether.reported (if l.checkDue then l else l.assign .checkQueue).told +
        (l.unreported + receipt.dropped) = l.discarded + receipt.dropped
      rw [htold]
      omega
    · show ((l.receipts ++ [receipt]).map (·.dropped)).sum = l.discarded + receipt.dropped
      rw [List.map_append, List.sum_append, hc]
      simp
  | announce event rest he =>
    obtain rfl : event = .stopped := hk.announced event (by simp [he])
    exact { h with reported := h.tell rfl }
  | check rest he =>
    refine { h with reported := ?_, due := fun _ => rfl }
    show Tether.reported (l.told ++ if l.unreported = 0 then [] else [.overflow l.unreported]) + 0 =
      l.discarded
    rw [reported_append]
    split
    · next hz =>
      have hn : Tether.reported [] = 0 := rfl
      omega
    · have ho : Tether.reported [.overflow l.unreported] = l.unreported := by simp [Tether.reported]
      omega
  | deliver | confirm | lose | refuse | fail => exact { h with reported := h.tell rfl }

end Ledger

theorem System.accounted_run {τ : Type} [Transport τ] (config : Config) (transport : τ)
    (acts : List Act) : ((System.init config transport).run acts).ledger.Accounted :=
  ledger_invariant (.init _) (fun _ _ hk ha hs => ha.step hk hs) acts

/-- Every discarded message is reported, and once. At every moment of a run, what the events of
overflow that were published or are about to be tell, and what is still to be told, is together
what the receipts say; that is what the queue has counted, and as many messages it has discarded.
Whenever there is no errand left, nothing is still to be told, whatever state the connection is
in. -/
theorem overflow_reported_exactly {τ : Type} [Transport τ] (config : Config) (transport : τ)
    (acts : List Act) :
    let s := (System.init config transport).run acts
    let h := s.history
    let c := s.connection
    let events := publications h ++ s.batch
    reported events + c.unreported = ((receipts h).map (·.dropped)).sum ∧
    ((receipts h).map (·.dropped)).sum = c.outbox.discarded ∧
    c.outbox.discarded = (discards h).length ∧
    (c.errands = [] → c.unreported = 0 ∧ reported events = (discards h).length) := by
  have ha := System.accounted_run config transport acts
  have hk := System.kept_run config transport acts
  have hd := System.delivers_run config transport acts
  intro s h c events
  have hreported : reported events + c.unreported = c.outbox.discarded := ha.reported
  have hreceipts : ((receipts h).map (·.dropped)).sum = c.outbox.discarded := ha.receipts
  have hcount : (discards h).length = c.outbox.discarded := hd.count
  refine ⟨hreported.trans hreceipts.symm, hreceipts, hcount.symm, ?_⟩
  intro he
  have hdue : c.checkDue = false := hk.checkDue_eq_false (System.business_nil he)
  have hzero : c.unreported = 0 := ha.due hdue
  exact ⟨hzero, by omega⟩

end Tether
