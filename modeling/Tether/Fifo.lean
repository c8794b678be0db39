/-!
# First in, first out

A queue that is long-lived and may grow long. What was put in last is kept apart, latest first, and
is turned round only when everything before it has left; so each element is moved once, and putting
in, taking out and counting do not depend on the length of the queue. `enqueue`, `flush` and the
inbox of signals use it.

The queue is seen as the list `toList` of its elements, oldest first. The lemmas say what each
operation does to that list; nothing else about a queue is to be relied on.
-/

namespace Tether

/-- A queue of elements. -/
structure Fifo (α : Type) where
  /-- The elements that leave next, oldest first. -/
  front : List α := []
  /-- The elements after those, latest first. -/
  back : List α := []
  /-- How many elements there are. -/
  size : Nat := 0
  /-- The count is right. -/
  size_eq : size = front.length + back.length := by simp

namespace Fifo

variable {α : Type}

/-- The queue without elements. -/
def empty : Fifo α := { size_eq := rfl }

/-- The queue of these elements, oldest first. -/
def ofList (as : List α) : Fifo α := { front := as, size := as.length }

/-- The elements, oldest first. -/
def toList (q : Fifo α) : List α := q.front ++ q.back.reverse

/-- Puts an element in. -/
def push (q : Fifo α) (a : α) : Fifo α :=
  { q with back := a :: q.back, size := q.size + 1, size_eq := by simp [q.size_eq]; omega }

/-- The oldest element. -/
def head? (q : Fifo α) : Option α :=
  match q.front with
  | a :: _ => some a
  | [] => q.back.getLast?

/-- The oldest element and the queue without it. -/
def pop? (q : Fifo α) : Option (α × Fifo α) :=
  match h : q.front with
  | a :: front => some (a, ⟨front, q.back, q.size - 1, by simp [q.size_eq, h]⟩)
  | [] =>
    match q.back.reverse with
    | a :: front => some (a, ofList front)
    | [] => none

/-- The queue without its oldest element. -/
def tail (q : Fifo α) : Fifo α :=
  match q.pop? with
  | some (_, rest) => rest
  | none => q

/-! ## The view -/

@[simp] theorem toList_empty : (empty : Fifo α).toList = [] := rfl

@[simp] theorem toList_ofList (as : List α) : (ofList as).toList = as := by
  simp [ofList, toList]

@[simp] theorem length_toList (q : Fifo α) : q.toList.length = q.size := by
  simp [toList, q.size_eq]

@[simp] theorem toList_push (q : Fifo α) (a : α) : (q.push a).toList = q.toList ++ [a] := by
  simp [push, toList]

@[simp] theorem head?_toList (q : Fifo α) : q.toList.head? = q.head? := by
  unfold toList head?
  split <;> simp_all

theorem toList_of_pop? {q rest : Fifo α} {a : α} (h : q.pop? = some (a, rest)) :
    q.toList = a :: rest.toList := by
  unfold pop? at h
  split at h
  · next hf =>
    simp only [Option.some.injEq, Prod.mk.injEq] at h
    obtain ⟨rfl, rfl⟩ := h
    simp [toList, hf]
  · next hf =>
    split at h
    · next hb =>
      simp only [Option.some.injEq, Prod.mk.injEq] at h
      obtain ⟨rfl, rfl⟩ := h
      simp [toList, ofList, hf, hb]
    · simp at h

theorem pop?_eq_none_iff {q : Fifo α} : q.pop? = none ↔ q.toList = [] := by
  constructor
  · intro h
    unfold pop? at h
    split at h
    · simp at h
    · next hf =>
      split at h
      · simp at h
      · next hb => simp [toList, hf, hb]
  · intro h
    cases hp : q.pop? with
    | none => rfl
    | some p => simp [toList_of_pop? hp] at h

@[simp] theorem toList_tail (q : Fifo α) : q.tail.toList = q.toList.tail := by
  cases h : q.pop? with
  | none => simp [tail, h, pop?_eq_none_iff.1 h]
  | some p => simp [tail, h, toList_of_pop? h]

end Fifo

end Tether
