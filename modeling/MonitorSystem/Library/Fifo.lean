import Mathlib.Data.List.Basic

/-!
# Bounded first-in first-out queues

A queue that never holds more than `cap` elements, the oldest one first. The bound
is a field, so a queue over its capacity cannot be built.

Two disciplines are given for a write into a full queue: `Fifo.write` refuses it,
as a lock-free bounded queue does, and `Fifo.pushEvicting` makes room by dropping
the oldest element, as a buffer that prefers fresh data does. What the callers need
to know of either is its effect on the list of elements.
-/

/-- A first-in first-out queue of at most `cap` elements, oldest first. -/
structure Fifo (α : Type*) (cap : ℕ) where
  /-- The elements, the oldest one first. -/
  items : List α
  /-- The capacity is never exceeded. -/
  length_le : items.length ≤ cap

namespace Fifo

variable {α : Type*} {cap : ℕ}

@[ext] theorem ext {q r : Fifo α cap} (h : q.items = r.items) : q = r := by
  cases q
  cases r
  cases h
  rfl

instance [DecidableEq α] : DecidableEq (Fifo α cap) := fun _ _ =>
  decidable_of_iff _ ⟨ext, congrArg items⟩

/-- The empty queue. -/
def empty : Fifo α cap := ⟨[], Nat.zero_le _⟩

@[simp] theorem empty_items : (empty : Fifo α cap).items = [] := rfl

/-- The number of elements held. -/
def size (q : Fifo α cap) : ℕ := q.items.length

/-- A write that a full queue refuses. -/
def write (q : Fifo α cap) (a : α) : Option (Fifo α cap) :=
  if h : q.items.length < cap then some ⟨q.items ++ [a], by
    rw [List.length_append, List.length_singleton]
    omega⟩ else none

/-- A read of the oldest element, which an empty queue refuses. -/
def read (q : Fifo α cap) : Option (α × Fifo α cap) :=
  match h : q.items with
  | [] => none
  | a :: rest => some (a, ⟨rest, by
      have := q.length_le
      rw [h, List.length_cons] at this
      omega⟩)

theorem write_eq_some {q r : Fifo α cap} {a : α} (h : q.write a = some r) :
    r.items = q.items ++ [a] := by
  unfold write at h
  split at h
  · cases h
    rfl
  · cases h

/-- A queue that has room accepts the write. -/
theorem write_isSome {q : Fifo α cap} {a : α} (h : q.items.length < cap) :
    ∃ r, q.write a = some r ∧ r.items = q.items ++ [a] := by
  refine ⟨_, dif_pos h, rfl⟩

theorem read_eq_some {q r : Fifo α cap} {a : α} (h : q.read = some (a, r)) :
    q.items = a :: r.items := by
  unfold read at h
  split at h
  · cases h
  · next hq =>
    cases h
    exact hq

theorem read_eq_none {q : Fifo α cap} (h : q.read = none) : q.items = [] := by
  unfold read at h
  split at h
  · next hq => exact hq
  · cases h

theorem read_of_nil {q : Fifo α cap} (h : q.items = []) : q.read = none := by
  unfold read
  split
  · rfl
  · next hq => simp [h] at hq

theorem read_of_cons {q : Fifo α cap} {a : α} {rest : List α} (h : q.items = a :: rest) :
    ∃ r, q.read = some (a, r) ∧ r.items = rest := by
  unfold read
  split
  · next hq => simp [h] at hq
  · next hq =>
    obtain ⟨rfl, rfl⟩ := List.cons.inj (h.symm.trans hq)
    exact ⟨_, rfl, rfl⟩

/-- The oldest element of a queue that is full, and nothing otherwise: what a
write with eviction drops. -/
def overflow (q : Fifo α cap) : List α := if cap ≤ q.items.length then q.items.take 1 else []

/-- A write that makes room in a full queue by dropping the oldest element. -/
def pushEvicting (hcap : 0 < cap) (q : Fifo α cap) (a : α) : Fifo α cap :=
  ⟨(if cap ≤ q.items.length then q.items.drop 1 else q.items) ++ [a], by
    have := q.length_le
    split <;> simp only [List.length_append, List.length_drop, List.length_singleton] <;> omega⟩

theorem pushEvicting_of_nil (hcap : 0 < cap) {q : Fifo α cap} (h : q.items = []) (a : α) :
    (q.pushEvicting hcap a).items = [a] := by
  simp [pushEvicting, h]

/-- **Eviction loses exactly what it drops**: the elements before the write, with
the new one, are the dropped ones followed by the elements after it. -/
theorem overflow_append_pushEvicting (hcap : 0 < cap) (q : Fifo α cap) (a : α) :
    q.overflow ++ (q.pushEvicting hcap a).items = q.items ++ [a] := by
  unfold overflow pushEvicting
  split
  · rw [← List.append_assoc, List.take_append_drop]
  · rfl

end Fifo
