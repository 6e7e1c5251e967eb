import Mathlib.Data.List.DropRight

/-!
# Circular lists

`container/ring`. A ring is pointed at by one of its elements, so it has at least one: the nil
pointer is `none`.

A ring that is written by moving on and storing there holds the values that were written last.
`window` lists them, the oldest first.
-/

namespace Loggregator.Lib

universe u

/-- `ring.Ring`: the value of the element that is pointed at, and those of the elements after
it. -/
structure RingList (α : Type u) where
  value : α
  rest : List α

namespace RingList

variable {α : Type u}

/-- `ring.New`, with the value of a new element. -/
def new (zero : α) : Nat → Option (RingList α)
  | 0 => none
  | n + 1 => some ⟨zero, List.replicate n zero⟩

/-- `Ring.Next`. -/
def next (r : RingList α) : RingList α :=
  match r.rest with
  | [] => r
  | b :: rest => ⟨b, rest ++ [r.value]⟩

/-- `r.Value = v`. -/
def set (r : RingList α) (v : α) : RingList α := { r with value := v }

/-- The values that `Ring.Do` visits. -/
def toList (r : RingList α) : List α := r.value :: r.rest

/-- The values from the element after the one that is pointed at, around the ring. -/
def window (r : RingList α) : List α := r.next.toList

theorem window_eq (r : RingList α) : r.window = r.rest ++ [r.value] := by
  obtain ⟨a, rest⟩ := r
  cases rest with
  | nil | cons b rest => rfl

/-- A write drops the first value of the window and adds one at its end. -/
theorem window_set_next (r : RingList α) (v : α) :
    (r.next.set v).window = r.window.drop 1 ++ [v] := by
  obtain ⟨a, rest⟩ := r
  rw [window_eq, window_eq]
  cases rest with
  | nil | cons b rest => rfl

theorem window_new {zero : α} {n : Nat} {r : RingList α} (h : new zero n = some r) :
    r.window = List.replicate n zero := by
  cases n with
  | zero => cases h
  | succ n =>
    cases h
    rw [window_eq, List.replicate_succ']

/-- After some writes, the window is the end of what it was and of the written values. -/
theorem window_write {r : RingList α} {w l : List α} (hw : w ≠ [])
    (h : r.window = (w ++ l).drop l.length) (v : α) :
    (r.next.set v).window = (w ++ (l ++ [v])).drop (l ++ [v]).length := by
  have hlength : l.length + 1 ≤ (w ++ l).length := by
    rw [List.length_append]
    have := List.length_pos_iff.mpr hw
    omega
  rw [window_set_next, h, List.drop_drop, ← List.append_assoc, List.length_append,
    List.length_singleton, List.drop_append_of_le_length hlength]

end RingList

end Loggregator.Lib
