import Mathlib.Algebra.GroupWithZero.Nat
import Mathlib.Data.List.Basic

/-!
# What goes through a channel

A producer offers values to a channel, which takes them in or, when it is full, does not; a
consumer receives the values that are in it. A `Handoff` is the history of both sides. It
explains the contents of the channel if these are the values that were taken in and have not been
received, in order. How the contents are represented is left open.
-/

namespace Loggregator.Lib

universe u

variable {α : Type u}

/-- What was offered to a channel, with whether it was taken in, and what was received from it. -/
structure Handoff (α : Type u) where
  offered : List (α × Bool) := []
  received : List α := []

namespace Handoff

/-- The values that were taken in. -/
def kept (h : Handoff α) : List α := (h.offered.filter Prod.snd).map Prod.fst

/-- The number of values that were not. -/
def dropped (h : Handoff α) : Nat := h.offered.countP (fun p => !p.2)

/-- The channel was offered a value. -/
def offer (h : Handoff α) (a : α) (taken : Bool) : Handoff α :=
  { h with offered := h.offered ++ [(a, taken)] }

/-- A value was received. -/
def receive (h : Handoff α) (a : α) : Handoff α := { h with received := h.received ++ [a] }

/-- The contents of the channel are what was taken in and not received. -/
def Explains (h : Handoff α) (queue : List α) : Prop := h.received ++ queue = h.kept

variable {h : Handoff α} {queue : List α} {a : α}

@[simp] theorem offered_offer (h : Handoff α) (a : α) (taken : Bool) :
    (h.offer a taken).offered = h.offered ++ [(a, taken)] := rfl

@[simp] theorem received_offer (h : Handoff α) (a : α) (taken : Bool) :
    (h.offer a taken).received = h.received := rfl

@[simp] theorem received_receive (h : Handoff α) (a : α) :
    (h.receive a).received = h.received ++ [a] := rfl

@[simp] theorem kept_receive (h : Handoff α) (a : α) : (h.receive a).kept = h.kept := rfl

theorem kept_offer_true (h : Handoff α) (a : α) : (h.offer a true).kept = h.kept ++ [a] := by
  simp [kept]

theorem kept_offer_false (h : Handoff α) (a : α) : (h.offer a false).kept = h.kept := by
  simp [kept]

theorem dropped_offer (h : Handoff α) (a : α) (taken : Bool) :
    (h.offer a taken).dropped = h.dropped + (!taken).toNat := by
  cases taken <;> simp [dropped]

theorem explains_empty : (Handoff.mk [] [] : Handoff α).Explains [] := rfl

theorem Explains.keep (hq : h.Explains queue) (a : α) :
    (h.offer a true).Explains (queue ++ [a]) := by
  rw [Explains, received_offer, kept_offer_true, ← List.append_assoc]
  exact congrArg (· ++ [a]) hq

theorem Explains.drop (hq : h.Explains queue) (a : α) : (h.offer a false).Explains queue := by
  rw [Explains, received_offer, kept_offer_false]
  exact hq

theorem Explains.receive (hq : h.Explains (a :: queue)) : (h.receive a).Explains queue := by
  rw [Explains, received_receive, kept_receive, List.append_assoc]
  exact hq

theorem kept_sublist (h : Handoff α) : h.kept.Sublist (h.offered.map Prod.fst) :=
  List.filter_sublist.map Prod.fst

/-- What is received was offered, in this order. -/
theorem Explains.received_sublist (hq : h.Explains queue) :
    h.received.Sublist (h.offered.map Prod.fst) := by
  have hkept : h.received.Sublist h.kept := by
    rw [← hq]
    exact List.sublist_append_left _ _
  exact hkept.trans h.kept_sublist

theorem length_offered (h : Handoff α) : h.offered.length = h.kept.length + h.dropped := by
  rw [kept, List.length_map, dropped, ← List.countP_eq_length_filter,
    List.length_eq_countP_add_countP Prod.snd]
  congr 1
  exact List.countP_congr (fun p _ => by simp)

/-- Every value that was offered has been received, is in the channel or was dropped. -/
theorem Explains.length (hq : h.Explains queue) :
    h.offered.length = h.received.length + queue.length + h.dropped := by
  rw [h.length_offered, ← hq, List.length_append]

end Handoff

/-! ## Totals -/

section Total

variable {l : List α} {i : Nat} {a : α}

/-- One element of a list is replaced. -/
theorem sum_map_set_add (f : α → Nat) (b : α) (h : l[i]? = some a) :
    ((l.set i b).map f).sum + f a = (l.map f).sum + f b := by
  induction l generalizing i with
  | nil => cases h
  | cons x l ih =>
    cases i with
    | zero =>
      cases h
      simp only [List.set_cons_zero, List.map_cons, List.sum_cons]
      omega
    | succ i =>
      have hrest := ih h
      simp only [List.set_cons_succ, List.map_cons, List.sum_cons]
      omega

/-- A counter lags behind a number by what has not been counted yet. It keeps up when one element
of the list changes. -/
theorem counter_set {counter other : UInt64} {uncounted number : α → Nat} {b : α}
    {p : Prop} [Decidable p] (ha : l[i]? = some a)
    (h : counter + UInt64.ofNat (l.map uncounted).sum = other + UInt64.ofNat (l.map number).sum)
    (hb : number b + uncounted a = number a + uncounted b + (if p then 1 else 0)) :
    (if p then counter + 1 else counter) + UInt64.ofNat ((l.set i b).map uncounted).sum =
      other + UInt64.ofNat ((l.set i b).map number).sum := by
  have huncounted := sum_map_set_add uncounted b ha
  have hnumber := sum_map_set_add number b ha
  have hcounter : (if p then counter + 1 else counter) =
      counter + UInt64.ofNat (if p then 1 else 0) := by
    split
    · rfl
    · exact (UInt64.add_zero counter).symm
  rw [hcounter]
  apply (UInt64.add_left_inj (UInt64.ofNat (uncounted a))).mp
  calc counter + UInt64.ofNat (if p then 1 else 0) +
        UInt64.ofNat ((l.set i b).map uncounted).sum + UInt64.ofNat (uncounted a)
      = counter + UInt64.ofNat (if p then 1 else 0) +
        UInt64.ofNat ((l.map uncounted).sum + uncounted b) := by
        rw [← huncounted, UInt64.ofNat_add, UInt64.add_assoc]
    _ = counter + UInt64.ofNat (l.map uncounted).sum +
        UInt64.ofNat (uncounted b + (if p then 1 else 0)) := by
        simp only [UInt64.ofNat_add]
        ac_rfl
    _ = other + UInt64.ofNat (((l.set i b).map number).sum + uncounted a) := by
        rw [h, UInt64.add_assoc, ← UInt64.ofNat_add]
        congr 2
        omega
    _ = other + UInt64.ofNat ((l.set i b).map number).sum + UInt64.ofNat (uncounted a) := by
        rw [UInt64.ofNat_add, UInt64.add_assoc]

end Total

end Loggregator.Lib
