import Mathlib.Data.List.Induction
import Mathlib.Data.Option.Basic

/-!
# Cells that follow a stream of updates

A cell holds a value or nothing. An update puts a value into an empty cell, clears the cell or
keeps it. The values that a cell should stand for are a predicate, `live`; the cell `Reflects`
them when it holds one of them if there is one.

Updates are replayed late, and a cell can be loaded from the live values before the updates that
led to them are replayed. `Stable live us` says that this does no harm: replaying `us` on a cell
that already reflects `live` leaves it so. An update that follows a change of the live values
(`Follows`) keeps both.
-/

namespace Loggregator.Lib

universe u

/-- An update of a cell. -/
inductive Update (α : Type u) where
  | keep
  | put (a : α)
  | clear

/-- The cell holds a live value, unless there is none. -/
structure Reflects {α : Type u} (live : α → Prop) (x : Option α) : Prop where
  live_of_mem : ∀ a ∈ x, live a
  not_live_of_none : x = none → ∀ a, ¬ live a

namespace Update

variable {α : Type u} {live live' : α → Prop} {x : Option α} {us : List (Update α)}
  {u : Update α}

/-- A value does not replace another one. -/
def apply : Update α → Option α → Option α
  | .keep, x => x
  | .put a, x => x.or (some a)
  | .clear, _ => none

def replay (us : List (Update α)) (x : Option α) : Option α := us.foldl (fun x u => u.apply x) x

theorem replay_append (us vs : List (Update α)) (x : Option α) :
    replay (us ++ vs) x = replay vs (replay us x) := List.foldl_append

theorem replay_concat (us : List (Update α)) (u : Update α) (x : Option α) :
    replay (us ++ [u]) x = u.apply (replay us x) := replay_append us [u] x

/-- Once a cell has been cleared it does not matter what was in it, and before that a value
stays. -/
theorem replay_cases (us : List (Update α)) :
    (∀ x y, replay us x = replay us y) ∨ ∀ a, replay us (some a) = some a := by
  induction us with
  | nil => exact .inr (fun _ => rfl)
  | cons u us ih =>
    rcases ih with ih | ih
    · exact .inl (fun x y => ih _ _)
    · cases u with
      | keep => exact .inr ih
      | put b => exact .inr ih
      | clear => exact .inl (fun _ _ => rfl)

/-- The update is what the change of the live values asks for. -/
def Follows (u : Update α) (live live' : α → Prop) : Prop :=
  match u with
  | .keep => ∀ b, live' b ↔ live b
  | .put a => ∀ b, live' b ↔ live b ∨ b = a
  | .clear => ∀ b, ¬ live' b

end Update

open Update

variable {α : Type u} {live live' : α → Prop} {x : Option α} {us : List (Update α)}
  {u : Update α}

namespace Reflects

theorem congr (h : Reflects live x) (hlive : ∀ a, live' a ↔ live a) : Reflects live' x :=
  ⟨fun a ha => (hlive a).mpr (h.live_of_mem a ha),
    fun hx a ha => h.not_live_of_none hx a ((hlive a).mp ha)⟩

theorem none_of_not_live (h : ∀ a, ¬ live a) : Reflects live none :=
  ⟨fun _ ha => (Option.not_mem_none _ ha).elim, fun _ => h⟩

theorem of_live {a : α} (h : live a) : Reflects live (some a) :=
  ⟨fun _ hb => Option.some.inj hb ▸ h, fun hx => (Option.some_ne_none a hx).elim⟩

theorem isSome_iff (h : Reflects live x) : x.isSome = true ↔ ∃ a, live a := by
  cases x with
  | none => simpa using h.not_live_of_none rfl
  | some a => exact ⟨fun _ => ⟨a, h.live_of_mem a rfl⟩, fun _ => rfl⟩

theorem eq_some_iff (h : Reflects live x) (huniq : ∀ a b, live a → live b → a = b) (a : α) :
    x = some a ↔ live a := by
  refine ⟨fun hx => h.live_of_mem a hx, fun ha => ?_⟩
  cases x with
  | none => exact absurd ha (h.not_live_of_none rfl a)
  | some b => rw [huniq a b ha (h.live_of_mem b rfl)]

end Reflects

/-- There is always a cell that reflects the live values. -/
theorem exists_reflects (live : α → Prop) : ∃ x, Reflects live x := by
  by_cases h : ∃ a, live a
  · obtain ⟨a, ha⟩ := h
    exact ⟨some a, .of_live ha⟩
  · exact ⟨none, .none_of_not_live (fun a ha => h ⟨a, ha⟩)⟩

theorem Update.Follows.reflects (hu : Follows u live live') (h : Reflects live x) :
    Reflects live' (u.apply x) := by
  cases u with
  | keep => exact h.congr hu
  | clear => exact .none_of_not_live hu
  | put a =>
    cases x with
    | none => exact .of_live ((hu a).mpr (.inr rfl))
    | some b => exact .of_live ((hu b).mpr (.inl (h.live_of_mem b rfl)))

/-- Replaying the updates does no harm to a cell that reflects the live values. -/
def Stable (live : α → Prop) (us : List (Update α)) : Prop :=
  ∀ x, Reflects live x → Reflects live (replay us x)

theorem Stable.congr (h : Stable live us) (hlive : ∀ a, live' a ↔ live a) : Stable live' us :=
  fun x hx => (h x (hx.congr (fun a => (hlive a).symm))).congr hlive

theorem Update.Follows.stable (hu : Follows u live live') (h : Stable live us) :
    Stable live' (us ++ [u]) := by
  intro x hx
  rw [replay_concat]
  cases u with
  | keep => exact h.congr hu x hx
  | clear => exact .none_of_not_live hu
  | put b =>
    -- `x` reflects the new values, and may hold the one that was not live before
    rcases replay_cases us with hsame | hstays
    · obtain ⟨y, hy⟩ := exists_reflects live
      rw [hsame x y]
      exact hu.reflects (h y hy)
    · cases x with
      | some a =>
        rw [hstays a]
        exact hx
      | none => exact absurd ((hu b).mpr (.inr rfl)) (hx.not_live_of_none rfl b)

/-- A cell that is loaded by putting values reflects them. -/
theorem reflects_replay_puts (hus : ∀ u ∈ us, u ≠ .clear) :
    Reflects (fun a => .put a ∈ us) (replay us none) := by
  induction us using List.reverseRecOn with
  | nil => exact .none_of_not_live (fun _ => List.not_mem_nil)
  | append_singleton us u ih =>
    rw [List.forall_mem_append] at hus
    have hfollows : Follows u (fun a => .put a ∈ us) (fun a => .put a ∈ us ++ [u]) := by
      cases u with
      | keep => simp [Follows]
      | put b => simp [Follows]
      | clear => exact absurd rfl (hus.2 _ List.mem_cons_self)
    rw [replay_concat]
    exact hfollows.reflects (ih hus.1)

end Loggregator.Lib
