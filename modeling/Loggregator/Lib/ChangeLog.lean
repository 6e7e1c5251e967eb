import Loggregator.Lib.Transition
import Mathlib.Data.List.Chain
import Mathlib.Logic.Function.Basic

/-!
# Logs of changes to a map

A change gives a key a value or takes the value away. `change` is the step of a map that takes
only changes with an effect: a value is given to a key that has none, and taken from a key that
has one. A log that such a map can replay alternates at each key, and ends in what the map has
(`changesOf_of_run`).
-/

namespace Loggregator.Lib

universe u v

variable {κ : Type u} {ν : Type v} [DecidableEq κ]

/-- The map after a change that has an effect. -/
def change (m : κ → Option ν) (c : κ × Option ν) : Option (κ → Option ν) :=
  if (m c.1).isSome = c.2.isSome then none else some (Function.update m c.1 c.2)

/-- The changes at a key. -/
def changesOf (k : κ) (log : List (κ × Option ν)) : List (Option ν) :=
  (log.filter (fun c => decide (c.1 = k))).map Prod.snd

/-- Values are given and taken away in turn, starting with one that is given. -/
def Alternates (l : List (Option ν)) : Prop :=
  l.IsChain (fun a b => a.isSome ≠ b.isSome) ∧ ∀ c ∈ l.head?, c.isSome = true

theorem Alternates.mono {l l' : List (Option ν)} (h : Alternates l') (hl : l <+: l') :
    Alternates l := by
  obtain ⟨rest, rfl⟩ := hl
  refine ⟨h.1.left_of_append, ?_⟩
  cases l with
  | nil => nofun
  | cons => exact h.2

/-- A change follows that differs from the last one. -/
theorem Alternates.concat {l : List (Option ν)} (h : Alternates l) {c : Option ν}
    (hc : l.getLast?.join.isSome ≠ c.isSome) : Alternates (l ++ [c]) := by
  constructor
  · refine h.1.append (List.isChain_singleton _) ?_
    intro last hlast first hfirst
    rw [Option.mem_def] at hlast
    cases hfirst
    rw [hlast, Option.join_some] at hc
    exact hc
  · cases l with
    | nil =>
      intro c' hc'
      cases hc'
      cases c with
      | none => exact absurd rfl hc
      | some => rfl
    | cons => exact h.2

theorem changesOf_append (k : κ) (log log' : List (κ × Option ν)) :
    changesOf k (log ++ log') = changesOf k log ++ changesOf k log' := by
  rw [changesOf, List.filter_append, List.map_append]
  rfl

/-- A log that can be replayed alternates at each key, and its last change at a key is what the
map has there. -/
theorem changesOf_of_run {log : List (κ × Option ν)} {m : κ → Option ν}
    (h : run change (fun _ => none) log = some m) (k : κ) :
    Alternates (changesOf k log) ∧ (changesOf k log).getLast?.join = m k := by
  refine run_invariant (P := fun log m =>
    Alternates (changesOf k log) ∧ (changesOf k log).getLast?.join = m k) ?_ ?_ h
  · exact ⟨⟨List.isChain_nil, nofun⟩, rfl⟩
  · rintro log m ⟨k', c⟩ m' - ⟨halt, hlast⟩ hchange
    simp only [change] at hchange
    split at hchange
    · cases hchange
    · next heffect =>
      cases hchange
      rw [changesOf_append, Function.update_apply]
      by_cases hk : k' = k
      · have hone : changesOf k [(k', c)] = [c] := by simp [changesOf, hk]
        rw [hone, if_pos hk.symm, List.getLast?_concat, Option.join_some]
        refine ⟨halt.concat ?_, rfl⟩
        rw [hlast, ← hk]
        exact heffect
      · have hnone : changesOf k [(k', c)] = [] := by simp [changesOf, hk]
        rw [hnone, List.append_nil, if_neg (Ne.symm hk)]
        exact ⟨halt, hlast⟩

/-- Values are taken from several keys, each one once. -/
theorem run_change_removals {m : κ → Option ν} {ks : List κ} (hnodup : ks.Nodup)
    (hks : ∀ k ∈ ks, (m k).isSome = true) :
    run change m (ks.map (fun k => (k, none))) =
      some (fun k => if k ∈ ks then none else m k) := by
  induction ks generalizing m with
  | nil => simp [run]
  | cons k ks ih =>
    obtain ⟨hk, hnodup⟩ := List.nodup_cons.mp hnodup
    obtain ⟨hfirst, hks⟩ := List.forall_mem_cons.mp hks
    have hchange : change m (k, none) = some (Function.update m k none) := by
      simp [change, hfirst]
    rw [List.map_cons, run_cons hchange, ih hnodup]
    · congr 1
      funext k'
      rw [Function.update_apply]
      by_cases h : k' = k
      · simp [h]
      · simp [h]
    · intro k' hk'
      have hne : k' ≠ k := fun h => hk (h ▸ hk')
      rw [Function.update_of_ne hne]
      exact hks k' hk'

end Loggregator.Lib
