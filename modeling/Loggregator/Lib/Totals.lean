import Loggregator.Lib.Dict
import Mathlib.Data.Finset.Card

/-!
# Running totals

Sums of 64-bit words, and a map that keeps one running sum for each key. An event has a subject
and an amount, and `key` says which counter a subject belongs to. Two ways to tell subjects apart
give the same totals when they agree on the subjects that occur (`AgreeOn`).
-/

namespace Loggregator.Lib

universe u v w

/-! ## Sums -/

/-- The sum of words modulo `2 ^ 64`. -/
def sum64 : List UInt64 → UInt64
  | [] => 0
  | d :: ds => d + sum64 ds

@[simp] theorem sum64_nil : sum64 [] = 0 := rfl

@[simp] theorem sum64_cons (d : UInt64) (ds : List UInt64) : sum64 (d :: ds) = d + sum64 ds := rfl

@[simp] theorem sum64_append (ds es : List UInt64) : sum64 (ds ++ es) = sum64 ds + sum64 es := by
  induction ds with
  | nil => rw [List.nil_append, sum64_nil, UInt64.zero_add]
  | cons d ds ih => rw [List.cons_append, sum64_cons, sum64_cons, ih, UInt64.add_assoc]

/-- One element of a list is replaced. -/
theorem sum64_set {α : Type u} (f : α → UInt64) {l : List α} {i : Nat} {x : α}
    (h : l[i]? = some x) (y : α) :
    sum64 ((l.set i y).map f) + f x = sum64 (l.map f) + f y := by
  obtain ⟨hlt, hx⟩ := List.getElem?_eq_some_iff.mp h
  have hl : l = l.take i ++ x :: l.drop (i + 1) := by
    rw [← hx, ← List.drop_eq_getElem_cons hlt, List.take_append_drop]
  rw [List.set_eq_take_append_cons_drop, if_pos hlt]
  conv_rhs => rw [hl]
  simp only [List.map_append, List.map_cons, sum64_append, sum64_cons]
  ac_rfl

/-! ## Events -/

variable {ρ : Type u} {κ : Type v} {ι : Type w} [DecidableEq κ] [DecidableEq ι]

/-- The sum of the amounts for a key. -/
def total (key : ρ → κ) (events : List (ρ × UInt64)) (k : κ) : UInt64 :=
  sum64 ((events.filter (fun e => decide (key e.1 = k))).map Prod.snd)

/-- The keys that occur. -/
def counted (key : ρ → κ) (events : List (ρ × UInt64)) : Finset κ :=
  (events.map (fun e => key e.1)).toFinset

variable {key : ρ → κ} {key' : ρ → ι} {events : List (ρ × UInt64)}

theorem mem_counted {k : κ} : k ∈ counted key events ↔ ∃ e ∈ events, key e.1 = k := by
  rw [counted, List.mem_toFinset, List.mem_map]

theorem counted_concat (e : ρ × UInt64) :
    counted key (events ++ [e]) = insert (key e.1) (counted key events) := by
  ext k
  simp only [mem_counted, Finset.mem_insert, List.mem_append, List.mem_singleton]
  constructor
  · rintro ⟨e', he | rfl, hk⟩
    · exact Or.inr ⟨e', he, hk⟩
    · exact Or.inl hk.symm
  · rintro (hk | ⟨e', he, hk⟩)
    · exact ⟨e, Or.inr rfl, hk.symm⟩
    · exact ⟨e', Or.inl he, hk⟩

theorem total_concat (e : ρ × UInt64) (k : κ) :
    total key (events ++ [e]) k =
      if key e.1 = k then total key events k + e.2 else total key events k := by
  unfold total
  rw [List.filter_append]
  by_cases h : key e.1 = k
  · simp [h]
  · simp [h]

theorem total_of_not_counted {k : κ} (h : k ∉ counted key events) : total key events k = 0 := by
  have hnil : events.filter (fun e => decide (key e.1 = k)) = [] := by
    rw [List.filter_eq_nil_iff]
    intro e he hk
    exact h (mem_counted.mpr ⟨e, he, of_decide_eq_true hk⟩)
  rw [total, hnil]
  rfl

/-! ## The map of totals -/

/-- `m[k] = m[k] + d`, where a missing key reads as zero. -/
def accumulate (m : Dict κ UInt64) (k : κ) (d : UInt64) : Dict κ UInt64 :=
  m.insert k ((m.lookup k).getD 0 + d)

/-- The map has the total of every key that occurred, and nothing else. -/
def HasTotals (key : ρ → κ) (events : List (ρ × UInt64)) (m : Dict κ UInt64) : Prop :=
  ∀ k, m.lookup k = if k ∈ counted key events then some (total key events k) else none

variable {m : Dict κ UInt64}

theorem hasTotals_empty : HasTotals key [] (∅ : Dict κ UInt64) := fun _ => rfl

theorem HasTotals.getD_lookup (h : HasTotals key events m) (k : κ) :
    (m.lookup k).getD 0 = total key events k := by
  rw [h k]
  split
  · rfl
  · next hk => rw [total_of_not_counted hk, Option.getD_none]

theorem HasTotals.accumulate (h : HasTotals key events m) (e : ρ × UInt64) :
    HasTotals key (events ++ [e]) (accumulate m (key e.1) e.2) := by
  intro k
  rw [Lib.accumulate, Dict.lookup_insert_ite, counted_concat, total_concat, h.getD_lookup]
  by_cases hk : k = key e.1
  · rw [if_pos hk, if_pos (by rw [hk]; exact Finset.mem_insert_self _ _), if_pos hk.symm, hk]
  · rw [if_neg hk, if_neg (Ne.symm hk), h k]
    simp only [Finset.mem_insert, hk, false_or]

/-- `len(m)` is the number of keys that occurred. -/
theorem HasTotals.length (h : HasTotals key events m) :
    m.entries.length = (counted key events).card := by
  have hkeys : m.keys.toFinset = counted key events := by
    ext k
    rw [List.mem_toFinset, ← AList.mem_keys, ← AList.lookup_isSome, h k]
    split
    · next hk => simp [hk]
    · next hk => simp [hk]
  rw [← hkeys, List.toFinset_card_of_nodup m.keys_nodup]
  exact (List.length_map _).symm

/-! ## Two ways to tell subjects apart -/

/-- The keys agree on the subjects that occur. -/
def AgreeOn (key : ρ → κ) (key' : ρ → ι) (events : List (ρ × UInt64)) : Prop :=
  ∀ a ∈ events, ∀ b ∈ events, key a.1 = key b.1 ↔ key' a.1 = key' b.1

section

variable (h : AgreeOn key key' events)
include h

omit [DecidableEq κ] [DecidableEq ι] in
theorem AgreeOn.mono {events' : List (ρ × UInt64)} (hsub : events' ⊆ events) :
    AgreeOn key key' events' :=
  fun a ha b hb => h a (hsub ha) b (hsub hb)

theorem AgreeOn.total_eq {a : ρ × UInt64} (ha : a ∈ events) :
    total key events (key a.1) = total key' events (key' a.1) := by
  unfold total
  congr 2
  refine List.filter_congr (fun b hb => ?_)
  rw [decide_eq_decide]
  exact h b hb a ha

theorem AgreeOn.mem_counted_iff {events' : List (ρ × UInt64)} (hsub : events' ⊆ events)
    {a : ρ × UInt64} (ha : a ∈ events) :
    key a.1 ∈ counted key events' ↔ key' a.1 ∈ counted key' events' := by
  rw [mem_counted, mem_counted]
  constructor
  · rintro ⟨b, hb, hkey⟩
    exact ⟨b, hb, (h b (hsub hb) a ha).mp hkey⟩
  · rintro ⟨b, hb, hkey⟩
    exact ⟨b, hb, (h b (hsub hb) a ha).mpr hkey⟩

theorem AgreeOn.card_counted :
    (counted key events).card = (counted key' events).card := by
  induction events using List.reverseRecOn with
  | nil => rfl
  | append_singleton events e ih =>
    have hsub : events ⊆ events ++ [e] := List.subset_append_left _ _
    have hmem := h.mem_counted_iff hsub (a := e) (by simp)
    rw [counted_concat, counted_concat]
    by_cases hk : key e.1 ∈ counted key events
    · rw [Finset.insert_eq_of_mem hk, Finset.insert_eq_of_mem (hmem.mp hk), ih (h.mono hsub)]
    · rw [Finset.card_insert_of_notMem hk, Finset.card_insert_of_notMem (hk ∘ hmem.mpr),
        ih (h.mono hsub)]

end

/-! ## Resets -/

/-- The events since the last reset: the next event resets when more than `limit` keys have
occurred. -/
def sinceReset (key : ρ → κ) (limit : Nat) (events : List (ρ × UInt64)) : List (ρ × UInt64) :=
  events.foldl (fun since e =>
    if limit < (counted key since).card then [e] else since ++ [e]) []

theorem sinceReset_concat (limit : Nat) (e : ρ × UInt64) :
    sinceReset key limit (events ++ [e]) =
      if limit < (counted key (sinceReset key limit events)).card then [e]
      else sinceReset key limit events ++ [e] :=
  List.foldl_concat _ _ _ _

theorem sinceReset_suffix (limit : Nat) : sinceReset key limit events <:+ events := by
  induction events using List.reverseRecOn with
  | nil => exact List.suffix_refl _
  | append_singleton events e ih =>
    rw [sinceReset_concat]
    split
    · exact List.suffix_append _ _
    · obtain ⟨before, hbefore⟩ := ih
      exact ⟨before, by rw [← List.append_assoc, hbefore]⟩

theorem card_counted_sinceReset_le (limit : Nat) :
    (counted key (sinceReset key limit events)).card ≤ limit + 1 := by
  induction events using List.reverseRecOn with
  | nil => exact Nat.zero_le _
  | append_singleton events e ih =>
    rw [sinceReset_concat]
    split
    · have hone : counted key [e] = {key e.1} := rfl
      rw [hone, Finset.card_singleton]
      exact Nat.le_add_left 1 limit
    · next hle =>
      rw [counted_concat]
      have hcard := Finset.card_insert_le (key e.1) (counted key (sinceReset key limit events))
      omega

theorem AgreeOn.sinceReset_eq (h : AgreeOn key key' events) (limit : Nat) :
    sinceReset key limit events = sinceReset key' limit events := by
  induction events using List.reverseRecOn with
  | nil => rfl
  | append_singleton events e ih =>
    have hbefore := h.mono (List.subset_append_left events [e])
    have hsuffix : sinceReset key limit events <:+ events := sinceReset_suffix limit
    have hwindow := hbefore.mono hsuffix.subset
    rw [sinceReset_concat, sinceReset_concat, hwindow.card_counted, ih hbefore]

end Loggregator.Lib
