import Mathlib.Data.Finset.Dedup
import Mathlib.Data.List.AList

/-!
# Finite maps with an entry order

A map of the modelled language is an `AList`: a list of entries without a repeated key.
Ranging over a map visits `entries` from left to right. The language leaves the order of
such a visit open, so a theorem about every map is a theorem about every visit order.

The loops that copy one map into another are `mergeWith` and `mergeAbsent`. Each has one
lookup law, which says that the result does not depend on the order of the visit.
-/

namespace Loggregator.Lib

universe u v w

/-- A finite map from `K` to `V`. -/
abbrev Dict (K : Type u) (V : Type v) := AList (fun _ : K => V)

namespace Dict

variable {K : Type u} {V : Type v} {W : Type w} [DecidableEq K]

theorem lookup_insert_ite (m : Dict K V) (a b : K) (v : V) :
    (m.insert a v).lookup b = if b = a then some v else m.lookup b := by
  by_cases h : b = a
  · subst h
    rw [if_pos rfl, AList.lookup_insert]
  · rw [if_neg h, AList.lookup_insert_ne h]

theorem lookup_erase_ite (m : Dict K V) (a b : K) :
    (m.erase a).lookup b = if b = a then none else m.lookup b := by
  by_cases h : b = a
  · subst h
    rw [if_pos rfl, AList.lookup_erase]
  · rw [if_neg h, AList.lookup_erase_ne h]

variable {m : Dict K V} {v : V} {k : K}

theorem lookup_erase_eq_some {a b : K} :
    (m.erase a).lookup b = some v ↔ b ≠ a ∧ m.lookup b = some v := by
  rw [lookup_erase_ite]
  split
  · next h => simp [h]
  · next h => simp [h]

/-- `if len(g) == 0 { delete(m, k) } else { m[k] = g }`, for a map of maps. -/
def putGroup {J : Type w} (m : Dict K (Dict J V)) (k : K) (g : Dict J V) : Dict K (Dict J V) :=
  if g.entries.isEmpty then m.erase k else m.insert k g

theorem lookup_of_isEmpty (h : m.entries.isEmpty = true) (k : K) :
    m.lookup k = none := by
  rw [AList.lookup, List.isEmpty_iff.mp h]
  rfl

/-- A group that is not there reads as an empty one. -/
theorem lookup_putGroup {J : Type w} [DecidableEq J] (m : Dict K (Dict J V)) (k a : K)
    (g : Dict J V) (i : J) :
    ((putGroup m k g).lookup a).bind (fun g' => g'.lookup i) =
      if a = k then g.lookup i else (m.lookup a).bind (fun g' => g'.lookup i) := by
  unfold putGroup
  by_cases hempty : g.entries.isEmpty = true
  · rw [if_pos hempty, lookup_erase_ite]
    split
    · rw [Option.bind_none, lookup_of_isEmpty hempty]
    · rfl
  · rw [if_neg hempty, lookup_insert_ite]
    split
    · rfl
    · rfl

/-- `for k, v := range src { if w, ok := f(v); ok { dst[k] = w } }`. -/
def mergeWith (f : V → Option W) (src : Dict K V) (dst : Dict K W) : Dict K W :=
  src.entries.foldl (fun d p =>
    match f p.2 with
    | some w => d.insert p.1 w
    | none => d) dst

/-- `for k, v := range src { if _, ok := dst[k]; !ok { dst[k] = f(v) } }`. -/
def mergeAbsent (f : V → W) (src : Dict K V) (dst : Dict K W) : Dict K W :=
  src.entries.foldl (fun d p =>
    match d.lookup p.1 with
    | some _ => d
    | none => d.insert p.1 (f p.2)) dst

/-- `for k := range keys { delete(m, k) }`. -/
def eraseAll (ks : List K) (m : Dict K V) : Dict K V :=
  ks.foldl (fun m k => m.erase k) m

/-- A loop over the entries that writes at the key of each entry only. -/
private theorem foldl_lookup {g : Dict K W → (Sigma fun _ : K => V) → Dict K W}
    {w : V → Option W → Option W}
    (hg : ∀ d p k, (g d p).lookup k = if k = p.1 then w p.2 (d.lookup k) else d.lookup k)
    {l : List (Sigma fun _ : K => V)} (hl : l.NodupKeys) (d : Dict K W) (k : K) :
    (l.foldl g d).lookup k = ((l.dlookup k).elim id w) (d.lookup k) := by
  induction l generalizing d with
  | nil => rfl
  | cons p l ih =>
    obtain ⟨a, v⟩ := p
    obtain ⟨hnot, hl⟩ := List.nodupKeys_cons.mp hl
    rw [List.foldl_cons, ih hl, hg]
    by_cases hk : k = a
    · -- the keys are distinct, so no later entry can write `a` again
      subst hk
      rw [List.dlookup_eq_none.mpr hnot, List.dlookup_cons_eq, if_pos rfl]
      rfl
    · rw [List.dlookup_cons_ne _ _ hk, if_neg hk]

/-- The copied value wins over the one that was there, whatever the order of the visit. -/
theorem lookup_mergeWith (f : V → Option W) (src : Dict K V) (dst : Dict K W) (k : K) :
    (mergeWith f src dst).lookup k = ((src.lookup k).bind f).or (dst.lookup k) := by
  rw [mergeWith, foldl_lookup (w := fun v o => (f v).or o) _ src.nodupKeys]
  · change (src.lookup k).elim id _ _ = _
    cases src.lookup k <;> rfl
  · intro d p k
    cases f p.2 <;> simp [lookup_insert_ite]

/-- The value that was there wins over the copied one, whatever the order of the visit. -/
theorem lookup_mergeAbsent (f : V → W) (src : Dict K V) (dst : Dict K W) (k : K) :
    (mergeAbsent f src dst).lookup k = (dst.lookup k).or ((src.lookup k).map f) := by
  rw [mergeAbsent, foldl_lookup (w := fun v o => o.or (some (f v))) _ src.nodupKeys]
  · change (src.lookup k).elim id _ _ = _
    cases src.lookup k <;> simp
  · rintro d ⟨a, v⟩ k
    by_cases hk : k = a
    · subst hk
      cases hd : d.lookup k <;> simp [hd]
    · cases d.lookup a <;> simp [hk]

theorem lookup_eraseAll (ks : List K) (m : Dict K V) (k : K) :
    (eraseAll ks m).lookup k = if k ∈ ks then none else m.lookup k := by
  induction ks generalizing m with
  | nil => simp [eraseAll]
  | cons a ks ih =>
    have hstep : eraseAll (a :: ks) m = eraseAll ks (m.erase a) := rfl
    rw [hstep, ih, lookup_erase_ite]
    by_cases hks : k ∈ ks
    · simp [hks]
    · by_cases hk : k = a <;> simp [hks, hk]

/-! ## Values -/

/-- The values, in the order of a visit. -/
def values (m : Dict K V) : List V := m.entries.map (fun p => p.2)

theorem entries_erase_of_lookup (h : m.lookup k = none) :
    (m.erase k).entries = m.entries :=
  List.kerase_of_notMem_keys (AList.lookup_eq_none.mp h)

theorem entries_perm_of_lookup (h : m.lookup k = some v) :
    m.entries.Perm (⟨k, v⟩ :: (m.erase k).entries) := by
  have hkey : k ∈ m.entries.keys := by
    rw [← List.dlookup_isSome]
    exact Option.isSome_of_eq_some h
  obtain ⟨w, l₁, l₂, -, happ, herase⟩ := List.exists_of_kerase hkey
  have hv : w = v := by
    have hmem : (⟨k, w⟩ : Sigma fun _ : K => V) ∈ m.entries := by simp [happ]
    exact Option.some.inj ((AList.mem_lookup_iff.mpr hmem).symm.trans h)
  change m.entries.Perm (⟨k, v⟩ :: m.entries.kerase k)
  rw [herase, happ, hv]
  exact List.perm_middle

/-- Two visits of the same map differ only in their order. -/
theorem entries_perm_of_lookup_eq {m' : Dict K V} (h : ∀ k, m.lookup k = m'.lookup k) :
    m.entries.Perm m'.entries :=
  List.lookup_ext m.nodupKeys m'.nodupKeys (fun k v => by
    have hk : m.entries.dlookup k = m'.entries.dlookup k := h k
    rw [hk])

/-- The first entry of a visit. -/
theorem lookup_of_entries_cons {l : List (Sigma fun _ : K => V)} (h : m.entries = ⟨k, v⟩ :: l) :
    m.lookup k = some v := by
  rw [AList.lookup, h, List.dlookup_cons_eq]

/-- What is left of a visit when its first entry is deleted. -/
theorem entries_erase_of_cons {l : List (Sigma fun _ : K => V)} (h : m.entries = ⟨k, v⟩ :: l) :
    (m.erase k).entries = l := by
  change m.entries.kerase k = l
  rw [h]
  exact List.kerase_cons_eq rfl

@[simp] theorem values_insert (m : Dict K V) (k : K) (v : V) :
    values (m.insert k v) = v :: values (m.erase k) :=
  rfl

theorem values_perm_of_lookup (h : m.lookup k = some v) :
    (values m).Perm (v :: values (m.erase k)) :=
  (entries_perm_of_lookup h).map (fun p : Sigma fun _ : K => V => p.2)

theorem mem_values : v ∈ values m ↔ ∃ k, m.lookup k = some v := by
  rw [values, List.mem_map]
  constructor
  · rintro ⟨⟨k, v⟩, hmem, rfl⟩
    exact ⟨k, AList.mem_lookup_iff.mpr hmem⟩
  · rintro ⟨k, hk⟩
    exact ⟨⟨k, v⟩, AList.mem_lookup_iff.mp hk, rfl⟩

/-- When a map has the values of another one under a function, so do their visits. -/
theorem values_perm_map {m' : Dict K W} {g : V → W} (h : ∀ k, m'.lookup k = (m.lookup k).map g) :
    (values m').Perm ((values m).map g) := by
  have hentries : m'.entries.Perm (m.entries.map (Sigma.map id (fun _ => g))) := by
    refine List.lookup_ext m'.nodupKeys (m.nodupKeys.map₂ (fun _ => g) _) (fun k w => ?_)
    have hk : m'.entries.dlookup k = (m.entries.dlookup k).map g := h k
    rw [hk, List.dlookup_map₂ (f := fun _ => g)]
  have hvalues := hentries.map (fun p : Sigma fun _ : K => W => p.2)
  rw [List.map_map] at hvalues
  rw [values, values, List.map_map]
  exact hvalues

/-- The pairs of a map, without an order. -/
def graph [DecidableEq V] (m : Dict K V) : Finset (K × V) :=
  (m.entries.map (fun p => (p.1, p.2))).toFinset

theorem mem_graph [DecidableEq V] :
    (k, v) ∈ graph m ↔ m.lookup k = some v := by
  rw [graph, List.mem_toFinset, List.mem_map]
  constructor
  · rintro ⟨⟨k', v'⟩, hmem, heq⟩
    cases heq
    exact AList.mem_lookup_iff.mpr hmem
  · intro h
    exact ⟨⟨k, v⟩, AList.mem_lookup_iff.mp h, rfl⟩

/-- Maps are equal, whatever the order of a visit, when they have the same pairs. -/
theorem graph_eq_iff [DecidableEq V] {m' : Dict K V} :
    graph m = graph m' ↔ ∀ k, m.lookup k = m'.lookup k := by
  constructor
  · intro h k
    refine Option.ext (fun v => ?_)
    rw [← mem_graph, ← mem_graph, h]
  · intro h
    ext ⟨k, v⟩
    rw [mem_graph, mem_graph, h]

section Groups

variable {J : Type w}

/-- The values of a map of maps, in the order of a visit. -/
def flatValues (m : Dict K (Dict J V)) : List V := m.entries.flatMap (fun p => values p.2)

theorem flatValues_insert (m : Dict K (Dict J V)) (k : K) (g : Dict J V) :
    flatValues (m.insert k g) = values g ++ flatValues (m.erase k) :=
  List.flatMap_cons

theorem flatValues_putGroup (m : Dict K (Dict J V)) (k : K) (g : Dict J V) :
    flatValues (putGroup m k g) = values g ++ flatValues (m.erase k) := by
  unfold putGroup
  split
  · next hempty => rw [values, List.isEmpty_iff.mp hempty, List.map_nil, List.nil_append]
  · exact flatValues_insert m k g

theorem flatValues_perm (m : Dict K (Dict J V)) (k : K) :
    (flatValues m).Perm (values ((m.lookup k).getD ∅) ++ flatValues (m.erase k)) := by
  cases hk : m.lookup k with
  | none =>
    rw [flatValues, flatValues, entries_erase_of_lookup hk]
    exact List.Perm.refl _
  | some g =>
    have hperm := (entries_perm_of_lookup hk).flatMap_right (fun p => values p.2)
    rwa [List.flatMap_cons] at hperm

theorem mem_flatValues [DecidableEq J] {m : Dict K (Dict J V)} {v : V} :
    v ∈ flatValues m ↔ ∃ k j, (m.lookup k).bind (fun g => g.lookup j) = some v := by
  simp only [flatValues, List.mem_flatMap, mem_values, Option.bind_eq_some_iff]
  constructor
  · rintro ⟨⟨k, g⟩, hmem, j, hj⟩
    exact ⟨k, j, g, AList.mem_lookup_iff.mpr hmem, hj⟩
  · rintro ⟨k, j, g, hg, hj⟩
    exact ⟨⟨k, g⟩, AList.mem_lookup_iff.mp hg, j, hj⟩

/-- The keys of a map of maps, in the order of a visit. -/
def flatKeys (m : Dict K (Dict J V)) : List (K × J) :=
  m.entries.flatMap (fun p => p.2.keys.map (fun j => (p.1, j)))

theorem mem_flatKeys [DecidableEq J] {m : Dict K (Dict J V)} {k : K} {j : J} :
    (k, j) ∈ flatKeys m ↔ ((m.lookup k).bind (fun g => g.lookup j)).isSome = true := by
  rw [Option.isSome_iff_exists]
  simp only [flatKeys, List.mem_flatMap, List.mem_map, Option.bind_eq_some_iff]
  constructor
  · rintro ⟨⟨k', g⟩, hmem, j', hj, heq⟩
    cases heq
    obtain ⟨v, hv⟩ := Option.isSome_iff_exists.mp (AList.lookup_isSome.mpr hj)
    exact ⟨v, g, AList.mem_lookup_iff.mpr hmem, hv⟩
  · rintro ⟨v, g, hg, hv⟩
    exact ⟨⟨k, g⟩, AList.mem_lookup_iff.mp hg, j,
      AList.lookup_isSome.mp (Option.isSome_of_eq_some hv), rfl⟩

omit [DecidableEq K] in
theorem nodup_flatKeys (m : Dict K (Dict J V)) : (flatKeys m).Nodup := by
  rw [flatKeys, List.nodup_flatMap]
  constructor
  · intro p _
    exact p.2.keys_nodup.map (fun j j' h => (Prod.mk.inj h).2)
  · have hkeys : m.entries.Pairwise (fun p q => p.1 ≠ q.1) := List.pairwise_map.mp m.keys_nodup
    refine hkeys.imp (fun {p q} hne => ?_)
    intro x hp hq
    obtain ⟨j, -, rfl⟩ := List.mem_map.mp hp
    obtain ⟨j', -, heq⟩ := List.mem_map.mp hq
    exact hne (Prod.mk.inj heq).1.symm

end Groups

end Dict

end Loggregator.Lib
