import Loggregator.Lib.Bytes
import Loggregator.Lib.Dict
import Loggregator.Lib.Sha1
import Mathlib.Data.List.Sort
import Mathlib.Data.Set.Function

/-!
# The hash of a map of tags

Both aggregators tell counters apart by a text for the map of tags: the elements are sorted by
key, and the SHA-1 sums of each key and value are written in hexadecimal, one after the other.
The versions differ in the text of a value, which is a parameter here.

When SHA-1 tells the texts apart that are hashed, two maps have the same hash exactly when they
have the same texts (`hashTags_eq_iff`). The order in which a map is visited plays no part.
-/

namespace Loggregator.Metron

open Lib

universe u

/-- `mapElement`. -/
structure MapElement where
  k : GoString
  v : GoString
  deriving DecidableEq

/-- `byKey`: the later element is not less than the earlier one. -/
def ByKey (a b : MapElement) : Prop := less b.k a.k = false

instance : DecidableRel ByKey := fun a b => inferInstanceAs (Decidable (less b.k a.k = false))

instance : Std.Total ByKey where
  total a b := by
    unfold ByKey
    cases h : less b.k a.k with
    | false => exact Or.inl rfl
    | true => exact Or.inr (less_asymm h)

instance : IsTrans MapElement ByKey where
  trans _ _ _ hab hbc := not_less_trans hab hbc

variable {V : Type u}

/-- The elements of a map, in the order of a visit. -/
def mapElements (text : V → GoString) (tags : Dict GoString V) : List MapElement :=
  tags.entries.map (fun p => ⟨p.1, text p.2⟩)

/-- What an element adds to the hash. -/
def hashElement (e : MapElement) : GoString :=
  hexEncode (Sha1.sum e.k) ++ hexEncode (Sha1.sum e.v)

/-- `hashTags`. -/
def hashTags (text : V → GoString) (tags : Dict GoString V) : GoString :=
  ((mapElements text tags).insertionSort ByKey).flatMap hashElement

/-! ## The elements -/

section Elements

variable {text : V → GoString} {tags tags' : Dict GoString V}

theorem mem_mapElements {e : MapElement} :
    e ∈ mapElements text tags ↔ (tags.lookup e.k).map text = some e.v := by
  rw [mapElements, List.mem_map, Option.map_eq_some_iff]
  constructor
  · rintro ⟨⟨k, v⟩, hmem, rfl⟩
    exact ⟨v, AList.mem_lookup_iff.mpr hmem, rfl⟩
  · rintro ⟨v, hv, htext⟩
    refine ⟨⟨e.k, v⟩, AList.mem_lookup_iff.mp hv, ?_⟩
    rw [htext]

theorem mapElements_inj {e e' : MapElement} (he : e ∈ mapElements text tags)
    (he' : e' ∈ mapElements text tags) (hk : e.k = e'.k) : e = e' := by
  rw [mem_mapElements] at he he'
  rw [hk, he'] at he
  cases e
  cases e'
  cases hk
  cases he
  rfl

theorem nodup_mapElements : (mapElements text tags).Nodup := by
  have hkeys : ((mapElements text tags).map MapElement.k).Nodup := by
    rw [mapElements, List.map_map]
    exact tags.keys_nodup
  exact hkeys.of_map _

theorem mapElements_perm (h : ∀ k, (tags.lookup k).map text = (tags'.lookup k).map text) :
    (mapElements text tags).Perm (mapElements text tags') := by
  rw [List.perm_ext_iff_of_nodup nodup_mapElements nodup_mapElements]
  intro e
  rw [mem_mapElements, mem_mapElements, h]

theorem lookup_eq_of_mapElements_perm
    (h : (mapElements text tags).Perm (mapElements text tags')) (k : GoString) :
    (tags.lookup k).map text = (tags'.lookup k).map text := by
  refine Option.ext (fun v => ?_)
  have hmem := h.mem_iff (a := ⟨k, v⟩)
  rwa [mem_mapElements, mem_mapElements] at hmem

/-- Sorting leaves nothing of the order in which the map was visited. -/
theorem sorted_eq_of_perm (h : (mapElements text tags).Perm (mapElements text tags')) :
    (mapElements text tags).insertionSort ByKey = (mapElements text tags').insertionSort ByKey := by
  have hperm := (List.perm_insertionSort ByKey (mapElements text tags)).trans
    (h.trans (List.perm_insertionSort ByKey (mapElements text tags')).symm)
  refine hperm.eq_of_pairwise ?_ (List.pairwise_insertionSort _ _) (List.pairwise_insertionSort _ _)
  intro e e' he he' hle hge
  -- the keys of a map are distinct, so that the order by key is one of the elements
  rw [List.mem_insertionSort] at he he'
  exact mapElements_inj he (h.mem_iff.mpr he') (less_antisymm hge hle)

end Elements

/-! ## The hash -/

theorem hashElement_length (e : MapElement) : (hashElement e).length = 80 := by
  rw [hashElement, List.length_append, hexEncode_length, hexEncode_length, Sha1.sum_length,
    Sha1.sum_length]

/-- The texts of a map are among those of a set. -/
def TextsIn (S : Set GoString) (text : V → GoString) (tags : Dict GoString V) : Prop :=
  ∀ e ∈ mapElements text tags, e.k ∈ S ∧ e.v ∈ S

variable {S : Set GoString}

variable (hS : Set.InjOn Sha1.sum S)
include hS

theorem hashElement_inj {e e' : MapElement} (he : e.k ∈ S ∧ e.v ∈ S) (he' : e'.k ∈ S ∧ e'.v ∈ S)
    (h : hashElement e = hashElement e') : e = e' := by
  have hlength : (hexEncode (Sha1.sum e.k)).length = (hexEncode (Sha1.sum e'.k)).length := by
    rw [hexEncode_length, hexEncode_length, Sha1.sum_length, Sha1.sum_length]
  obtain ⟨hk, hv⟩ := List.append_inj h hlength
  have hkey : e.k = e'.k := hS he.1 he'.1 (hexEncode_inj hk)
  have hvalue : e.v = e'.v := hS he.2 he'.2 (hexEncode_inj hv)
  cases e
  cases e'
  cases hkey
  cases hvalue
  rfl

/-- The parts have the same length, so the text says where each of them ends. -/
theorem flatMap_hashElement_inj {l l' : List MapElement} (hl : ∀ e ∈ l, e.k ∈ S ∧ e.v ∈ S)
    (hl' : ∀ e ∈ l', e.k ∈ S ∧ e.v ∈ S) (h : l.flatMap hashElement = l'.flatMap hashElement) :
    l = l' := by
  induction l generalizing l' with
  | nil =>
    cases l' with
    | nil => rfl
    | cons e' l' =>
      have hlen := congrArg List.length h
      rw [List.flatMap_cons, List.length_append, hashElement_length] at hlen
      simp at hlen
      omega
  | cons e l ih =>
    cases l' with
    | nil =>
      have hlen := congrArg List.length h
      rw [List.flatMap_cons, List.length_append, hashElement_length] at hlen
      simp at hlen
    | cons e' l' =>
      rw [List.flatMap_cons, List.flatMap_cons] at h
      obtain ⟨hhead, htail⟩ :=
        List.append_inj h ((hashElement_length e).trans (hashElement_length e').symm)
      obtain ⟨he, hl⟩ := List.forall_mem_cons.mp hl
      obtain ⟨he', hl'⟩ := List.forall_mem_cons.mp hl'
      rw [hashElement_inj hS he he' hhead, ih hl hl' htail]

/-- The hash identifies a map up to the texts of its values. -/
theorem hashTags_eq_iff {text : V → GoString} {tags tags' : Dict GoString V}
    (h : TextsIn S text tags) (h' : TextsIn S text tags') :
    hashTags text tags = hashTags text tags' ↔
      ∀ k, (tags.lookup k).map text = (tags'.lookup k).map text := by
  constructor
  · intro heq
    have hsorted := flatMap_hashElement_inj hS
      (fun e he => h e (List.mem_insertionSort ByKey |>.mp he))
      (fun e he => h' e (List.mem_insertionSort ByKey |>.mp he)) heq
    apply lookup_eq_of_mapElements_perm
    have hperm := List.perm_insertionSort ByKey (mapElements text tags)
    rw [hsorted] at hperm
    exact hperm.symm.trans (List.perm_insertionSort ByKey _)
  · intro hlookup
    rw [hashTags, hashTags, sorted_eq_of_perm (mapElements_perm hlookup)]

/-- When the text of a value is unambiguous, the hash identifies the map. -/
theorem hashTags_eq_iff_graph [DecidableEq V] {text : V → GoString}
    (htext : Function.Injective text) {tags tags' : Dict GoString V} (h : TextsIn S text tags)
    (h' : TextsIn S text tags') :
    hashTags text tags = hashTags text tags' ↔ Dict.graph tags = Dict.graph tags' := by
  rw [hashTags_eq_iff hS h h', Dict.graph_eq_iff]
  constructor
  · intro heq k
    exact Option.map_injective htext (heq k)
  · intro heq k
    rw [heq k]

end Loggregator.Metron
