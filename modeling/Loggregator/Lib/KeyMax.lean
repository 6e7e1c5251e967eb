import Mathlib.Data.List.Nodup
import Mathlib.Data.List.Perm.Basic
import Mathlib.Order.Lattice

/-!
# The latest of each key

Elements have a key and a stamp. `Selects xs out` says that `out` has one element for each key of
`xs`, and that no other element with its key is later. Elements with the same key and the same
stamp leave a choice; without such elements the selection depends only on which elements there
are, and a selection can be made from selections of the parts.
-/

namespace Loggregator.Lib

universe u v w

variable {α : Type u} {κ : Type v} {τ : Type w} [LinearOrder τ] {key : α → κ} {stamp : α → τ}

/-- It is there and nothing with the same key is later. -/
def IsLatest (key : α → κ) (stamp : α → τ) (xs : List α) (x : α) : Prop :=
  x ∈ xs ∧ ∀ y ∈ xs, key y = key x → stamp y ≤ stamp x

/-- Elements with the same key and the same stamp are the same. -/
def StampsDiffer (key : α → κ) (stamp : α → τ) (xs : List α) : Prop :=
  ∀ x ∈ xs, ∀ y ∈ xs, key x = key y → stamp x = stamp y → x = y

/-- One of the latest for each key. -/
structure Selects (key : α → κ) (stamp : α → τ) (xs out : List α) : Prop where
  latest : ∀ x ∈ out, IsLatest key stamp xs x
  covers : ∀ x ∈ xs, key x ∈ out.map key
  once : (out.map key).Nodup

variable {xs ys out : List α} {x : α}

omit [LinearOrder τ] in
theorem StampsDiffer.mono (h : StampsDiffer key stamp ys) (hsub : ∀ x ∈ xs, x ∈ ys) :
    StampsDiffer key stamp xs :=
  fun x hx y hy => h x (hsub x hx) y (hsub y hy)

theorem isLatest_congr (h : ∀ x, x ∈ xs ↔ x ∈ ys) :
    IsLatest key stamp xs x ↔ IsLatest key stamp ys x := by
  simp only [IsLatest, h]

/-- One that is the latest in the whole is so in a part. -/
theorem IsLatest.mono (h : IsLatest key stamp ys x) (hsub : ∀ x ∈ xs, x ∈ ys) (hx : x ∈ xs) :
    IsLatest key stamp xs x :=
  ⟨hx, fun y hy => h.2 y (hsub y hy)⟩

/-- Two that are the latest of one key have the same stamp. -/
theorem IsLatest.eq {y : α} (hx : IsLatest key stamp xs x) (hy : IsLatest key stamp xs y)
    (hdiffer : StampsDiffer key stamp xs) (hkey : key x = key y) : x = y :=
  hdiffer x hx.1 y hy.1 hkey (le_antisymm (hy.2 x hx.1 hkey) (hx.2 y hy.1 hkey.symm))

namespace Selects

theorem nodup (h : Selects key stamp xs out) : out.Nodup := List.Nodup.of_map key h.once

/-- The selected element for the key of an element. -/
theorem exists_of_mem (h : Selects key stamp xs out) (hx : x ∈ xs) :
    ∃ y ∈ out, key y = key x ∧ stamp x ≤ stamp y := by
  obtain ⟨y, hy, hkey⟩ := List.mem_map.mp (h.covers x hx)
  exact ⟨y, hy, hkey, (h.latest y hy).2 x hx hkey.symm⟩

theorem mem_iff (h : Selects key stamp xs out) (hdiffer : StampsDiffer key stamp xs) :
    x ∈ out ↔ IsLatest key stamp xs x := by
  constructor
  · exact h.latest x
  · intro hx
    obtain ⟨y, hy, hkey, _⟩ := h.exists_of_mem hx.1
    rwa [hx.eq (h.latest y hy) hdiffer hkey.symm]

theorem perm (hx : Selects key stamp xs out) {out' : List α} (hy : Selects key stamp ys out')
    (hdiffer : StampsDiffer key stamp xs) (hmem : ∀ x, x ∈ xs ↔ x ∈ ys) : out'.Perm out := by
  rw [List.perm_ext_iff_of_nodup hy.nodup hx.nodup]
  intro a
  rw [hx.mem_iff hdiffer, hy.mem_iff (hdiffer.mono (fun x => (hmem x).mpr)), isLatest_congr hmem]

/-- The keys of a selection differ. -/
theorem stampsDiffer (h : Selects key stamp xs out) : StampsDiffer key stamp out :=
  fun _ hx _ hy hkey _ => List.inj_on_of_nodup_map h.once hx hy hkey

/-- A selection is its own selection. -/
theorem self (h : Selects key stamp xs out) : Selects key stamp out out where
  latest x hx := (h.latest x hx).mono (fun y hy => (h.latest y hy).1) hx
  covers _ hx := List.mem_map_of_mem hx
  once := h.once

/-- What is the latest among the selections of two parts is the latest among both. -/
theorem isLatest_append {as bs : List α} (hx : Selects key stamp xs as)
    (hy : Selects key stamp ys bs) (h : IsLatest key stamp (as ++ bs) x) :
    IsLatest key stamp (xs ++ ys) x := by
  have hle : ∀ {zs cs : List α}, Selects key stamp zs cs → (∀ c ∈ cs, c ∈ as ++ bs) →
      ∀ z ∈ zs, key z = key x → stamp z ≤ stamp x := by
    intro zs cs hselects hsub z hz hkey
    obtain ⟨c, hc, hck, hstamp⟩ := hselects.exists_of_mem hz
    exact hstamp.trans (h.2 c (hsub c hc) (hck.trans hkey))
  constructor
  · obtain ha | hb := List.mem_append.mp h.1
    · exact List.mem_append_left ys (hx.latest x ha).1
    · exact List.mem_append_right xs (hy.latest x hb).1
  · intro z hz
    obtain hz | hz := List.mem_append.mp hz
    · exact hle hx (fun c hc => List.mem_append_left bs hc) z hz
    · exact hle hy (fun c hc => List.mem_append_right as hc) z hz

/-- A selection from the selections of two parts is a selection from both. -/
theorem append {as bs : List α} (hx : Selects key stamp xs as) (hy : Selects key stamp ys bs)
    (h : Selects key stamp (as ++ bs) out) : Selects key stamp (xs ++ ys) out where
  latest x hout := hx.isLatest_append hy (h.latest x hout)
  covers x hmem := by
    -- the key goes from the parts to their selections and on to the last one
    obtain ⟨z, hz, hkey⟩ : ∃ z ∈ as ++ bs, key z = key x := by
      obtain hmem | hmem := List.mem_append.mp hmem
      · obtain ⟨z, hz, hkey, _⟩ := hx.exists_of_mem hmem
        exact ⟨z, List.mem_append_left bs hz, hkey⟩
      · obtain ⟨z, hz, hkey, _⟩ := hy.exists_of_mem hmem
        exact ⟨z, List.mem_append_right as hz, hkey⟩
    rw [← hkey]
    exact h.covers z hz
  once := h.once

end Selects

end Loggregator.Lib
