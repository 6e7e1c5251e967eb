import Mathlib.Algebra.Group.Nat.Defs
import Mathlib.Data.List.Rotate

/-!
# Going round a slice from a random place

The idiom `idx := (i + seed) % size` of Go on a 64-bit platform. The sum wraps around and the
remainder has the sign of the dividend, so that the indices of a seed near the end of the range
can be negative. `Fits` says for which seeds they are the places of the slice, each one once.
-/

namespace Loggregator.Lib.RoundRobin

/-- `(i + seed) % size` with the machine's integers. -/
def index (size seed i : Nat) : Int64 :=
  (Int64.ofNat i + Int64.ofNat seed) % Int64.ofNat size

/-- The indices of the loop over a slice with `size` places. -/
def indices (size seed : Nat) : List Int64 := (List.range size).map (index size seed)

/-- The index is a place of a slice of this length. -/
def InRange (size : Nat) (idx : Int64) : Prop := 0 ≤ idx.toInt ∧ idx.toInt < size

instance (size : Nat) (idx : Int64) : Decidable (InRange size idx) :=
  inferInstanceAs (Decidable (_ ∧ _))

/-- No sum wraps around, or only the last one does and the size divides it. -/
def Fits (size seed : Nat) : Prop :=
  seed + size ≤ 2 ^ 63 ∨ seed + size = 2 ^ 63 + 1 ∧ size ∣ 2 ^ 63

section

variable {size seed i : Nat}

section

variable (hsize : size < 2 ^ 63)
include hsize

variable (hseed : seed < 2 ^ 63)
include hseed

theorem toInt_index (hi : i < size) :
    (index size seed i).toInt =
      (((seed + i : Nat) : Int).bmod (2 ^ 64)).tmod (size : Int) := by
  rw [index, Int64.toInt_mod, Int64.toInt_add, Int64.toInt_ofNat_of_lt (hi.trans hsize),
    Int64.toInt_ofNat_of_lt hseed, Int64.toInt_ofNat_of_lt hsize, Nat.add_comm seed i,
    Int.natCast_add]

theorem toInt_index_of_lt (hi : i < size) (hsum : seed + i < 2 ^ 63) :
    (index size seed i).toInt = ((seed + i) % size : Nat) := by
  have hwrap : ((seed + i : Nat) : Int).bmod (2 ^ 64) = ((seed + i : Nat) : Int) := by
    apply Int.bmod_eq_of_le <;> omega
  rw [toInt_index hsize hseed hi, hwrap, Int.ofNat_tmod]

/-- A sum that wraps around is at least as far from zero as it was short of the end. -/
theorem toInt_index_of_le (hi : i < size) (hsum : 2 ^ 63 ≤ seed + i) :
    (index size seed i).toInt = -((2 ^ 64 - (seed + i)) % size : Nat) := by
  have hwrap : ((seed + i : Nat) : Int).bmod (2 ^ 64) = -((2 ^ 64 - (seed + i) : Nat) : Int) := by
    rw [Int.bmod_def]
    omega
  rw [toInt_index hsize hseed hi, hwrap, Int.neg_tmod, Int.ofNat_tmod]

/-- A sum that wraps around gives a place only if the size divides what it was short of. -/
theorem dvd_of_inRange (hi : i < size) (hsum : 2 ^ 63 ≤ seed + i)
    (h : InRange size (index size seed i)) :
    size ∣ 2 ^ 64 - (seed + i) := by
  have hnonneg := h.1
  rw [toInt_index_of_le hsize hseed hi hsum] at hnonneg
  exact Nat.dvd_of_mod_eq_zero (by omega)

theorem fits_of_inRange (h : ∀ i < size, InRange size (index size seed i)) :
    Fits size seed := by
  by_cases hnone : seed + size ≤ 2 ^ 63
  · exact Or.inl hnone
  -- the first sum that wraps around
  have hfirst : size ∣ 2 ^ 63 := by
    have hd := dvd_of_inRange (i := 2 ^ 63 - seed) hsize hseed (by omega) (by omega)
      (h _ (by omega))
    have hrest : 2 ^ 64 - (seed + (2 ^ 63 - seed)) = 2 ^ 63 := by omega
    rwa [hrest] at hd
  refine Or.inr ⟨?_, hfirst⟩
  by_contra hsecond
  -- with a second one the size would divide two neighbours
  have hd := dvd_of_inRange (i := 2 ^ 63 - seed + 1) hsize hseed (by omega) (by omega)
    (h _ (by omega))
  have hone : size ∣ 2 ^ 63 - (2 ^ 64 - (seed + (2 ^ 63 - seed + 1))) := Nat.dvd_sub hfirst hd
  have hrest : 2 ^ 63 - (2 ^ 64 - (seed + (2 ^ 63 - seed + 1))) = 1 := by omega
  rw [hrest, Nat.dvd_one] at hone
  omega

end

/-- As long as the sums fit, the index is the place `seed + i` steps from the first one. -/
theorem index_of_fits (hfits : Fits size seed) (hsize : size < 2 ^ 63) (hseed : seed < 2 ^ 63)
    (hi : i < size) : index size seed i = Int64.ofNat ((seed + i) % size) := by
  have hplace : (seed + i) % size < 2 ^ 63 := (Nat.mod_lt _ (by omega)).trans hsize
  rw [← Int64.toInt_inj, Int64.toInt_ofNat_of_lt hplace]
  by_cases hsum : seed + i < 2 ^ 63
  · exact toInt_index_of_lt hsize hseed hi hsum
  · obtain hle | ⟨heq, hdvd⟩ := hfits
    · omega
    have hlast : seed + i = 2 ^ 63 := by omega
    have hshort : 2 ^ 64 - (seed + i) = 2 ^ 63 := by omega
    rw [toInt_index_of_le hsize hseed hi (by omega), hshort, hlast, Nat.mod_eq_zero_of_dvd hdvd]
    rfl

theorem inRange_ofNat {k : Nat} (hk : k < size) (hsize : size < 2 ^ 63) :
    InRange size (Int64.ofNat k) := by
  rw [InRange, Int64.toInt_ofNat_of_lt (hk.trans hsize)]
  omega

theorem inRange_of_fits (hfits : Fits size seed) (hsize : size < 2 ^ 63) (hseed : seed < 2 ^ 63)
    (hi : i < size) : InRange size (index size seed i) := by
  rw [index_of_fits hfits hsize hseed hi]
  exact inRange_ofNat (Nat.mod_lt _ (by omega)) hsize

/-- As long as the sums fit, the loop goes round the slice once. -/
theorem indices_of_fits (hfits : Fits size seed) (hsize : size < 2 ^ 63) (hseed : seed < 2 ^ 63) :
    indices size seed = ((List.range size).rotate seed).map Int64.ofNat := by
  apply List.ext_getElem
  · simp [indices]
  · intro i hi _
    have hlt : i < size := by simpa [indices] using hi
    simp only [indices, List.getElem_map, List.getElem_rotate, List.getElem_range,
      List.length_range]
    rw [index_of_fits hfits hsize hseed hlt, Nat.add_comm]

theorem perm_indices (hfits : Fits size seed) (hsize : size < 2 ^ 63) (hseed : seed < 2 ^ 63) :
    List.Perm (indices size seed) ((List.range size).map Int64.ofNat) := by
  rw [indices_of_fits hfits hsize hseed]
  exact (List.rotate_perm _ _).map _

end

end Loggregator.Lib.RoundRobin
