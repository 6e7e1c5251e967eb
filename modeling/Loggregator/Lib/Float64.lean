import Mathlib.Data.Nat.Log
import Mathlib.Tactic.Ring

/-!
# Integers in binary64

The conversions between integers and IEEE 754 binary64 numbers, on the bits of the number.
An integer is rounded to the nearest value, ties to even. A number is cut towards zero; when
the result does not fit the integer type the language leaves the outcome to the platform,
which is a parameter here.
-/

namespace Loggregator.Lib

/-- A binary64 number, given by its 64 bits. -/
structure Float64 where
  bits : UInt64
  deriving DecidableEq, Repr

namespace Float64

/-- The sign bit is set. -/
def negative (x : Float64) : Bool := decide (2 ^ 63 ≤ x.bits.toNat)

/-- The biased exponent. -/
def expo (x : Float64) : Nat := x.bits.toNat / 2 ^ 52 % 2048

/-- The stored part of the significand. -/
def frac (x : Float64) : Nat := x.bits.toNat % 2 ^ 52

/-- `n / 2 ^ s` rounded to the nearest integer, ties to even. -/
def roundShift (n s : Nat) : Nat :=
  let q := n / 2 ^ s
  let r := n % 2 ^ s
  if 2 * r < 2 ^ s then q
  else if 2 ^ s < 2 * r then q + 1
  else q + q % 2

/-- The 53-bit significand of `n ≠ 0`, whose leading bit has weight `2 ^ log2 n`. A carry out
of the rounding makes it `2 ^ 53`. -/
def significand (n : Nat) : Nat :=
  if n.log2 ≤ 52 then n * 2 ^ (52 - n.log2) else roundShift n (n.log2 - 52)

/-- The bits of `float64(n)`. A carry out of the significand moves into the exponent field. -/
def natBits (n : Nat) : Nat :=
  if n = 0 then 0 else (n.log2 + 1023) * 2 ^ 52 + (significand n - 2 ^ 52)

/-- `float64(n)` for an unsigned integer. -/
def ofNat (n : Nat) : Float64 := ⟨UInt64.ofNat (natBits n)⟩

/-- `float64(z)` for a signed integer. -/
def ofInt (z : Int) : Float64 :=
  ⟨UInt64.ofNat (natBits z.natAbs + if z < 0 then 2 ^ 63 else 0)⟩

/-- The magnitude of a finite number, cut to an integer. -/
def truncNat (x : Float64) : Nat :=
  if x.expo < 1023 then 0
  else if x.expo < 1075 then (2 ^ 52 + x.frac) / 2 ^ (1075 - x.expo)
  else (2 ^ 52 + x.frac) * 2 ^ (x.expo - 1075)

/-- The integer a finite number is cut to. -/
def trunc (x : Float64) : Int :=
  if x.negative then -(x.truncNat : Int) else x.truncNat

/-- Neither an infinity nor a NaN. -/
def finite (x : Float64) : Bool := decide (x.expo ≠ 2047)

/-- `uint64(x)`, with `out` for the numbers whose integer part does not fit. -/
def toUInt64 (out : Float64 → UInt64) (x : Float64) : UInt64 :=
  if x.finite ∧ 0 ≤ x.trunc ∧ x.trunc < 2 ^ 64 then UInt64.ofNat x.trunc.toNat else out x

/-- `int32(x)`, with `out` for the numbers whose integer part does not fit. -/
def toInt32 (out : Float64 → Int32) (x : Float64) : Int32 :=
  if x.finite ∧ -2 ^ 31 ≤ x.trunc ∧ x.trunc < 2 ^ 31 then Int32.ofInt x.trunc else out x

/-- `n` needs at most 53 significant bits, so `float64(n)` is `n`. -/
def Exact (n : Nat) : Prop := n % 2 ^ (n.log2 - 52) = 0

instance (n : Nat) : Decidable (Exact n) := inferInstanceAs (Decidable (_ = _))

variable {n : Nat} {x : Float64}

theorem exact_of_lt (h : n < 2 ^ 53) : Exact n := by
  have hlog : n.log2 - 52 = 0 := by
    by_cases hn : n = 0
    · subst hn
      decide
    · have := (Nat.log2_lt hn).mpr h
      omega
  rw [Exact, hlog, Nat.pow_zero, Nat.mod_one]

/-- The significand of an exact number has its leading bit at weight `2 ^ 52`. -/
theorem significand_of_exact (hn : n ≠ 0) (h : Exact n) :
    2 ^ 52 ≤ significand n ∧ significand n < 2 ^ 53 ∧
      significand n * 2 ^ (n.log2 - 52) = n * 2 ^ (52 - n.log2) := by
  have hlo : 2 ^ n.log2 ≤ n := Nat.log2_self_le hn
  have hhi : n < 2 ^ (n.log2 + 1) := Nat.lt_log2_self
  unfold significand
  split
  · rename_i hle
    have hsplit : (2 : Nat) ^ 52 = 2 ^ n.log2 * 2 ^ (52 - n.log2) := by
      rw [← Nat.pow_add]; congr 1; omega
    have hsplit' : (2 : Nat) ^ 53 = 2 ^ (n.log2 + 1) * 2 ^ (52 - n.log2) := by
      rw [← Nat.pow_add]; congr 1; omega
    refine ⟨?_, ?_, ?_⟩
    · rw [hsplit]
      exact Nat.mul_le_mul_right _ hlo
    · rw [hsplit']
      exact Nat.mul_lt_mul_of_pos_right hhi (Nat.two_pow_pos _)
    · rw [show n.log2 - 52 = 0 by omega, Nat.pow_zero, Nat.mul_one]
  · rename_i hgt
    have hr : n % 2 ^ (n.log2 - 52) = 0 := h
    have hq : roundShift n (n.log2 - 52) = n / 2 ^ (n.log2 - 52) := by
      simp only [roundShift, hr]
      rw [if_pos (Nat.two_pow_pos _)]
    have hdvd : n / 2 ^ (n.log2 - 52) * 2 ^ (n.log2 - 52) = n :=
      Nat.div_mul_cancel (Nat.dvd_of_mod_eq_zero hr)
    have hsplit : (2 : Nat) ^ n.log2 = 2 ^ 52 * 2 ^ (n.log2 - 52) := by
      rw [← Nat.pow_add]; congr 1; omega
    have hsplit' : (2 : Nat) ^ (n.log2 + 1) = 2 ^ 53 * 2 ^ (n.log2 - 52) := by
      rw [← Nat.pow_add]; congr 1; omega
    rw [hq]
    refine ⟨?_, ?_, ?_⟩
    · rw [Nat.le_div_iff_mul_le (Nat.two_pow_pos _), ← hsplit]
      exact hlo
    · rw [Nat.div_lt_iff_lt_mul (Nat.two_pow_pos _), ← hsplit']
      exact hhi
    · rw [hdvd, show 52 - n.log2 = 0 by omega, Nat.pow_zero, Nat.mul_one]

theorem log2_lt_64 (h : n < 2 ^ 64) : n.log2 < 64 := by
  by_cases hn : n = 0
  · subst hn
    decide
  · exact (Nat.log2_lt hn).mpr h

theorem natBits_lt (h : n < 2 ^ 64) (he : Exact n) : natBits n < 2 ^ 63 := by
  unfold natBits
  split
  · decide
  · rename_i hn
    obtain ⟨_, hhi, _⟩ := significand_of_exact hn he
    have hlog := log2_lt_64 h
    omega

/-- A number with the bits of an exact integer, whatever its sign bit, is cut to that
integer. -/
theorem truncNat_of_bits {k : Nat} (x : Float64) (h : n < 2 ^ 64) (he : Exact n)
    (hx : x.bits.toNat = natBits n + k * 2 ^ 63) : x.truncNat = n := by
  by_cases hn : n = 0
  · subst hn
    have hexpo : x.expo = 0 := by
      rw [expo, hx, natBits, if_pos rfl]
      omega
    rw [truncNat, hexpo]
    rfl
  · obtain ⟨hlo, hhi, hval⟩ := significand_of_exact hn he
    have hlog := log2_lt_64 h
    rw [natBits, if_neg hn] at hx
    have hexpo : x.expo = n.log2 + 1023 := by
      rw [expo, hx]
      omega
    have hfrac : 2 ^ 52 + x.frac = significand n := by
      rw [frac, hx]
      omega
    rw [truncNat, hexpo, hfrac, if_neg (by omega)]
    split
    · -- an integer below `2 ^ 52`: the significand is the integer shifted left
      rename_i hsmall
      have hleft : significand n = n * 2 ^ (52 - n.log2) := by
        rw [← hval, show n.log2 - 52 = 0 by omega, Nat.pow_zero, Nat.mul_one]
      rw [hleft, show 1075 - (n.log2 + 1023) = 52 - n.log2 by omega]
      exact Nat.mul_div_cancel _ (Nat.two_pow_pos _)
    · rename_i hbig
      rw [show n.log2 + 1023 - 1075 = n.log2 - 52 by omega, hval,
        show 52 - n.log2 = 0 by omega, Nat.pow_zero, Nat.mul_one]

theorem finite_of_bits {k : Nat} (x : Float64) (h : n < 2 ^ 64) (he : Exact n)
    (hx : x.bits.toNat = natBits n + k * 2 ^ 63) : x.finite = true := by
  have hlog := log2_lt_64 h
  rw [finite, decide_eq_true_eq, expo, hx]
  by_cases hn : n = 0
  · subst hn
    rw [natBits, if_pos rfl]
    omega
  · obtain ⟨_, hhi, _⟩ := significand_of_exact hn he
    rw [natBits, if_neg hn]
    omega

/-- An unsigned integer of at most 53 significant bits survives the way through binary64. -/
theorem toUInt64_ofNat (out : Float64 → UInt64) (n : UInt64) (he : Exact n.toNat) :
    toUInt64 out (ofNat n.toNat) = n := by
  have hn : n.toNat < 2 ^ 64 := n.toNat_lt
  have hb := natBits_lt hn he
  have hx : (ofNat n.toNat).bits.toNat = natBits n.toNat + 0 * 2 ^ 63 := by
    simp only [ofNat, UInt64.toNat_ofNat']
    omega
  have hmag := truncNat_of_bits _ hn he hx
  have hpos : (ofNat n.toNat).negative = false := by
    rw [negative, decide_eq_false_iff_not, hx]
    omega
  have htrunc : (ofNat n.toNat).trunc = n.toNat := by
    rw [trunc, hpos, hmag]
    rfl
  rw [toUInt64, htrunc, if_pos ⟨finite_of_bits _ hn he hx, by omega, by omega⟩,
    Int.toNat_natCast, UInt64.ofNat_toNat]

/-- Every 32-bit integer survives the way through binary64. -/
theorem toInt32_ofInt (out : Float64 → Int32) (z : Int32) :
    toInt32 out (ofInt z.toInt) = z := by
  have hlo : -2 ^ 31 ≤ z.toInt := z.le_toInt
  have hhi : z.toInt < 2 ^ 31 := z.toInt_lt
  have hn : z.toInt.natAbs < 2 ^ 64 := by omega
  have he : Exact z.toInt.natAbs := exact_of_lt (by omega)
  have hb := natBits_lt hn he
  have hbits : (ofInt z.toInt).bits.toNat =
      natBits z.toInt.natAbs + (if z.toInt < 0 then 1 else 0) * 2 ^ 63 := by
    simp only [ofInt, UInt64.toNat_ofNat']
    split <;> omega
  have hmag := truncNat_of_bits _ hn he hbits
  have htrunc : (ofInt z.toInt).trunc = z.toInt := by
    rw [trunc, hmag, negative, hbits]
    by_cases hneg : z.toInt < 0
    · rw [if_pos (by rw [decide_eq_true_eq, if_pos hneg]; omega)]
      omega
    · rw [if_neg (by rw [decide_eq_true_eq, if_neg hneg]; omega)]
      omega
  rw [toInt32, htrunc, if_pos ⟨finite_of_bits _ hn he hbits, hlo, hhi⟩, Int32.ofInt_toInt]

/-! ## Numbers that are integers -/

/-- The distance of the smallest numbers is `2 ^ -1074`. -/
def scale : Nat := 1074

/-- The magnitude of a finite number, times `2 ^ 1074`. -/
def units (x : Float64) : Nat :=
  if x.expo = 0 then x.frac else (2 ^ 52 + x.frac) * 2 ^ (x.expo - 1)

/-- The number is this integer. -/
def Represents (x : Float64) (z : Int) : Prop :=
  x.finite = true ∧ (if x.negative then -(x.units : Int) else x.units) = z * 2 ^ scale

instance (x : Float64) (z : Int) : Decidable (Represents x z) :=
  inferInstanceAs (Decidable (_ ∧ _))

theorem truncNat_of_units (h : x.units = n * 2 ^ scale) :
    x.truncNat = n := by
  have hfrac : x.frac < 2 ^ 52 := Nat.mod_lt _ (by decide)
  unfold units at h
  unfold truncNat
  by_cases hsmall : x.expo < 1023
  · -- below one unit of the integers
    have hlt : x.units < 1 * 2 ^ scale := by
      unfold units
      split
      · rw [Nat.one_mul]
        exact hfrac.trans (Nat.pow_lt_pow_right (by decide) (by decide))
      · calc (2 ^ 52 + x.frac) * 2 ^ (x.expo - 1)
            < 2 ^ 53 * 2 ^ (x.expo - 1) :=
              Nat.mul_lt_mul_of_pos_right (by omega) (Nat.two_pow_pos _)
          _ = 2 ^ (53 + (x.expo - 1)) := (Nat.pow_add ..).symm
          _ ≤ 2 ^ scale := Nat.pow_le_pow_right (by decide) (by rw [scale]; omega)
          _ = 1 * 2 ^ scale := (Nat.one_mul _).symm
    rw [units, h] at hlt
    have hn : n < 1 := Nat.lt_of_mul_lt_mul_right hlt
    rw [if_pos hsmall]
    omega
  · rw [if_neg (by omega)] at h
    rw [if_neg hsmall]
    split
    · have hsplit : (2 : Nat) ^ scale = 2 ^ (1075 - x.expo) * 2 ^ (x.expo - 1) := by
        rw [← Nat.pow_add, scale]
        congr 1
        omega
      rw [hsplit, ← Nat.mul_assoc] at h
      rw [Nat.eq_of_mul_eq_mul_right (Nat.two_pow_pos _) h]
      exact Nat.mul_div_cancel _ (Nat.two_pow_pos _)
    · have hsplit : (2 : Nat) ^ (x.expo - 1) = 2 ^ (x.expo - 1075) * 2 ^ scale := by
        rw [← Nat.pow_add, scale]
        congr 1
        omega
      rw [hsplit, ← Nat.mul_assoc] at h
      exact Nat.eq_of_mul_eq_mul_right (Nat.two_pow_pos _) h

/-- An integer is not changed by cutting. -/
theorem Represents.trunc {z : Int} (h : Represents x z) : x.trunc = z := by
  have hpos : (0 : Int) < 2 ^ scale := Int.pow_pos (by decide)
  have hunits : x.units = z.natAbs * 2 ^ scale := by
    have habs := congrArg Int.natAbs h.2
    have hunit : Int.natAbs (2 ^ scale) = 2 ^ scale := by simp [Int.natAbs_pow]
    rw [Int.natAbs_mul, hunit] at habs
    rw [← habs]
    split <;> omega
  rw [Float64.trunc, truncNat_of_units hunits]
  have hsign := h.2
  split
  · next hneg =>
    rw [if_pos hneg] at hsign
    have hle : z ≤ 0 := by
      by_contra hlt
      have hmul : 0 < z * 2 ^ scale := Int.mul_pos (by omega) hpos
      omega
    omega
  · next hneg =>
    rw [if_neg hneg] at hsign
    have hle : 0 ≤ z := by
      by_contra hlt
      have hmul : z * 2 ^ scale < 0 := Int.mul_neg_of_neg_of_pos (by omega) hpos
      omega
    omega

/-- An integer that fits is converted to itself. -/
theorem Represents.toUInt64 {n : UInt64} (h : Represents x n.toNat) (out : Float64 → UInt64) :
    x.toUInt64 out = n := by
  have hn := n.toNat_lt
  rw [Float64.toUInt64, h.trunc, if_pos ⟨h.1, by omega, by omega⟩, Int.toNat_natCast,
    UInt64.ofNat_toNat]

theorem Represents.toInt32 {z : Int32} (h : Represents x z.toInt) (out : Float64 → Int32) :
    x.toInt32 out = z := by
  rw [Float64.toInt32, h.trunc, if_pos ⟨h.1, z.le_toInt, z.toInt_lt⟩, Int32.ofInt_toInt]

end Float64

end Loggregator.Lib
