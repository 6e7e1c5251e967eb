import Loggregator.Lib.Url
import Loggregator.Plumbing.ToV1

/-!
# The text of a UUID

`uuidToString` of `tov2.go` writes the sixteen bytes of a UUID as five groups of digits, and
`parseUUID` and `convertUUID` of `tov1.go` read them back. `parseUUID` checks the length and the
digits. The four bytes between the groups it skips, so that it takes more texts than those with
dashes there.
-/

namespace Loggregator.Conversion

open Lib

/-! ## The groups -/

/-- The positions of the dashes. -/
def dashPositions : List Nat := [8, 13, 18, 23]

/-- 36 bytes that are digits except at the positions of the dashes. -/
def HexElsewhere (s : GoString) : Prop :=
  s.length = 36 ∧ ∀ i c, s[i]? = some c → i ∉ dashPositions → (unhex c).isSome

def Dashed (s : GoString) : Prop := ∀ i ∈ dashPositions, s[i]? = some 45

/-- The text of a UUID, with digits of either case. -/
def UuidText (s : GoString) : Prop := HexElsewhere s ∧ Dashed s

/-- The text without what stands between the groups. -/
def uuidDigits (s : GoString) : GoString :=
  s.take 8 ++ (s.drop 9).take 4 ++ (s.drop 14).take 4 ++ (s.drop 19).take 4 ++ s.drop 24

theorem parseUUID_eq (s : GoString) :
    parseUUID s = if s.length = 36 then hexDecode (uuidDigits s) else none := by
  simp only [parseUUID, ne_eq, ite_not, uuidDigits]

variable {s : GoString} {c : UInt8} {bs : List UInt8}

theorem uuidDigits_length (h : s.length = 36) : (uuidDigits s).length = 32 := by
  simp only [uuidDigits, List.length_append, List.length_take, List.length_drop, h]
  rfl

theorem mem_take_drop {m n : Nat} :
    c ∈ (s.drop m).take n ↔ ∃ i, m ≤ i ∧ i < m + n ∧ s[i]? = some c := by
  rw [List.mem_iff_getElem?]
  constructor
  · rintro ⟨i, hi⟩
    rw [List.getElem?_take] at hi
    split at hi
    · rw [List.getElem?_drop] at hi
      exact ⟨m + i, by omega, by omega, hi⟩
    · cases hi
  · rintro ⟨i, hm, hn, hi⟩
    refine ⟨i - m, ?_⟩
    rw [List.getElem?_take_of_lt (by omega), List.getElem?_drop, Nat.add_sub_cancel' hm, hi]

/-- The digits are the bytes at the other positions. -/
theorem mem_uuidDigits (h : s.length = 36) :
    c ∈ uuidDigits s ↔ ∃ i, i ∉ dashPositions ∧ s[i]? = some c := by
  have hfirst : s.take 8 = (s.drop 0).take 8 := rfl
  have hlast : s.drop 24 = (s.drop 24).take 12 := by
    rw [List.take_of_length_le (by rw [List.length_drop, h])]
  rw [uuidDigits, hfirst, hlast]
  simp only [List.mem_append, mem_take_drop, dashPositions, List.mem_cons, List.not_mem_nil,
    or_false, not_or]
  constructor
  · rintro ((((⟨i, h₁, h₂, hi⟩ | ⟨i, h₁, h₂, hi⟩) | ⟨i, h₁, h₂, hi⟩) | ⟨i, h₁, h₂, hi⟩) |
      ⟨i, h₁, h₂, hi⟩) <;> exact ⟨i, by omega, hi⟩
  · rintro ⟨i, hne, hi⟩
    have hlt := (List.getElem?_eq_some_iff.mp hi).1
    have hrange : (0 ≤ i ∧ i < 0 + 8) ∨ (9 ≤ i ∧ i < 9 + 4) ∨ (14 ≤ i ∧ i < 14 + 4) ∨
        (19 ≤ i ∧ i < 19 + 4) ∨ (24 ≤ i ∧ i < 24 + 12) := by omega
    rcases hrange with ⟨h₁, h₂⟩ | ⟨h₁, h₂⟩ | ⟨h₁, h₂⟩ | ⟨h₁, h₂⟩ | ⟨h₁, h₂⟩
    · exact .inl (.inl (.inl (.inl ⟨i, h₁, h₂, hi⟩)))
    · exact .inl (.inl (.inl (.inr ⟨i, h₁, h₂, hi⟩)))
    · exact .inl (.inl (.inr ⟨i, h₁, h₂, hi⟩))
    · exact .inl (.inr ⟨i, h₁, h₂, hi⟩)
    · exact .inr ⟨i, h₁, h₂, hi⟩

theorem hexElsewhere_iff (h : s.length = 36) :
    HexElsewhere s ↔ ∀ c ∈ uuidDigits s, (unhex c).isSome := by
  simp only [HexElsewhere, h, true_and, mem_uuidDigits h]
  constructor
  · rintro hhex c ⟨i, hi, hc⟩
    exact hhex i c hc hi
  · intro hhex i c hc hi
    exact hhex c ⟨i, hi, hc⟩

/-- What `parseUUID` accepts. -/
theorem parseUUID_isSome_iff (s : GoString) : (parseUUID s).isSome ↔ HexElsewhere s := by
  rw [parseUUID_eq]
  by_cases h : s.length = 36
  · rw [if_pos h, hexDecode_isSome_iff, hexElsewhere_iff h, uuidDigits_length h]
    simp
  · simp [h, HexElsewhere]

theorem length_of_parseUUID (h : parseUUID s = some bs) :
    bs.length = 16 := by
  rw [parseUUID_eq] at h
  split at h
  · next hlen =>
    have hdigits := length_of_hexDecode h
    rw [uuidDigits_length hlen] at hdigits
    omega
  · cases h

/-! ## Words, bytes and text -/

/-- The text of 32 digits. -/
def withDashes (d : GoString) : GoString :=
  d.take 8 ++ str "-" ++ (d.drop 8).take 4 ++ str "-" ++ (d.drop 12).take 4 ++ str "-" ++
    (d.drop 16).take 4 ++ str "-" ++ d.drop 20

theorem str_dash : str "-" = [45] := by decide

/-- The digits of five groups, whatever stands between them. -/
theorem uuidDigits_groups {a b c d e : GoString} (ha : a.length = 8) (hb : b.length = 4)
    (hc : c.length = 4) (hd : d.length = 4) (w x y z : UInt8) :
    uuidDigits (a ++ [w] ++ b ++ [x] ++ c ++ [y] ++ d ++ [z] ++ e) = a ++ b ++ c ++ d ++ e := by
  simp [uuidDigits, List.drop_append, ha, hb, hc, hd, List.drop_of_length_le]

theorem withDashes_groups {a b c d e : GoString} (ha : a.length = 8) (hb : b.length = 4)
    (hc : c.length = 4) (hd : d.length = 4) :
    withDashes (a ++ b ++ c ++ d ++ e) =
      a ++ str "-" ++ b ++ str "-" ++ c ++ str "-" ++ d ++ str "-" ++ e := by
  simp [withDashes, List.drop_append, ha, hb, hc, hd, List.drop_of_length_le]

theorem append_groups (d : GoString) :
    d.take 8 ++ (d.drop 8).take 4 ++ (d.drop 12).take 4 ++ (d.drop 16).take 4 ++ d.drop 20 = d := by
  have h₁ : d.drop 12 = (d.drop 8).drop 4 := by rw [List.drop_drop]
  have h₂ : d.drop 16 = (d.drop 12).drop 4 := by rw [List.drop_drop]
  have h₃ : d.drop 20 = (d.drop 16).drop 4 := by rw [List.drop_drop]
  rw [h₃, List.append_assoc, List.take_append_drop, h₂, List.append_assoc, List.take_append_drop,
    h₁, List.append_assoc, List.take_append_drop, List.take_append_drop]

theorem withDashes_length {d : GoString} (h : d.length = 32) : (withDashes d).length = 36 := by
  simp [withDashes, str_dash, h]

theorem uuidDigits_withDashes {d : GoString} (h : d.length = 32) :
    uuidDigits (withDashes d) = d := by
  have hfirst : (d.take 8).length = 8 := by simp [h]
  have hmid : ∀ i, i ≤ 16 → ((d.drop i).take 4).length = 4 := by
    intro i hi
    rw [List.length_take, List.length_drop]
    omega
  rw [withDashes, str_dash, uuidDigits_groups hfirst (hmid 8 (by omega)) (hmid 12 (by omega))
    (hmid 16 (by omega)), append_groups]

theorem uuidToString_eq (u : Option Events.UUID) :
    uuidToString u =
      withDashes (hexEncode (putUint64 (getUUID u).low ++ putUint64 (getUUID u).high)) := by
  have hlow := putUint64_length (getUUID u).low
  have hhigh := putUint64_length (getUUID u).high
  unfold uuidToString
  simp only
  generalize putUint64 (getUUID u).low = low at hlow ⊢
  generalize putUint64 (getUUID u).high = high at hhigh ⊢
  have h₁ : low.take 4 = (low ++ high).take 4 := by simp [List.take_append, hlow]
  have h₂ : (low.drop 4).take 2 = ((low ++ high).drop 4).take 2 := by
    simp [List.drop_append, List.take_append, hlow]
  have h₃ : low.drop 6 = ((low ++ high).drop 6).take 2 := by simp [List.drop_append, hlow]
  have h₄ : high.take 2 = ((low ++ high).drop 8).take 2 := by simp [hlow]
  have h₅ : high.drop 2 = (low ++ high).drop 10 := by simp [List.drop_append, hlow]
  rw [h₁, h₂, h₃, h₄, h₅]
  simp only [hexEncode_take, hexEncode_drop]
  rfl

/-- Bytes that are decoded are read back from their text. -/
theorem parseUUID_withDashes (h : bs.length = 16) :
    parseUUID (withDashes (hexEncode bs)) = some bs := by
  have hlen : (hexEncode bs).length = 32 := by rw [hexEncode_length, h]
  rw [parseUUID_eq, if_pos (withDashes_length hlen), uuidDigits_withDashes hlen,
    hexDecode_hexEncode]

theorem convertUUID_uuidToString (u : Option Events.UUID) :
    convertUUID (parseUUID (uuidToString u)) = getUUID u := by
  have hlow := putUint64_length (getUUID u).low
  have hhigh := putUint64_length (getUUID u).high
  rw [uuidToString_eq, parseUUID_withDashes (by rw [List.length_append, hlow, hhigh]), convertUUID]
  simp only [List.length_append, hlow, hhigh, ne_eq, not_true_eq_false, if_false,
    List.take_left' hlow, List.drop_left' hlow, uint64LE_putUint64]

/-! ## Texts and lower case -/

theorem uuidToString_convertUUID (h : bs.length = 16) :
    uuidToString (some (convertUUID (some bs))) = withDashes (hexEncode bs) := by
  have hlow : putUint64 (uint64LE (bs.take 8)) = bs.take 8 :=
    putUint64_uint64LE (by rw [List.length_take, h]; rfl)
  have hhigh : putUint64 (uint64LE (bs.drop 8)) = bs.drop 8 :=
    putUint64_uint64LE (by rw [List.length_drop, h])
  rw [uuidToString_eq, getUUID, Option.getD_some, convertUUID]
  simp only [h, ne_eq, not_true_eq_false, if_false, hlow, hhigh, List.take_append_drop]

theorem isUpper_iff (c : UInt8) : Url.isUpper c = true ↔ 65 ≤ c.toNat ∧ c.toNat ≤ 90 := by
  simp [Url.isUpper, UInt8.le_iff_toNat_le]

/-- A digit is written in lower case. -/
theorem hexDigit_of_unhex {n : Nat} (h : unhex c = some n) :
    hexDigit n = if Url.isUpper c then c + 32 else c := by
  simp only [unhex] at h
  split at h
  · cases h
    rw [hexDigit, if_pos (by omega), if_neg (by rw [isUpper_iff]; omega),
      show 48 + (c.toNat - 48) = c.toNat by omega, UInt8.ofNat_toNat]
  · split at h
    · cases h
      rw [hexDigit, if_neg (by omega), if_neg (by rw [isUpper_iff]; omega),
        show 87 + (c.toNat - 87) = c.toNat by omega, UInt8.ofNat_toNat]
    · split at h
      · cases h
        rw [hexDigit, if_neg (by omega), if_pos (by rw [isUpper_iff]; omega),
          show 87 + (c.toNat - 55) = c.toNat + 32 by omega, UInt8.ofNat_add, UInt8.ofNat_toNat]
        rfl
      · cases h

theorem unhex_lt {n : Nat} (h : unhex c = some n) : n < 16 := by
  simp only [unhex] at h
  split at h
  · cases h
    omega
  · split at h
    · cases h
      omega
    · split at h
      · cases h
        omega
      · cases h

theorem hexEncode_of_hexDecode (h : hexDecode s = some bs) :
    hexEncode bs = Url.toLower s := by
  induction s using List.twoStepInduction generalizing bs with
  | nil =>
    cases h
    rfl
  | singleton => cases h
  | cons_cons a b rest ih _ =>
    obtain ⟨x, y, bs', hx, hy, hrest, rfl⟩ := hexDecode_cons_cons.mp h
    have hx' := unhex_lt hx
    have hy' := unhex_lt hy
    have hbyte : (UInt8.ofNat (16 * x + y)).toNat = 16 * x + y := by
      rw [UInt8.toNat_ofNat']
      omega
    show hexDigit _ :: hexDigit _ :: hexEncode bs' = _ :: _ :: Url.toLower rest
    rw [hbyte, ih hrest, show (16 * x + y) / 16 = x by omega,
      show (16 * x + y) % 16 = y by omega, hexDigit_of_unhex hx, hexDigit_of_unhex hy]

theorem toLower_withDashes (d : GoString) :
    Url.toLower (withDashes d) = withDashes (Url.toLower d) := by
  have hdash : str "-" = (str "-").map (fun c => if Url.isUpper c then c + 32 else c) := by decide
  simp only [Url.toLower, withDashes, List.map_append, List.map_take, List.map_drop, ← hdash]

theorem drop_of_dashed (h : Dashed s) {i : Nat} (hi : i ∈ dashPositions) :
    s.drop i = str "-" ++ s.drop (i + 1) := by
  obtain ⟨hlt, hdash⟩ := List.getElem?_eq_some_iff.mp (h i hi)
  rw [List.drop_eq_getElem_cons hlt, hdash, str_dash, List.singleton_append]

/-- A text with its dashes, from its digits. -/
theorem withDashes_uuidDigits (hlen : s.length = 36) (h : Dashed s) :
    withDashes (uuidDigits s) = s := by
  have hmid : ∀ i, i ≤ 32 → ((s.drop i).take 4).length = 4 := by
    intro i hi
    rw [List.length_take, List.length_drop]
    omega
  have hgroup : ∀ i ∈ dashPositions, ∀ n, s.drop i =
      str "-" ++ (s.drop (i + 1)).take n ++ s.drop (i + 1 + n) := by
    intro i hi n
    have hrest : s.drop (i + 1 + n) = (s.drop (i + 1)).drop n := by rw [List.drop_drop]
    rw [drop_of_dashed h hi, hrest, List.append_assoc, List.take_append_drop]
  rw [uuidDigits, withDashes_groups (by simp [hlen]) (hmid 9 (by omega)) (hmid 14 (by omega))
    (hmid 19 (by omega))]
  conv_rhs =>
    rw [← List.take_append_drop 8 s, hgroup 8 (by decide) 4, hgroup 13 (by decide) 4,
      hgroup 18 (by decide) 4, drop_of_dashed h (i := 23) (by decide)]
  simp only [List.append_assoc]

/-- What is written for a text that is accepted: its digits in lower case, with dashes. -/
theorem uuidToString_parseUUID (h : HexElsewhere s) :
    uuidToString (some (convertUUID (parseUUID s))) =
      Url.toLower (withDashes (uuidDigits s)) := by
  obtain ⟨bs, hbs⟩ := Option.isSome_iff_exists.mp ((parseUUID_isSome_iff s).mpr h)
  have hdecode : hexDecode (uuidDigits s) = some bs := by
    rw [parseUUID_eq, if_pos h.1] at hbs
    exact hbs
  rw [hbs, uuidToString_convertUUID (length_of_parseUUID hbs), hexEncode_of_hexDecode hdecode,
    toLower_withDashes]

/-! ## The law -/

/-- Exactly the texts of UUIDs are parsed, to 16 bytes of which the text is the one parsed in
lower case, and for others the result is nil. -/
structure UuidLaw (s : GoString) : Prop where
  parsed : (∃ bs, parseUUID s = some bs ∧ bs.length = 16) ↔ UuidText s
  text : UuidText s → uuidToString (some (convertUUID (parseUUID s))) = Url.toLower s
  other : ¬ UuidText s → parseUUID s = none

/-- Every pair of words is read back from its text. For a string the law holds exactly if it is
not one of 36 bytes with digits at the 32 positions and other bytes than dashes between the
groups. -/
theorem uuid_text_law (s : GoString) :
    (∀ low high : UInt64,
      convertUUID (parseUUID (uuidToString (some ⟨low, high⟩))) = ⟨low, high⟩) ∧
    (UuidLaw s ↔ (HexElsewhere s → Dashed s)) := by
  refine ⟨fun low high => convertUUID_uuidToString _, ?_, ?_⟩
  · intro hlaw hhex
    obtain ⟨bs, hbs⟩ := Option.isSome_iff_exists.mp ((parseUUID_isSome_iff s).mpr hhex)
    exact (hlaw.parsed.mp ⟨bs, hbs, length_of_parseUUID hbs⟩).2
  · intro hdashed
    have hsome : (parseUUID s).isSome ↔ UuidText s := by
      rw [parseUUID_isSome_iff]
      exact ⟨fun hhex => ⟨hhex, hdashed hhex⟩, And.left⟩
    refine ⟨?_, ?_, ?_⟩
    · rw [← hsome, Option.isSome_iff_exists]
      constructor
      · rintro ⟨bs, hbs, -⟩
        exact ⟨bs, hbs⟩
      · rintro ⟨bs, hbs⟩
        exact ⟨bs, hbs, length_of_parseUUID hbs⟩
    · rintro ⟨hhex, hdash⟩
      rw [uuidToString_parseUUID hhex, withDashes_uuidDigits hhex.1 hdash]
    · intro htext
      rw [← Option.not_isSome_iff_eq_none, hsome]
      exact htext

/-- A text with an `x` for its first dash is parsed, and its own text is another one. -/
theorem uuid_text_without_dash :
    ∃ s bs, s = str "b3015d69x09cd-476d-aace-ad2d824d5ab7" ∧ ¬ UuidText s ∧
      parseUUID s = some bs ∧ bs.length = 16 ∧
      uuidToString (some (convertUUID (parseUUID s))) =
        str "b3015d69-09cd-476d-aace-ad2d824d5ab7" ∧ ¬ UuidLaw s := by
  have hparse : parseUUID (str "b3015d69x09cd-476d-aace-ad2d824d5ab7") =
      some [0xb3, 0x01, 0x5d, 0x69, 0x09, 0xcd, 0x47, 0x6d, 0xaa, 0xce, 0xad, 0x2d, 0x82, 0x4d,
        0x5a, 0xb7] := by decide
  have hbad : ¬ UuidText (str "b3015d69x09cd-476d-aace-ad2d824d5ab7") := by
    intro htext
    exact absurd (htext.2 8 (by decide)) (by decide)
  refine ⟨_, _, rfl, hbad, hparse, rfl, ?_, ?_⟩
  · rw [hparse]
    decide +kernel
  · intro hlaw
    exact hbad (hlaw.parsed.mp ⟨_, hparse, rfl⟩)

end Loggregator.Conversion
