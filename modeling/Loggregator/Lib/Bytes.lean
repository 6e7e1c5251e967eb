import Mathlib.Data.List.Induction
import Mathlib.Data.Nat.Digits.Defs
import Mathlib.Data.Nat.Digits.Lemmas
import Mathlib.Tactic.IntervalCases

/-!
# Byte strings and their text encodings

A string of the modelled language is a sequence of bytes, with no promise that it is valid
UTF-8. The text encodings the programs use are here with their round trips: decimal
integers, lower-case hexadecimal, 64-bit words as little-endian bytes.
-/

namespace Loggregator.Lib

universe u

/-- A string: any sequence of bytes. -/
abbrev GoString := List UInt8

instance : LawfulBEq GoString := inferInstanceAs (LawfulBEq (List UInt8))

/-- The bytes of a string literal. -/
def str (s : String) : GoString := s.toByteArray.data.toList

@[simp] theorem str_inj {a b : String} : str a = str b ↔ a = b := by
  constructor
  · intro h
    have hbytes : a.toByteArray = b.toByteArray := by
      cases ha : a.toByteArray
      cases hb : b.toByteArray
      simp only [str, ha, hb, Array.toList_inj] at h
      rw [h]
    exact String.toByteArray_inj.mp hbytes
  · rintro rfl
    rfl

/-! ## Prefixes -/

/-- `strings.HasPrefix`. -/
def hasPrefix (s p : GoString) : Bool := p.isPrefixOf s

/-- `strings.TrimPrefix`. -/
def trimPrefix (s p : GoString) : GoString := if hasPrefix s p then s.drop p.length else s

theorem hasPrefix_append (p s : GoString) : hasPrefix (p ++ s) p = true := by
  rw [hasPrefix, List.isPrefixOf_iff_prefix]
  exact List.prefix_append p s

@[simp] theorem trimPrefix_append (p s : GoString) : trimPrefix (p ++ s) p = s := by
  rw [trimPrefix, if_pos (hasPrefix_append p s), List.drop_left]

/-! ## Splitting -/

theorem notMem_of_mem_splitOnP {α : Type u} (p : α → Bool) (xs : List α) :
    ∀ l ∈ xs.splitOnP p, ∀ y ∈ l, p y = false := by
  induction xs with
  | nil => simp
  | cons x xs ih =>
    intro l hl y hy
    rw [List.splitOnP_cons_eq_if_modifyHead] at hl
    split at hl
    · rcases List.mem_cons.mp hl with rfl | hl
      · cases hy
      · exact ih l hl y hy
    · next hx =>
      cases hs : xs.splitOnP p with
      | nil => simp [hs] at hl
      | cons a as =>
        rw [hs, List.modifyHead_cons] at hl
        rw [hs] at ih
        rcases List.mem_cons.mp hl with rfl | hl
        · rcases List.mem_cons.mp hy with rfl | hy
          · simpa using hx
          · exact ih a (by simp) y hy
        · exact ih l (by simp [hl]) y hy

variable {s : GoString} {bs : List UInt8}

/-- The parts of a text between separators have none, and joined they give the text. -/
theorem splitOn_eq_iff {c : UInt8} {parts : List GoString} :
    s.splitOn c = parts ↔
      parts ≠ [] ∧ (∀ e ∈ parts, c ∉ e) ∧ [c].intercalate parts = s := by
  constructor
  · rintro rfl
    refine ⟨List.splitOn_ne_nil _ _, ?_, List.intercalate_splitOn _⟩
    intro e he hmem
    rw [List.splitOn_eq_splitOnP] at he
    have hfree := notMem_of_mem_splitOnP _ _ e he c hmem
    simp at hfree
  · rintro ⟨hne, hfree, rfl⟩
    exact List.splitOn_intercalate c hfree hne

theorem length_splitOn (c : UInt8) (s : GoString) : (s.splitOn c).length = s.count c + 1 := by
  rw [List.splitOn_eq_splitOnP]
  induction s with
  | nil => rfl
  | cons b s ih =>
    rw [List.splitOnP_cons_eq_if_modifyHead, List.count_cons]
    split
    · rw [List.length_cons, ih]
    · rw [List.length_modifyHead, ih, Nat.add_zero]

/-! ## Decimal integers -/

/-- The digit of value `d`, for `d < 10`. -/
def decDigit (d : Nat) : UInt8 := UInt8.ofNat (48 + d)

/-- The value of a decimal digit. -/
def decVal (c : UInt8) : Option Nat :=
  if 48 ≤ c.toNat ∧ c.toNat ≤ 57 then some (c.toNat - 48) else none

/-- `strconv.FormatUint(n, 10)`. -/
def formatNat (n : Nat) : GoString :=
  if n = 0 then [decDigit 0] else (Nat.digits 10 n).reverse.map decDigit

/-- `strconv.FormatInt(z, 10)`, also the text of `%d` and of `%v` for an integer. -/
def formatInt (z : Int) : GoString :=
  if z < 0 then str "-" ++ formatNat z.natAbs else formatNat z.natAbs

/-- One digit of the loop of `strconv.ParseUint(s, 10, 64)`. -/
def parseDigit (acc : Option Nat) (c : UInt8) : Option Nat :=
  match acc, decVal c with
  | some n, some d => some (10 * n + d)
  | _, _ => none

/-- The unsigned part of `strconv.ParseInt`: at least one digit and nothing else. -/
def parseNat (s : GoString) : Option Nat :=
  if s = [] then none else s.foldl parseDigit (some 0)

/-- `strconv.ParseInt(s, 10, 64)`, with `none` for a syntax or a range error. -/
def parseInt (s : GoString) : Option Int64 :=
  match s with
  | [] => none
  | c :: rest =>
    if c = 45 then
      match parseNat rest with
      | some n => if n ≤ 2 ^ 63 then some (Int64.ofInt (-(n : Int))) else none
      | none => none
    else
      match parseNat (if c = 43 then rest else s) with
      | some n => if n < 2 ^ 63 then some (Int64.ofInt n) else none
      | none => none

theorem decVal_decDigit {d : Nat} (h : d < 10) : decVal (decDigit d) = some d := by
  interval_cases d <;> decide

theorem decDigit_ne_sign {d : Nat} (h : d < 10) : decDigit d ≠ 45 ∧ decDigit d ≠ 43 := by
  interval_cases d <;> decide

private theorem foldl_parseDigit (ds : List Nat) (h : ∀ d ∈ ds, d < 10) :
    (ds.reverse.map decDigit).foldl parseDigit (some 0) = some (Nat.ofDigits 10 ds) := by
  induction ds with
  | nil => rfl
  | cons d ds ih =>
    have hd : decVal (decDigit d) = some d := decVal_decDigit (h d (by simp))
    rw [List.reverse_cons, List.map_append, List.foldl_append,
      ih (fun x hx => h x (List.mem_cons_of_mem _ hx))]
    simp only [List.map_cons, List.map_nil, List.foldl_cons, List.foldl_nil, parseDigit, hd,
      Nat.ofDigits_cons]
    congr 1
    exact Nat.add_comm _ _

theorem formatNat_ne_nil (n : Nat) : formatNat n ≠ [] := by
  unfold formatNat
  split
  · simp
  · rename_i h
    simpa [Nat.digits_eq_nil_iff_eq_zero] using h

theorem parseNat_formatNat (n : Nat) : parseNat (formatNat n) = some n := by
  rw [parseNat, if_neg (formatNat_ne_nil n)]
  unfold formatNat
  split
  · rename_i h
    subst h
    decide
  · rw [foldl_parseDigit _ (fun d hd => Nat.digits_lt_base (by decide) hd), Nat.ofDigits_digits]

theorem mem_formatNat {n : Nat} {c : UInt8} (h : c ∈ formatNat n) : ∃ d < 10, c = decDigit d := by
  unfold formatNat at h
  split at h
  · exact ⟨0, by decide, List.mem_singleton.mp h⟩
  · obtain ⟨d, hd, rfl⟩ := List.mem_map.mp h
    exact ⟨d, Nat.digits_lt_base (by decide) (List.mem_reverse.mp hd), rfl⟩

/-- A formatted natural number starts with a digit, never with a sign. -/
theorem formatNat_head {n : Nat} {c : UInt8} {rest : GoString} (h : formatNat n = c :: rest) :
    c ≠ 45 ∧ c ≠ 43 := by
  have hmem : c ∈ formatNat n := by rw [h]; exact List.mem_cons_self
  obtain ⟨d, hd, rfl⟩ := mem_formatNat hmem
  exact decDigit_ne_sign hd

/-- Every 64-bit integer is read back from its decimal text. -/
theorem parseInt_formatInt (z : Int) (hlo : -2 ^ 63 ≤ z) (hhi : z < 2 ^ 63) :
    parseInt (formatInt z) = some (Int64.ofInt z) := by
  unfold formatInt
  split
  · rename_i hneg
    have habs : z.natAbs ≤ 2 ^ 63 := by omega
    have hz : -(z.natAbs : Int) = z := by omega
    show parseInt (45 :: formatNat z.natAbs) = _
    simp only [parseInt, if_pos, parseNat_formatNat, habs, hz]
  · rename_i hneg
    have habs : z.natAbs < 2 ^ 63 := by omega
    have hz : (z.natAbs : Int) = z := by omega
    cases hf : formatNat z.natAbs with
    | nil => exact absurd hf (formatNat_ne_nil _)
    | cons c rest =>
      obtain ⟨hminus, hplus⟩ := formatNat_head hf
      have hparse : parseNat (c :: rest) = some z.natAbs := by rw [← hf, parseNat_formatNat]
      simp only [parseInt, if_neg hminus, if_neg hplus, hparse, habs, if_pos, hz]

/-! ## Hexadecimal -/

/-- A digit of `%x`. -/
def hexDigit (n : Nat) : UInt8 := UInt8.ofNat (if n < 10 then 48 + n else 87 + n)

/-- The value of a hexadecimal digit of either case. -/
def unhex (c : UInt8) : Option Nat :=
  let n := c.toNat
  if 48 ≤ n ∧ n ≤ 57 then some (n - 48)
  else if 97 ≤ n ∧ n ≤ 102 then some (n - 87)
  else if 65 ≤ n ∧ n ≤ 70 then some (n - 55)
  else none

/-- `fmt.Sprintf("%x", bs)`. -/
def hexEncode (bs : List UInt8) : GoString :=
  bs.flatMap (fun b => [hexDigit (b.toNat / 16), hexDigit (b.toNat % 16)])

/-- `hex.DecodeString`, with `none` for its errors. -/
def hexDecode : GoString → Option (List UInt8)
  | [] => some []
  | [_] => none
  | a :: b :: rest =>
    match unhex a, unhex b, hexDecode rest with
    | some x, some y, some bs => some (UInt8.ofNat (16 * x + y) :: bs)
    | _, _, _ => none

theorem unhex_hexDigit {n : Nat} (h : n < 16) : unhex (hexDigit n) = some n := by
  interval_cases n <;> decide

theorem hexDecode_hexEncode (bs : List UInt8) : hexDecode (hexEncode bs) = some bs := by
  induction bs with
  | nil => rfl
  | cons b bs ih =>
    have hb : b.toNat < 256 := b.toNat_lt
    have hhi := unhex_hexDigit (n := b.toNat / 16) (by omega)
    have hlo := unhex_hexDigit (n := b.toNat % 16) (by omega)
    have hval : 16 * (b.toNat / 16) + b.toNat % 16 = b.toNat := by omega
    show hexDecode (_ :: _ :: hexEncode bs) = _
    simp only [hexDecode, hhi, hlo, ih, hval, UInt8.ofNat_toNat]

theorem hexEncode_inj {cs : List UInt8} (h : hexEncode bs = hexEncode cs) : bs = cs := by
  have hdecode := congrArg hexDecode h
  rw [hexDecode_hexEncode, hexDecode_hexEncode] at hdecode
  exact Option.some.inj hdecode

theorem hexEncode_length (bs : List UInt8) : (hexEncode bs).length = 2 * bs.length := by
  induction bs with
  | nil => rfl
  | cons b bs ih =>
    have hcons : hexEncode (b :: bs) =
        hexDigit (b.toNat / 16) :: hexDigit (b.toNat % 16) :: hexEncode bs := rfl
    rw [hcons, List.length_cons, List.length_cons, List.length_cons, ih]
    omega

theorem hexEncode_take (bs : List UInt8) (n : Nat) :
    hexEncode (bs.take n) = (hexEncode bs).take (2 * n) := by
  induction bs generalizing n with
  | nil => simp [hexEncode]
  | cons b bs ih =>
    cases n with
    | zero => rfl
    | succ n =>
      show _ :: _ :: hexEncode (bs.take n) = (_ :: _ :: hexEncode bs).take (2 * n + 2)
      rw [ih, List.take_succ_cons, List.take_succ_cons]

theorem hexEncode_drop (bs : List UInt8) (n : Nat) :
    hexEncode (bs.drop n) = (hexEncode bs).drop (2 * n) := by
  induction bs generalizing n with
  | nil => simp [hexEncode]
  | cons b bs ih =>
    cases n with
    | zero => rfl
    | succ n =>
      show hexEncode (bs.drop n) = (_ :: _ :: hexEncode bs).drop (2 * n + 2)
      rw [ih, List.drop_succ_cons, List.drop_succ_cons]

theorem hexDecode_cons_cons {a b : UInt8} {rest : GoString} :
    hexDecode (a :: b :: rest) = some bs ↔ ∃ x y bs', unhex a = some x ∧ unhex b = some y ∧
      hexDecode rest = some bs' ∧ bs = UInt8.ofNat (16 * x + y) :: bs' := by
  rw [hexDecode]
  constructor
  · intro h
    split at h
    · next x y bs' hx hy hrest =>
      cases h
      exact ⟨x, y, bs', hx, hy, hrest, rfl⟩
    · cases h
  · rintro ⟨x, y, bs', hx, hy, hrest, rfl⟩
    simp only [hx, hy, hrest]

/-- What is decoded has two digits for each byte. -/
theorem length_of_hexDecode (h : hexDecode s = some bs) :
    s.length = 2 * bs.length := by
  induction s using List.twoStepInduction generalizing bs with
  | nil =>
    cases h
    rfl
  | singleton => cases h
  | cons_cons a b rest ih _ =>
    obtain ⟨x, y, bs', -, -, hrest, rfl⟩ := hexDecode_cons_cons.mp h
    rw [List.length_cons, List.length_cons, List.length_cons, ih hrest]
    omega

/-- An even number of digits is decoded, and nothing else. -/
theorem hexDecode_isSome_iff (s : GoString) :
    (hexDecode s).isSome ↔ s.length % 2 = 0 ∧ ∀ c ∈ s, (unhex c).isSome := by
  induction s using List.twoStepInduction with
  | nil | singleton => simp [hexDecode]
  | cons_cons a b rest ih _ =>
    have hlen : (a :: b :: rest).length % 2 = 0 ↔ rest.length % 2 = 0 := by
      rw [List.length_cons, List.length_cons]
      omega
    have hsome : (hexDecode (a :: b :: rest)).isSome ↔
        (unhex a).isSome ∧ (unhex b).isSome ∧ (hexDecode rest).isSome := by
      simp only [Option.isSome_iff_exists, hexDecode_cons_cons]
      constructor
      · rintro ⟨bs, x, y, bs', hx, hy, hrest, -⟩
        exact ⟨⟨x, hx⟩, ⟨y, hy⟩, bs', hrest⟩
      · rintro ⟨⟨x, hx⟩, ⟨y, hy⟩, bs', hrest⟩
        exact ⟨_, x, y, bs', hx, hy, hrest, rfl⟩
    rw [hsome, hlen, List.forall_mem_cons, List.forall_mem_cons, ih]
    constructor
    · rintro ⟨ha, hb, heven, hrest⟩
      exact ⟨heven, ha, hb, hrest⟩
    · rintro ⟨heven, ha, hb, hrest⟩
      exact ⟨ha, hb, heven, hrest⟩

/-! ## The order of strings -/

/-- `s < t` for strings. -/
def less : GoString → GoString → Bool
  | _, [] => false
  | [], _ :: _ => true
  | a :: s, b :: t => decide (a < b) || (a == b && less s t)

theorem less_cons (a b : UInt8) (s t : GoString) :
    less (a :: s) (b :: t) = true ↔ a < b ∨ a = b ∧ less s t = true := by
  simp only [less, Bool.or_eq_true, decide_eq_true_eq, Bool.and_eq_true, beq_iff_eq]

theorem less_asymm {t : GoString} (h : less s t = true) : less t s = false := by
  induction s generalizing t with
  | nil => cases t <;> rfl
  | cons a s ih =>
    cases t with
    | nil => cases h
    | cons b t =>
      rw [Bool.eq_false_iff]
      intro h'
      rw [less_cons] at h h'
      rcases h with h | ⟨rfl, h⟩
      · rcases h' with h' | ⟨rfl, -⟩
        · exact absurd (UInt8.lt_trans h h') (UInt8.lt_irrefl a)
        · exact absurd h (UInt8.lt_irrefl _)
      · rcases h' with h' | ⟨-, h'⟩
        · exact absurd h' (UInt8.lt_irrefl _)
        · rw [ih h] at h'
          cases h'

theorem less_antisymm {t : GoString} (h : less s t = false) (h' : less t s = false) : s = t := by
  induction s generalizing t with
  | nil =>
    cases t with
    | nil => rfl
    | cons b t => cases h
  | cons a s ih =>
    cases t with
    | nil => cases h'
    | cons b t =>
      rw [Bool.eq_false_iff, Ne, less_cons, not_or, not_and] at h h'
      have hab : a = b := UInt8.le_antisymm (UInt8.not_lt.mp h'.1) (UInt8.not_lt.mp h.1)
      have hst : s = t :=
        ih (Bool.eq_false_iff.mpr (h.2 hab)) (Bool.eq_false_iff.mpr (h'.2 hab.symm))
      rw [hab, hst]

theorem less_trans {t u : GoString} (h : less s t = true) (h' : less t u = true) :
    less s u = true := by
  induction s generalizing t u with
  | nil =>
    cases u with
    | nil => cases t <;> cases h'
    | cons => rfl
  | cons a s ih =>
    cases t with
    | nil => cases h
    | cons b t =>
      cases u with
      | nil => cases h'
      | cons c u =>
        rw [less_cons] at h h' ⊢
        rcases h with h | ⟨rfl, h⟩
        · rcases h' with h' | ⟨rfl, -⟩
          · exact Or.inl (UInt8.lt_trans h h')
          · exact Or.inl h
        · rcases h' with h' | ⟨rfl, h'⟩
          · exact Or.inl h'
          · exact Or.inr ⟨rfl, ih h h'⟩

/-- The order of strings is total, so that `not less` is transitive. -/
theorem not_less_trans {t u : GoString} (h : less t s = false) (h' : less u t = false) :
    less u s = false := by
  rw [Bool.eq_false_iff]
  intro hus
  cases hst : less s t with
  | true =>
    rw [less_trans hus hst] at h'
    cases h'
  | false =>
    rw [less_antisymm hst h, h'] at hus
    cases hus

/-! ## Little-endian words -/

/-- `binary.LittleEndian.PutUint64`. -/
def putUint64 (x : UInt64) : List UInt8 :=
  (List.range 8).map (fun i => UInt8.ofNat (x.toNat / 256 ^ i))

/-- `binary.LittleEndian.Uint64`. -/
def uint64LE (bs : List UInt8) : UInt64 :=
  UInt64.ofNat (bs.foldr (fun b acc => b.toNat + 256 * acc) 0)

theorem uint64LE_putUint64 (x : UInt64) : uint64LE (putUint64 x) = x := by
  have hx : x.toNat < 2 ^ 64 := x.toNat_lt
  apply UInt64.toNat_inj.mp
  simp only [uint64LE, putUint64, List.range, List.range.loop, List.map_cons, List.map_nil,
    List.foldr_cons, List.foldr_nil, UInt8.toNat_ofNat', UInt64.toNat_ofNat']
  omega

theorem putUint64_length (x : UInt64) : (putUint64 x).length = 8 := rfl

/-- The little-endian value of bytes has them as its digits. -/
theorem foldr_div_mod {i : Nat} {b : UInt8} (h : bs[i]? = some b) :
    bs.foldr (fun b acc => b.toNat + 256 * acc) 0 / 256 ^ i % 256 = b.toNat := by
  induction bs generalizing i with
  | nil => cases h
  | cons c bs ih =>
    have hc := c.toNat_lt
    rw [List.foldr_cons]
    cases i with
    | zero =>
      cases h
      rw [Nat.pow_zero, Nat.div_one]
      omega
    | succ i =>
      rw [← ih h, Nat.pow_succ', ← Nat.div_div_eq_div_mul]
      congr 2
      omega

theorem foldr_lt (bs : List UInt8) :
    bs.foldr (fun b acc => b.toNat + 256 * acc) 0 < 256 ^ bs.length := by
  induction bs with
  | nil => decide
  | cons c bs ih =>
    have hc := c.toNat_lt
    rw [List.foldr_cons, List.length_cons, Nat.pow_succ']
    omega

theorem putUint64_uint64LE (h : bs.length = 8) :
    putUint64 (uint64LE bs) = bs := by
  have hlt : bs.foldr (fun b acc => b.toNat + 256 * acc) 0 < 2 ^ 64 := by
    have hlen := foldr_lt bs
    rw [h] at hlen
    exact hlen
  apply List.ext_getElem (by rw [putUint64_length, h])
  intro i hi _
  simp only [putUint64, uint64LE, List.getElem_map, List.getElem_range, UInt64.toNat_ofNat']
  apply UInt8.toNat_inj.mp
  rw [UInt8.toNat_ofNat', Nat.mod_eq_of_lt hlt]
  exact foldr_div_mod (List.getElem?_eq_getElem _)

end Loggregator.Lib
