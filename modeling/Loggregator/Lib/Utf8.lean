import Loggregator.Lib.Bytes

/-!
# UTF-8

`unicode/utf8`: which bytes encode a rune, and the encoding of a rune. `ascii` counts the bytes
below 128; an encoded rune has at most one, and none unless it is a single byte.
-/

namespace Loggregator.Lib.Utf8

/-- The ranges of the bytes that follow a first byte, or `none` when no encoding starts with it.
These are the tables `first` and `acceptRanges`. -/
def continuations (c : UInt8) : Option (List (UInt8 × UInt8)) :=
  if c < 0x80 then some []
  else if c < 0xC2 then none
  else if c < 0xE0 then some [(0x80, 0xBF)]
  else if c = 0xE0 then some [(0xA0, 0xBF), (0x80, 0xBF)]
  else if c = 0xED then some [(0x80, 0x9F), (0x80, 0xBF)]
  else if c < 0xF0 then some [(0x80, 0xBF), (0x80, 0xBF)]
  else if c = 0xF0 then some [(0x90, 0xBF), (0x80, 0xBF), (0x80, 0xBF)]
  else if c < 0xF4 then some [(0x80, 0xBF), (0x80, 0xBF), (0x80, 0xBF)]
  else if c = 0xF4 then some [(0x80, 0x8F), (0x80, 0xBF), (0x80, 0xBF)]
  else none

/-- The text starts with bytes in these ranges. -/
def startsIn : List (UInt8 × UInt8) → GoString → Bool
  | [], _ => true
  | _ :: _, [] => false
  | (lo, hi) :: ranges, c :: s => decide (lo ≤ c) && decide (c ≤ hi) && startsIn ranges s

/-- `utf8.DecodeRune`: the number of bytes of the first rune, or `none` when the text does not
start with an encoded rune. -/
def runeSize : GoString → Option Nat
  | [] => none
  | c :: s => (continuations c).bind (fun ranges =>
      if startsIn ranges s then some (ranges.length + 1) else none)

/-- `utf8.Valid`. -/
inductive Valid : GoString → Prop where
  | nil : Valid []
  | rune {s : GoString} {n : Nat} : runeSize s = some n → Valid (s.drop n) → Valid s

/-- The encoding of U+FFFD. -/
def replacement : GoString := [0xEF, 0xBF, 0xBD]

/-- `utf8.EncodeRune`. -/
def encodeRune (r : Nat) : GoString :=
  if r < 0x80 then [UInt8.ofNat r]
  else if r < 0x800 then [UInt8.ofNat (0xC0 + r / 64), UInt8.ofNat (0x80 + r % 64)]
  else if 0xD800 ≤ r ∧ r < 0xE000 ∨ 0x110000 ≤ r then replacement
  else if r < 0x10000 then
    [UInt8.ofNat (0xE0 + r / 4096), UInt8.ofNat (0x80 + r / 64 % 64), UInt8.ofNat (0x80 + r % 64)]
  else
    [UInt8.ofNat (0xF0 + r / 262144), UInt8.ofNat (0x80 + r / 4096 % 64),
      UInt8.ofNat (0x80 + r / 64 % 64), UInt8.ofNat (0x80 + r % 64)]

/-- The number of bytes below 128. -/
def ascii (s : GoString) : Nat := s.countP (fun c => decide (c < 128))

@[simp] theorem ascii_nil : ascii [] = 0 := rfl

@[simp] theorem ascii_append (s t : GoString) : ascii (s ++ t) = ascii s + ascii t :=
  List.countP_append

theorem ascii_cons (c : UInt8) (s : GoString) :
    ascii (c :: s) = (if c < 128 then 1 else 0) + ascii s := by
  rw [ascii, List.countP_cons, ascii, Nat.add_comm]
  simp only [decide_eq_true_eq]

theorem ascii_cons_of_lt {c : UInt8} (hc : c < 128) (s : GoString) :
    ascii (c :: s) = 1 + ascii s := by
  rw [ascii_cons, if_pos hc]

theorem ascii_le_of_suffix {s t : GoString} (h : s <:+ t) : ascii s ≤ ascii t :=
  h.sublist.countP_le

theorem ascii_eq_zero {s : GoString} (h : ∀ c ∈ s, 128 ≤ c) : ascii s = 0 := by
  rw [ascii, List.countP_eq_zero]
  intro c hc
  simpa using h c hc

theorem ascii_replacement : ascii replacement = 0 := by decide

private theorem le_ofNat {n : Nat} (hlo : 128 ≤ n) (hhi : n < 256) : 128 ≤ UInt8.ofNat n := by
  rw [UInt8.le_iff_toNat_le, UInt8.toNat_ofNat']
  change 128 ≤ n % 256
  omega

/-- The bytes of a rune that is not a single byte. -/
theorem encodeRune_high {r : Nat} (hr : 128 ≤ r) : ∀ c ∈ encodeRune r, 128 ≤ c := by
  unfold encodeRune
  rw [if_neg (by omega)]
  split
  · exact List.forall_mem_cons.mpr ⟨le_ofNat (by omega) (by omega),
      List.forall_mem_singleton.mpr (le_ofNat (by omega) (by omega))⟩
  · split
    · exact List.forall_mem_cons.mpr ⟨by decide, List.forall_mem_cons.mpr ⟨by decide,
        List.forall_mem_singleton.mpr (by decide)⟩⟩
    · split
      · exact List.forall_mem_cons.mpr ⟨le_ofNat (by omega) (by omega),
          List.forall_mem_cons.mpr ⟨le_ofNat (by omega) (by omega),
            List.forall_mem_singleton.mpr (le_ofNat (by omega) (by omega))⟩⟩
      · exact List.forall_mem_cons.mpr ⟨le_ofNat (by omega) (by omega),
          List.forall_mem_cons.mpr ⟨le_ofNat (by omega) (by omega),
            List.forall_mem_cons.mpr ⟨le_ofNat (by omega) (by omega),
              List.forall_mem_singleton.mpr (le_ofNat (by omega) (by omega))⟩⟩⟩

/-- An encoded rune has at most one byte below 128. -/
theorem ascii_encodeRune (r : Nat) : ascii (encodeRune r) ≤ 1 := by
  by_cases hr : 128 ≤ r
  · rw [ascii_eq_zero (encodeRune_high hr)]
    exact Nat.zero_le 1
  · rw [encodeRune, if_pos (by omega)]
    exact List.countP_le_length

/-! ## The first rune -/

section RuneSize

variable {c : UInt8} {s : GoString} {n : Nat}

theorem runeSize_of_ascii (hc : c < 128) (s : GoString) : runeSize (c :: s) = some 1 := by
  have hcont : continuations c = some [] := if_pos hc
  rw [runeSize, hcont]
  rfl

/-- The ranges have no byte below 128. -/
def highRanges (ranges : List (UInt8 × UInt8)) : Bool :=
  ranges.all (fun range => decide (128 ≤ range.1))

private theorem all_ite {α : Type} {f : α → Bool} {p : Prop} [Decidable p] {x y : Option α}
    (hx : p → x.all f = true) (hy : ¬ p → y.all f = true) :
    (if p then x else y).all f = true := by
  split
  · next h => exact hx h
  · next h => exact hy h

theorem continuations_high {ranges : List (UInt8 × UInt8)} (h : continuations c = some ranges) :
    ∀ range ∈ ranges, 128 ≤ range.1 := by
  have hall : (continuations c).all highRanges = true := by
    unfold continuations
    repeat' apply all_ite <;> intro _
    all_goals decide
  rw [h] at hall
  exact fun range hrange => of_decide_eq_true (List.all_eq_true.mp hall range hrange)

theorem startsIn_high {ranges : List (UInt8 × UInt8)} (hranges : ∀ range ∈ ranges, 128 ≤ range.1)
    (h : startsIn ranges s = true) :
    ranges.length ≤ s.length ∧ ∀ b ∈ s.take ranges.length, 128 ≤ b := by
  induction ranges generalizing s with
  | nil => simp
  | cons range ranges ih =>
    obtain ⟨lo, hi⟩ := range
    cases s with
    | nil => cases h
    | cons b s =>
      simp only [startsIn, Bool.and_eq_true, decide_eq_true_eq] at h
      rw [List.forall_mem_cons] at hranges
      obtain ⟨hlen, hrest⟩ := ih hranges.2 h.2
      refine ⟨Nat.succ_le_succ hlen, ?_⟩
      rw [List.length_cons, List.take_succ_cons, List.forall_mem_cons]
      exact ⟨UInt8.le_trans hranges.1 h.1.1, hrest⟩

theorem runeSize_bounds (h : runeSize s = some n) : 0 < n ∧ n ≤ s.length := by
  cases s with
  | nil => cases h
  | cons c s =>
    obtain ⟨ranges, hcont, h⟩ := Option.bind_eq_some_iff.mp h
    split at h
    · next hin =>
      cases h
      have := (startsIn_high (continuations_high hcont) hin).1
      rw [List.length_cons]
      omega
    · cases h

/-- The bytes of a rune that is not a single byte. -/
theorem runeSize_high (hc : 128 ≤ c) (h : runeSize (c :: s) = some n) :
    ∀ b ∈ (c :: s).take n, 128 ≤ b := by
  obtain ⟨ranges, hcont, h⟩ := Option.bind_eq_some_iff.mp h
  split at h
  · next hin =>
    cases h
    rw [List.take_succ_cons, List.forall_mem_cons]
    exact ⟨hc, (startsIn_high (continuations_high hcont) hin).2⟩
  · cases h

end RuneSize

/-- A text of bytes below 128 is valid. -/
theorem valid_of_ascii {s : GoString} (h : ∀ c ∈ s, c < 128) : Valid s := by
  induction s with
  | nil => exact .nil
  | cons c s ih =>
    rw [List.forall_mem_cons] at h
    exact .rune (runeSize_of_ascii h.1 s) (ih h.2)

/-! ## Mapping runes -/

/-- The rune that these bytes encode. -/
def runeValue : GoString → Nat
  | [a] => a.toNat
  | [a, b] => a.toNat % 32 * 64 + b.toNat % 64
  | [a, b, c] => a.toNat % 16 * 4096 + b.toNat % 64 * 64 + c.toNat % 64
  | [a, b, c, d] =>
    a.toNat % 8 * 262144 + b.toNat % 64 * 4096 + c.toNat % 64 * 64 + d.toNat % 64
  | _ => 0xFFFD

/-- `utf8.DecodeRune`: the first rune and its size, where a byte that starts no rune is U+FFFD. -/
def decodeRune (s : GoString) : Nat × Nat :=
  match runeSize s with
  | none => (0xFFFD, 1)
  | some n => (runeValue (s.take n), n)

/-- The loop of `strings.Map` after the first rune that is changed: every rune is encoded. -/
def mapRest (mapping : Nat → Nat) : Nat → GoString → GoString
  | 0, _ => []
  | _ + 1, [] => []
  | fuel + 1, b :: s =>
    let (c, n) := decodeRune (b :: s)
    encodeRune (mapping c) ++ mapRest mapping fuel ((b :: s).drop n)

/-- The loop of `strings.Map`: up to the first rune that is changed the bytes are copied. -/
def mapFrom (mapping : Nat → Nat) : Nat → GoString → GoString
  | 0, _ => []
  | _ + 1, [] => []
  | fuel + 1, b :: s =>
    let (c, n) := decodeRune (b :: s)
    if mapping c = c then (b :: s).take n ++ mapFrom mapping fuel ((b :: s).drop n)
    else encodeRune (mapping c) ++ mapRest mapping fuel ((b :: s).drop n)

/-- `strings.Map`, for a mapping that drops no rune. -/
def mapRunes (mapping : Nat → Nat) (s : GoString) : GoString := mapFrom mapping s.length s

section MapRunes

variable {mapping : Nat → Nat} {a : UInt8}

/-- Only the rune of one byte has that byte in its encoding. -/
theorem mem_encodeRune (ha : a < 128) (r : Nat) : a ∈ encodeRune r ↔ r = a.toNat := by
  have ha' : a.toNat < 128 := UInt8.lt_iff_toNat_lt.mp ha
  by_cases hr : 128 ≤ r
  · refine iff_of_false (fun hmem => ?_) (by omega)
    exact absurd (UInt8.lt_of_lt_of_le ha (encodeRune_high hr a hmem)) (UInt8.lt_irrefl a)
  · rw [encodeRune, if_pos (by omega), List.mem_singleton, ← UInt8.toNat_inj, UInt8.toNat_ofNat']
    omega

theorem startsIn_cons {lo hi : UInt8} {ranges : List (UInt8 × UInt8)} {s : GoString}
    (h : startsIn ((lo, hi) :: ranges) s = true) :
    ∃ b t, s = b :: t ∧ lo.toNat ≤ b.toNat ∧ b.toNat ≤ hi.toNat ∧ startsIn ranges t = true := by
  cases s with
  | nil => cases h
  | cons b t =>
    simp only [startsIn, Bool.and_eq_true, decide_eq_true_eq] at h
    exact ⟨b, t, rfl, UInt8.le_iff_toNat_le.mp h.1.1, UInt8.le_iff_toNat_le.mp h.1.2, h.2⟩

/-- The bits of the rune in the first byte make it large, or the range of the second byte does. -/
def leadsHigh (c : UInt8) : List (UInt8 × UInt8) → Bool
  | [_] => decide (2 ≤ c.toNat % 32)
  | [(lo, hi), _] =>
    decide (1 ≤ c.toNat % 16) || decide (0xA0 ≤ lo.toNat) && decide (hi.toNat ≤ 0xBF)
  | [(lo, hi), _, _] =>
    decide (1 ≤ c.toNat % 8) || decide (0x90 ≤ lo.toNat) && decide (hi.toNat ≤ 0xBF)
  | _ => false

theorem continuations_leadsHigh {c : UInt8} {ranges : List (UInt8 × UInt8)} (hc : 128 ≤ c.toNat)
    (h : continuations c = some ranges) : leadsHigh c ranges = true := by
  have hall : (continuations c).all (leadsHigh c) = true := by
    unfold continuations
    repeat' apply all_ite <;> intro _
    all_goals simp only [UInt8.lt_iff_toNat_lt, ← UInt8.toNat_inj, UInt8.reduceToNat, leadsHigh,
      Option.all_some, Option.all_none, Bool.or_eq_true, Bool.and_eq_true,
      decide_eq_true_eq] at *
    all_goals omega
  rw [h] at hall
  exact hall

/-- An encoding is never longer than it has to be: more than one byte is for no rune of one. -/
theorem runeValue_high {c : UInt8} {s : GoString} {n : Nat} (hc : 128 ≤ c)
    (h : runeSize (c :: s) = some n) : 128 ≤ runeValue ((c :: s).take n) := by
  obtain ⟨ranges, hcont, h⟩ := Option.bind_eq_some_iff.mp h
  have hlead := continuations_leadsHigh (UInt8.le_iff_toNat_le.mp hc) hcont
  split at h
  · next hin =>
    cases h
    match ranges, hlead, hin with
    | [range], hlead, hin =>
      obtain ⟨b, t, rfl, -⟩ := startsIn_cons hin
      simp only [leadsHigh, decide_eq_true_eq] at hlead
      change 128 ≤ c.toNat % 32 * 64 + b.toNat % 64
      omega
    | [(lo, hi), range], hlead, hin =>
      obtain ⟨b, t, rfl, hlo, hhi, hin⟩ := startsIn_cons hin
      obtain ⟨b', t, rfl, -⟩ := startsIn_cons hin
      simp only [leadsHigh, Bool.or_eq_true, Bool.and_eq_true, decide_eq_true_eq] at hlead
      change 128 ≤ c.toNat % 16 * 4096 + b.toNat % 64 * 64 + b'.toNat % 64
      omega
    | [(lo, hi), range, range'], hlead, hin =>
      obtain ⟨b, t, rfl, hlo, hhi, hin⟩ := startsIn_cons hin
      obtain ⟨b', t, rfl, -, -, hin⟩ := startsIn_cons hin
      obtain ⟨b'', t, rfl, -⟩ := startsIn_cons hin
      simp only [leadsHigh, Bool.or_eq_true, Bool.and_eq_true, decide_eq_true_eq] at hlead
      change 128 ≤ c.toNat % 8 * 262144 + b.toNat % 64 * 4096 + b'.toNat % 64 * 64 +
        b''.toNat % 64
      omega
  · cases h

/-- The first rune is a given byte below 128 exactly if that is the byte it was decoded from. -/
theorem decodeRune_spec (ha : a < 128) (b : UInt8) (s : GoString) :
    0 < (decodeRune (b :: s)).2 ∧
    (a ∈ (b :: s).take (decodeRune (b :: s)).2 ↔ (decodeRune (b :: s)).1 = a.toNat) := by
  have ha' : a.toNat < 128 := UInt8.lt_iff_toNat_lt.mp ha
  by_cases hb : b < 128
  · rw [decodeRune, runeSize_of_ascii hb]
    refine ⟨Nat.one_pos, ?_⟩
    change a ∈ [b] ↔ b.toNat = a.toNat
    rw [List.mem_singleton, ← UInt8.toNat_inj, eq_comm]
  · have hb' := UInt8.not_lt.mp hb
    have hne : ∀ c, 128 ≤ c → a ≠ c := by
      rintro c hc rfl
      exact absurd (UInt8.lt_of_lt_of_le ha hc) (UInt8.lt_irrefl a)
    rw [decodeRune]
    cases hsize : runeSize (b :: s) with
    | none =>
      refine ⟨Nat.one_pos, iff_of_false ?_ (by simp only; omega)⟩
      rw [List.take_succ_cons, List.take_zero, List.mem_singleton]
      exact hne b hb'
    | some n =>
      have hvalue := runeValue_high hb' hsize
      refine ⟨(runeSize_bounds hsize).1, iff_of_false ?_ (by simp only; omega)⟩
      intro hmem
      exact hne a (runeSize_high hb' hsize a hmem) rfl

/-- A byte below 128 that the mapping keeps apart from the other runes. -/
def Fixes (mapping : Nat → Nat) (a : UInt8) : Prop := ∀ r, mapping r = a.toNat ↔ r = a.toNat

theorem mem_mapLoops (ha : a < 128) (hfixes : Fixes mapping a) {fuel : Nat} {s : GoString}
    (hfuel : s.length ≤ fuel) :
    (a ∈ mapRest mapping fuel s ↔ a ∈ s) ∧ (a ∈ mapFrom mapping fuel s ↔ a ∈ s) := by
  induction fuel generalizing s with
  | zero =>
    cases s with
    | nil => exact ⟨Iff.rfl, Iff.rfl⟩
    | cons b s => simp at hfuel
  | succ fuel ih =>
    cases s with
    | nil => exact ⟨Iff.rfl, Iff.rfl⟩
    | cons b s =>
      obtain ⟨hpos, hmem⟩ := decodeRune_spec ha b s
      obtain ⟨hrest, hfrom⟩ := ih (s := (b :: s).drop (decodeRune (b :: s)).2) (by
        rw [List.length_drop]
        omega)
      have hsplit := List.take_append_drop (decodeRune (b :: s)).2 (b :: s)
      have hencoded : a ∈ mapRest mapping (fuel + 1) (b :: s) ↔ a ∈ b :: s := by
        rw [mapRest, List.mem_append, mem_encodeRune ha, hfixes, ← hmem, hrest, ← List.mem_append,
          hsplit]
      refine ⟨hencoded, ?_⟩
      rw [mapFrom]
      simp only
      split
      · rw [List.mem_append, hfrom, ← List.mem_append, hsplit]
      · exact hencoded

/-- Such a byte is in the mapped text just when it is in the text. -/
theorem mem_mapRunes (ha : a < 128) (hfixes : Fixes mapping a) (s : GoString) :
    a ∈ mapRunes mapping s ↔ a ∈ s :=
  (mem_mapLoops ha hfixes le_rfl).2

end MapRunes

/-! ## Spaces -/

/-- The encodings of the runes that are spaces for `unicode.IsSpace`. -/
def spaces : List GoString :=
  [[9], [10], [11], [12], [13], [32], [0xC2, 0x85], [0xC2, 0xA0], [0xE1, 0x9A, 0x80],
   [0xE2, 0x80, 0x80], [0xE2, 0x80, 0x81], [0xE2, 0x80, 0x82], [0xE2, 0x80, 0x83],
   [0xE2, 0x80, 0x84], [0xE2, 0x80, 0x85], [0xE2, 0x80, 0x86], [0xE2, 0x80, 0x87],
   [0xE2, 0x80, 0x88], [0xE2, 0x80, 0x89], [0xE2, 0x80, 0x8A], [0xE2, 0x80, 0xA8],
   [0xE2, 0x80, 0xA9], [0xE2, 0x80, 0xAF], [0xE2, 0x81, 0x9F], [0xE3, 0x80, 0x80]]

/-- Drop the given words from the start of a text, at most this often. -/
def trimWords (words : List GoString) : Nat → GoString → GoString
  | 0, s => s
  | n + 1, s =>
    match words.find? (fun word => word.isPrefixOf s) with
    | none => s
    | some word => trimWords words n (s.drop word.length)

/-- `strings.TrimSpace`. -/
def trimSpace (s : GoString) : GoString :=
  let left := trimWords spaces s.length s
  (trimWords (spaces.map List.reverse) left.length left.reverse).reverse

end Loggregator.Lib.Utf8
