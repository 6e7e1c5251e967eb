import Loggregator.Lib.Utf8

/-!
# JSON texts

`encoding/json` of Go 1.8: the syntax that its scanner accepts, and what `Unmarshal` makes of
the strings in it. A string is first scanned for its end and then unquoted, where bytes that are
not valid UTF-8 become U+FFFD. `none` is an error.

The lemmas weigh a text by its bytes below 128. Unquoting never gains weight and loses some at
every escape (`unquoteFrom_weight`), and a list of items weighs at least as much as the items
with one separator each (`parseItems_weight`). So a string that is read back unchanged from a
text of minimal weight has no escapes in it (`parseString_inv`).
-/

namespace Loggregator.Lib

/-- A JSON value. A string stands unquoted, a number as its text. -/
inductive Json where
  | null
  | bool (b : Bool)
  | number (text : GoString)
  | string (s : GoString)
  | array (elems : List Json)
  | object (members : List (GoString × Json))

namespace Json

open Utf8

def quote : UInt8 := 34
def comma : UInt8 := 44
def colon : UInt8 := 58
def openBracket : UInt8 := 91
def backslash : UInt8 := 92
def closeBracket : UInt8 := 93
def letterU : UInt8 := 117
def openBrace : UInt8 := 123
def closeBrace : UInt8 := 125

/-- `isSpace`. -/
def isSpace (c : UInt8) : Bool := c == 32 || c == 9 || c == 13 || c == 10

def skipSpace (s : GoString) : GoString := s.dropWhile isSpace

/-- The text after this byte, which may have spaces before it. -/
def expect (c : UInt8) (s : GoString) : Option GoString :=
  match skipSpace s with
  | [] => none
  | c' :: s => if c' = c then some s else none

/-! ## Strings -/

/-- The states of the scanner in a string: `stateInString`, `stateInStringEsc`, and
`stateInStringEscU` and its followers, where `n + 1` digits are to come. -/
inductive StringState where
  | inString
  | inStringEsc
  | inStringEscU (n : Nat)

/-- The bytes after a backslash that the scanner accepts, but for the `u`. -/
def escapes : GoString := str "bfnrt\\/\""

/-- Scan a string up to its closing quote: its quoted text and what follows. -/
def scanString : StringState → GoString → Option (GoString × GoString)
  | _, [] => none
  | .inString, c :: s =>
    if c = quote then some ([], s)
    else if c = backslash then (scanString .inStringEsc s).map (fun (raw, r) => (c :: raw, r))
    else if c < 32 then none
    else (scanString .inString s).map (fun (raw, r) => (c :: raw, r))
  | .inStringEsc, c :: s =>
    if c ∈ escapes then (scanString .inString s).map (fun (raw, r) => (c :: raw, r))
    else if c = letterU then
      (scanString (.inStringEscU 3) s).map (fun (raw, r) => (c :: raw, r))
    else none
  | .inStringEscU n, c :: s =>
    if (unhex c).isSome then
      (scanString (match n with | 0 => .inString | n + 1 => .inStringEscU n) s).map
        (fun (raw, r) => (c :: raw, r))
    else none

/-- `getu4`: the number of an escape `\uXXXX` at the start of a text. -/
def getu4 : GoString → Option Nat
  | c :: u :: d₃ :: d₂ :: d₁ :: d₀ :: _ =>
    if c = backslash ∧ u = letterU then
      match unhex d₃, unhex d₂, unhex d₁, unhex d₀ with
      | some n₃, some n₂, some n₁, some n₀ => some (4096 * n₃ + 256 * n₂ + 16 * n₁ + n₀)
      | _, _, _, _ => none
    else none
  | _ => none

/-- The byte that an escape stands for, but for the `u`. -/
def unescapeByte (c : UInt8) : Option UInt8 :=
  if c = quote ∨ c = backslash ∨ c = 47 ∨ c = 39 then some c
  else if c = 98 then some 8
  else if c = 102 then some 12
  else if c = 110 then some 10
  else if c = 114 then some 13
  else if c = 116 then some 9
  else none

/-- The rune of an escape with the number `rr` before the text `s`, and whether the escape that
follows is its second half: `utf16.IsSurrogate` and `utf16.DecodeRune`. -/
def surrogate (rr : Nat) (s : GoString) : Nat × Bool :=
  if 0xD800 ≤ rr ∧ rr < 0xE000 then
    match getu4 s with
    | some rr1 =>
      if rr < 0xDC00 ∧ 0xDC00 ≤ rr1 ∧ rr1 < 0xE000 then
        (1024 * (rr - 0xD800) + (rr1 - 0xDC00) + 0x10000, true)
      else (0xFFFD, false)
    | none => (0xFFFD, false)
  else (rr, false)

/-- The loop of `unquoteBytes`, on what is left of the text. Each turn takes at least a byte. -/
def unquoteFrom : Nat → GoString → Option GoString
  | _, [] => some []
  | 0, _ :: _ => none
  | n + 1, c :: s =>
    if c = backslash then
      match s with
      | [] => none
      | e :: t =>
        if e = letterU then
          (getu4 (c :: s)).bind (fun rr =>
            let (rune, pair) := surrogate rr ((c :: s).drop 6)
            (unquoteFrom n ((c :: s).drop (if pair then 12 else 6))).map
              (fun out => encodeRune rune ++ out))
        else (unescapeByte e).bind (fun b => (unquoteFrom n t).map (fun out => b :: out))
    else if c = quote ∨ c < 32 then none
    else if c < 128 then (unquoteFrom n s).map (fun out => c :: out)
    else
      match runeSize (c :: s) with
      | some size =>
        (unquoteFrom n ((c :: s).drop size)).map (fun out => (c :: s).take size ++ out)
      | none => (unquoteFrom n s).map (fun out => replacement ++ out)

/-- `unquoteBytes`, on the text between the quotes. -/
def unquoteBytes (s : GoString) : Option GoString := unquoteFrom s.length s

/-- A string after its opening quote. -/
def parseString (s : GoString) : Option (GoString × GoString) :=
  (scanString .inString s).bind (fun (raw, r) => (unquoteBytes raw).map (fun t => (t, r)))

/-! ## Numbers and literals -/

def isDigit (c : UInt8) : Bool := 48 ≤ c && c ≤ 57

/-- At least one digit. -/
def scanDigits (s : GoString) : Option GoString :=
  if s.takeWhile isDigit = [] then none else some (s.dropWhile isDigit)

/-- The integer part of a number after its sign: zero or digits that do not start with it. -/
def scanInteger : GoString → Option GoString
  | [] => none
  | c :: s => if c = 48 then some s else scanDigits (c :: s)

/-- An optional fraction. -/
def scanFraction : GoString → Option GoString
  | [] => some []
  | c :: s => if c = 46 then scanDigits s else some (c :: s)

/-- Digits that may have a sign. -/
def scanSigned : GoString → Option GoString
  | [] => none
  | c :: s => if c = 43 ∨ c = 45 then scanDigits s else scanDigits (c :: s)

/-- An optional exponent. -/
def scanExponent : GoString → Option GoString
  | [] => some []
  | c :: s => if c = 101 ∨ c = 69 then scanSigned s else some (c :: s)

/-- What follows a number. -/
def scanNumber : GoString → Option GoString
  | [] => none
  | c :: s => ((scanInteger (if c = 45 then s else c :: s)).bind scanFraction).bind scanExponent

/-- A number with what follows it. -/
def parseNumber (s : GoString) : Option (Json × GoString) :=
  (scanNumber s).map (fun r => (.number (s.take (s.length - r.length)), r))

/-- One of the words `null`, `true` and `false`. -/
def parseLiteral (word : GoString) (v : Json) (s : GoString) : Option (Json × GoString) :=
  if word.isPrefixOf s then some (v, s.drop word.length) else none

/-! ## Values -/

/-- Items with commas between them, up to the closing byte. -/
def parseItems {α : Type} (item : GoString → Option (α × GoString)) (close : UInt8) :
    Nat → GoString → Option (List α × GoString)
  | 0, _ => none
  | n + 1, s => (item s).bind (fun (x, s) =>
      match expect close s with
      | some r => some ([x], r)
      | none => (expect comma s).bind (fun s =>
          (parseItems item close n s).map (fun (xs, r) => (x :: xs, r))))

/-- A member of an object, with the parser of its value. -/
def parseMember (value : GoString → Option (Json × GoString)) (s : GoString) :
    Option ((GoString × Json) × GoString) :=
  (expect quote s).bind (fun s => (parseString s).bind (fun (key, s) =>
    (expect colon s).bind (fun s => (value s).map (fun (v, r) => ((key, v), r)))))

/-- Items that may be none. -/
def parseList {α : Type} (item : GoString → Option (α × GoString)) (close : UInt8)
    (s : GoString) : Option (List α × GoString) :=
  match expect close s with
  | some r => some ([], r)
  | none => parseItems item close s.length s

/-- A value, nested at most as deep as the first argument. -/
def parseValue : Nat → GoString → Option (Json × GoString)
  | 0, _ => none
  | n + 1, s =>
    match skipSpace s with
    | [] => none
    | c :: t =>
      if c = openBrace then
        (parseList (parseMember (parseValue n)) closeBrace t).map (fun (ms, r) => (.object ms, r))
      else if c = openBracket then
        (parseList (parseValue n) closeBracket t).map (fun (vs, r) => (.array vs, r))
      else if c = quote then (parseString t).map (fun (s, r) => (.string s, r))
      else if c = 110 then parseLiteral (str "null") .null (c :: t)
      else if c = 116 then parseLiteral (str "true") (.bool true) (c :: t)
      else if c = 102 then parseLiteral (str "false") (.bool false) (c :: t)
      else parseNumber (c :: t)

/-- A whole text: one value. -/
def parse (s : GoString) : Option Json :=
  (parseValue (s.length + 1) s).bind (fun (v, r) => if skipSpace r = [] then some v else none)

/-! ## Keys -/

/-- The bit that tells the cases of a letter apart. -/
def caseMask : UInt8 := 0xDF

/-- `equalFoldRight`, for a field name of bytes below 128. The simpler functions that the package
takes for some names agree with it on these. -/
def equalFold : GoString → GoString → Bool
  | [], t => t.isEmpty
  | _ :: _, [] => false
  | c :: s, b :: t =>
    if b < 128 then
      let upper := c &&& caseMask
      (c == b || (65 ≤ upper && upper ≤ 90 && upper == b &&& caseMask)) && equalFold s t
    else
      -- the long s and the Kelvin sign
      match b :: t with
      | 0xC5 :: 0xBF :: t => (c == 115 || c == 83) && equalFold s t
      | 0xE2 :: 0x84 :: 0xAA :: t => (c == 107 || c == 75) && equalFold s t
      | _ => false

/-- The field of a struct that a key names: the one with this name, or else the first that is
equal to it under case folding. -/
def fieldFor (names : List GoString) (key : GoString) : Option GoString :=
  if key ∈ names then some key else names.find? (fun name => equalFold name key)

/-! ## Strings without escapes -/

/-- The text can stand between quotes as it is. -/
def Unescaped (s : GoString) : Prop := ∀ c ∈ s, c ≠ quote ∧ c ≠ backslash ∧ 32 ≤ c

/-- The text can stand between quotes as it is, and is read back unchanged. -/
structure Plain (s : GoString) : Prop where
  unescaped : Unescaped s
  valid : Valid s

/-- A byte below 128 that is not escaped. -/
def isPlainByte (c : UInt8) : Bool := c != quote && c != backslash && 32 ≤ c && c < 128

theorem plain_of_all {s : GoString} (h : s.all isPlainByte = true) : Plain s := by
  have hbyte : ∀ c ∈ s, c ≠ quote ∧ c ≠ backslash ∧ 32 ≤ c ∧ c < 128 := by
    simpa [isPlainByte, and_assoc] using h
  exact ⟨fun c hc => ⟨(hbyte c hc).1, (hbyte c hc).2.1, (hbyte c hc).2.2.1⟩,
    valid_of_ascii (fun c hc => (hbyte c hc).2.2.2)⟩

section Scan

variable {s raw r : GoString}

theorem scanString_eq {st : StringState} (h : scanString st s = some (raw, r)) :
    s = raw ++ quote :: r := by
  induction s generalizing st raw with
  | nil => cases st <;> cases h
  | cons c s ih =>
    -- in every state a byte is the closing quote or goes into the text
    have hmore : ∀ {st}, (scanString st s).map (fun (raw, r) => (c :: raw, r)) = some (raw, r) →
        c :: s = raw ++ quote :: r := by
      intro st hmap
      obtain ⟨⟨raw', r'⟩, hscan, heq⟩ := Option.map_eq_some_iff.mp hmap
      cases heq
      rw [ih hscan, List.cons_append]
    cases st with
    | inString =>
      rw [scanString] at h
      split at h
      · next hc =>
        cases h
        rw [hc, List.nil_append]
      · split at h
        · exact hmore h
        · split at h
          · cases h
          · exact hmore h
    | inStringEsc =>
      rw [scanString] at h
      split at h
      · exact hmore h
      · split at h
        · exact hmore h
        · cases h
    | inStringEscU n =>
      rw [scanString.eq_def] at h
      simp only at h
      split at h
      · exact hmore h
      · cases h

/-- A scanned text without a backslash has no quotes and no control characters. -/
theorem scanString_unescaped (h : scanString .inString s = some (raw, r))
    (hno : backslash ∉ raw) : Unescaped raw := by
  induction s generalizing raw with
  | nil => cases h
  | cons c s ih =>
    rw [scanString] at h
    split at h
    · cases h
      intro c hc
      cases hc
    · next hquote =>
      split at h
      · next hback =>
        obtain ⟨⟨raw', r'⟩, -, heq⟩ := Option.map_eq_some_iff.mp h
        cases heq
        rw [hback] at hno
        exact absurd List.mem_cons_self hno
      · next hback =>
        split at h
        · cases h
        · next hcontrol =>
          obtain ⟨⟨raw', r'⟩, hscan, heq⟩ := Option.map_eq_some_iff.mp h
          cases heq
          have hrest := ih hscan (fun hmem => hno (List.mem_cons_of_mem _ hmem))
          intro b hb
          rcases List.mem_cons.mp hb with rfl | hb
          · exact ⟨hquote, hback, UInt8.not_lt.mp hcontrol⟩
          · exact hrest b hb

theorem scanString_append {t : GoString} (ht : Unescaped t) (r : GoString) :
    scanString .inString (t ++ quote :: r) = some (t, r) := by
  induction t with
  | nil => rw [List.nil_append, scanString, if_pos rfl]
  | cons c t ih =>
    obtain ⟨⟨hquote, hback, hcontrol⟩, hrest⟩ := List.forall_mem_cons.mp ht
    rw [List.cons_append, scanString, if_neg hquote, if_neg hback,
      if_neg (UInt8.not_lt.mpr hcontrol), ih hrest]
    rfl

end Scan

/-! ## Unquoting -/

variable {c : UInt8} {n : Nat}

theorem unhex_lt (h : unhex c = some n) : c < 128 := by
  rw [UInt8.lt_iff_toNat_lt]
  change c.toNat < 128
  unfold unhex at h
  simp only at h
  split_ifs at h <;> omega

/-- An escape has six bytes, all below 128. -/
theorem getu4_ascii {s : GoString} {rr : Nat} (h : getu4 s = some rr) :
    ascii s = 6 + ascii (s.drop 6) := by
  unfold getu4 at h
  split at h
  · next c u d₃ d₂ d₁ d₀ t =>
    split at h
    · next hcu =>
      split at h
      · next n₃ n₂ n₁ n₀ h₃ h₂ h₁ h₀ =>
        obtain ⟨rfl, rfl⟩ := hcu
        rw [ascii_cons_of_lt (by decide), ascii_cons_of_lt (by decide),
          ascii_cons_of_lt (unhex_lt h₃), ascii_cons_of_lt (unhex_lt h₂),
          ascii_cons_of_lt (unhex_lt h₁), ascii_cons_of_lt (unhex_lt h₀)]
        simp only [List.drop_succ_cons, List.drop_zero]
        omega
      · cases h
    · cases h
  · cases h

theorem surrogate_pair {rr : Nat} {s : GoString} (h : (surrogate rr s).2 = true) :
    ∃ rr1, getu4 s = some rr1 := by
  unfold surrogate at h
  split at h
  · split at h
    · next rr1 hrr1 => exact ⟨rr1, hrr1⟩
    · cases h
  · cases h

theorem unescapeByte_lt {e b : UInt8} (h : unescapeByte e = some b) : e < 128 := by
  unfold unescapeByte at h
  split at h
  · next he => rcases he with rfl | rfl | rfl | rfl <;> decide
  · split_ifs at h with h₁ h₂ h₃ h₄ h₅ <;> subst_vars <;> decide

/-- A turn of `unquoteBytes` at the byte `c`: what is left, what is put out, and the rest. -/
inductive UnquoteTurn (n : Nat) (c : UInt8) (s : GoString) : GoString → Prop where
  | escape {rest out t : GoString} (hc : c = backslash) (hin : 2 + ascii rest ≤ ascii (c :: s))
      (hout : ascii out ≤ 1) (ht : unquoteFrom n rest = some t) : UnquoteTurn n c s (out ++ t)
  | byte {t : GoString} (hc : c ≠ backslash) (hlt : c < 128) (ht : unquoteFrom n s = some t) :
      UnquoteTurn n c s (c :: t)
  | rune {size : Nat} {t : GoString} (hc : 128 ≤ c) (hsize : runeSize (c :: s) = some size)
      (ht : unquoteFrom n ((c :: s).drop size) = some t) :
      UnquoteTurn n c s ((c :: s).take size ++ t)
  | invalid {t : GoString} (hc : 128 ≤ c) (hsize : runeSize (c :: s) = none)
      (ht : unquoteFrom n s = some t) : UnquoteTurn n c s (replacement ++ t)

theorem unquoteFrom_cases {s t : GoString} (h : unquoteFrom (n + 1) (c :: s) = some t) :
    UnquoteTurn n c s t := by
  rw [unquoteFrom.eq_def] at h
  simp only at h
  split at h
  · next hc =>
    split at h
    · cases h
    · next e t' =>
      split at h
      · obtain ⟨rr, hrr, h⟩ := Option.bind_eq_some_iff.mp h
        obtain ⟨out, hout, rfl⟩ := Option.map_eq_some_iff.mp h
        have hfirst := getu4_ascii hrr
        refine .escape hc ?_ (ascii_encodeRune _) hout
        split
        · next hpair =>
          obtain ⟨rr1, hrr1⟩ := surrogate_pair hpair
          have hsecond := getu4_ascii hrr1
          simp only [List.drop_drop, Nat.reduceAdd] at hsecond
          omega
        · omega
      · obtain ⟨b, hb, h⟩ := Option.bind_eq_some_iff.mp h
        obtain ⟨out, hout, rfl⟩ := Option.map_eq_some_iff.mp h
        change UnquoteTurn n c _ ([b] ++ out)
        refine .escape hc ?_ List.countP_le_length hout
        rw [hc, ascii_cons_of_lt (by decide), ascii_cons_of_lt (unescapeByte_lt hb)]
        omega
  · next hc =>
    split at h
    · cases h
    · split at h
      · next hlt =>
        obtain ⟨out, hout, rfl⟩ := Option.map_eq_some_iff.mp h
        exact .byte hc hlt hout
      · next hge =>
        split at h
        · next size hsize =>
          obtain ⟨out, hout, rfl⟩ := Option.map_eq_some_iff.mp h
          exact .rune (UInt8.not_lt.mp hge) hsize hout
        · next hsize =>
          obtain ⟨out, hout, rfl⟩ := Option.map_eq_some_iff.mp h
          exact .invalid (UInt8.not_lt.mp hge) hsize hout

/-- Unquoting gains no weight, and loses some when there is an escape. -/
theorem unquoteFrom_weight {s t : GoString} (h : unquoteFrom n s = some t) :
    ascii t ≤ ascii s ∧ (backslash ∈ s → ascii t < ascii s) := by
  induction n generalizing s t with
  | zero =>
    cases s with
    | nil =>
      cases h
      simp
    | cons c s => cases h
  | succ n ih =>
    cases s with
    | nil =>
      cases h
      simp
    | cons c s =>
      cases unquoteFrom_cases h with
      | escape hc hin hout ht =>
        have hrest := (ih ht).1
        rw [ascii_append]
        constructor
        · omega
        · intro _
          omega
      | byte hc hlt ht =>
        obtain ⟨hle, hstrict⟩ := ih ht
        rw [ascii_cons, ascii_cons]
        refine ⟨Nat.add_le_add_left hle _, ?_⟩
        intro hmem
        rcases List.mem_cons.mp hmem with heq | hmem
        · exact absurd heq.symm hc
        · exact Nat.add_lt_add_left (hstrict hmem) _
      | @rune size t hc hsize ht =>
        obtain ⟨hle, hstrict⟩ := ih ht
        have hsplit : ascii (c :: s) =
            ascii ((c :: s).take size) + ascii ((c :: s).drop size) := by
          rw [← ascii_append, List.take_append_drop]
        rw [ascii_append, hsplit]
        refine ⟨Nat.add_le_add_left hle _, ?_⟩
        intro hmem
        rw [← List.take_append_drop size (c :: s)] at hmem
        rcases List.mem_append.mp hmem with hmem | hmem
        · exact absurd (runeSize_high hc hsize _ hmem) (by decide)
        · exact Nat.add_lt_add_left (hstrict hmem) _
      | invalid hc hsize ht =>
        obtain ⟨hle, hstrict⟩ := ih ht
        rw [ascii_append, ascii_replacement, Nat.zero_add, ascii_cons,
          if_neg (UInt8.not_lt.mpr hc), Nat.zero_add]
        refine ⟨hle, ?_⟩
        intro hmem
        rcases List.mem_cons.mp hmem with heq | hmem
        · rw [← heq] at hc
          exact absurd hc (by decide)
        · exact hstrict hmem

/-- Without escapes unquoting keeps valid text and makes any other longer. -/
theorem unquoteFrom_length {s t : GoString} (hno : backslash ∉ s) (h : unquoteFrom n s = some t) :
    s.length ≤ t.length ∧ (t.length ≤ s.length → Valid s) := by
  induction n generalizing s t with
  | zero =>
    cases s with
    | nil => exact ⟨Nat.zero_le _, fun _ => .nil⟩
    | cons c s => cases h
  | succ n ih =>
    cases s with
    | nil => exact ⟨Nat.zero_le _, fun _ => .nil⟩
    | cons c s =>
      cases unquoteFrom_cases h with
      | escape hc hin hout ht =>
        rw [hc] at hno
        exact absurd List.mem_cons_self hno
      | byte hc hlt ht =>
        obtain ⟨hle, hvalid⟩ := ih (fun hmem => hno (List.mem_cons_of_mem _ hmem)) ht
        rw [List.length_cons, List.length_cons]
        refine ⟨Nat.succ_le_succ hle, fun hback => ?_⟩
        exact .rune (runeSize_of_ascii hlt s) (hvalid (Nat.le_of_succ_le_succ hback))
      | @rune size t hc hsize ht =>
        obtain ⟨hle, hvalid⟩ := ih (fun hmem => hno (List.mem_of_mem_drop hmem)) ht
        have hbound := (runeSize_bounds hsize).2
        rw [List.length_append, List.length_take, Nat.min_eq_left hbound]
        rw [List.length_drop] at hle hvalid
        refine ⟨by omega, fun hback => .rune hsize (hvalid (by omega))⟩
      | invalid hc hsize ht =>
        have hle := (ih (fun hmem => hno (List.mem_cons_of_mem _ hmem)) ht).1
        have hthree : replacement.length = 3 := rfl
        rw [List.length_append, List.length_cons, hthree]
        refine ⟨by omega, fun hback => ?_⟩
        omega

theorem valid_cons {s : GoString} (h : Valid (c :: s)) :
    ∃ n, runeSize (c :: s) = some n ∧ Valid ((c :: s).drop n) := by
  cases h with
  | rune hsize hrest => exact ⟨_, hsize, hrest⟩

/-- A plain text is unquoted to itself. -/
theorem unquoteFrom_plain {s : GoString} (hs : Unescaped s) (hv : Valid s) (hn : s.length ≤ n) :
    unquoteFrom n s = some s := by
  induction n generalizing s with
  | zero =>
    cases List.length_eq_zero_iff.mp (Nat.le_zero.mp hn)
    rfl
  | succ n ih =>
    cases s with
    | nil => rfl
    | cons c s =>
      obtain ⟨⟨hquote, hback, hcontrol⟩, hrest⟩ := List.forall_mem_cons.mp hs
      obtain ⟨size, hsize, hvrest⟩ := valid_cons hv
      have hkeep : ¬ (c = quote ∨ c < 32) := by
        rintro (h | h)
        · exact hquote h
        · exact absurd hcontrol (UInt8.not_le.mpr h)
      rw [List.length_cons] at hn
      rw [unquoteFrom.eq_def]
      simp only [if_neg hback, if_neg hkeep]
      by_cases hlt : c < 128
      · rw [runeSize_of_ascii hlt] at hsize
        cases hsize
        rw [if_pos hlt, ih hrest hvrest (by omega)]
        rfl
      · have hbounds := runeSize_bounds hsize
        have hdrop := ih (s := (c :: s).drop size) (fun b hb => hs b (List.mem_of_mem_drop hb))
          hvrest (by rw [List.length_drop, List.length_cons]; omega)
        simp only [if_neg hlt, hsize, hdrop, Option.map_some, List.take_append_drop]

/-! ## Reading strings back -/

section ParseString

variable {s t r : GoString}

theorem parseString_eq_some (h : parseString s = some (t, r)) :
    ∃ raw, scanString .inString s = some (raw, r) ∧ unquoteBytes raw = some t := by
  obtain ⟨⟨raw, r'⟩, hscan, h⟩ := Option.bind_eq_some_iff.mp h
  obtain ⟨t', hunquote, heq⟩ := Option.map_eq_some_iff.mp h
  cases heq
  exact ⟨raw, hscan, hunquote⟩

theorem parseString_plain (ht : Plain t) (r : GoString) :
    parseString (t ++ quote :: r) = some (t, r) := by
  rw [parseString, scanString_append ht.unescaped]
  simp only [Option.bind_some, unquoteBytes,
    unquoteFrom_plain ht.unescaped ht.valid (Nat.le_refl _), Option.map_some]

/-- A string that is read back unchanged and leaves no less than what stood behind it is plain. -/
theorem parseString_inv {rest : GoString} (h : parseString (t ++ quote :: rest) = some (t, r))
    (hr : ascii rest ≤ ascii r) : Plain t ∧ r = rest := by
  obtain ⟨raw, hscan, hunquote⟩ := parseString_eq_some h
  obtain ⟨hweight, hstrict⟩ := unquoteFrom_weight hunquote
  have htext := scanString_eq hscan
  have hascii := congrArg ascii htext
  rw [ascii_append, ascii_append, ascii_cons_of_lt (by decide), ascii_cons_of_lt (by decide)]
    at hascii
  have hno : backslash ∉ raw := by
    intro hmem
    have := hstrict hmem
    omega
  have hplain := scanString_unescaped hscan hno
  -- the closing quote is the first quote of the text, and `t` has none
  obtain ⟨rfl, rfl⟩ : raw = t ∧ r = rest := by
    rcases List.append_eq_append_iff.mp htext with ⟨as, rfl, hrest⟩ | ⟨as, rfl, hrest⟩
    · cases as with
      | nil =>
        rw [List.append_nil]
        exact ⟨rfl, (List.cons.inj hrest).2.symm⟩
      | cons a as =>
        have ha : quote = a := (List.cons.inj hrest).1
        exact absurd ha.symm (hplain a (List.mem_append_right _ List.mem_cons_self)).1
    · cases as with
      | nil =>
        rw [List.append_nil]
        exact ⟨rfl, (List.cons.inj hrest).2⟩
      | cons a as =>
        have ha : quote = a := (List.cons.inj hrest).1
        rw [← ha, ascii_append, ascii_cons_of_lt (by decide)] at hascii
        rw [← ha, ascii_append, ascii_cons_of_lt (by decide)] at hweight
        omega
  exact ⟨⟨hplain, (unquoteFrom_length hno hunquote).2 (Nat.le_refl _)⟩, rfl⟩

end ParseString

/-! ## The weight of values -/

section Weight

variable {s t r : GoString} {α : Type} {item : GoString → Option (α × GoString)} {close : UInt8}
  {xs : List α}

theorem expect_suffix {c : UInt8} (h : expect c s = some r) : c :: r <:+ s := by
  unfold expect at h
  split at h
  · cases h
  · next c' t hskip =>
    split at h
    · next hc =>
      cases h
      rw [← hc, ← hskip]
      exact List.dropWhile_suffix _
    · cases h

/-- What is left is shorter, and what was read weighs at least `w`. -/
structure Consumes (w : Nat) (s r : GoString) : Prop where
  shorter : r.length < s.length
  weighs : w + ascii r ≤ ascii s

theorem Consumes.trans {w w' : Nat} (h : Consumes w s t) (h' : Consumes w' t r) :
    Consumes (w + w') s r := by
  have := h.weighs
  have := h'.weighs
  exact ⟨Nat.lt_trans h'.shorter h.shorter, by omega⟩

/-- There is something before the text. -/
theorem Consumes.of_suffix {w : Nat} (h : Consumes w t r) (hs : t <:+ s) : Consumes w s r :=
  ⟨Nat.lt_of_lt_of_le h.shorter hs.length_le, h.weighs.trans (ascii_le_of_suffix hs)⟩

theorem Consumes.zero {w : Nat} (h : Consumes w s r) : Consumes 0 s r :=
  ⟨h.shorter, Nat.le_trans (Nat.add_le_add_right (Nat.zero_le w) _) h.weighs⟩

theorem consumes_of_suffix (h : r <:+ s) (hlt : r.length < s.length) : Consumes 0 s r :=
  ⟨hlt, by rw [Nat.zero_add]; exact ascii_le_of_suffix h⟩

theorem expect_consumes {c : UInt8} (hc : c < 128) (h : expect c s = some r) :
    Consumes 1 s r := by
  refine ⟨(expect_suffix h).length_le, ?_⟩
  rw [← ascii_cons_of_lt hc]
  exact ascii_le_of_suffix (expect_suffix h)

/-- A string weighs at least what is read, with its closing quote. -/
theorem parseString_consumes (h : parseString s = some (t, r)) : Consumes (ascii t + 1) s r := by
  obtain ⟨raw, hscan, hunquote⟩ := parseString_eq_some h
  have hweight := (unquoteFrom_weight hunquote).1
  rw [scanString_eq hscan]
  constructor
  · rw [List.length_append, List.length_cons]
    omega
  · rw [ascii_append, ascii_cons_of_lt (by decide)]
    omega

theorem scanDigits_suffix (h : scanDigits s = some r) : r <:+ s ∧ r.length < s.length := by
  unfold scanDigits at h
  split at h
  · cases h
  · next hne =>
    cases h
    refine ⟨List.dropWhile_suffix _, ?_⟩
    have hpos := List.length_pos_of_ne_nil hne
    have hsplit := congrArg List.length (List.takeWhile_append_dropWhile (p := isDigit) (l := s))
    rw [List.length_append] at hsplit
    omega

theorem scanInteger_suffix (h : scanInteger s = some r) : r <:+ s ∧ r.length < s.length := by
  unfold scanInteger at h
  split at h
  · cases h
  · split at h
    · cases h
      exact ⟨List.suffix_cons _ _, Nat.lt_succ_self _⟩
    · exact scanDigits_suffix h

theorem scanFraction_suffix (h : scanFraction s = some r) : r <:+ s := by
  unfold scanFraction at h
  split at h
  · cases h
    exact List.suffix_rfl
  · split at h
    · exact (scanDigits_suffix h).1.trans (List.suffix_cons _ _)
    · cases h
      exact List.suffix_rfl

theorem scanSigned_suffix (h : scanSigned s = some r) : r <:+ s := by
  unfold scanSigned at h
  split at h
  · cases h
  · split at h
    · exact (scanDigits_suffix h).1.trans (List.suffix_cons _ _)
    · exact (scanDigits_suffix h).1

theorem scanExponent_suffix (h : scanExponent s = some r) : r <:+ s := by
  unfold scanExponent at h
  split at h
  · cases h
    exact List.suffix_rfl
  · split at h
    · exact (scanSigned_suffix h).trans (List.suffix_cons _ _)
    · cases h
      exact List.suffix_rfl

theorem scanNumber_suffix (h : scanNumber s = some r) : r <:+ s ∧ r.length < s.length := by
  unfold scanNumber at h
  split at h
  · cases h
  · next c t =>
    obtain ⟨s₂, h, hexponent⟩ := Option.bind_eq_some_iff.mp h
    obtain ⟨s₁, hinteger, hfraction⟩ := Option.bind_eq_some_iff.mp h
    obtain ⟨hsuffix, hlt⟩ := scanInteger_suffix hinteger
    have hrest := (scanExponent_suffix hexponent).trans (scanFraction_suffix hfraction)
    have hsign : (if c = 45 then t else c :: t) <:+ c :: t := by
      split
      · exact List.suffix_cons _ _
      · exact List.suffix_rfl
    exact ⟨hrest.trans (hsuffix.trans hsign),
      Nat.lt_of_le_of_lt hrest.length_le (Nat.lt_of_lt_of_le hlt hsign.length_le)⟩

/-- What a value weighs at least: a string with its quotes. -/
def weight : Json → Nat
  | .string t => ascii t + 2
  | _ => 0

/-- Each item has its separator. -/
theorem parseItems_consumes {w : α → Nat} (hclose : close < 128)
    (hitem : ∀ s x r, item s = some (x, r) → Consumes (w x) s r) {n : Nat}
    (h : parseItems item close n s = some (xs, r)) :
    Consumes (xs.map (fun x => w x + 1)).sum s r := by
  induction n generalizing s xs with
  | zero => cases h
  | succ n ih =>
    obtain ⟨⟨x, s₁⟩, hx, h⟩ := Option.bind_eq_some_iff.mp h
    simp only at h
    split at h
    · next r' hr =>
      cases h
      simpa using (hitem s x s₁ hx).trans (expect_consumes hclose hr)
    · obtain ⟨s₂, hcomma, h⟩ := Option.bind_eq_some_iff.mp h
      obtain ⟨⟨xs', r'⟩, hxs, heq⟩ := Option.map_eq_some_iff.mp h
      cases heq
      rw [List.map_cons, List.sum_cons]
      exact ((hitem s x s₁ hx).trans (expect_consumes (by decide) hcomma)).trans (ih hxs)

theorem parseMember_consumes {value : GoString → Option (Json × GoString)}
    (hvalue : ∀ s v r, value s = some (v, r) → Consumes (weight v) s r)
    {m : GoString × Json} (h : parseMember value s = some (m, r)) :
    Consumes (3 + ascii m.1 + weight m.2) s r := by
  obtain ⟨s₁, hquote, h⟩ := Option.bind_eq_some_iff.mp h
  obtain ⟨⟨key, s₂⟩, hkey, h⟩ := Option.bind_eq_some_iff.mp h
  obtain ⟨s₃, hcolon, h⟩ := Option.bind_eq_some_iff.mp h
  obtain ⟨⟨v, r'⟩, hv, heq⟩ := Option.map_eq_some_iff.mp h
  cases heq
  have hall := (((expect_consumes (by decide) hquote).trans (parseString_consumes hkey)).trans
    (expect_consumes (by decide) hcolon)).trans (hvalue _ _ _ hv)
  have := hall.weighs
  exact ⟨hall.shorter, by simp only; omega⟩

theorem parseList_consumes {w : α → Nat} (hclose : close < 128)
    (hitem : ∀ s x r, item s = some (x, r) → Consumes (w x) s r)
    (h : parseList item close s = some (xs, r)) : Consumes 0 s r := by
  unfold parseList at h
  split at h
  · next r' hr =>
    cases h
    exact (expect_consumes hclose hr).zero
  · exact (parseItems_consumes hclose hitem h).zero

theorem parseLiteral_consumes {word : GoString} (hword : word ≠ []) {c : UInt8} {v v' : Json}
    (hv : weight v = 0) (h : parseLiteral word v (c :: t) = some (v', r)) :
    Consumes (weight v') (c :: t) r := by
  unfold parseLiteral at h
  split at h
  · cases h
    have := List.length_pos_of_ne_nil hword
    rw [hv]
    refine consumes_of_suffix (List.drop_suffix _ _) ?_
    rw [List.length_drop, List.length_cons]
    omega
  · cases h

theorem parseValue_consumes {n : Nat} {v : Json} (h : parseValue n s = some (v, r)) :
    Consumes (weight v) s r := by
  induction n generalizing s v r with
  | zero => cases h
  | succ n ih =>
    have hskip : skipSpace s <:+ s := List.dropWhile_suffix isSpace
    have hvalue := fun s v r (h : parseValue n s = some (v, r)) => ih h
    rw [parseValue] at h
    generalize skipSpace s = s' at h hskip
    cases s' with
    | nil => cases h
    | cons c t =>
      refine Consumes.of_suffix ?_ hskip
      simp only at h
      split_ifs at h with hbrace hbracket hquote
      · obtain ⟨⟨ms, r'⟩, hms, heq⟩ := Option.map_eq_some_iff.mp h
        cases heq
        exact (parseList_consumes (by decide) (fun _ _ _ => parseMember_consumes hvalue)
          hms).of_suffix (List.suffix_cons _ _)
      · obtain ⟨⟨vs, r'⟩, hvs, heq⟩ := Option.map_eq_some_iff.mp h
        cases heq
        exact (parseList_consumes (by decide) hvalue hvs).of_suffix (List.suffix_cons _ _)
      · obtain ⟨⟨t', r'⟩, hs, heq⟩ := Option.map_eq_some_iff.mp h
        cases heq
        have hs := parseString_consumes hs
        have := hs.weighs
        refine ⟨Nat.lt_succ_of_lt hs.shorter, ?_⟩
        rw [hquote, ascii_cons_of_lt (by decide)]
        simp only [weight]
        omega
      · exact parseLiteral_consumes (by decide) rfl h
      · exact parseLiteral_consumes (by decide) rfl h
      · exact parseLiteral_consumes (by decide) rfl h
      · obtain ⟨r', hr, heq⟩ := Option.map_eq_some_iff.mp h
        cases heq
        exact consumes_of_suffix (scanNumber_suffix hr).1 (scanNumber_suffix hr).2

end Weight

/-! ## Depth

The bounds on the depth of a value and on the number of items are never reached: every value and
every item takes at least a byte. -/

section Depth

variable {s t r : GoString}

theorem expect_length {c : UInt8} (h : expect c s = some r) : r.length < s.length :=
  (expect_suffix h).length_le

variable {n : Nat} {α : Type}

/-- The parsers of items agree on texts that are not longer, and so do the lists. -/
theorem parseItems_congr {item item' : GoString → Option (α × GoString)} {close : UInt8}
    (hitem : ∀ s x r, item s = some (x, r) → r.length < s.length) {m : Nat} (hn : s.length ≤ n)
    (hm : s.length ≤ m) (hsame : ∀ u, u.length ≤ s.length → item u = item' u) :
    parseItems item close n s = parseItems item' close m s := by
  induction n generalizing m s with
  | zero =>
    -- there is nothing to read
    have hs : s = [] := List.length_eq_zero_iff.mp (Nat.le_zero.mp hn)
    have hnone : item s = none := by
      cases h : item s with
      | none => rfl
      | some p =>
        have := hitem s p.1 p.2 h
        omega
    cases m with
    | zero => rfl
    | succ m =>
      rw [parseItems, parseItems, ← hsame s (Nat.le_refl _), hnone]
      rfl
  | succ n ih =>
    have hs := hsame s (Nat.le_refl _)
    cases hx : item s with
    | none =>
      rw [hx] at hs
      cases m with
      | zero => rw [parseItems, parseItems, hx, Option.bind_none]
      | succ m => rw [parseItems, parseItems, hx, ← hs, Option.bind_none, Option.bind_none]
    | some p =>
      obtain ⟨x, s₁⟩ := p
      have hlen := hitem s x s₁ hx
      cases m with
      | zero => omega
      | succ m =>
        rw [parseItems, parseItems, ← hs, hx]
        simp only [Option.bind_some]
        cases hclose : expect close s₁ with
        | some r => rfl
        | none =>
          cases hcomma : expect comma s₁ with
          | none => rfl
          | some s₂ =>
            have := expect_length hcomma
            simp only [Option.bind_some]
            rw [ih (m := m) (by omega) (by omega) (fun u hu => hsame u (by omega))]

theorem parseMember_congr {value value' : GoString → Option (Json × GoString)}
    (hsame : ∀ u, u.length ≤ s.length → value u = value' u) :
    parseMember value s = parseMember value' s := by
  unfold parseMember
  cases hquote : expect quote s with
  | none => rfl
  | some s₁ =>
    cases hkey : parseString s₁ with
    | none => simp only [Option.bind_some, hkey, Option.bind_none]
    | some p =>
      obtain ⟨key, s₂⟩ := p
      cases hcolon : expect colon s₂ with
      | none => simp only [Option.bind_some, hkey, hcolon, Option.bind_none]
      | some s₃ =>
        have h₁ := expect_length hquote
        have h₂ := (parseString_consumes hkey).shorter
        have h₃ := expect_length hcolon
        simp only [Option.bind_some, hkey, hcolon, hsame s₃ (by omega)]

theorem parseList_congr {item item' : GoString → Option (α × GoString)} (close : UInt8)
    (hitem : ∀ s x r, item s = some (x, r) → r.length < s.length)
    (hsame : ∀ u, u.length ≤ s.length → item u = item' u) :
    parseList item close s = parseList item' close s := by
  unfold parseList
  split
  · rfl
  · exact parseItems_congr hitem (Nat.le_refl _) (Nat.le_refl _) hsame

/-- The depth is enough when it is greater than the length of the text. -/
theorem parseValue_depth {m : Nat} (hn : s.length < n) (hm : s.length < m) :
    parseValue n s = parseValue m s := by
  induction n generalizing m s with
  | zero => omega
  | succ n ih =>
    cases m with
    | zero => omega
    | succ m =>
      have hskip : (skipSpace s).length ≤ s.length :=
        (List.dropWhile_suffix isSpace).length_le
      rw [parseValue, parseValue]
      generalize skipSpace s = s' at hskip
      cases s' with
      | nil => rfl
      | cons c t =>
        rw [List.length_cons] at hskip
        have hsame : ∀ u, u.length ≤ t.length → parseValue n u = parseValue m u :=
          fun u hu => ih (by omega) (by omega)
        have hmembers := parseList_congr (s := t) closeBrace
          (fun _ _ _ h => (parseMember_consumes (fun _ _ _ => parseValue_consumes) h).shorter)
          (fun u hu => parseMember_congr (fun u' hu' => hsame u' (by omega)))
        have helems := parseList_congr (s := t) closeBracket
          (fun _ _ _ h => (parseValue_consumes h).shorter) hsame
        simp only [hmembers, helems]

theorem parse_eq (hn : s.length < n) :
    parse s = (parseValue n s).bind (fun (v, r) => if skipSpace r = [] then some v else none) := by
  rw [parse, parseValue_depth (Nat.lt_succ_self _) hn]

end Depth

/-! ## The first byte of a text -/

theorem expect_self (hc : isSpace c = false) (s : GoString) :
    expect c (c :: s) = some s := by
  rw [expect, skipSpace, List.dropWhile_cons_of_neg (by simp [hc])]
  exact if_pos rfl

theorem expect_ne {d : UInt8} (hc : isSpace c = false) (hne : c ≠ d) (s : GoString) :
    expect d (c :: s) = none := by
  rw [expect, skipSpace, List.dropWhile_cons_of_neg (by simp [hc])]
  exact if_neg hne

theorem parseValue_string (n : Nat) (t : GoString) :
    parseValue (n + 1) (quote :: t) = (parseString t).map (fun (s, r) => (.string s, r)) := by
  rw [parseValue, skipSpace, List.dropWhile_cons_of_neg (by decide)]
  rfl

/-! ## The weight of keys -/

/-- The letters that only ASCII folds to, which are all but S and K. -/
def foldsInAscii (c : UInt8) : Bool := c != 115 && c != 83 && c != 107 && c != 75

/-- A key that names a field has the length of the name, unless the name has letters with a
folding outside of ASCII. -/
theorem equalFold_ascii {name key : GoString} (h : equalFold name key = true)
    (hname : name.all foldsInAscii = true) : ascii key = name.length := by
  induction name generalizing key with
  | nil =>
    rw [equalFold, List.isEmpty_iff] at h
    rw [h]
    rfl
  | cons c name ih =>
    rw [List.all_cons, Bool.and_eq_true] at hname
    obtain ⟨hc, hname⟩ := hname
    have hc : c ≠ 115 ∧ c ≠ 83 ∧ c ≠ 107 ∧ c ≠ 75 := by
      simpa [foldsInAscii, and_assoc] using hc
    cases key with
    | nil => cases h
    | cons b key =>
      rw [equalFold.eq_def] at h
      simp only at h
      split at h
      · next hb =>
        rw [Bool.and_eq_true] at h
        rw [ascii_cons_of_lt hb, ih h.2 hname, List.length_cons, Nat.add_comm]
      · split at h
        · simp [hc.1, hc.2.1] at h
        · simp [hc.2.2.1, hc.2.2.2] at h
        · cases h

theorem fieldFor_mem {names : List GoString} {key name : GoString}
    (h : fieldFor names key = some name) : name ∈ names := by
  unfold fieldFor at h
  split at h
  · next hmem =>
    cases h
    exact hmem
  · exact List.mem_of_find?_eq_some h

theorem fieldFor_eq_some {names : List GoString} {key name : GoString}
    (h : fieldFor names key = some name) : name = key ∨ equalFold name key = true := by
  unfold fieldFor at h
  split at h
  · cases h
    exact .inl rfl
  · exact .inr (List.find?_some (p := fun name => equalFold name key) h)

end Json

end Loggregator.Lib
