import Loggregator.Lib.Json

/-!
# Writing JSON

How `json.Marshal` of Go 1.8 writes strings, numbers, arrays and objects. A text `ReadsAs` a value
when the parser takes it from the front of any longer text in which it ends. There is one reading
lemma for each of the writers, so that what a composed text is read as follows its composition.
-/

namespace Loggregator.Lib.Json

open Utf8

/-! ## Strings -/

/-- A byte that stands in a string as it is (`htmlSafeSet`). -/
def htmlSafe (c : UInt8) : Bool :=
  32 ≤ c && c < 128 && c != quote && c != backslash && c != 60 && c != 62 && c != 38

/-- The escape of another byte below 128. -/
def escapeByte (c : UInt8) : GoString :=
  if c = quote ∨ c = backslash then [backslash, c]
  else if c = 10 then str "\\n"
  else if c = 13 then str "\\r"
  else if c = 9 then str "\\t"
  else str "\\u00" ++ [hexDigit (c.toNat / 16), hexDigit (c.toNat % 16)]

/-- The line separators, which JavaScript does not allow in strings. -/
def lineSeparator : GoString := [0xE2, 0x80, 0xA8]
def paragraphSeparator : GoString := [0xE2, 0x80, 0xA9]

/-- The loop of `encodeState.string`; the length of the text is enough for its first argument. -/
def escapeFrom : Nat → GoString → GoString
  | 0, _ => []
  | _, [] => []
  | n + 1, c :: s =>
    if c < 128 then (if htmlSafe c then [c] else escapeByte c) ++ escapeFrom n s
    else
      match runeSize (c :: s) with
      | none => str "\\ufffd" ++ escapeFrom n s
      | some size =>
        let rune := (c :: s).take size
        let text :=
          if rune = lineSeparator then str "\\u2028"
          else if rune = paragraphSeparator then str "\\u2029"
          else rune
        text ++ escapeFrom n ((c :: s).drop size)

/-- `encodeState.string`. -/
def encodeString (s : GoString) : GoString := quote :: (escapeFrom s.length s ++ [quote])

variable {c : UInt8} {s : GoString}

theorem lt_of_htmlSafe (h : htmlSafe c = true) : c < 128 := by
  simp only [htmlSafe, Bool.and_eq_true, decide_eq_true_eq] at h
  exact h.1.1.1.1.1.2

theorem isPlainByte_of_htmlSafe (h : htmlSafe c = true) : isPlainByte c = true := by
  simp only [htmlSafe, Bool.and_eq_true] at h
  simp only [isPlainByte, Bool.and_eq_true]
  exact ⟨⟨⟨h.1.1.1.1.2, h.1.1.1.2⟩, h.1.1.1.1.1.1⟩, h.1.1.1.1.1.2⟩

theorem plain_of_htmlSafe (h : s.all htmlSafe = true) : Plain s := by
  apply plain_of_all
  rw [List.all_eq_true] at h ⊢
  exact fun c hc => isPlainByte_of_htmlSafe (h c hc)

theorem encodeString_htmlSafe (h : s.all htmlSafe = true) :
    encodeString s = quote :: (s ++ [quote]) := by
  have hloop : escapeFrom s.length s = s := by
    induction s with
    | nil => rfl
    | cons c s ih =>
      rw [List.all_cons, Bool.and_eq_true] at h
      rw [List.length_cons, escapeFrom, if_pos (lt_of_htmlSafe h.1), if_pos h.1, ih h.2]
      rfl
  rw [encodeString, hloop]

/-! ## Arrays and objects -/

/-- Texts with commas between them, and a closing byte. -/
def writeItems (close : UInt8) : List GoString → GoString
  | [] => [close]
  | [text] => text ++ [close]
  | text :: texts => text ++ comma :: writeItems close texts

/-- An array of these texts. -/
def writeArray (texts : List GoString) : GoString := openBracket :: writeItems closeBracket texts

/-- A member of an object. -/
def writeMember (key text : GoString) : GoString := encodeString key ++ colon :: text

/-- An object of these members. -/
def writeObject (members : List GoString) : GoString := openBrace :: writeItems closeBrace members

/-! ## Reading back -/

/-- What can follow a value. -/
def Ends (r : GoString) : Prop := ∀ c ∈ r.head?, c = comma ∨ c = closeBracket ∨ c = closeBrace

theorem ends_nil : Ends [] := fun _ h => (Option.not_mem_none _ h).elim

theorem ends_cons (hc : c = comma ∨ c = closeBracket ∨ c = closeBrace) (r : GoString) :
    Ends (c :: r) := fun _ h => Option.some.inj h ▸ hc

/-- The parser reads the text as this. The first byte is not one that a list looks at. -/
structure ReadsAs {α : Type} (item : GoString → Option (α × GoString)) (text : GoString) (x : α) :
    Prop where
  read : ∀ r, Ends r → item (text ++ r) = some (x, r)
  first : ∃ c t, text = c :: t ∧ isSpace c = false ∧ c ≠ closeBracket ∧ c ≠ closeBrace

/-- A text that is read as a value is the text of that value. -/
theorem ReadsAs.parse {n : Nat} {text : GoString} {v : Json} (h : ReadsAs (parseValue n) text v)
    (hn : text.length < n) : parse text = some v := by
  have hread := h.read [] ends_nil
  rw [List.append_nil] at hread
  rw [parse_eq hn, hread]
  rfl

theorem readsAs_string (hs : s.all htmlSafe = true) (n : Nat) :
    ReadsAs (parseValue (n + 1)) (encodeString s) (.string s) := by
  rw [encodeString_htmlSafe hs]
  refine ⟨fun r _ => ?_, quote, s ++ [quote], rfl, by decide, by decide, by decide⟩
  rw [List.cons_append, List.append_assoc, parseValue_string]
  show (parseString (s ++ quote :: r)).map _ = _
  rw [parseString_plain (plain_of_htmlSafe hs)]
  rfl

theorem ReadsAs.member {key text : GoString} {v : Json}
    {value : GoString → Option (Json × GoString)} (hkey : key.all htmlSafe = true)
    (h : ReadsAs value text v) : ReadsAs (parseMember value) (writeMember key text) (key, v) := by
  rw [writeMember, encodeString_htmlSafe hkey]
  refine ⟨fun r hr => ?_, quote, key ++ [quote] ++ colon :: text, rfl, by decide, by decide,
    by decide⟩
  have htext : quote :: (key ++ [quote]) ++ colon :: text ++ r =
      quote :: (key ++ quote :: colon :: (text ++ r)) := by simp
  rw [htext]
  simp only [parseMember, expect_self (c := quote) rfl, expect_self (c := colon) rfl,
    parseString_plain (plain_of_htmlSafe hkey), Option.bind_some, h.read r hr, Option.map_some]

section Lists

variable {α : Type} {item : GoString → Option (α × GoString)} {close : UInt8}
  {texts : List GoString} {xs : List α}

/-- The closing byte of a list. -/
def Closes (close : UInt8) : Prop := close = closeBracket ∨ close = closeBrace

theorem Closes.not_space (h : Closes close) : isSpace close = false := by
  rcases h with rfl | rfl <;> decide

theorem Closes.ne_comma (h : Closes close) : comma ≠ close := by
  rcases h with rfl | rfl <;> decide

theorem Closes.ends (h : Closes close) (r : GoString) : Ends (close :: r) := ends_cons (.inr h) r

theorem parseItems_write (hclose : Closes close) (h : List.Forall₂ (ReadsAs item) texts xs)
    (hne : texts ≠ []) {n : Nat} (hn : texts.length ≤ n) (r : GoString) :
    parseItems item close n (writeItems close texts ++ r) = some (xs, r) := by
  induction h generalizing n with
  | nil => exact absurd rfl hne
  | @cons text x texts xs htext htexts ih =>
    cases n with
    | zero => simp at hn
    | succ n =>
      cases htexts with
      | nil =>
        rw [writeItems, List.append_assoc, List.singleton_append, parseItems,
          htext.read _ (hclose.ends r), Option.bind_some]
        simp only [expect_self hclose.not_space]
      | cons htext' htexts' =>
        rw [writeItems.eq_3 _ _ _ (List.cons_ne_nil _ _), List.append_assoc, List.cons_append,
          parseItems, htext.read _ (ends_cons (.inl rfl) _), Option.bind_some]
        simp only [expect_ne (c := comma) rfl hclose.ne_comma, expect_self (c := comma) rfl,
          Option.bind_some]
        rw [ih (List.cons_ne_nil _ _) (Nat.le_of_succ_le_succ hn)]
        rfl

/-- A list is at least as long as it has items. -/
theorem length_le_writeItems (close : UInt8) (texts : List GoString) :
    texts.length ≤ (writeItems close texts).length := by
  fun_induction writeItems close texts with
  | case1 | case2 => simp
  | case3 text texts _ ih =>
    rw [List.length_cons, List.length_append, List.length_cons]
    omega

theorem parseList_write (hclose : Closes close) (h : List.Forall₂ (ReadsAs item) texts xs)
    (r : GoString) : parseList item close (writeItems close texts ++ r) = some (xs, r) := by
  cases h with
  | nil =>
    rw [parseList, writeItems, List.singleton_append, expect_self hclose.not_space]
  | @cons text x texts xs htext htexts =>
    have hnone : expect close (writeItems close (text :: texts) ++ r) = none := by
      obtain ⟨c, t, rfl, hc, hbracket, hbrace⟩ := htext.first
      have hne : c ≠ close := by
        rcases hclose with rfl | rfl
        · exact hbracket
        · exact hbrace
      cases texts with
      | nil | cons => exact expect_ne hc hne _
    have hlength := length_le_writeItems close (text :: texts)
    rw [parseList, hnone]
    refine parseItems_write hclose (.cons htext htexts) (List.cons_ne_nil _ _) ?_ r
    rw [List.length_append]
    omega

end Lists

theorem ReadsAs.array {n : Nat} {texts : List GoString} {vs : List Json}
    (h : List.Forall₂ (ReadsAs (parseValue n)) texts vs) :
    ReadsAs (parseValue (n + 1)) (writeArray texts) (.array vs) := by
  refine ⟨fun r _ => ?_, openBracket, writeItems closeBracket texts, rfl, by decide, by decide,
    by decide⟩
  rw [writeArray, List.cons_append, parseValue, skipSpace, List.dropWhile_cons_of_neg (by decide)]
  simp only [parseList_write (.inl rfl) h]
  rfl

theorem ReadsAs.object {n : Nat} {members : List GoString} {ms : List (GoString × Json)}
    (h : List.Forall₂ (ReadsAs (parseMember (parseValue n))) members ms) :
    ReadsAs (parseValue (n + 1)) (writeObject members) (.object ms) := by
  refine ⟨fun r _ => ?_, openBrace, writeItems closeBrace members, rfl, by decide, by decide,
    by decide⟩
  rw [writeObject, List.cons_append, parseValue, skipSpace, List.dropWhile_cons_of_neg (by decide)]
  simp only [parseList_write (.inr rfl) h]
  rfl

/-! ## Numbers -/

theorem isDigit_of_mem_formatNat {m : Nat} (h : c ∈ formatNat m) :
    isDigit c = true := by
  have hdigit : ∀ d < 10, isDigit (decDigit d) = true := by decide
  obtain ⟨d, hd, rfl⟩ := mem_formatNat h
  exact hdigit d hd

theorem htmlSafe_formatNat (m : Nat) : (formatNat m).all htmlSafe = true := by
  have hdigit : ∀ d < 10, htmlSafe (decDigit d) = true := by decide
  rw [List.all_eq_true]
  intro c hc
  obtain ⟨d, hd, rfl⟩ := mem_formatNat hc
  exact hdigit d hd

/-- The digits of a number other than zero do not start with a zero. -/
theorem formatNat_first {m : Nat} (hm : m ≠ 0) (h : formatNat m = c :: s) : c ≠ 48 := by
  have hdigit : ∀ d < 10, d ≠ 0 → decDigit d ≠ 48 := by decide
  have hne : Nat.digits 10 m ≠ [] := Nat.digits_ne_nil_iff_ne_zero.mpr hm
  have hlast := Nat.getLast_digit_ne_zero 10 hm
  rw [formatNat, if_neg hm, ← List.dropLast_append_getLast hne, List.reverse_append,
    List.reverse_singleton, List.singleton_append, List.map_cons] at h
  cases h
  exact hdigit _ (Nat.digits_lt_base (by decide) (List.getLast_mem hne)) hlast

/-- What ends a value is no part of a number. -/
theorem Ends.not_number {r : GoString} (hr : Ends r) :
    r.takeWhile isDigit = [] ∧ scanFraction r = some r ∧ scanExponent r = some r := by
  cases r with
  | nil => exact ⟨rfl, rfl, rfl⟩
  | cons c r => rcases hr c rfl with rfl | rfl | rfl <;> exact ⟨rfl, rfl, rfl⟩

theorem scanDigits_append {ds r : GoString} (hds : ∀ c ∈ ds, isDigit c = true) (hne : ds ≠ [])
    (hr : r.takeWhile isDigit = []) : scanDigits (ds ++ r) = some r := by
  have hdrop : r.dropWhile isDigit = r := by
    have happ := List.takeWhile_append_dropWhile (p := isDigit) (l := r)
    rwa [hr, List.nil_append] at happ
  rw [scanDigits, List.takeWhile_append_of_pos hds, hr, List.append_nil, if_neg hne,
    List.dropWhile_append_of_pos hds, hdrop]

theorem scanNumber_formatNat (m : Nat) {r : GoString} (hr : Ends r) :
    scanNumber (formatNat m ++ r) = some r := by
  obtain ⟨hdigits, hfraction, hexponent⟩ := hr.not_number
  have hinteger : scanInteger (formatNat m ++ r) = some r := by
    by_cases hm : m = 0
    · subst hm
      rfl
    · have hds := scanDigits_append (fun c hc => isDigit_of_mem_formatNat hc)
        (formatNat_ne_nil m) hdigits
      cases htext : formatNat m with
      | nil => exact absurd htext (formatNat_ne_nil m)
      | cons c s =>
        rw [htext] at hds
        rw [List.cons_append, scanInteger, if_neg (formatNat_first hm htext)]
        exact hds
  cases htext : formatNat m with
  | nil => exact absurd htext (formatNat_ne_nil m)
  | cons c s =>
    rw [htext] at hinteger
    rw [List.cons_append, scanNumber, if_neg (formatNat_head htext).1]
    rw [List.cons_append] at hinteger
    rw [hinteger, Option.bind_some, hfraction, Option.bind_some, hexponent]

theorem readsAs_formatNat (m n : Nat) :
    ReadsAs (parseValue (n + 1)) (formatNat m) (.number (formatNat m)) := by
  have hscan := fun r => scanNumber_formatNat (r := r) m
  have hdigits := fun c => isDigit_of_mem_formatNat (m := m) (c := c)
  cases htext : formatNat m with
  | nil => exact absurd htext (formatNat_ne_nil m)
  | cons c s =>
    rw [htext] at hscan hdigits
    have hc := hdigits c List.mem_cons_self
    have hother : ∀ d, isDigit d = false → c ≠ d := by
      intro d hd hcd
      rw [hcd, hd] at hc
      cases hc
    have hspace : isSpace c = false := by
      simp [isSpace, hother 32 rfl, hother 9 rfl, hother 13 rfl, hother 10 rfl]
    refine ⟨fun r hr => ?_, c, s, rfl, hspace, hother _ rfl, hother _ rfl⟩
    rw [List.cons_append, parseValue, skipSpace, List.dropWhile_cons_of_neg (by simp [hspace])]
    simp only [if_neg (hother openBrace rfl), if_neg (hother openBracket rfl),
      if_neg (hother quote rfl), if_neg (hother 110 rfl), if_neg (hother 116 rfl),
      if_neg (hother 102 rfl)]
    rw [← List.cons_append, parseNumber, hscan r hr, Option.map_some, List.length_append,
      Nat.add_sub_cancel, List.take_left]

end Loggregator.Lib.Json
