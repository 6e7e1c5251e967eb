import Loggregator.Lib.Dict
import Loggregator.Lib.Json

/-!
# Storing JSON values

How `encoding/json` of Go 1.8 stores a value that it has parsed. A value of the wrong type is an
error that the decoder remembers while it goes on with the rest, so a decoder returns what it has
stored together with whether it has met such a value. A null leaves most values as they are.

`Decoder.Decode` reads the first value of a text; it looks neither at what follows nor stores
anything when the text does not start with a value.
-/

namespace Loggregator.Lib

universe u

/-- What is stored by a value over what was there, and whether there was an error. -/
abbrev Decoder (α : Type u) := Json → α → α × Bool

namespace Decoder

variable {α : Type u}

/-- Into a string. -/
def string : Decoder GoString
  | .null, s => (s, false)
  | .string t, _ => (t, false)
  | _, s => (s, true)

/-- Into an int, which has 64 bits. -/
def int : Decoder Int64
  | .null, n => (n, false)
  | .number text, n =>
    match parseInt text with
    | some m => (m, false)
    | none => (n, true)
  | _, n => (n, true)

/-- Into a pointer. It is set to a new value before anything is stored there, except that a null
makes it nil. -/
def pointer (zero : α) (target : Decoder α) : Decoder (Option α)
  | .null, _ => (none, false)
  | v, p =>
    let (a, err) := target v (p.getD zero)
    (some a, err)

/-- A slice with the elements that are still behind its end. -/
structure Slice (α : Type u) where
  elems : List α := []
  spare : List α := []

/-- The elements of an array, each over the one that was at its index. -/
def elements (zero : α) (target : Decoder α) : List Json → List α → List α × Bool
  | [], _ => ([], false)
  | v :: vs, old =>
    let (a, err) := target v (old.head?.getD zero)
    let (as, errs) := elements zero target vs old.tail
    (a :: as, err || errs)

/-- Into a slice. An empty array makes a new one. -/
def slice (zero : α) (target : Decoder α) : Decoder (Slice α)
  | .null, _ => ({}, false)
  | .array [], _ => ({}, false)
  | .array vs, s =>
    let (elems, err) := elements zero target vs (s.elems ++ s.spare)
    (⟨elems, (s.elems ++ s.spare).drop elems.length⟩, err)
  | _, s => (s, true)

/-- The members of an object one after another. -/
def members (store : α → GoString × Json → α × Bool) (ms : List (GoString × Json)) (a : α) :
    α × Bool :=
  ms.foldl (fun (a, err) m =>
    let (a, err') := store a m
    (a, err || err')) (a, false)

/-- Into a struct. -/
def struct (store : α → GoString × Json → α × Bool) : Decoder α
  | .null, a => (a, false)
  | .object ms, a => members store ms a
  | _, a => (a, true)

/-- Into a map with strings as keys. Each member is stored over a zero value, and goes into the
map also after an error. -/
def map (zero : α) (target : Decoder α) : Decoder (Dict GoString α)
  | .null, _ => (∅, false)
  | .object ms, m =>
    members (fun m (key, v) =>
      let (a, err) := target v zero
      (m.insert key a, err)) ms m
  | _, m => (m, true)

/-! ## Into an interface

A value of any type can be stored. Its numbers become floats, which is an error for a number that
is out of their range. -/

section Any

open Json

/-- The exponent of a number, as `readFloat` reads it. -/
def exponent (ds : GoString) : Nat :=
  ds.foldl (fun e c => if e < 10000 then 10 * e + (c.toNat - 48) else e) 0

/-- The magnitude from which on numbers are rounded to infinity. -/
def maxFloat64 : Nat := 2 ^ 1024 - 2 ^ 970

/-- The number is in the range of `strconv.ParseFloat`. -/
def inRange (text : GoString) : Bool :=
  let digits := if text.head? = some 45 then text.tail else text
  let rest := digits.dropWhile isDigit
  let fraction := if rest.head? = some 46 then rest.tail.takeWhile isDigit else []
  let rest := if rest.head? = some 46 then rest.tail.dropWhile isDigit else rest
  let mantissa := (digits.takeWhile isDigit ++ fraction).foldl
    (fun n c => 10 * n + (c.toNat - 48)) 0
  match rest.tail with
  | 45 :: ds => mantissa < maxFloat64 * 10 ^ (fraction.length + exponent ds)
  | 43 :: ds => mantissa * 10 ^ exponent ds < maxFloat64 * 10 ^ fraction.length
  | ds => mantissa * 10 ^ exponent ds < maxFloat64 * 10 ^ fraction.length

mutual

/-- All numbers of a value are in range. -/
def numbersInRange : Json → Bool
  | .number text => inRange text
  | .array vs => elementsInRange vs
  | .object ms => membersInRange ms
  | .null | .bool _ | .string _ => true

def elementsInRange : List Json → Bool
  | [] => true
  | v :: vs => numbersInRange v && elementsInRange vs

def membersInRange : List (GoString × Json) → Bool
  | [] => true
  | m :: ms => memberInRange m && membersInRange ms

def memberInRange : GoString × Json → Bool
  | (_, v) => numbersInRange v

end

/-- Into an interface. -/
def any : Decoder Json := fun v _ => (v, !numbersInRange v)

end Any

/-- `json.NewDecoder(..).Decode` of a text. -/
def decode (target : Decoder α) (zero : α) (text : GoString) : α × Bool :=
  match Json.parseValue (text.length + 1) text with
  | none => (zero, true)
  | some (v, _) => target v zero

/-- `json.Unmarshal`, which fails before it stores anything when the text is no value. -/
def unmarshal (target : Decoder α) (zero : α) (text : GoString) : α × Bool :=
  match Json.parse text with
  | none => (zero, true)
  | some v => target v zero

end Decoder

end Loggregator.Lib
