import Loggregator.Lib.Bytes

/-!
# HTML templates and delimited texts

A template of `html/template` whose values all stand in the text of the document: static texts and
values, where every value is escaped for HTML. A byte that the escaper neither replaces nor writes
occurs in the output as often as in the static text and in the values, so the output of a template
has the fields of its static text just when no value holds the delimiter.
-/

namespace Loggregator.Lib

theorem sum_count_eq_zero_iff (c : UInt8) (l : List GoString) :
    (l.map (List.count c)).sum = 0 ↔ ∀ s ∈ l, c ∉ s := by
  rw [List.sum_eq_zero_iff_forall_eq_nat, List.forall_mem_map]
  simp only [List.count_eq_zero]

theorem count_intercalate (c : UInt8) {l : List GoString} (hl : l ≠ []) :
    ([c].intercalate l).count c + 1 = l.length + (l.map (List.count c)).sum := by
  induction l with
  | nil => exact absurd rfl hl
  | cons s l ih =>
    cases l with
    | nil => simp [Nat.add_comm]
    | cons t l =>
      have ih := ih (by simp)
      rw [List.intercalate_cons_cons, List.count_append, List.count_append, List.length_cons,
        List.map_cons, List.sum_cons, List.count_singleton_self]
      omega

/-- Joined fields are read back as they were once their number is right. -/
theorem splitOn_intercalate_of_length {c : UInt8} {l : List GoString} (hl : l ≠ [])
    (h : (([c].intercalate l).splitOn c).length = l.length) :
    ([c].intercalate l).splitOn c = l := by
  have hcount := count_intercalate c hl
  have hzero : (l.map (List.count c)).sum = 0 := by
    rw [length_splitOn] at h
    omega
  exact List.splitOn_intercalate c ((sum_count_eq_zero_iff c l).mp hzero) hl

/-- Lines that each end with a line break are also joined by them, before an empty last one. -/
theorem intercalate_concat_nil (c : UInt8) (lines : List GoString) :
    [c].intercalate (lines ++ [[]]) = lines.flatMap (fun line => line ++ [c]) := by
  induction lines with
  | nil => rfl
  | cons line lines ih =>
    rw [List.flatMap_cons, ← ih]
    cases lines with
    | nil => exact List.intercalate_cons_cons
    | cons next lines => exact List.intercalate_cons_cons

namespace HtmlTemplate

/-- The bytes that the escaper replaces, with their replacements (`htmlReplacementTable`). -/
def replacementTable : List (UInt8 × GoString) :=
  [(0, str "�"), (34, str "&#34;"), (38, str "&amp;"), (39, str "&#39;"), (43, str "&#43;"),
    (60, str "&lt;"), (62, str "&gt;")]

def escapeByte (c : UInt8) : GoString := (replacementTable.lookup c).getD [c]

/-- `htmlEscaper` on a string. -/
def escape (s : GoString) : GoString := s.flatMap escapeByte

/-- A byte that the escaper neither replaces nor writes. -/
def Kept (c : UInt8) : Prop := ∀ r ∈ replacementTable, c ≠ r.1 ∧ c ∉ r.2

instance (c : UInt8) : Decidable (Kept c) :=
  inferInstanceAs (Decidable (∀ r ∈ replacementTable, c ≠ r.1 ∧ c ∉ r.2))

theorem count_escapeByte {c : UInt8} (hc : Kept c) (b : UInt8) :
    (escapeByte b).count c = [b].count c := by
  unfold escapeByte
  cases hr : replacementTable.lookup b with
  | none => rfl
  | some text =>
    obtain ⟨pre, post, htable, -⟩ := List.lookup_eq_some_iff.mp hr
    obtain ⟨hne, hnot⟩ := hc (b, text) (by simp [htable])
    rw [Option.getD_some, List.count_eq_zero.mpr hnot,
      List.count_eq_zero.mpr (by simpa using hne)]

theorem count_escape {c : UInt8} (hc : Kept c) (s : GoString) : (escape s).count c = s.count c := by
  induction s with
  | nil => rfl
  | cons b s ih =>
    rw [escape, List.flatMap_cons, List.count_append, count_escapeByte hc, ← escape, ih,
      ← List.count_append, List.singleton_append]

/-- A piece of a template: static text, or a value of the context. -/
inductive Node (α : Type) where
  | text (s : GoString)
  | value (get : α → GoString)

abbrev Template (α : Type) := List (Node α)

namespace Template

variable {α : Type}

def render (a : α) : Node α → GoString
  | .text s => s
  | .value get => escape (get a)

/-- `Execute`. -/
def execute (t : Template α) (a : α) : GoString := t.flatMap (render a)

/-- The parsed form of `strings.Join(sources, sep)`. -/
def join (sep : GoString) (ts : List (Template α)) : Template α := [Node.text sep].intercalate ts

/-- The static text. -/
def texts : Template α → GoString
  | [] => []
  | .text s :: t => s ++ texts t
  | .value _ :: t => texts t

/-- The values that are inserted, in order and before they are escaped. -/
def values (a : α) : Template α → List GoString
  | [] => []
  | .text _ :: t => values a t
  | .value get :: t => get a :: values a t

theorem execute_append (t u : Template α) (a : α) :
    execute (t ++ u) a = execute t a ++ execute u a := List.flatMap_append

theorem execute_join (sep : GoString) (ts : List (Template α)) (a : α) :
    execute (join sep ts) a = sep.intercalate (ts.map (fun t => execute t a)) := by
  induction ts with
  | nil => rfl
  | cons t ts ih =>
    cases ts with
    | nil => simp [join]
    | cons u ts =>
      rw [join, List.intercalate_cons_cons, execute_append, execute_append, ← join, ih,
        List.map_cons, List.map_cons, List.map_cons, List.intercalate_cons_cons]
      simp [execute, render]

section Kept

variable {c : UInt8} (hc : Kept c) (t : Template α) (a : α)
include hc

theorem count_execute :
    (execute t a).count c = (texts t).count c + ((values a t).map (List.count c)).sum := by
  induction t with
  | nil => rfl
  | cons node t ih =>
    rw [execute, List.flatMap_cons, List.count_append, ← execute, ih]
    cases node with
    | text s =>
      rw [render, texts, values, List.count_append]
      omega
    | value get =>
      rw [render, texts, values, count_escape hc, List.map_cons, List.sum_cons]
      omega

theorem notMem_execute_iff : c ∉ execute t a ↔ c ∉ texts t ∧ ∀ v ∈ values a t, c ∉ v := by
  rw [← List.count_eq_zero, count_execute hc, Nat.add_eq_zero_iff, List.count_eq_zero,
    sum_count_eq_zero_iff]

/-- The output has as many fields as the static text just when no value holds the delimiter. -/
theorem length_splitOn_execute_iff :
    ((execute t a).splitOn c).length = ((texts t).splitOn c).length ↔
      ∀ v ∈ values a t, c ∉ v := by
  rw [length_splitOn, length_splitOn, count_execute hc, ← sum_count_eq_zero_iff]
  omega

end Kept

end Template

end HtmlTemplate

end Loggregator.Lib
