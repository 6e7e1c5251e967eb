import Loggregator.Lib.Bytes
import Mathlib.Data.List.TakeWhile

/-!
# Frames and fields of a text

Two ways to put texts into one: octet counting, where the length stands in decimal digits before
each text, and fields with a separator between them. A reader of the former gets every text back
whatever its bytes are. A reader of the latter gets the fields back just when none of them has the
separator in it.
-/

namespace Loggregator.Lib

/-! ## Octet counting -/

/-- A text with its length in front. -/
def frame (text : GoString) : GoString := formatNat text.length ++ 32 :: text

/-- Read one frame: the decimal digits up to the first space, then that many bytes. -/
def readFrame (s : GoString) : Option (GoString × GoString) :=
  match s.dropWhile (fun c => decide (c ≠ 32)) with
  | [] => none
  | _ :: rest =>
    (parseNat (s.takeWhile (fun c => decide (c ≠ 32)))).bind (fun n =>
      if n ≤ rest.length then some (rest.take n, rest.drop n) else none)

/-- Read frames until nothing is left, at most this many. -/
def readFrames : Nat → GoString → Option (List GoString)
  | _, [] => some []
  | 0, _ :: _ => none
  | fuel + 1, c :: s =>
    (readFrame (c :: s)).bind (fun p => (readFrames fuel p.2).map (fun texts => p.1 :: texts))

/-- Read all the frames of a text; each of them has a byte. -/
def unframe (s : GoString) : Option (List GoString) := readFrames s.length s

theorem decDigit_ne_space {d : Nat} (h : d < 10) : decDigit d ≠ 32 := by
  interval_cases d <;> decide

theorem space_notMem_formatNat (n : Nat) : 32 ∉ formatNat n := by
  intro h
  obtain ⟨d, hd, hc⟩ := mem_formatNat h
  exact decDigit_ne_space hd hc.symm

/-- The part before the first separator. -/
theorem takeWhile_append_sep {sep : UInt8} {t : GoString} (h : sep ∉ t) (rest : GoString) :
    (t ++ sep :: rest).takeWhile (fun c => decide (c ≠ sep)) = t := by
  have hall : ∀ c ∈ t, decide (c ≠ sep) = true := by
    intro c hc
    exact decide_eq_true (fun heq => h (heq ▸ hc))
  rw [List.takeWhile_append_of_pos hall, List.takeWhile_cons_of_neg (by simp), List.append_nil]

theorem dropWhile_append_sep {sep : UInt8} {t : GoString} (h : sep ∉ t) (rest : GoString) :
    (t ++ sep :: rest).dropWhile (fun c => decide (c ≠ sep)) = sep :: rest := by
  have hall : ∀ c ∈ t, decide (c ≠ sep) = true := by
    intro c hc
    exact decide_eq_true (fun heq => h (heq ▸ hc))
  rw [List.dropWhile_append_of_pos hall, List.dropWhile_cons_of_neg (by simp)]

/-- A frame is read whatever its text is, and nothing more than the frame. -/
theorem readFrame_frame_append (text rest : GoString) :
    readFrame (frame text ++ rest) = some (text, rest) := by
  have hsplit : frame text ++ rest = formatNat text.length ++ 32 :: (text ++ rest) := by
    rw [frame, List.append_assoc, List.cons_append]
  have hdigits := space_notMem_formatNat text.length
  rw [hsplit, readFrame, dropWhile_append_sep hdigits, takeWhile_append_sep hdigits,
    parseNat_formatNat]
  simp

theorem frame_ne_nil (text : GoString) : frame text ≠ [] := by simp [frame]

theorem readFrames_frames (texts : List GoString) (fuel : Nat) (h : texts.length ≤ fuel) :
    readFrames fuel (texts.flatMap frame) = some texts := by
  induction texts generalizing fuel with
  | nil => cases fuel <;> rfl
  | cons text texts ih =>
    cases fuel with
    | zero => simp at h
    | succ fuel =>
      rw [List.flatMap_cons]
      cases hs : frame text ++ texts.flatMap frame with
      | nil => exact absurd (List.append_eq_nil_iff.mp hs).1 (frame_ne_nil text)
      | cons c s =>
        rw [readFrames, ← hs, readFrame_frame_append, Option.bind_some]
        simp only
        rw [ih fuel (by simpa using h), Option.map_some]

/-- The frames of a list of texts are read back as that list. -/
theorem unframe_frames (texts : List GoString) : unframe (texts.flatMap frame) = some texts := by
  apply readFrames_frames
  induction texts with
  | nil => exact Nat.zero_le _
  | cons text texts ih =>
    have hpos : 0 < (frame text).length := List.length_pos_iff.mpr (frame_ne_nil text)
    rw [List.flatMap_cons, List.length_append, List.length_cons]
    omega

/-! ## Fields -/

/-- `strings.SplitN(s, sep, n + 1)`: split at the first `n` separators. -/
def splitN (sep : UInt8) : Nat → GoString → List GoString
  | 0, s => [s]
  | n + 1, s =>
    match s.dropWhile (fun c => decide (c ≠ sep)) with
    | [] => [s]
    | _ :: rest => s.takeWhile (fun c => decide (c ≠ sep)) :: splitN sep n rest

/-- Fields, each with a separator behind it, and a remainder. -/
def joinFields (sep : UInt8) (fields : List GoString) (rest : GoString) : GoString :=
  fields.foldr (fun t s => t ++ sep :: s) rest

@[simp] theorem joinFields_cons (sep : UInt8) (t : GoString) (fields : List GoString)
    (rest : GoString) :
    joinFields sep (t :: fields) rest = t ++ sep :: joinFields sep fields rest := rfl

theorem splitN_append {sep : UInt8} {t : GoString} (h : sep ∉ t) (n : Nat) (rest : GoString) :
    splitN sep (n + 1) (t ++ sep :: rest) = t :: splitN sep n rest := by
  rw [splitN, dropWhile_append_sep h, takeWhile_append_sep h]

/-- What is split off has no separator. -/
theorem notMem_of_splitN {sep : UInt8} {n : Nat} {s t u : GoString} {ts : List GoString}
    (h : splitN sep (n + 1) s = t :: u :: ts) : sep ∉ t := by
  rw [splitN] at h
  split at h
  · cases h
  · obtain ⟨rfl, _⟩ := List.cons.inj h
    intro hmem
    have hne := List.mem_takeWhile_imp hmem
    simp at hne

/-- The fields are split off as they are exactly if none has the separator in it. -/
theorem splitN_joinFields_iff (sep : UInt8) (fields : List GoString) (rest : GoString) :
    splitN sep fields.length (joinFields sep fields rest) = fields ++ [rest] ↔
      ∀ t ∈ fields, sep ∉ t := by
  induction fields with
  | nil => simp [joinFields, splitN]
  | cons t fields ih =>
    rw [List.forall_mem_cons, joinFields_cons, List.length_cons, List.cons_append]
    constructor
    · intro h
      have ht : sep ∉ t := by
        cases hfields : fields ++ [rest] with
        | nil => simp at hfields
        | cons u us =>
          rw [hfields] at h
          exact notMem_of_splitN h
      rw [splitN_append ht] at h
      exact ⟨ht, ih.mp (List.cons.inj h).2⟩
    · rintro ⟨ht, hfields⟩
      rw [splitN_append ht, ih.mpr hfields]

end Loggregator.Lib
