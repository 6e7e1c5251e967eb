import Loggregator.Lib.Framing
import Mathlib.Data.List.DropRight

/-!
# Texts of points in time

`time.Unix(0, ns).Format("2006-01-02T15:04:05.999999Z07:00")`: the date and the time of the day in
a zone, up to six digits of the second without zeros at the end, and the offset of the zone. The
zone is given by its offset from UTC in seconds, at each second since 1970.
-/

namespace Loggregator.Lib.Time

/-- The year, month and day of the proleptic Gregorian calendar, by days since 1970-01-01. Years
begin in March here until the last line, and an era is 400 of them. -/
def civil (days : Int) : Int × Nat × Nat :=
  let z := days + 719468
  let era := z.fdiv 146097
  let dayOfEra := (z.fmod 146097).toNat
  let yearOfEra :=
    (dayOfEra - dayOfEra / 1460 + dayOfEra / 36524 - dayOfEra / 146096) / 365
  let dayOfYear := dayOfEra - (365 * yearOfEra + yearOfEra / 4 - yearOfEra / 100)
  let mp := (5 * dayOfYear + 2) / 153
  let day := dayOfYear - (153 * mp + 2) / 5 + 1
  let month := if mp < 10 then mp + 3 else mp - 9
  (yearOfEra + era * 400 + (if month ≤ 2 then 1 else 0), month, day)

/-- `appendInt`: the digits, with zeros in front up to a width. -/
def appendInt (z : Int) (width : Nat) : GoString :=
  let digits := formatNat z.natAbs
  (if z < 0 then [45] else []) ++ List.replicate (width - digits.length) 48 ++ digits

/-- `formatNano` for `.999999`: nothing if the six digits are zeros. -/
def formatNano (nanosec : Nat) : GoString :=
  let micros := ((appendInt nanosec 9).take 6).rdropWhile (fun c => decide (c = 48))
  if micros = [] then [] else 46 :: micros

/-- `Z07:00`. -/
def formatZone (offset : Int) : GoString :=
  if offset = 0 then [90]
  else
    let zone := offset.tdiv 60
    (if zone < 0 then 45 else 43) :: appendInt (zone.natAbs / 60 : Nat) 2 ++
      58 :: appendInt (zone.natAbs % 60 : Nat) 2

/-- The text of the point in time `ns` nanoseconds after 1970. -/
def formatUnixNano (zone : Int → Int) (ns : Int64) : GoString :=
  let sec := ns.toInt.fdiv 1000000000
  let offset := zone sec
  let seconds := sec + offset
  let (year, month, day) := civil (seconds.fdiv 86400)
  let ofDay := (seconds.fmod 86400).toNat
  appendInt year 4 ++ 45 :: appendInt month 2 ++ 45 :: appendInt day 2 ++
    84 :: appendInt (ofDay / 3600 : Nat) 2 ++ 58 :: appendInt (ofDay / 60 % 60 : Nat) 2 ++
    58 :: appendInt (ofDay % 60 : Nat) 2 ++
    formatNano (ns.toInt.fmod 1000000000).toNat ++ formatZone offset

/-! ## Without spaces -/

theorem space_notMem_appendInt (z : Int) (width : Nat) : 32 ∉ appendInt z width := by
  have hdigits := space_notMem_formatNat z.natAbs
  have hzeros : (32 : UInt8) ∉ List.replicate (width - (formatNat z.natAbs).length) 48 := by
    intro h
    exact absurd (List.eq_of_mem_replicate h) (by decide)
  unfold appendInt
  simp only [List.mem_append, not_or]
  refine ⟨⟨?_, hzeros⟩, hdigits⟩
  split <;> decide

theorem space_notMem_formatNano (nanosec : Nat) : 32 ∉ formatNano nanosec := by
  intro h
  unfold formatNano at h
  simp only at h
  split at h
  · cases h
  · obtain heq | hmem := List.mem_cons.mp h
    · exact absurd heq (by decide)
    · have htake := (List.rdropWhile_prefix _ _).subset hmem
      exact space_notMem_appendInt _ _ (List.mem_of_mem_take htake)

theorem space_notMem_formatZone (offset : Int) : 32 ∉ formatZone offset := by
  unfold formatZone
  split
  · decide
  · simp only [List.mem_append, List.mem_cons, not_or]
    refine ⟨⟨?_, space_notMem_appendInt _ _⟩, by decide, space_notMem_appendInt _ _⟩
    split <;> decide

theorem space_notMem_formatUnixNano (zone : Int → Int) (ns : Int64) :
    32 ∉ formatUnixNano zone ns := by
  unfold formatUnixNano
  simp only [List.mem_append, List.mem_cons, not_or, space_notMem_appendInt,
    space_notMem_formatNano, space_notMem_formatZone]
  decide

example : formatUnixNano (fun _ => 0) 0 = str "1970-01-01T00:00:00Z" := by decide +kernel

example : formatUnixNano (fun _ => -25200) 1493219041120340999 =
    str "2017-04-26T08:04:01.12034-07:00" := by decide +kernel

end Loggregator.Lib.Time
