import RealtimeNotify.Python.Text

/-!
# Aware datetimes

A `datetime` with a UTC offset keeps the civil fields it was built from; two of
them compare by the instant they denote. `isoformat` prints the fields.
-/

namespace RealtimeNotify.Python

def isLeap (year : Nat) : Bool :=
  year % 4 == 0 && (year % 100 != 0 || year % 400 == 0)

def daysInMonth (year : Nat) : Nat → Nat
  | 2 => if isLeap year then 29 else 28
  | 4 | 6 | 9 | 11 => 30
  | _ => 31

/-- `datetime` with a `tzinfo` of fixed offset, in seconds east of UTC. -/
structure Datetime where
  year : Nat
  month : Nat
  day : Nat
  hour : Nat
  minute : Nat
  second : Nat
  microsecond : Nat
  utcoffset : Int
  date_valid : 1 ≤ year ∧ year ≤ 9999 ∧ 1 ≤ month ∧ month ≤ 12 ∧ 1 ≤ day ∧
    day ≤ daysInMonth year month
  time_valid : hour < 24 ∧ minute < 60 ∧ second < 60 ∧ microsecond < 1000000
  offset_valid : utcoffset.natAbs < 86400
  deriving DecidableEq

/-- Days before the first of `month`. -/
def daysBeforeMonth (year month : Nat) : Nat :=
  ((List.range month).drop 1).foldl (fun n m => n + daysInMonth year m) 0

/-- `_ymd2ord`: the proleptic Gregorian ordinal, 1 January of year 1 being day 1. -/
def ymd2ord (year month day : Nat) : Nat :=
  let y := year - 1
  y * 365 + y / 4 - y / 100 + y / 400 + daysBeforeMonth year month + day

/-- Microseconds since the start of year 1, UTC: what comparison looks at. -/
def Datetime.instant (d : Datetime) : Int :=
  ((ymd2ord d.year d.month d.day * 86400 + d.hour * 3600 + d.minute * 60 + d.second : Nat) -
    d.utcoffset) * 1000000 + d.microsecond

def padded (width n : Nat) : List Char := digitRow 10 width n

/-- `YYYY-MM-DDTHH:MM:SS`, with the microseconds when there are any. -/
def isoDateTime (year month day hour minute second microsecond : Nat) : List Char :=
  padded 4 year ++ '-' :: padded 2 month ++ '-' :: padded 2 day ++ 'T' :: padded 2 hour ++
    ':' :: padded 2 minute ++ ':' :: padded 2 second ++
    (if microsecond = 0 then [] else '.' :: padded 6 microsecond)

/-- `+HH:MM`, with the seconds when there are any. -/
def isoOffset (utcoffset : Int) : List Char :=
  let n := utcoffset.natAbs
  (if utcoffset < 0 then '-' else '+') :: padded 2 (n / 3600) ++ ':' :: padded 2 (n / 60 % 60) ++
    (if n % 60 = 0 then [] else ':' :: padded 2 (n % 60))

/-- `d.isoformat()`. -/
def Datetime.isoformat (d : Datetime) : String :=
  String.ofList (isoDateTime d.year d.month d.day d.hour d.minute d.second d.microsecond ++
    isoOffset d.utcoffset)

/-- Year, month and day of a number of days since 1 January 1970. -/
def civilFromDays (days : Nat) : Nat × Nat × Nat :=
  let z := days + 719468
  let doe := z % 146097
  let yoe := (doe - doe / 1460 + doe / 36524 - doe / 146096) / 365
  let doy := doe - (365 * yoe + yoe / 4 - yoe / 100)
  let mp := (5 * doy + 2) / 153
  let month := if mp < 10 then mp + 3 else mp - 9
  (z / 146097 * 400 + yoe + (if month ≤ 2 then 1 else 0), month, doy - (153 * mp + 2) / 5 + 1)

/-- `datetime.now(timezone.utc).isoformat()` at `t` microseconds after the epoch. -/
def isoformatUtc (t : Nat) : String :=
  let (year, month, day) := civilFromDays (t / 86400000000)
  let s := t / 1000000 % 86400
  String.ofList (isoDateTime year month day (s / 3600) (s / 60 % 60) (s % 60) (t % 1000000) ++
    isoOffset 0)

theorem isoformatUtc_dash (t : Nat) : (isoformatUtc t).toList[4]? = some '-' := by
  have hlength : ∀ year, (padded 4 year).length = 4 := digitRow_length 10 4
  simp only [isoformatUtc, isoDateTime, String.toList_ofList, List.append_assoc]
  rw [List.getElem?_append_right (by rw [hlength]), hlength]
  rfl

example : isoformatUtc 1767225600000001 = "2026-01-01T00:00:00.000001+00:00" := by decide

end RealtimeNotify.Python
