import RealtimeNotify.Python.Datetime

/-!
# Reading ISO 8601

The usual form of an aware datetime, with a numeric offset of hours and minutes or
with `Z` for UTC: `isoformat` prints the one, and prints it for every offset without
seconds.
-/

namespace RealtimeNotify.Python

/-! ## The reader -/

/-- A number of exactly `width` decimal digits, and the rest. -/
def number? (width : Nat) (cs : List Char) : Option (Nat × List Char) :=
  let digits := cs.take width
  if digits.length = width ∧ digits.all Char.isDigit then
    some (Nat.ofDigitChars 10 digits 0, cs.drop width)
  else none

def expect? (c : Char) : List Char → Option (List Char)
  | [] => none
  | d :: cs => if d = c then some cs else none

/-- Six digits behind a point, or none. -/
def fraction? (cs : List Char) : Option (Nat × List Char) :=
  match expect? '.' cs with
  | some cs => number? 6 cs
  | none => some (0, cs)

/-- `Z`, or a sign with hours and minutes, in seconds. -/
def offset? : List Char → Option Int
  | [] => none
  | c :: cs =>
      if c = 'Z' then (if cs = [] then some 0 else none)
      else do
        let (hours, cs) ← number? 2 cs
        let (minutes, cs) ← (expect? ':' cs).bind (number? 2)
        let n : Int := hours * 3600 + minutes * 60
        if cs ≠ [] ∨ 60 ≤ minutes then none
        else if c = '+' then some n
        else if c = '-' then some (-n)
        else none

/-- `datetime(...)`, a `ValueError` as `none`. -/
def datetime? (year month day hour minute second microsecond : Nat) (utcoffset : Int) :
    Option Datetime :=
  if h : (1 ≤ year ∧ year ≤ 9999 ∧ 1 ≤ month ∧ month ≤ 12 ∧ 1 ≤ day ∧
      day ≤ daysInMonth year month) ∧
      (hour < 24 ∧ minute < 60 ∧ second < 60 ∧ microsecond < 1000000) ∧
      utcoffset.natAbs < 86400 then
    some ⟨year, month, day, hour, minute, second, microsecond, utcoffset, h.1, h.2.1, h.2.2⟩
  else none

/-- `YYYY-MM-DDTHH:MM:SS[.ffffff]` with an offset. -/
def readIso (s : String) : Option Datetime := do
  let (year, cs) ← number? 4 s.toList
  let (month, cs) ← (expect? '-' cs).bind (number? 2)
  let (day, cs) ← (expect? '-' cs).bind (number? 2)
  let (hour, cs) ← (expect? 'T' cs).bind (number? 2)
  let (minute, cs) ← (expect? ':' cs).bind (number? 2)
  let (second, cs) ← (expect? ':' cs).bind (number? 2)
  let (microsecond, cs) ← fraction? cs
  let utcoffset ← offset? cs
  datetime? year month day hour minute second microsecond utcoffset

/-- The form with `Z` for UTC. -/
def Datetime.isoformatZ (d : Datetime) : String :=
  if d.utcoffset = 0 then
    String.ofList (isoDateTime d.year d.month d.day d.hour d.minute d.second d.microsecond ++ ['Z'])
  else d.isoformat

example : (readIso "2026-01-01T00:00:00.000001-05:30").map Datetime.isoformat
    = some "2026-01-01T00:00:00.000001-05:30" := by decide +kernel
example : (readIso "2026-02-29T00:00:00Z") = none := by decide +kernel

/-! ## Printing, then reading -/

variable {cs : List Char} {n : Nat}

theorem digitRow_ten_digit {w : Nat} : ∀ c ∈ digitRow 10 w n, c.isDigit = true := by
  induction w generalizing n with
  | zero => nofun
  | succ w ih =>
    have hdigit : ∀ d < 10, (Nat.digitChar d).isDigit = true := by decide
    intro c hc
    simp only [digitRow, List.mem_append, List.mem_singleton] at hc
    obtain hc | rfl := hc
    · exact ih c hc
    · exact hdigit _ (Nat.mod_lt _ (by decide))

theorem ofDigitChars_digitRow (w n : Nat) :
    Nat.ofDigitChars 10 (digitRow 10 w n) 0 = n % 10 ^ w := by
  induction w generalizing n with
  | zero => simp [digitRow, Nat.mod_one]
  | succ w ih =>
    rw [digitRow, Nat.ofDigitChars_append, ih,
      Nat.ofDigitChars_cons_digitChar_of_lt_ten (Nat.mod_lt _ (by decide)), Nat.ofDigitChars_nil,
      Nat.pow_succ, Nat.mul_comm (10 ^ w), Nat.mod_mul]
    omega

/-- A padded number reads back. -/
theorem number?_padded {w : Nat} (hn : n < 10 ^ w) :
    number? w (padded w n ++ cs) = some (n, cs) := by
  have hlength : (padded w n).length = w := digitRow_length 10 w n
  have hdigits : (padded w n).all Char.isDigit = true :=
    List.all_eq_true.mpr digitRow_ten_digit
  have htake : (padded w n ++ cs).take w = padded w n := by
    rw [List.take_append_of_le_length hlength.ge, List.take_of_length_le hlength.le]
  have hdrop : (padded w n ++ cs).drop w = cs := by
    rw [List.drop_append_of_le_length hlength.ge, List.drop_of_length_le hlength.le,
      List.nil_append]
  simp only [number?, htake, hdrop, hlength, hdigits, and_self, if_true]
  rw [padded, ofDigitChars_digitRow, Nat.mod_eq_of_lt hn]

theorem expect?_cons (c : Char) : expect? c (c :: cs) = some cs := if_pos rfl

/-- A padded number behind its separator. -/
theorem expect?_number? {c : Char} {w : Nat} (hn : n < 10 ^ w) :
    (expect? c (c :: (padded w n ++ cs))).bind (number? w) = some (n, cs) := by
  rw [expect?_cons, Option.bind_some, number?_padded hn]

theorem datetime?_fields (d : Datetime) : datetime? d.year d.month d.day d.hour d.minute d.second
    d.microsecond d.utcoffset = some d :=
  dif_pos ⟨d.date_valid, d.time_valid, d.offset_valid⟩

/-- The microseconds read back, also where none are printed. -/
theorem fraction?_printed (hn : n < 1000000) (hpoint : expect? '.' cs = none) :
    fraction? ((if n = 0 then [] else '.' :: padded 6 n) ++ cs) = some (n, cs) := by
  by_cases hzero : n = 0
  · rw [fraction?, if_pos hzero, List.nil_append, hpoint, hzero]
  · rw [fraction?, if_neg hzero, List.cons_append, expect?_cons]
    exact number?_padded hn

/-- Date and time read back, in front of any offset. -/
theorem readIso_printed (d : Datetime) {zone : List Char} (hpoint : expect? '.' zone = none)
    (hzone : offset? zone = some d.utcoffset) :
    readIso (String.ofList (isoDateTime d.year d.month d.day d.hour d.minute d.second d.microsecond
      ++ zone)) = some d := by
  obtain ⟨-, hyear, -, hmonth, -, hday⟩ := d.date_valid
  obtain ⟨hhour, hminute, hsecond, hmicrosecond⟩ := d.time_valid
  have hdays : daysInMonth d.year d.month ≤ 31 := by
    unfold daysInMonth
    split
    · split <;> decide
    all_goals decide
  have hyear' : d.year < 10 ^ 4 := by omega
  have hmonth' : d.month < 10 ^ 2 := by omega
  have hday' : d.day < 10 ^ 2 := by omega
  have hhour' : d.hour < 10 ^ 2 := by omega
  have hminute' : d.minute < 10 ^ 2 := by omega
  have hsecond' : d.second < 10 ^ 2 := by omega
  simp only [readIso, isoDateTime, String.toList_ofList, List.append_assoc, List.cons_append,
    Option.bind_eq_bind, number?_padded hyear', expect?_number? hmonth', expect?_number? hday',
    expect?_number? hhour', expect?_number? hminute', expect?_number? hsecond', Option.bind_some,
    fraction?_printed hmicrosecond hpoint, hzone]
  exact datetime?_fields d

/-- An offset without seconds reads back. -/
theorem offset?_isoOffset {utcoffset : Int} (hvalid : utcoffset.natAbs < 86400)
    (hminutes : utcoffset % 60 = 0) : offset? (isoOffset utcoffset) = some utcoffset := by
  generalize hn : utcoffset.natAbs = n at hvalid
  have hseconds : n % 60 = 0 := by omega
  have hsign : (if utcoffset < 0 then '-' else '+') ≠ 'Z' := by split <;> decide
  simp only [isoOffset, hn, hseconds, if_true, List.append_nil, List.cons_append, offset?, hsign,
    if_false]
  have hhours : n / 3600 < 10 ^ 2 := by omega
  have hminute : n / 60 % 60 < 10 ^ 2 := by omega
  rw [← List.append_nil (padded 2 (n / 60 % 60)), number?_padded hhours]
  simp only [Option.bind_eq_bind, Option.bind_some]
  rw [expect?_number? hminute]
  have hrange : ¬ (([] : List Char) ≠ [] ∨ 60 ≤ n / 60 % 60) := by
    rintro (h | h)
    · exact h rfl
    · omega
  simp only [Option.bind_some, hrange, if_false]
  by_cases hneg : utcoffset < 0
  · rw [if_pos hneg, if_neg (by decide), if_pos rfl]
    congr 1
    omega
  · rw [if_neg hneg, if_pos rfl]
    congr 1
    omega

theorem readIso_isoformat {d : Datetime} (h : d.utcoffset % 60 = 0) :
    readIso d.isoformat = some d := by
  refine readIso_printed d ?_ (offset?_isoOffset d.offset_valid h)
  rw [isoOffset]
  split <;> rfl

end RealtimeNotify.Python
