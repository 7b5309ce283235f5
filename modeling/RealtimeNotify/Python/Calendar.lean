import RealtimeNotify.Python.IsoFormat
import Mathlib.Order.Monotone.Basic

/-!
# The clock and the calendar

`isoformatUtc` prints a moment through the civil date of its day, which is computed in
years that begin on 1 March, in eras of 400 of them. The date is the right one, so that
`fromisoformat` gives the moment back.
-/

namespace RealtimeNotify.Python

/-! ## The day of an era -/

/-- Day `n` of year `j` of the four-year cycle `k` of century `c`; only a leap year has a day
365, and it ends a cycle. -/
structure EraDay (c k j n : Nat) : Prop where
  century : c ≤ 3
  cycle : k ≤ 24
  year : j ≤ 3
  day : n < 365 ∨ n = 365 ∧ j = 3 ∧ (k < 24 ∨ c = 3)

theorem exists_eraDay {doe : Nat} (h : doe < 146097) :
    ∃ c k j n, EraDay c k j n ∧ doe = 36524 * c + 1461 * k + 365 * j + n := by
  generalize hc : (doe - doe / 146096) / 36524 = c
  generalize hk : (doe - 36524 * c) / 1461 = k
  generalize hr : doe - 36524 * c - 1461 * k = r
  have hcentury : 36524 * c ≤ doe ∧ (doe - 36524 * c < 36524 ∨ c = 3) := by omega
  have hcycle : c ≤ 3 ∧ k ≤ 24 := by omega
  -- the last day of a cycle belongs to its fourth year
  refine ⟨c, k, (r - r / 1460) / 365, r - 365 * ((r - r / 1460) / 365),
    ⟨hcycle.1, hcycle.2, by omega, ?_⟩, by omega⟩
  by_cases hlast : r = 1460
  · omega
  · omega

variable {c k j n : Nat}

/-- The divisors 1460, 36524 and 146096 take away the leap days that are over. -/
theorem EraDay.yearOfEra (h : EraDay c k j n) {doe : Nat}
    (hdoe : doe = 36524 * c + 1461 * k + 365 * j + n) :
    (doe - doe / 1460 + doe / 36524 - doe / 146096) / 365 = 100 * c + 4 * k + j := by
  obtain ⟨hc, hk, hj, hn⟩ := h
  by_cases hlast : doe = 146096
  · subst hlast
    omega
  · have hcentury : doe / 36524 = c := by omega
    have hera : doe / 146096 = 0 := by omega
    rw [hcentury, hera]
    obtain hq | ⟨hq, hend⟩ : doe / 1460 = 25 * c + k ∨
        (doe / 1460 = 25 * c + k + 1 ∧ j = 3 ∧ 1364 ≤ 365 * j + n) := by omega
    · rw [hq]
      omega
    · rw [hq]
      omega

/-- A leap day is the last day of the year: it falls in the February before the next. -/
theorem EraDay.isLeap (h : EraDay c k j n) (hn : n = 365) (era : Nat) :
    isLeap (400 * era + (100 * c + 4 * k + j) + 1) = true := by
  obtain ⟨hc, hk, hj, hday⟩ := h
  have hyear : (400 * era + (100 * c + 4 * k + j) + 1) % 4 = 0 ∧
      ((400 * era + (100 * c + 4 * k + j) + 1) % 100 ≠ 0 ∨
        (400 * era + (100 * c + 4 * k + j) + 1) % 400 = 0) := by omega
  simpa [Python.isLeap] using hyear

/-! ## Leap days -/

/-- The leap days of the years up to `year`. -/
def leapDays (year : Nat) : Nat := year / 4 - year / 100 + year / 400

theorem leapDays_succ (year : Nat) :
    leapDays (year + 1) = leapDays year + if isLeap (year + 1) = true then 1 else 0 := by
  have hle : year / 100 ≤ year / 4 := Nat.div_le_div_left (by decide) (by decide)
  have hleap : isLeap (year + 1) = true ↔
      4 ∣ year + 1 ∧ (¬ 100 ∣ year + 1 ∨ 400 ∣ year + 1) := by
    simp [isLeap, Nat.dvd_iff_mod_eq_zero]
  have hcentury : 100 ∣ year + 1 → 4 ∣ year + 1 := Nat.dvd_trans (by decide)
  have hera : 400 ∣ year + 1 → 100 ∣ year + 1 := Nat.dvd_trans (by decide)
  simp only [leapDays, Nat.succ_div, hleap]
  generalize year / 4 = fours at *
  generalize year / 100 = hundreds at *
  by_cases h4 : 4 ∣ year + 1
  · by_cases h100 : 100 ∣ year + 1
    · by_cases h400 : 400 ∣ year + 1
      · simp_all
        omega
      · simp_all
    · simp_all
      omega
  · simp_all

theorem ymd2ord_succ (year month day : Nat) : ymd2ord (year + 1) month day
    = year * 365 + leapDays year + daysBeforeMonth (year + 1) month + day := by
  have hle : year / 100 ≤ year / 4 := Nat.div_le_div_left (by decide) (by decide)
  simp only [ymd2ord, leapDays, Nat.add_sub_cancel]
  omega

/-! ## Months from March on -/

/-- From March to December the days before a month grow by 153 in five months. -/
theorem daysBeforeMonth_march (year : Nat) {mp : Nat} (h : mp < 10) :
    daysBeforeMonth year (mp + 3)
      = 59 + (if isLeap year = true then 1 else 0) + (153 * mp + 2) / 5 := by
  obtain rfl | rfl | rfl | rfl | rfl | rfl | rfl | rfl | rfl | rfl : mp = 0 ∨ mp = 1 ∨ mp = 2 ∨
      mp = 3 ∨ mp = 4 ∨ mp = 5 ∨ mp = 6 ∨ mp = 7 ∨ mp = 8 ∨ mp = 9 := by omega
  all_goals
    cases hleap : isLeap year <;> simp [daysBeforeMonth, daysInMonth, List.range_succ, hleap]

/-- The date of day `n` of the year that begins on 1 March of `year`. -/
def marchDate (year n : Nat) : Nat × Nat × Nat :=
  let mp := (5 * n + 2) / 153
  let month := if mp < 10 then mp + 3 else mp - 9
  (year + (if month ≤ 2 then 1 else 0), month, n - (153 * mp + 2) / 5 + 1)

/-- The three are a date, and the day `ordinal` of `toordinal`. -/
structure IsDate (ordinal year month day : Nat) : Prop where
  positive : 1 ≤ year
  inYear : 1 ≤ month ∧ month ≤ 12
  inMonth : 1 ≤ day ∧ day ≤ daysInMonth year month
  toordinal : ymd2ord year month day = ordinal

theorem isDate_marchDate {year ordinal : Nat}
    (hn : n < 365 ∨ n = 365 ∧ isLeap (year + 1 + 1) = true)
    (hord : ordinal + 305 = 365 * (year + 1) + leapDays (year + 1) + n) :
    ∃ y m d, marchDate (year + 1) n = (y, m, d) ∧ IsDate ordinal y m d := by
  generalize hmp : (5 * n + 2) / 153 = mp
  by_cases hmonth : mp < 10
  · refine ⟨year + 1, mp + 3, n - (153 * mp + 2) / 5 + 1, by simp [marchDate, hmp, hmonth],
      Nat.succ_pos _, by omega, ⟨Nat.succ_pos _, ?_⟩, ?_⟩
    · obtain rfl | rfl | rfl | rfl | rfl | rfl | rfl | rfl | rfl | rfl : mp = 0 ∨ mp = 1 ∨
          mp = 2 ∨ mp = 3 ∨ mp = 4 ∨ mp = 5 ∨ mp = 6 ∨ mp = 7 ∨ mp = 8 ∨ mp = 9 := by omega
      all_goals
        simp only [daysInMonth]
        omega
    · rw [ymd2ord_succ, daysBeforeMonth_march _ hmonth]
      have hleap := leapDays_succ year
      omega
  · obtain rfl | rfl : mp = 10 ∨ mp = 11 := by omega
    · refine ⟨year + 1 + 1, 1, n - 306 + 1, by simp [marchDate, hmp], Nat.succ_pos _, by decide,
        ⟨Nat.succ_pos _, ?_⟩, ?_⟩
      · show n - 306 + 1 ≤ 31
        omega
      · have hbefore : daysBeforeMonth (year + 1 + 1) 1 = 0 := rfl
        rw [ymd2ord_succ, hbefore]
        omega
    · refine ⟨year + 1 + 1, 2, n - 337 + 1, by simp [marchDate, hmp], Nat.succ_pos _, by decide,
        ⟨Nat.succ_pos _, ?_⟩, ?_⟩
      · -- in February, which is the last month, a leap day is the day 365
        show n - 337 + 1 ≤ if isLeap (year + 1 + 1) then 29 else 28
        split
        · omega
        · rename_i hleap
          have hlt : n < 365 := hn.resolve_right fun h => hleap h.2
          omega
      · have hbefore : daysBeforeMonth (year + 1 + 1) 2 = 31 := rfl
        rw [ymd2ord_succ, hbefore]
        omega

/-! ## The date of a day -/

/-- The ordinal of 1 January 1970. -/
def epochOrdinal : Nat := 719163

theorem civilFromDays_isDate (days : Nat) : ∃ year month day,
    civilFromDays days = (year, month, day) ∧ IsDate (epochOrdinal + days) year month day := by
  obtain ⟨c, k, j, n, hday, hdoe⟩ := exists_eraDay (Nat.mod_lt (days + 719468) (by decide))
  generalize hera : (days + 719468) / 146097 = era
  have hyear := hday.yearOfEra hdoe
  have hc := hday.century
  have hk := hday.cycle
  have hj := hday.year
  have hfours : (100 * c + 4 * k + j) / 4 = 25 * c + k := by omega
  have hhundreds : (100 * c + 4 * k + j) / 100 = c := by omega
  have hdoy : (days + 719468) % 146097 - (365 * (100 * c + 4 * k + j) + (100 * c + 4 * k + j) / 4
      - (100 * c + 4 * k + j) / 100) = n := by omega
  -- the era, the year of the era and the day of the year are those of the computation
  have hcivil : civilFromDays days = marchDate (era * 400 + (100 * c + 4 * k + j)) n := by
    simp only [civilFromDays, marchDate, hera, hyear, hdoy]
  obtain ⟨year, hsucc⟩ : ∃ year, era * 400 + (100 * c + 4 * k + j) = year + 1 :=
    Nat.exists_eq_succ_of_ne_zero (by omega)
  rw [hcivil, hsucc]
  refine isDate_marchDate (hday.day.imp_right fun h => ⟨h.1, ?_⟩) ?_
  · have hleap := hday.isLeap h.1 era
    rwa [Nat.mul_comm, hsucc] at hleap
  · have hleaps : leapDays (era * 400 + (100 * c + 4 * k + j)) = 97 * era + 24 * c + k := by
      unfold leapDays
      omega
    rw [← hsucc, hleaps, epochOrdinal]
    omega

theorem leapDays_mono : Monotone leapDays := by
  refine monotone_nat_of_le_succ fun year => ?_
  rw [leapDays_succ]
  exact Nat.le_add_right _ _

/-- The ordinal of 1 January of year 10000, which no `datetime` has. -/
def endOrdinal : Nat := 3652060

theorem IsDate.year_le {ordinal year month day : Nat} (h : IsDate ordinal year month day)
    (hend : ordinal < endOrdinal) : year ≤ 9999 := by
  obtain ⟨y, rfl⟩ := Nat.exists_eq_succ_of_ne_zero (Nat.one_le_iff_ne_zero.mp h.positive)
  by_contra hlate
  have hleaps : leapDays 9999 ≤ leapDays y := leapDays_mono (by omega)
  have hcount : leapDays 9999 = 2424 := by decide
  have hord := h.toordinal
  have hday := h.inMonth.1
  rw [ymd2ord_succ] at hord
  rw [endOrdinal] at hend
  omega

/-! ## The moment -/

/-- The instant of the epoch, 1 January 1970. -/
def epochInstant : Int := 719163 * 86400 * 1000000

/-- Microseconds from the epoch to the end of year 9999. -/
def endOfTime : Nat := (endOrdinal - epochOrdinal) * 86400000000

/-- What `isoformatUtc` prints, `fromisoformat` reads: the very moment. -/
theorem readIso_isoformatUtc {t : Nat} (h : t < endOfTime) : ∃ d : Datetime,
    readIso (isoformatUtc t) = some d ∧ d.utcoffset = 0 ∧ d.instant = epochInstant + t := by
  obtain ⟨year, month, day, hcivil, hdate⟩ := civilFromDays_isDate (t / 86400000000)
  have hyear : year ≤ 9999 := by
    have hday : t / 86400000000 < endOrdinal - epochOrdinal :=
      (Nat.div_lt_iff_lt_mul (by decide)).mpr h
    exact hdate.year_le (Nat.add_lt_of_lt_sub' hday)
  generalize hs : t / 1000000 % 86400 = s
  let d : Datetime := ⟨year, month, day, s / 3600, s / 60 % 60, s % 60, t % 1000000, 0,
    ⟨hdate.positive, hyear, hdate.inYear.1, hdate.inYear.2, hdate.inMonth.1, hdate.inMonth.2⟩,
    ⟨by omega, by omega, by omega, by omega⟩, by decide⟩
  have hprint : isoformatUtc t = d.isoformat := by
    simp only [isoformatUtc, hcivil, hs]
    rfl
  refine ⟨d, ?_, rfl, ?_⟩
  · rw [hprint]
    exact readIso_isoformat rfl
  · have hord : ymd2ord d.year d.month d.day = 719163 + t / 86400000000 := hdate.toordinal
    rw [Datetime.instant, hord]
    simp only [d, epochInstant]
    omega

end RealtimeNotify.Python
