import Mathlib.Data.Nat.Find
import Mathlib.Order.Monotone.Basic

/-!
# The proleptic Gregorian calendar

Dates of the years 1 to 9999 and their ordinals: January 1 of year 1 is day 1.

* `Date` — a date that exists;
* `toOrdinal`, `ofOrdinal?` — the number of a date, and the date of a number;
* `weekday` — Monday is 0;
* `firstOfMonth` — the ordinals at which months begin, `firstOfMonth_lt_iff` their order;
* `ofOrdinal?_toOrdinal`, `exists_ofOrdinal?` — the two ways agree.
-/

namespace Lib.Calendar

/-! ## Years and months -/

def isLeap (year : Nat) : Bool := year % 4 = 0 && (year % 100 ≠ 0 || year % 400 = 0)

def daysInYear (year : Nat) : Nat := if isLeap year then 366 else 365

def daysBeforeYear (year : Nat) : Nat :=
  let y := year - 1
  y * 365 + y / 4 - y / 100 + y / 400

def daysInMonth (year month : Nat) : Nat :=
  if month = 2 then if isLeap year then 29 else 28
  else if month = 4 ∨ month = 6 ∨ month = 9 ∨ month = 11 then 30
  else 31

/-- The days of a year before a month. -/
def daysBeforeMonth (year : Nat) : Nat → Nat
  | 0 => 0
  | 1 => 0
  | month + 2 => daysBeforeMonth year (month + 1) + daysInMonth year (month + 1)

variable {year month : Nat}

theorem isLeap_iff : isLeap year = true ↔ year % 4 = 0 ∧ (year % 100 ≠ 0 ∨ year % 400 = 0) := by
  simp [isLeap]

theorem daysBeforeYear_succ (h : 1 ≤ year) :
    daysBeforeYear (year + 1) = daysBeforeYear year + daysInYear year := by
  obtain ⟨y, rfl⟩ : ∃ y, year = y + 1 := ⟨year - 1, (Nat.sub_add_cancel h).symm⟩
  have hLeap : isLeap (y + 1) = true ↔ 4 ∣ y + 1 ∧ (¬100 ∣ y + 1 ∨ 400 ∣ y + 1) := by
    rw [isLeap_iff]
    omega
  have hCenturies : y / 100 ≤ y / 4 := Nat.div_le_div_left (by decide) (by decide)
  show (y + 1) * 365 + (y + 1) / 4 - (y + 1) / 100 + (y + 1) / 400 =
    y * 365 + y / 4 - y / 100 + y / 400 + daysInYear (y + 1)
  rw [Nat.succ_div, Nat.succ_div, Nat.succ_div, daysInYear]
  simp only [hLeap]
  generalize y / 4 = fours at *
  generalize y / 100 = centuries at *
  generalize y / 400 = cycles at *
  by_cases h4 : 4 ∣ y + 1
  · by_cases h100 : 100 ∣ y + 1
    · by_cases h400 : 400 ∣ y + 1
      · simp only [h4, h100, h400, if_true, or_true, and_true]
        omega
      · simp only [h4, h100, h400, if_true, if_false, not_true, or_false, and_false]
        omega
    · have h400 : ¬400 ∣ y + 1 := fun h => h100 (Nat.dvd_trans (by decide) h)
      simp only [h4, h100, h400, if_true, if_false, not_false_iff, true_or, and_true]
      omega
  · have h100 : ¬100 ∣ y + 1 := fun h => h4 (Nat.dvd_trans (by decide) h)
    have h400 : ¬400 ∣ y + 1 := fun h => h4 (Nat.dvd_trans (by decide) h)
    simp only [h4, h100, h400, if_false, false_and]
    omega

theorem daysBeforeMonth_succ (h : 1 ≤ month) :
    daysBeforeMonth year (month + 1) = daysBeforeMonth year month + daysInMonth year month := by
  obtain ⟨m, rfl⟩ : ∃ m, month = m + 1 := ⟨month - 1, by omega⟩
  rfl

theorem daysBeforeMonth_year : daysBeforeMonth year 13 = daysInYear year := by
  cases hLeap : isLeap year <;> simp [daysBeforeMonth, daysInMonth, daysInYear, hLeap]

theorem daysInMonth_pos : 0 < daysInMonth year month := by
  unfold daysInMonth
  split_ifs <;> omega

/-! ## Months in a row -/

/-- The ordinal of the first day of a month; the months are counted from January of year 0. -/
def firstOfMonth (index : Nat) : Nat :=
  daysBeforeYear (index / 12) + daysBeforeMonth (index / 12) (index % 12 + 1) + 1

variable {index i j n : Nat}

theorem firstOfMonth_succ (h : 12 ≤ index) : firstOfMonth (index + 1) =
    firstOfMonth index + daysInMonth (index / 12) (index % 12 + 1) := by
  unfold firstOfMonth
  by_cases hLast : index % 12 = 11
  · have hYear : (index + 1) / 12 = index / 12 + 1 := by omega
    have hMonth : (index + 1) % 12 = 0 := by omega
    have hDecember : index % 12 + 1 = 12 := by omega
    have hTotal : daysBeforeMonth (index / 12) 13 =
        daysBeforeMonth (index / 12) 12 + daysInMonth (index / 12) 12 :=
      daysBeforeMonth_succ (by omega)
    rw [daysBeforeMonth_year] at hTotal
    rw [hYear, hMonth, hDecember, daysBeforeYear_succ (by omega), hTotal]
    show _ + (_ + _) + 0 + 1 = _
    omega
  · have hYear : (index + 1) / 12 = index / 12 := by omega
    have hMonth : (index + 1) % 12 = index % 12 + 1 := by omega
    rw [hYear, hMonth, daysBeforeMonth_succ (by omega)]
    omega

theorem firstOfMonth_lt_succ (h : 12 ≤ index) : firstOfMonth index < firstOfMonth (index + 1) := by
  rw [firstOfMonth_succ h]
  exact Nat.lt_add_of_pos_right daysInMonth_pos

theorem firstOfMonth_strictMono : StrictMono fun k => firstOfMonth (k + 12) :=
  strictMono_nat_of_lt_succ fun k => by
    rw [Nat.add_right_comm]
    exact firstOfMonth_lt_succ (Nat.le_add_left 12 k)

/-- **Months begin in their order.** -/
theorem firstOfMonth_lt_iff (hI : 12 ≤ i) (hJ : 12 ≤ j) :
    firstOfMonth i < firstOfMonth j ↔ i < j := by
  obtain ⟨a, rfl⟩ := Nat.exists_eq_add_of_le' hI
  obtain ⟨b, rfl⟩ := Nat.exists_eq_add_of_le' hJ
  rw [firstOfMonth_strictMono.lt_iff_lt (a := a) (b := b)]
  omega

/-- A day is in one month. -/
theorem month_unique (hI : 12 ≤ i) (hJ : 12 ≤ j) (hNI : firstOfMonth i ≤ n)
    (hNI' : n < firstOfMonth (i + 1)) (hNJ : firstOfMonth j ≤ n)
    (hNJ' : n < firstOfMonth (j + 1)) : i = j := by
  have hIJ := (firstOfMonth_lt_iff hI (by omega)).mp (lt_of_le_of_lt hNI hNJ')
  have hJI := (firstOfMonth_lt_iff hJ (by omega)).mp (lt_of_le_of_lt hNJ hNI')
  omega

/-! ## Dates -/

def maxYear : Nat := 9999

@[ext]
structure Date where
  year : Nat
  month : Nat
  day : Nat
  year_mem : 1 ≤ year ∧ year ≤ maxYear
  month_mem : 1 ≤ month ∧ month ≤ 12
  day_mem : 1 ≤ day ∧ day ≤ daysInMonth year month
  deriving DecidableEq, Repr

/-- A date, if it exists. -/
def Date.of? (year month day : Nat) : Option Date :=
  if h : (1 ≤ year ∧ year ≤ maxYear) ∧ (1 ≤ month ∧ month ≤ 12) ∧
      (1 ≤ day ∧ day ≤ daysInMonth year month) then
    some ⟨year, month, day, h.1, h.2.1, h.2.2⟩
  else none

namespace Date

variable {d e : Date}

section

variable (d : Date)

theorem of?_self : of? d.year d.month d.day = some d :=
  dif_pos ⟨d.year_mem, d.month_mem, d.day_mem⟩

/-- The number of the month. -/
def monthIndex : Nat := 12 * d.year + (d.month - 1)

def toOrdinal : Nat := daysBeforeYear d.year + daysBeforeMonth d.year d.month + d.day

/-- Monday is 0. -/
def weekday : Nat := (d.toOrdinal + 6) % 7

theorem twelve_le_monthIndex : 12 ≤ d.monthIndex := by
  have hYear := d.year_mem.1
  unfold monthIndex
  omega

theorem monthIndex_div : d.monthIndex / 12 = d.year := by
  have hMonth := d.month_mem
  unfold monthIndex
  omega

theorem monthIndex_mod : d.monthIndex % 12 + 1 = d.month := by
  have hMonth := d.month_mem
  unfold monthIndex
  omega

theorem toOrdinal_eq : d.toOrdinal + 1 = firstOfMonth d.monthIndex + d.day := by
  rw [firstOfMonth, monthIndex_div, monthIndex_mod, toOrdinal]
  omega

/-- A date is in its month. -/
theorem mem_month :
    firstOfMonth d.monthIndex ≤ d.toOrdinal ∧ d.toOrdinal < firstOfMonth (d.monthIndex + 1) := by
  have hDay := d.day_mem
  have hOrdinal := d.toOrdinal_eq
  rw [firstOfMonth_succ d.twelve_le_monthIndex, monthIndex_div, monthIndex_mod]
  omega

end

theorem eq_of_monthIndex (hMonth : d.monthIndex = e.monthIndex) (hDay : d.day = e.day) : d = e := by
  refine Date.ext ?_ ?_ hDay
  · rw [← monthIndex_div, hMonth, monthIndex_div]
  · rw [← monthIndex_mod, hMonth, monthIndex_mod]

/-- **Dates with one number are one date.** -/
theorem toOrdinal_injective (h : d.toOrdinal = e.toOrdinal) : d = e := by
  have hMonth : d.monthIndex = e.monthIndex := by
    refine month_unique d.twelve_le_monthIndex e.twelve_le_monthIndex d.mem_month.1 d.mem_month.2 ?_
      ?_
    · rw [h]
      exact e.mem_month.1
    · rw [h]
      exact e.mem_month.2
  refine eq_of_monthIndex hMonth ?_
  have hD := d.toOrdinal_eq
  have hE := e.toOrdinal_eq
  rw [h, hMonth] at hD
  omega

end Date

/-! ## The date of a number -/

/-- The year of a day, and the days of the year before it. -/
def yearAndRest (ordinal : Nat) : Nat × Nat :=
  let n := ordinal - 1
  let centuries := min (n % 146097 / 36524) 3
  let r := n % 146097 - 36524 * centuries
  let years := min (r % 1461 / 365) 3
  (400 * (n / 146097) + 100 * centuries + 4 * (r / 1461) + years + 1, r % 1461 - 365 * years)

def ofOrdinal? (ordinal : Int) : Option Date :=
  if 1 ≤ ordinal then
    let (year, rest) := yearAndRest ordinal.toNat
    let month := Nat.findGreatest (fun month => 1 ≤ month ∧ daysBeforeMonth year month ≤ rest) 12
    Date.of? year month (rest - daysBeforeMonth year month + 1)
  else none

/-- Four centuries of days: each century but the last has a day less than the last, and each year
but the last of four has a day less than that. -/
theorem yearAndRest_spec (h : 1 ≤ n) : 1 ≤ (yearAndRest n).1 ∧
    n = daysBeforeYear (yearAndRest n).1 + (yearAndRest n).2 + 1 ∧
    (yearAndRest n).2 < daysInYear (yearAndRest n).1 := by
  obtain ⟨m, rfl⟩ : ∃ m, n = m + 1 := ⟨n - 1, (Nat.sub_add_cancel h).symm⟩
  obtain ⟨cycles, days, hDays, rfl⟩ : ∃ cycles days, days < 146097 ∧ m = 146097 * cycles + days :=
    ⟨m / 146097, m % 146097, Nat.mod_lt _ (by decide), (Nat.div_add_mod m 146097).symm⟩
  obtain ⟨centuries, hCenturies⟩ : ∃ centuries, centuries = min (days / 36524) 3 := ⟨_, rfl⟩
  obtain ⟨r, hR⟩ : ∃ r, r = days - 36524 * centuries := ⟨_, rfl⟩
  obtain ⟨fours, s, hS, hFours⟩ : ∃ fours s, s < 1461 ∧ r = 1461 * fours + s :=
    ⟨r / 1461, r % 1461, Nat.mod_lt _ (by decide), (Nat.div_add_mod r 1461).symm⟩
  obtain ⟨years, hYears⟩ : ∃ years, years = min (s / 365) 3 := ⟨_, rfl⟩
  have hEq : yearAndRest (146097 * cycles + days + 1) =
      (400 * cycles + 100 * centuries + 4 * fours + years + 1, s - 365 * years) := by
    have hCycle : (146097 * cycles + days) / 146097 = cycles := by omega
    have hDay : (146097 * cycles + days) % 146097 = days := by omega
    have hFour : r / 1461 = fours := by omega
    have hRest : r % 1461 = s := by omega
    simp only [yearAndRest, Nat.add_sub_cancel]
    rw [hCycle, hDay, ← hCenturies, ← hR, hFour, hRest, ← hYears]
  rw [hEq]
  refine ⟨Nat.le_add_left 1 _, ?_, ?_⟩
  · show _ = daysBeforeYear (400 * cycles + 100 * centuries + 4 * fours + years + 1) + _ + 1
    have hFour : (400 * cycles + 100 * centuries + 4 * fours + years) / 4 =
        100 * cycles + 25 * centuries + fours := by omega
    have hHundred : (400 * cycles + 100 * centuries + 4 * fours + years) / 100 =
        4 * cycles + centuries := by omega
    have hFourHundred : (400 * cycles + 100 * centuries + 4 * fours + years) / 400 = cycles := by
      omega
    simp only [daysBeforeYear, Nat.add_sub_cancel]
    rw [hFour, hHundred, hFourHundred]
    omega
  · show s - 365 * years < daysInYear (400 * cycles + 100 * centuries + 4 * fours + years + 1)
    rw [daysInYear]
    by_cases hLast : s - 365 * years = 365
    · have hLeap : isLeap (400 * cycles + 100 * centuries + 4 * fours + years + 1) = true := by
        rw [isLeap_iff]
        omega
      rw [if_pos hLeap]
      omega
    · split_ifs <;> omega

theorem daysBeforeYear_mono {i j : Nat} (hPos : 1 ≤ i) (h : i ≤ j) :
    daysBeforeYear i ≤ daysBeforeYear j := by
  induction j, h using Nat.le_induction with
  | base => exact le_rfl
  | succ j hJ ih =>
    rw [daysBeforeYear_succ (le_trans hPos hJ)]
    exact le_trans ih (Nat.le_add_right _ _)

/-- The month of a day of a year. -/
theorem month_spec {rest : Nat} (h : rest < daysInYear year) :
    ∃ month, Nat.findGreatest (fun month => 1 ≤ month ∧ daysBeforeMonth year month ≤ rest) 12 =
        month ∧ (1 ≤ month ∧ month ≤ 12) ∧ daysBeforeMonth year month ≤ rest ∧
      rest < daysBeforeMonth year month + daysInMonth year month := by
  have hFirst : 1 ≤ 1 ∧ daysBeforeMonth year 1 ≤ rest := ⟨le_rfl, Nat.zero_le _⟩
  have hFound := Nat.findGreatest_spec
    (P := fun month => 1 ≤ month ∧ daysBeforeMonth year month ≤ rest) (n := 12) (by decide) hFirst
  have hLast := Nat.findGreatest_le
    (P := fun month => 1 ≤ month ∧ daysBeforeMonth year month ≤ rest) 12
  refine ⟨_, rfl, ⟨hFound.1, hLast⟩, hFound.2, ?_⟩
  rw [← daysBeforeMonth_succ hFound.1]
  by_contra hAfter
  rw [not_lt] at hAfter
  rcases Nat.lt_or_ge (Nat.findGreatest
    (fun month => 1 ≤ month ∧ daysBeforeMonth year month ≤ rest) 12) 12 with hBefore | hDecember
  · exact Nat.findGreatest_is_greatest (Nat.lt_succ_self _) hBefore
      ⟨Nat.le_add_left 1 _, hAfter⟩
  · rw [le_antisymm hLast hDecember, daysBeforeMonth_year] at hAfter
    omega

/-- **Each number up to the last is of a date.** -/
theorem exists_ofOrdinal? (hPos : 1 ≤ n) (hLast : n ≤ daysBeforeYear (maxYear + 1)) :
    ∃ d, ofOrdinal? n = some d ∧ d.toOrdinal = n := by
  obtain ⟨hYear, hOrdinal, hRest⟩ := yearAndRest_spec hPos
  cases hPair : yearAndRest n with
  | mk year rest =>
    rw [hPair] at hYear hOrdinal hRest
    dsimp only at hYear hOrdinal hRest
    obtain ⟨month, hMonth, hMem, hBefore, hAfter⟩ := month_spec hRest
    have hMax : year ≤ maxYear := by
      by_contra hLater
      have hMono := daysBeforeYear_mono (Nat.le_add_left 1 maxYear) (Nat.lt_of_not_le hLater)
      omega
    have hDay : 1 ≤ rest - daysBeforeMonth year month + 1 ∧
        rest - daysBeforeMonth year month + 1 ≤ daysInMonth year month := by omega
    refine ⟨⟨year, month, _, ⟨hYear, hMax⟩, hMem, hDay⟩, ?_, ?_⟩
    · rw [ofOrdinal?, if_pos (by omega), Int.toNat_natCast, hPair]
      dsimp only
      rw [hMonth]
      exact dif_pos ⟨⟨hYear, hMax⟩, hMem, hDay⟩
    · show daysBeforeYear year + daysBeforeMonth year month +
        (rest - daysBeforeMonth year month + 1) = n
      omega

theorem Date.toOrdinal_pos (d : Date) : 1 ≤ d.toOrdinal :=
  le_trans d.day_mem.1 (Nat.le_add_left _ _)

theorem Date.toOrdinal_le (d : Date) : d.toOrdinal ≤ daysBeforeYear (d.year + 1) := by
  have hMonth := d.month_mem
  have hIndex := d.twelve_le_monthIndex
  have hNext : ¬firstOfMonth (12 * (d.year + 1)) < firstOfMonth (d.monthIndex + 1) := by
    rw [firstOfMonth_lt_iff (by omega) (by omega), monthIndex]
    omega
  have hYear : firstOfMonth (12 * (d.year + 1)) = daysBeforeYear (d.year + 1) + 1 := by
    rw [firstOfMonth, Nat.mul_div_cancel_left _ (by decide), Nat.mul_mod_right]
    rfl
  have hDay := d.mem_month.2
  omega

theorem Date.eq_of_of? {day : Nat} {d : Date} (h : Date.of? year month day = some d) :
    d.year = year ∧ d.month = month ∧ d.day = day := by
  rw [Date.of?] at h
  split_ifs at h
  cases h
  exact ⟨rfl, rfl, rfl⟩

/-- The number of its date. -/
theorem toOrdinal_of_ofOrdinal? {ordinal : Int} {d : Date} (h : ofOrdinal? ordinal = some d) :
    (d.toOrdinal : Int) = ordinal := by
  rw [ofOrdinal?] at h
  split_ifs at h with hPos
  obtain ⟨n, rfl⟩ := Int.eq_ofNat_of_zero_le (le_trans (by decide) hPos)
  rw [Int.toNat_natCast] at h
  obtain ⟨-, hOrdinal, hRest⟩ := yearAndRest_spec (n := n) (by omega)
  obtain ⟨month, hMonth, -, hBefore, -⟩ := month_spec hRest
  dsimp only at h
  rw [hMonth] at h
  obtain ⟨hYear, hMonth, hDay⟩ := Date.eq_of_of? h
  rw [Date.toOrdinal, hYear, hMonth, hDay]
  omega

/-- **The date of its number.** -/
theorem ofOrdinal?_toOrdinal (d : Date) : ofOrdinal? d.toOrdinal = some d := by
  have hLast : d.toOrdinal ≤ daysBeforeYear (maxYear + 1) :=
    le_trans d.toOrdinal_le
      (daysBeforeYear_mono (Nat.le_add_left 1 _) (Nat.succ_le_succ d.year_mem.2))
  obtain ⟨e, hE, hSame⟩ := exists_ofOrdinal? d.toOrdinal_pos hLast
  rw [hE, Date.toOrdinal_injective hSame]

end Lib.Calendar
