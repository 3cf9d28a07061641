import AdminPanel.Lib.Calendar
import AdminPanel.Lib.Periods
import AdminPanel.Panel.Database
import Mathlib.Order.Basic

/-!
# Periods of traffic limits

`get_traffic_limit_period_bounds` and `get_client_consumed_traffic_bytes` of `traffic_limit.py`:
the calendar day, the week from Monday and the calendar month of a UTC time, and the traffic of a
client in it.

* `DateTime` — a time of the calendar, in microseconds;
* `getTrafficLimitPeriodBounds`, `getClientConsumedTrafficBytes` — as the source has them;
* `tiles` — the periods of each kind tile the time line;
* `limit_periods_tile` — and the traffic of consecutive periods is the traffic of the whole.
-/

namespace AdminPanel.Traffic.LimitPeriods

open Option Lib.Calendar
open Lib.Periods
open Access (trafficLimitPeriodDaysAllowed)

/-! ## Times -/

def dayMicros : Nat := 86400 * 1000000

structure DateTime where
  date : Date
  micros : Fin dayMicros
  deriving DecidableEq

namespace DateTime

def instant (t : DateTime) : Nat := t.date.toOrdinal * dayMicros + t.micros

theorem instant_injective : Function.Injective instant := by
  intro s t h
  obtain ⟨d, i, hI⟩ := s
  obtain ⟨e, j, hJ⟩ := t
  change d.toOrdinal * dayMicros + i = e.toOrdinal * dayMicros + j at h
  unfold dayMicros at h hI hJ
  have hDate : d = e := Date.toOrdinal_injective (by omega)
  subst hDate
  have hMicros : i = j := by omega
  subst hMicros
  rfl

/-- Times in their order. -/
instance : LinearOrder DateTime := LinearOrder.lift' instant instant_injective

/-- The first time of a date. -/
def midnight (date : Date) : DateTime := ⟨date, ⟨0, by decide⟩⟩

/-- `t + timedelta(days=days)` -/
def addDays? (t : DateTime) (days : Int) : Option DateTime :=
  (ofOrdinal? (t.date.toOrdinal + days)).map fun date => { t with date := date }

/-- `t.replace(year=…, month=…, day=…)` -/
def replace? (t : DateTime) (year month day : Nat) : Option DateTime :=
  (Date.of? year month day).map fun date => { t with date := date }

theorem midnight_le_iff {date : Date} {t : DateTime} :
    midnight date ≤ t ↔ date.toOrdinal ≤ t.date.toOrdinal := by
  have hMicros := t.micros.isLt
  show date.toOrdinal * dayMicros + 0 ≤ t.date.toOrdinal * dayMicros + t.micros ↔ _
  unfold dayMicros at hMicros ⊢
  omega

theorem lt_midnight_iff {date : Date} {t : DateTime} :
    t < midnight date ↔ t.date.toOrdinal < date.toOrdinal := by
  rw [← not_le, midnight_le_iff, not_le]

end DateTime

/-! ## Bounds -/

/-- The bounds of an allowed period; without them a date is out of range and the call raises. -/
def periodBounds? (periodDays : Int) (now : DateTime) : Option (DateTime × DateTime) :=
  let dayStart := DateTime.midnight now.date
  if periodDays = 1 then (dayStart.addDays? 1).map fun dayEnd => (dayStart, dayEnd)
  else if periodDays = 7 then
    (dayStart.addDays? (-now.date.weekday)).bind fun weekStart =>
      (weekStart.addDays? 7).map fun weekEnd => (weekStart, weekEnd)
  else
    (dayStart.replace? dayStart.date.year dayStart.date.month 1).bind fun monthStart =>
      let d := monthStart.date
      (if d.month = 12 then monthStart.replace? (d.year + 1) 1 d.day
        else monthStart.replace? d.year (d.month + 1) d.day).map fun monthEnd =>
          (monthStart, monthEnd)

/-- `get_traffic_limit_period_bounds`: `some none` is `None, None`, and `none` raises. -/
def getTrafficLimitPeriodBounds (periodDays : Int) (now : DateTime) :
    Option (Option (DateTime × DateTime)) :=
  if periodDays ∉ trafficLimitPeriodDaysAllowed then some none
  else (periodBounds? periodDays now).map some

/-- The bounds that the call returns. -/
def periodOf (periodDays : Int) (now : DateTime) : Option (DateTime × DateTime) :=
  (getTrafficLimitPeriodBounds periodDays now).join

/-! ## Consumed traffic -/

/-- A row of `user_traffic_stat_protocol`. -/
structure Stat where
  nodeId : Int
  commonName : String
  protocolType : String
  totalReceived : Int
  totalSent : Int
  deriving DecidableEq, Repr

/-- A row of `user_traffic_sample`. -/
structure Sample where
  nodeId : Int
  commonName : String
  protocolType : String
  deltaReceived : Int
  deltaSent : Int
  createdAt : DateTime
  deriving DecidableEq

structure Tables where
  stats : List Stat := []
  samples : List Sample := []

/-- The arguments of a call. -/
structure Query where
  clientName : String
  nodeId : Option Int := none
  protocolTypes : Option (List String) := none
  normalizeIdentity : String → String := AdminPanel.Panel.normalizeClientName

def Query.allowedProtocols (q : Query) : Option (List String) :=
  q.protocolTypes.map fun protocolTypes =>
    (protocolTypes.filter fun p => Panel.stripped p ≠ "").map fun p =>
      Panel.lower (Panel.stripped p)

def Query.matched (q : Query) (db : Tables) : List String :=
  (((db.stats.filter fun row => q.nodeId.all fun nodeId => row.nodeId = nodeId).map
    Stat.commonName).eraseDups).filter fun stored =>
      Panel.stripped stored ≠ "" && q.normalizeIdentity stored = q.normalizeIdentity q.clientName

/-- The filters of the query but the one on time. -/
def Query.counts (q : Query) (db : Tables) (nodeId : Int) (commonName protocolType : String) :
    Bool :=
  decide (commonName ∈ q.matched db) && (q.nodeId.all fun id => nodeId = id) &&
    q.allowedProtocols.all fun allowed => decide (protocolType ∈ allowed)

/-- `get_client_consumed_traffic_bytes` at a time; without a number it raises. -/
def getClientConsumedTrafficBytes (db : Tables) (q : Query) (periodDays : Option Int)
    (now : DateTime) : Option Int :=
  if q.normalizeIdentity q.clientName = "" then some 0
  else if q.allowedProtocols = some [] then some 0
  else if q.matched db = [] then some 0
  else
    match periodDays.filter (· ∈ trafficLimitPeriodDaysAllowed) with
    | some days =>
      (periodOf days now).map fun (since, till) =>
        ((db.samples.filter fun s => q.counts db s.nodeId s.commonName s.protocolType &&
          (decide (since ≤ s.createdAt) && decide (s.createdAt < till))).map
            fun s => s.deltaReceived + s.deltaSent).sum
    | none =>
      some ((db.stats.filter fun s => q.counts db s.nodeId s.commonName s.protocolType).map
        fun s => s.totalReceived + s.totalSent).sum

/-! ## Dates of a period -/

/-- The first date of the period of a date, and the first date after it. -/
def datePeriod? (periodDays : Int) (d : Date) : Option (Date × Date) :=
  if periodDays = 1 then (ofOrdinal? (d.toOrdinal + 1)).map fun next => (d, next)
  else if periodDays = 7 then
    (ofOrdinal? (d.toOrdinal + -d.weekday)).bind fun monday =>
      (ofOrdinal? (monday.toOrdinal + 7)).map fun next => (monday, next)
  else
    (Date.of? d.year d.month 1).bind fun first =>
      (if first.month = 12 then Date.of? (first.year + 1) 1 first.day
        else Date.of? first.year (first.month + 1) first.day).map fun next => (first, next)

variable {periodDays : Int} {now : DateTime} {d first next t : Date}

theorem periodBounds?_eq (periodDays : Int) (now : DateTime) : periodBounds? periodDays now =
    (datePeriod? periodDays now.date).map fun dates =>
      (DateTime.midnight dates.1, DateTime.midnight dates.2) := by
  unfold periodBounds? datePeriod?
  split_ifs
  · simp only [DateTime.addDays?, DateTime.midnight, Option.map_map]
    rfl
  · simp only [DateTime.addDays?, DateTime.midnight, bind_map, Option.map_bind]
    congr 1
    funext monday
    simp only [Function.comp_apply, Option.map_map]
    rfl
  · simp only [DateTime.replace?, DateTime.midnight, bind_map, Option.map_bind]
    congr 1
    funext monthStart
    simp only [Function.comp_apply]
    split_ifs <;> simp only [Option.map_map] <;> rfl

theorem periodOf_eq (hAllowed : periodDays ∈ trafficLimitPeriodDaysAllowed) (now : DateTime) :
    periodOf periodDays now = (datePeriod? periodDays now.date).map fun dates =>
      (DateTime.midnight dates.1, DateTime.midnight dates.2) := by
  rw [periodOf, getTrafficLimitPeriodBounds, if_neg (not_not.mpr hAllowed), ← periodBounds?_eq]
  cases periodBounds? periodDays now <;> rfl

/-- The period of a date is the period of all its dates. -/
structure Spans (periodDays : Int) (d first next : Date) : Prop where
  period : datePeriod? periodDays d = some (first, next)
  first_le : first.toOrdinal ≤ d.toOrdinal
  lt_next : d.toOrdinal < next.toOrdinal
  same : ∀ t : Date, first.toOrdinal ≤ t.toOrdinal → t.toOrdinal < next.toOrdinal →
    datePeriod? periodDays t = some (first, next)
  follows : datePeriod? periodDays next = (datePeriod? periodDays next).map fun p => (next, p.2)

/-! ## Days -/

theorem spans_day (h : datePeriod? 1 d = some (first, next)) : Spans 1 d first next := by
  obtain ⟨e, hE, hPair⟩ := map_eq_some_iff.mp h
  cases hPair
  have hNext := toOrdinal_of_ofOrdinal? hE
  refine ⟨h, le_rfl, by omega, fun t hFirst hLast => ?_, ?_⟩
  · rw [Date.toOrdinal_injective (show t.toOrdinal = d.toOrdinal by omega)]
    exact h
  · show Option.map _ _ = Option.map _ (Option.map _ _)
    rw [Option.map_map]
    rfl

/-! ## Weeks -/

theorem weekday_eq (d : Date) :
    (d.toOrdinal : Int) + -d.weekday = 7 * ((d.toOrdinal + 6) / 7 : Nat) - 6 := by
  have hWeekday : d.weekday = (d.toOrdinal + 6) % 7 := rfl
  omega

theorem datePeriod?_week (d : Date) : datePeriod? 7 d =
    (ofOrdinal? (7 * ((d.toOrdinal + 6) / 7 : Nat) - 6)).bind fun monday =>
      (ofOrdinal? (monday.toOrdinal + 7)).map fun next => (monday, next) := by
  rw [← weekday_eq]
  rfl

theorem spans_week (h : datePeriod? 7 d = some (first, next)) : Spans 7 d first next := by
  have hWeek := h
  rw [datePeriod?_week] at hWeek
  obtain ⟨monday, hMonday, hRest⟩ := bind_eq_some_iff.mp hWeek
  obtain ⟨e, hE, hPair⟩ := map_eq_some_iff.mp hRest
  obtain ⟨rfl, rfl⟩ := Prod.mk.inj hPair
  have hFirst := toOrdinal_of_ofOrdinal? hMonday
  have hNext := toOrdinal_of_ofOrdinal? hE
  refine ⟨h, by omega, by omega, fun t hLe hLt => ?_, ?_⟩
  · have hSame : (t.toOrdinal + 6) / 7 = (d.toOrdinal + 6) / 7 := by omega
    rw [datePeriod?_week, hSame, ← datePeriod?_week]
    exact h
  have hSelf : ofOrdinal? (7 * ((e.toOrdinal + 6) / 7 : Nat) - 6) = some e := by
    have hOrdinal : (7 * ((e.toOrdinal + 6) / 7 : Nat) - 6 : Int) = e.toOrdinal := by omega
    rw [hOrdinal]
    exact ofOrdinal?_toOrdinal e
  rw [datePeriod?_week, hSelf]
  show Option.map _ _ = Option.map _ (Option.map _ _)
  rw [Option.map_map]
  rfl

/-! ## Months -/

/-- The first day of the month after the month of a date. -/
def nextMonth? (d : Date) : Option Date :=
  if d.month = 12 then Date.of? (d.year + 1) 1 1 else Date.of? d.year (d.month + 1) 1

theorem toOrdinal_first (h : d.day = 1) : d.toOrdinal = firstOfMonth d.monthIndex := by
  have hOrdinal := d.toOrdinal_eq
  omega

theorem monthIndex_nextMonth? (h : nextMonth? d = some next) :
    next.monthIndex = d.monthIndex + 1 ∧ next.day = 1 := by
  have hMonth := d.month_mem
  rw [nextMonth?] at h
  -- December goes on to the next year
  split_ifs at h with hLast
  all_goals
    obtain ⟨hYear, hFirst, hDay⟩ := Date.eq_of_of? h
    refine ⟨?_, hDay⟩
    rw [Date.monthIndex, Date.monthIndex, hYear, hFirst]
    omega

theorem exists_first (d : Date) : ∃ first, Date.of? d.year d.month 1 = some first ∧
    first.year = d.year ∧ first.month = d.month ∧ first.day = 1 :=
  ⟨⟨d.year, d.month, 1, d.year_mem, d.month_mem, le_rfl, daysInMonth_pos⟩,
    dif_pos ⟨d.year_mem, d.month_mem, le_rfl, daysInMonth_pos⟩, rfl, rfl, rfl⟩

theorem datePeriod?_month (d : Date) : datePeriod? 30 d =
    (Date.of? d.year d.month 1).bind fun first => (nextMonth? d).map fun next => (first, next) := by
  obtain ⟨first, hFirst, hYear, hMonth, hDay⟩ := exists_first d
  show (Date.of? d.year d.month 1).bind _ = _
  rw [hFirst, bind_some, bind_some, hYear, hMonth, hDay]
  rfl

theorem spans_month (h : datePeriod? 30 d = some (first, next)) : Spans 30 d first next := by
  have hMonth := h
  rw [datePeriod?_month] at hMonth
  obtain ⟨e, hE, hRest⟩ := bind_eq_some_iff.mp hMonth
  obtain ⟨f, hF, hPair⟩ := map_eq_some_iff.mp hRest
  obtain ⟨rfl, rfl⟩ := Prod.mk.inj hPair
  obtain ⟨hYear, hSame, hDay⟩ := Date.eq_of_of? hE
  have hIndex : e.monthIndex = d.monthIndex := by
    rw [Date.monthIndex, hYear, hSame, Date.monthIndex]
  obtain ⟨hAfter, hAfterDay⟩ := monthIndex_nextMonth? hF
  have hFirst := toOrdinal_first hDay
  have hNext := toOrdinal_first hAfterDay
  rw [hIndex] at hFirst
  rw [hAfter] at hNext
  refine ⟨h, ?_, ?_, fun t hLe hLt => ?_, ?_⟩
  · rw [hFirst]
    exact d.mem_month.1
  · rw [hNext]
    exact d.mem_month.2
  · rw [hFirst] at hLe
    rw [hNext] at hLt
    have hT := month_unique t.twelve_le_monthIndex d.twelve_le_monthIndex t.mem_month.1
      t.mem_month.2 hLe hLt
    have hTYear : t.year = d.year := by rw [← t.monthIndex_div, hT, d.monthIndex_div]
    have hTMonth : t.month = d.month := by rw [← t.monthIndex_mod, hT, d.monthIndex_mod]
    rw [← h, datePeriod?_month, datePeriod?_month, nextMonth?, nextMonth?, hTYear, hTMonth]
  · have hSelf : Date.of? f.year f.month 1 = some f := by
      rw [← hAfterDay]
      exact f.of?_self
    rw [datePeriod?_month, hSelf]
    show Option.map _ _ = Option.map _ (Option.map _ _)
    rw [Option.map_map]
    rfl

/-! ## Every kind of period -/

theorem spans (hAllowed : periodDays ∈ trafficLimitPeriodDaysAllowed)
    (h : datePeriod? periodDays d = some (first, next)) : Spans periodDays d first next := by
  simp only [trafficLimitPeriodDaysAllowed, List.mem_cons, List.not_mem_nil, or_false] at hAllowed
  rcases hAllowed with rfl | rfl | rfl
  · exact spans_day h
  · exact spans_week h
  · exact spans_month h

/-- A date with a week of later ones has a period. -/
theorem exists_datePeriod? (hAllowed : periodDays ∈ trafficLimitPeriodDaysAllowed)
    (h : d.toOrdinal + 7 ≤ daysBeforeYear (maxYear + 1))
    (hMonth : ∃ next, nextMonth? d = some next) : ∃ first next,
      datePeriod? periodDays d = some (first, next) := by
  have hPos := d.toOrdinal_pos
  simp only [trafficLimitPeriodDaysAllowed, List.mem_cons, List.not_mem_nil, or_false] at hAllowed
  rcases hAllowed with rfl | rfl | rfl
  · obtain ⟨e, hE, -⟩ := exists_ofOrdinal? (n := d.toOrdinal + 1) (by omega) (by omega)
    exact ⟨d, e, map_eq_some_iff.mpr ⟨e, by exact_mod_cast hE, rfl⟩⟩
  · have hStart : 1 ≤ 7 * ((d.toOrdinal + 6) / 7) - 6 := by omega
    obtain ⟨e, hE, hFirst⟩ := exists_ofOrdinal? hStart (by omega)
    obtain ⟨f, hF, -⟩ := exists_ofOrdinal? (n := e.toOrdinal + 7) (by omega) (by omega)
    refine ⟨e, f, ?_⟩
    have hSame : (7 * ((d.toOrdinal + 6) / 7 : Nat) - 6 : Int) =
        (7 * ((d.toOrdinal + 6) / 7) - 6 : Nat) := by omega
    rw [datePeriod?_week, hSame, hE, bind_some]
    exact map_eq_some_iff.mpr ⟨f, by exact_mod_cast hF, rfl⟩
  · obtain ⟨f, hF⟩ := hMonth
    obtain ⟨e, hE, -⟩ := exists_first d
    refine ⟨e, f, ?_⟩
    rw [datePeriod?_month, hE, hF]
    rfl

/-- The last year begins a year before the calendar ends. -/
theorem lastYear : daysBeforeYear maxYear + 365 = daysBeforeYear (maxYear + 1) := by decide

/-- In the years before the last, and a week beyond, each date has a period. -/
theorem exists_datePeriod?_of_early (hAllowed : periodDays ∈ trafficLimitPeriodDaysAllowed)
    (h : d.toOrdinal ≤ daysBeforeYear maxYear + 7) :
    ∃ first next, datePeriod? periodDays d = some (first, next) := by
  refine exists_datePeriod? hAllowed (by have hLast := lastYear; omega) ?_
  have hYear := d.year_mem
  have hMonth := d.month_mem
  by_cases hDecember : d.month = 12
  · have hEarly : d.year + 1 ≤ maxYear := by
      by_contra hLate
      have hLast : d.year = maxYear := by omega
      have hNovember : daysBeforeMonth maxYear 12 = 334 := by decide
      have hOrdinal : d.toOrdinal =
          daysBeforeYear d.year + daysBeforeMonth d.year d.month + d.day := rfl
      rw [hDecember, hLast, hNovember] at hOrdinal
      omega
    exact ⟨⟨d.year + 1, 1, 1, ⟨by omega, hEarly⟩, ⟨by decide, by decide⟩,
        ⟨le_rfl, daysInMonth_pos⟩⟩,
      (if_pos hDecember).trans
        (dif_pos ⟨⟨by omega, hEarly⟩, ⟨by decide, by decide⟩, ⟨le_rfl, daysInMonth_pos⟩⟩)⟩
  · exact ⟨⟨d.year, d.month + 1, 1, hYear, ⟨by omega, by omega⟩, ⟨le_rfl, daysInMonth_pos⟩⟩,
      (if_neg hDecember).trans (dif_pos ⟨hYear, ⟨by omega, by omega⟩, ⟨le_rfl, daysInMonth_pos⟩⟩)⟩

/-- A period ends a week after the date at most, or at the first day of a month. -/
theorem next_early (hAllowed : periodDays ∈ trafficLimitPeriodDaysAllowed)
    (hYear : d.year < maxYear) (h : datePeriod? periodDays d = some (first, next)) :
    next.toOrdinal ≤ daysBeforeYear maxYear + 7 := by
  have hEnd := le_trans d.toOrdinal_le (daysBeforeYear_mono (Nat.le_add_left 1 _) hYear)
  simp only [trafficLimitPeriodDaysAllowed, List.mem_cons, List.not_mem_nil, or_false] at hAllowed
  rcases hAllowed with rfl | rfl | rfl
  · obtain ⟨e, hE, hPair⟩ := map_eq_some_iff.mp h
    obtain ⟨rfl, rfl⟩ := Prod.mk.inj hPair
    have hNext := toOrdinal_of_ofOrdinal? hE
    omega
  · rw [datePeriod?_week] at h
    obtain ⟨monday, hMonday, hRest⟩ := bind_eq_some_iff.mp h
    obtain ⟨e, hE, hPair⟩ := map_eq_some_iff.mp hRest
    obtain ⟨rfl, rfl⟩ := Prod.mk.inj hPair
    have hFirst := toOrdinal_of_ofOrdinal? hMonday
    have hNext := toOrdinal_of_ofOrdinal? hE
    omega
  · rw [datePeriod?_month] at h
    obtain ⟨e, -, hRest⟩ := bind_eq_some_iff.mp h
    obtain ⟨f, hF, hPair⟩ := map_eq_some_iff.mp hRest
    obtain ⟨rfl, rfl⟩ := Prod.mk.inj hPair
    obtain ⟨hAfter, hDay⟩ := monthIndex_nextMonth? hF
    have hMonth := d.month_mem
    have hNotLater : ¬firstOfMonth (12 * maxYear) < firstOfMonth f.monthIndex := by
      rw [firstOfMonth_lt_iff (by decide) f.twelve_le_monthIndex, hAfter, Date.monthIndex]
      omega
    have hLast : firstOfMonth (12 * maxYear) = daysBeforeYear maxYear + 1 := by decide
    have hOrdinal := toOrdinal_first hDay
    omega

/-- **The periods tile the time line.** -/
theorem tiles (hAllowed : periodDays ∈ trafficLimitPeriodDaysAllowed)
    (hYear : now.date.year < maxYear) :
    ∃ start finish, Tiles (periodOf periodDays) now start finish := by
  have hEarly := le_trans now.date.toOrdinal_le
    (daysBeforeYear_mono (Nat.le_add_left 1 _) hYear)
  obtain ⟨first, next, hDates⟩ := exists_datePeriod?_of_early (d := now.date) hAllowed (by omega)
  have hSpans := spans hAllowed hDates
  refine ⟨DateTime.midnight first, DateTime.midnight next, ?_, ?_, ?_, fun t hLe hLt => ?_, ?_⟩
  · rw [periodOf_eq hAllowed, hDates]
    rfl
  · exact DateTime.midnight_le_iff.mpr hSpans.first_le
  · exact DateTime.lt_midnight_iff.mpr hSpans.lt_next
  · rw [periodOf_eq hAllowed, hSpans.same t.date (DateTime.midnight_le_iff.mp hLe)
      (DateTime.lt_midnight_iff.mp hLt)]
    rfl
  · obtain ⟨first', after, hAfter⟩ := exists_datePeriod?_of_early hAllowed
      (next_early hAllowed hYear hDates)
    have hFollows := hSpans.follows
    rw [hAfter] at hFollows
    refine ⟨DateTime.midnight after, ?_⟩
    rw [periodOf_eq hAllowed]
    show (datePeriod? periodDays next).map _ = _
    rw [hAfter, hFollows]
    rfl

/-- A period does not end before it begins. -/
theorem start_le_finish (hAllowed : periodDays ∈ trafficLimitPeriodDaysAllowed)
    {start finish : DateTime} (h : periodOf periodDays now = some (start, finish)) :
    start ≤ finish := by
  rw [periodOf_eq hAllowed] at h
  obtain ⟨⟨first, next⟩, hDates, hPair⟩ := map_eq_some_iff.mp h
  cases hPair
  have hSpans := spans hAllowed hDates
  exact DateTime.midnight_le_iff.mpr (le_of_lt (lt_of_le_of_lt hSpans.first_le hSpans.lt_next))

/-! ## Traffic of a period -/

/-- The samples that a query counts. -/
def counted (db : Tables) (q : Query) : List Sample :=
  if q.normalizeIdentity q.clientName = "" then []
  else db.samples.filter fun s => q.counts db s.nodeId s.commonName s.protocolType

/-- The traffic of a client from a time to another. -/
def trafficBetween (db : Tables) (q : Query) (start finish : DateTime) : Int :=
  amount Sample.createdAt (fun s => s.deltaReceived + s.deltaSent) (counted db q) start finish

/-- What is counted is the traffic between the bounds. -/
theorem consumed_eq (hAllowed : periodDays ∈ trafficLimitPeriodDaysAllowed) (db : Tables)
    (q : Query) {start finish : DateTime} (h : periodOf periodDays now = some (start, finish)) :
    getClientConsumedTrafficBytes db q (some periodDays) now =
      some (trafficBetween db q start finish) := by
  have hNone : (∀ s : Sample, q.counts db s.nodeId s.commonName s.protocolType = false) →
      trafficBetween db q start finish = 0 := by
    intro hCounts
    have hEmpty : counted db q = [] := by
      rw [counted]
      split_ifs
      · rfl
      · exact List.filter_eq_nil_iff.mpr fun s _ => by rw [hCounts]; exact Bool.false_ne_true
    rw [trafficBetween, hEmpty]
    rfl
  rw [getClientConsumedTrafficBytes]
  split_ifs with hTarget hProtocols hMatched
  · rw [trafficBetween, counted, if_pos hTarget]
    rfl
  · rw [hNone fun s => by rw [Query.counts, hProtocols]; simp]
  · rw [hNone fun s => by rw [Query.counts, hMatched]; simp]
  · have hPeriod : (some periodDays).filter (· ∈ trafficLimitPeriodDaysAllowed) =
        some periodDays := by
      rw [filter_some, if_pos (decide_eq_true hAllowed)]
    rw [hPeriod]
    dsimp only
    rw [h, map_some, trafficBetween, amount, counted, if_neg hTarget, List.filter_filter]
    congr 4
    funext s
    exact Bool.and_comm _ _

/-- **Traffic-limit periods tile the time line.** A period of an allowed kind has its time in it,
is the period of all times in it, and is followed by the next; over consecutive periods each time
is counted once, and the traffic of a client adds up to that of the whole. -/
theorem limit_periods_tile (periodDays : Int)
    (hAllowed : periodDays ∈ trafficLimitPeriodDaysAllowed) :
    (∀ now : DateTime, now.date.year < maxYear →
      ∃ start finish, Tiles (periodOf periodDays) now start finish) ∧
    ∀ (start finish : DateTime) (nows : List DateTime),
      Consecutive (periodOf periodDays) start nows finish →
      (∀ t, nows.countP (inPeriod (periodOf periodDays) t) =
        if start ≤ t ∧ t < finish then 1 else 0) ∧
      ∀ (db : Tables) (q : Query),
        (nows.mapM (getClientConsumedTrafficBytes db q (some periodDays))).map List.sum =
          some (trafficBetween db q start finish) := by
  refine ⟨fun now hYear => tiles hAllowed hYear, fun start finish nows hNows => ?_⟩
  refine ⟨count_consecutive hNows fun now s e h => start_le_finish hAllowed h, fun db q => ?_⟩
  exact sum_consecutive hNows (fun now s e h => start_le_finish hAllowed h) _ _ _ _
    fun now s e h => consumed_eq hAllowed db q h

/-- Noon of February 29, 2024. -/
def leapDay : DateTime :=
  ⟨⟨2024, 2, 29, by decide, by decide, by decide⟩, ⟨43200 * 1000000, by decide⟩⟩

def februaryFirst : Date := ⟨2024, 2, 1, by decide, by decide, by decide⟩

def marchFirst : Date := ⟨2024, 3, 1, by decide, by decide, by decide⟩

theorem leapDay_period :
    (∃ start finish, Tiles (periodOf 30) leapDay start finish) ∧
      [leapDay].countP (inPeriod (periodOf 30) leapDay) = 1 := by
  have hPeriod : periodOf 30 leapDay =
      some (DateTime.midnight februaryFirst, DateTime.midnight marchFirst) := by decide
  have hTile := limit_periods_tile 30 (by decide)
  refine ⟨hTile.1 leapDay (by decide), ?_⟩
  rw [(hTile.2 _ _ [leapDay] (Consecutive.cons hPeriod (Consecutive.nil _))).1 leapDay]
  exact if_pos ⟨DateTime.midnight_le_iff.mpr (by decide), DateTime.lt_midnight_iff.mpr (by decide)⟩

end AdminPanel.Traffic.LimitPeriods
