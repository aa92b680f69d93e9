import Ssdfs.Lib.Fieldwise
import Ssdfs.Lib.Word

namespace Ssdfs

/-- A field that is left open holds the largest number of 32 bits. -/
structure TimeRange where
  minute : Nat
  hour : Nat
  day : Nat
  month : Nat
  year : Nat
  deriving Repr, DecidableEq

def anyField : Nat := Word.u32Max

/-- The fields of `struct tm` that are compared. -/
structure Tm where
  tmMin : Nat
  tmHour : Nat
  tmMday : Nat
  tmMon : Nat
  tmYear : Nat
  deriving Repr, DecidableEq

inductive TimestampGranularity where
  | year
  | month
  | day
  | hour
  | minute
  | currentTimestamp
  deriving Repr, DecidableEq

namespace TimeRange

variable (snapshot : TimeRange)

def checkHourGranularity : TimestampGranularity :=
  if snapshot.hour ≠ anyField then
    if snapshot.minute ≠ anyField then .minute else .hour
  else .day

def checkDayGranularity : TimestampGranularity :=
  if snapshot.day ≠ anyField then snapshot.checkHourGranularity else .month

def checkMonthGranularity : TimestampGranularity :=
  if snapshot.month ≠ anyField then snapshot.checkDayGranularity else .year

def timestampGranularity : TimestampGranularity :=
  if snapshot.year ≠ anyField then snapshot.checkMonthGranularity
  else if snapshot.month ≠ anyField then snapshot.checkDayGranularity
  else if snapshot.day ≠ anyField then snapshot.checkHourGranularity
  else if snapshot.hour ≠ anyField then
    if snapshot.minute ≠ anyField then .minute else .hour
  else .currentTimestamp

def baseYear : Nat := 1900

def isYearInsideRange (currentTime time : Tm) : Bool × TimeRange :=
  let snapshot := if snapshot.year = anyField then
      { snapshot with year := Word.u32 (baseYear + currentTime.tmYear) }
    else snapshot
  (decide ¬Word.u32 (baseYear + time.tmYear) > snapshot.year, snapshot)

def isMonthInsideRange (currentTime time : Tm) : Bool × TimeRange :=
  let (inside, snapshot) := snapshot.isYearInsideRange currentTime time
  if inside then
    let snapshot := if snapshot.month = anyField then
        { snapshot with month := Word.u32 (currentTime.tmMon + 1) }
      else snapshot
    (decide ¬Word.u32 (time.tmMon + 1) > snapshot.month, snapshot)
  else (false, snapshot)

def isDayInsideRange (currentTime time : Tm) : Bool × TimeRange :=
  let (inside, snapshot) := snapshot.isMonthInsideRange currentTime time
  if inside then
    let snapshot := if snapshot.day = anyField then { snapshot with day := currentTime.tmMday }
      else snapshot
    (decide ¬time.tmMday > snapshot.day, snapshot)
  else (false, snapshot)

def isHourInsideRange (currentTime time : Tm) : Bool × TimeRange :=
  let (inside, snapshot) := snapshot.isDayInsideRange currentTime time
  if inside then
    let snapshot := if snapshot.hour = anyField then { snapshot with hour := currentTime.tmHour }
      else snapshot
    (decide ¬time.tmHour > snapshot.hour, snapshot)
  else (false, snapshot)

/-- Here years count from 1900 and months from 0, and an open field admits every time. -/
def isMinuteInsideRange (time : Tm) : Bool :=
  if snapshot.year = anyField then true
  else if snapshot.month = anyField then true
  else if snapshot.day = anyField then true
  else if snapshot.hour = anyField then true
  else if snapshot.minute = anyField then true
  else if time.tmYear > snapshot.year then false
  else if time.tmMon > snapshot.month then false
  else if time.tmMday > snapshot.day then false
  else if time.tmHour > snapshot.hour then false
  else if time.tmMin > snapshot.minute then false
  else true

def insideRangeAt (currentTime time : Tm) : TimestampGranularity → Bool × TimeRange
  | .year => snapshot.isYearInsideRange currentTime time
  | .month => snapshot.isMonthInsideRange currentTime time
  | .day => snapshot.isDayInsideRange currentTime time
  | .hour => snapshot.isHourInsideRange currentTime time
  | .minute => (snapshot.isMinuteInsideRange time, snapshot)
  | .currentTimestamp => (true, snapshot)

def isTimestampInsideRange (currentTime time : Tm) : Bool × TimeRange :=
  snapshot.insideRangeAt currentTime time snapshot.timestampGranularity

def evaluated (currentTime : Tm) (times : List Tm) : TimeRange :=
  times.foldl (fun snapshot time => (snapshot.isTimestampInsideRange currentTime time).2) snapshot

end TimeRange

/-- What `localtime_r` can return for a time that is not before 1970. -/
structure Tm.Valid (tm : Tm) : Prop where
  min : tm.tmMin ≤ 59
  hour : tm.tmHour ≤ 23
  mday : 1 ≤ tm.tmMday ∧ tm.tmMday ≤ 31
  mon : tm.tmMon ≤ 11
  year : 69 ≤ tm.tmYear ∧ tm.tmYear ≤ 2147483647

def Tm.date (tm : Tm) : List Nat := [1900 + tm.tmYear, tm.tmMon + 1, tm.tmMday, tm.tmHour, tm.tmMin]

/-- A conversion of timestamps that is monotone in the order of the calendar. -/
structure LocalTime where
  tm : UInt64 → Tm
  valid : ∀ timestamp, (tm timestamp).Valid
  mono : ∀ t₁ t₂, t₁ ≤ t₂ → (tm t₁).date ≤ (tm t₂).date

namespace TimeRange

def filled (limit current : Nat) : Nat := if limit = anyField then current else limit

def dateBounds (year month day hour minute : Nat) : List Bound :=
  [⟨1969, 2147485547, year⟩, ⟨1, 12, month⟩, ⟨1, 31, day⟩, ⟨0, 23, hour⟩, ⟨0, 59, minute⟩]

section

variable (snapshot : TimeRange) (currentTime : Tm)

def yearLimit : Nat := filled snapshot.year (baseYear + currentTime.tmYear)
def monthLimit : Nat := filled snapshot.month (currentTime.tmMon + 1)
def dayLimit : Nat := filled snapshot.day currentTime.tmMday
def hourLimit : Nat := filled snapshot.hour currentTime.tmHour

/-- The limits that go with the granularity; a field that is not compared has its largest value. -/
def bounds : List Bound :=
  match snapshot.timestampGranularity with
  | .year => dateBounds (snapshot.yearLimit currentTime) 12 31 23 59
  | .month => dateBounds (snapshot.yearLimit currentTime) (snapshot.monthLimit currentTime) 31 23 59
  | .day => dateBounds (snapshot.yearLimit currentTime) (snapshot.monthLimit currentTime)
      (snapshot.dayLimit currentTime) 23 59
  | .hour => dateBounds (snapshot.yearLimit currentTime) (snapshot.monthLimit currentTime)
      (snapshot.dayLimit currentTime) (snapshot.hourLimit currentTime) 59
  | .minute =>
    if snapshot.year = anyField then dateBounds 2147485547 12 31 23 59
    else dateBounds (snapshot.year + baseYear) (snapshot.month + 1) snapshot.day snapshot.hour
      snapshot.minute
  | .currentTimestamp => dateBounds 2147485547 12 31 23 59

def fillYear : TimeRange := { snapshot with year := snapshot.yearLimit currentTime }
def fillMonth : TimeRange :=
  { snapshot.fillYear currentTime with month := snapshot.monthLimit currentTime }
def fillDay : TimeRange := { snapshot.fillMonth currentTime with day := snapshot.dayLimit currentTime }
def fillHour : TimeRange := { snapshot.fillDay currentTime with hour := snapshot.hourLimit currentTime }

end

section

variable {snapshot : TimeRange} {currentTime time : Tm}

theorem isTimestampInsideRange_at {g : TimestampGranularity} (hg : snapshot.timestampGranularity = g) :
    snapshot.isTimestampInsideRange currentTime time = snapshot.insideRangeAt currentTime time g :=
  congrArg (snapshot.insideRangeAt currentTime time) hg

theorem isYearInsideRange_eq (hcur : currentTime.Valid) (htime : time.Valid) :
    snapshot.isYearInsideRange currentTime time =
      (decide (1900 + time.tmYear ≤ snapshot.yearLimit currentTime), snapshot.fillYear currentTime) := by
  have hyear : Word.u32 (baseYear + currentTime.tmYear) = baseYear + currentTime.tmYear :=
    Word.u32_of_lt (by have := hcur.year; unfold baseYear; omega)
  have htyear : Word.u32 (baseYear + time.tmYear) = 1900 + time.tmYear :=
    Word.u32_of_lt (by have := htime.year; unfold baseYear; omega)
  unfold isYearInsideRange fillYear yearLimit filled
  simp only [hyear, htyear]
  by_cases h : snapshot.year = anyField
  · simp [h]
  · simp [h]

theorem isMonthInsideRange_eq (hcur : currentTime.Valid) (htime : time.Valid) :
    snapshot.isMonthInsideRange currentTime time =
      if 1900 + time.tmYear ≤ snapshot.yearLimit currentTime then
        (decide (time.tmMon + 1 ≤ snapshot.monthLimit currentTime), snapshot.fillMonth currentTime)
      else (false, snapshot.fillYear currentTime) := by
  have hmon : Word.u32 (currentTime.tmMon + 1) = currentTime.tmMon + 1 :=
    Word.u32_of_lt (by have := hcur.mon; omega)
  have htmon : Word.u32 (time.tmMon + 1) = time.tmMon + 1 :=
    Word.u32_of_lt (by have := htime.mon; omega)
  unfold isMonthInsideRange
  rw [isYearInsideRange_eq hcur htime]
  simp only [hmon, htmon, decide_eq_true_eq]
  split
  · by_cases h : snapshot.month = anyField
    · simp [h, fillMonth, fillYear, monthLimit, filled]
    · simp [h, fillMonth, fillYear, monthLimit, filled]
  · rfl

theorem isDayInsideRange_eq (hcur : currentTime.Valid) (htime : time.Valid) :
    snapshot.isDayInsideRange currentTime time =
      if 1900 + time.tmYear ≤ snapshot.yearLimit currentTime then
        if time.tmMon + 1 ≤ snapshot.monthLimit currentTime then
          (decide (time.tmMday ≤ snapshot.dayLimit currentTime), snapshot.fillDay currentTime)
        else (false, snapshot.fillMonth currentTime)
      else (false, snapshot.fillYear currentTime) := by
  unfold isDayInsideRange
  rw [isMonthInsideRange_eq hcur htime]
  by_cases hyear : 1900 + time.tmYear ≤ snapshot.yearLimit currentTime
  · by_cases hmonth : time.tmMon + 1 ≤ snapshot.monthLimit currentTime
    · by_cases h : snapshot.day = anyField
      · simp [hyear, hmonth, h, fillDay, fillMonth, fillYear, dayLimit, filled]
      · simp [hyear, hmonth, h, fillDay, fillMonth, fillYear, dayLimit, filled]
    · simp [hyear, hmonth]
  · simp [hyear]

theorem isHourInsideRange_eq (hcur : currentTime.Valid) (htime : time.Valid) :
    snapshot.isHourInsideRange currentTime time =
      if 1900 + time.tmYear ≤ snapshot.yearLimit currentTime then
        if time.tmMon + 1 ≤ snapshot.monthLimit currentTime then
          if time.tmMday ≤ snapshot.dayLimit currentTime then
            (decide (time.tmHour ≤ snapshot.hourLimit currentTime), snapshot.fillHour currentTime)
          else (false, snapshot.fillDay currentTime)
        else (false, snapshot.fillMonth currentTime)
      else (false, snapshot.fillYear currentTime) := by
  unfold isHourInsideRange
  rw [isDayInsideRange_eq hcur htime]
  by_cases hyear : 1900 + time.tmYear ≤ snapshot.yearLimit currentTime
  · by_cases hmonth : time.tmMon + 1 ≤ snapshot.monthLimit currentTime
    · by_cases hday : time.tmMday ≤ snapshot.dayLimit currentTime
      · by_cases h : snapshot.hour = anyField
        · simp [hyear, hmonth, hday, h, fillHour, fillDay, fillMonth, fillYear, hourLimit, filled]
        · simp [hyear, hmonth, hday, h, fillHour, fillDay, fillMonth, fillYear, hourLimit, filled]
      · simp [hyear, hmonth, hday]
    · simp [hyear, hmonth]
  · simp [hyear]

theorem isMinuteInsideRange_iff :
    snapshot.isMinuteInsideRange time = true ↔
      snapshot.year = anyField ∨ snapshot.month = anyField ∨ snapshot.day = anyField ∨
        snapshot.hour = anyField ∨ snapshot.minute = anyField ∨
        (time.tmYear ≤ snapshot.year ∧ time.tmMon ≤ snapshot.month ∧ time.tmMday ≤ snapshot.day ∧
          time.tmHour ≤ snapshot.hour ∧ time.tmMin ≤ snapshot.minute) := by
  simp only [isMinuteInsideRange, Bool.if_true_left, Bool.if_false_left, Bool.or_eq_true,
    Bool.and_eq_true, decide_eq_true_eq, Bool.not_eq_true', decide_eq_false_iff_not, Nat.not_lt,
    and_true, gt_iff_lt]

theorem inside_dateBounds {tm : Tm} {year month day hour minute : Nat} :
    Bound.Inside (dateBounds year month day hour minute) tm.date ↔
      1900 + tm.tmYear ≤ year ∧ tm.tmMon + 1 ≤ month ∧ tm.tmMday ≤ day ∧ tm.tmHour ≤ hour ∧
        tm.tmMin ≤ minute := by
  simp [Bound.Inside, dateBounds, Tm.date]

theorem minute_set (hyear : snapshot.year ≠ anyField) (h : snapshot.timestampGranularity = .minute) :
    snapshot.month ≠ anyField ∧ snapshot.day ≠ anyField ∧ snapshot.hour ≠ anyField ∧
      snapshot.minute ≠ anyField := by
  unfold timestampGranularity checkMonthGranularity checkDayGranularity checkHourGranularity at h
  grind

theorem isTimestampInsideRange_iff (hcur : currentTime.Valid) (htime : time.Valid) :
    (snapshot.isTimestampInsideRange currentTime time).1 = true ↔
      Bound.Inside (snapshot.bounds currentTime) time.date := by
  have hmin := htime.min
  have hhour := htime.hour
  have hmday := htime.mday
  have hmon := htime.mon
  have hyear := htime.year
  unfold isTimestampInsideRange insideRangeAt bounds
  match hg : snapshot.timestampGranularity with
  | .year =>
    simp only [isYearInsideRange_eq hcur htime, inside_dateBounds, decide_eq_true_eq]
    omega
  | .month =>
    simp only [isMonthInsideRange_eq hcur htime, inside_dateBounds]
    split
    · simp only [decide_eq_true_eq]
      omega
    · simp [*]
  | .day =>
    simp only [isDayInsideRange_eq hcur htime, inside_dateBounds]
    grind
  | .hour =>
    simp only [isHourInsideRange_eq hcur htime, inside_dateBounds]
    grind
  | .minute =>
    simp only [isMinuteInsideRange_iff]
    split
    case isTrue hopen =>
      simp only [hopen, true_or, true_iff, inside_dateBounds]
      omega
    case isFalse hset =>
      have hall := minute_set hset hg
      simp only [hset, hall, false_or, inside_dateBounds, baseYear]
      omega
  | .currentTimestamp =>
    simp only [inside_dateBounds, true_iff]
    omega

theorem filled_of_ne {limit current : Nat} (h : limit ≠ anyField) : filled limit current = limit :=
  if_neg h

theorem filled_filled (limit current : Nat) : filled (filled limit current) current = filled limit current := by
  by_cases h : limit = anyField
  · simp [filled, h]
  · rw [filled_of_ne h, filled_of_ne h]

theorem coarser_set (hyear : snapshot.year ≠ anyField) :
    (snapshot.timestampGranularity = .month → snapshot.month ≠ anyField) ∧
    (snapshot.timestampGranularity = .day → snapshot.month ≠ anyField ∧ snapshot.day ≠ anyField) ∧
    (snapshot.timestampGranularity = .hour →
      snapshot.month ≠ anyField ∧ snapshot.day ≠ anyField ∧ snapshot.hour ≠ anyField) := by
  unfold timestampGranularity checkMonthGranularity checkDayGranularity checkHourGranularity
  grind

theorem isTimestampInsideRange_snd_of_year (hcur : currentTime.Valid) (htime : time.Valid)
    (hyear : snapshot.year ≠ anyField) :
    (snapshot.isTimestampInsideRange currentTime time).2 = snapshot := by
  have hfill : snapshot.fillYear currentTime = snapshot := by
    simp [fillYear, yearLimit, filled_of_ne hyear]
  obtain ⟨hmonth, hday, hhour⟩ := coarser_set hyear
  unfold isTimestampInsideRange insideRangeAt
  match hg : snapshot.timestampGranularity with
  | .year => simp only [isYearInsideRange_eq hcur htime, hfill]
  | .month =>
    have hfillMonth : snapshot.fillMonth currentTime = snapshot := by
      simp [fillMonth, hfill, monthLimit, filled_of_ne (hmonth hg)]
    simp only [isMonthInsideRange_eq hcur htime, hfill, hfillMonth]
    split <;> rfl
  | .day =>
    obtain ⟨hm, hd⟩ := hday hg
    have hfillMonth : snapshot.fillMonth currentTime = snapshot := by
      simp [fillMonth, hfill, monthLimit, filled_of_ne hm]
    have hfillDay : snapshot.fillDay currentTime = snapshot := by
      simp [fillDay, hfillMonth, dayLimit, filled_of_ne hd]
    simp only [isDayInsideRange_eq hcur htime, hfill, hfillMonth, hfillDay]
    grind
  | .hour =>
    obtain ⟨hm, hd, hh⟩ := hhour hg
    have hfillMonth : snapshot.fillMonth currentTime = snapshot := by
      simp [fillMonth, hfill, monthLimit, filled_of_ne hm]
    have hfillDay : snapshot.fillDay currentTime = snapshot := by
      simp [fillDay, hfillMonth, dayLimit, filled_of_ne hd]
    have hfillHour : snapshot.fillHour currentTime = snapshot := by
      simp [fillHour, hfillDay, hourLimit, filled_of_ne hh]
    simp only [isHourInsideRange_eq hcur htime, hfill, hfillMonth, hfillDay, hfillHour]
    grind
  | .minute => rfl
  | .currentTimestamp => rfl

theorem timestampGranularity_of_open (hyear : snapshot.year = anyField) :
    snapshot.timestampGranularity ≠ .year ∧
    (snapshot.timestampGranularity = .month →
      snapshot.month ≠ anyField ∧ snapshot.day = anyField) ∧
    (snapshot.timestampGranularity = .day → snapshot.day ≠ anyField ∧ snapshot.hour = anyField) ∧
    (snapshot.timestampGranularity = .hour →
      (snapshot.month ≠ anyField → snapshot.day ≠ anyField) ∧ snapshot.hour ≠ anyField ∧
        snapshot.minute = anyField) := by
  unfold timestampGranularity checkDayGranularity checkHourGranularity
  grind

variable (snapshot) in
/-- The coarse fields that are set are compared, unless the range names a minute. -/
theorem inside_bounds_set (hyear : snapshot.year ≠ anyField)
    (hopen : snapshot.day = anyField ∨ snapshot.hour = anyField ∨ snapshot.minute = anyField)
    (hin : Bound.Inside (snapshot.bounds currentTime) time.date) :
    1900 + time.tmYear ≤ snapshot.yearLimit currentTime ∧
    (snapshot.month ≠ anyField → time.tmMon + 1 ≤ snapshot.monthLimit currentTime ∧
      (snapshot.day ≠ anyField → time.tmMday ≤ snapshot.dayLimit currentTime)) := by
  unfold bounds timestampGranularity checkMonthGranularity checkDayGranularity
    checkHourGranularity at hin
  grind [inside_dateBounds]

section

variable (hcur : currentTime.Valid)

include hcur

theorem yearLimit_ne : snapshot.yearLimit currentTime ≠ anyField := by
  have h := hcur.year
  unfold yearLimit filled
  split
  · simp only [anyField, Word.u32Max, baseYear]
    omega
  · assumption

theorem monthLimit_ne : snapshot.monthLimit currentTime ≠ anyField := by
  have h := hcur.mon
  unfold monthLimit filled
  split
  · simp only [anyField, Word.u32Max]
    omega
  · assumption

theorem dayLimit_ne : snapshot.dayLimit currentTime ≠ anyField := by
  have h := hcur.mday
  unfold dayLimit filled
  split
  · simp only [anyField, Word.u32Max]
    omega
  · assumption

theorem bounds_fillMonth (hyear : snapshot.year = anyField)
    (hg : snapshot.timestampGranularity = .month) :
    (snapshot.fillMonth currentTime).bounds currentTime = snapshot.bounds currentTime := by
  have hy : snapshot.yearLimit currentTime ≠ anyField := yearLimit_ne hcur
  have hm : snapshot.monthLimit currentTime ≠ anyField := monthLimit_ne hcur
  have hd := ((timestampGranularity_of_open hyear).2.1 hg).2
  have hg' : (snapshot.fillMonth currentTime).timestampGranularity = .month := by
    simp [timestampGranularity, checkMonthGranularity, checkDayGranularity, fillMonth, fillYear, hy, hm, hd]
  unfold bounds
  rw [hg, hg']
  simp [yearLimit, monthLimit, fillMonth, fillYear, filled_filled]

theorem bounds_fillDay (hyear : snapshot.year = anyField)
    (hg : snapshot.timestampGranularity = .day) :
    (snapshot.fillDay currentTime).bounds currentTime = snapshot.bounds currentTime := by
  have hy : snapshot.yearLimit currentTime ≠ anyField := yearLimit_ne hcur
  have hm : snapshot.monthLimit currentTime ≠ anyField := monthLimit_ne hcur
  have hd : snapshot.dayLimit currentTime ≠ anyField := dayLimit_ne hcur
  have hh := ((timestampGranularity_of_open hyear).2.2.1 hg).2
  have hg' : (snapshot.fillDay currentTime).timestampGranularity = .day := by
    simp [timestampGranularity, checkMonthGranularity, checkDayGranularity, checkHourGranularity,
      fillDay, fillMonth, fillYear, hy, hm, hd, hh]
  unfold bounds
  rw [hg, hg']
  simp [yearLimit, monthLimit, dayLimit, fillDay, fillMonth, fillYear, filled_filled]

theorem bounds_fillHour (hyear : snapshot.year = anyField)
    (hg : snapshot.timestampGranularity = .hour) :
    (snapshot.fillHour currentTime).bounds currentTime = snapshot.bounds currentTime := by
  have hy : snapshot.yearLimit currentTime ≠ anyField := yearLimit_ne hcur
  have hm : snapshot.monthLimit currentTime ≠ anyField := monthLimit_ne hcur
  have hd : snapshot.dayLimit currentTime ≠ anyField := dayLimit_ne hcur
  obtain ⟨-, hh, hmin⟩ := (timestampGranularity_of_open hyear).2.2.2 hg
  have hhour : snapshot.hourLimit currentTime = snapshot.hour := filled_of_ne hh
  have hg' : (snapshot.fillHour currentTime).timestampGranularity = .hour := by
    simp [timestampGranularity, checkMonthGranularity, checkDayGranularity, checkHourGranularity,
      fillHour, fillDay, fillMonth, fillYear, hy, hm, hd, hhour, hh, hmin]
  unfold bounds
  rw [hg, hg']
  simp [yearLimit, monthLimit, dayLimit, hourLimit, fillHour, fillDay, fillMonth, fillYear, filled_filled]

theorem not_inside_fillYear 
    (hopen : snapshot.day = anyField ∨ snapshot.hour = anyField ∨ snapshot.minute = anyField)
    (h : ¬1900 + time.tmYear ≤ snapshot.yearLimit currentTime) :
    ¬Bound.Inside ((snapshot.fillYear currentTime).bounds currentTime) time.date := by
  intro hin
  have hset := (inside_bounds_set (snapshot.fillYear currentTime) (yearLimit_ne hcur) hopen hin).1
  simp only [yearLimit, fillYear, filled_filled] at hset
  exact h hset

theorem not_inside_fillMonth 
    (hopen : snapshot.day = anyField ∨ snapshot.hour = anyField ∨ snapshot.minute = anyField)
    (h : ¬time.tmMon + 1 ≤ snapshot.monthLimit currentTime) :
    ¬Bound.Inside ((snapshot.fillMonth currentTime).bounds currentTime) time.date := by
  intro hin
  have hset := ((inside_bounds_set (snapshot.fillMonth currentTime) (yearLimit_ne hcur) hopen hin).2 (monthLimit_ne hcur)).1
  simp only [monthLimit, fillMonth, filled_filled] at hset
  exact h hset

theorem not_inside_fillDay (hopen : snapshot.hour = anyField ∨ snapshot.minute = anyField)
    (h : ¬time.tmMday ≤ snapshot.dayLimit currentTime) :
    ¬Bound.Inside ((snapshot.fillDay currentTime).bounds currentTime) time.date := by
  intro hin
  have hset := ((inside_bounds_set (snapshot.fillDay currentTime) (yearLimit_ne hcur) (.inr hopen) hin).2 (monthLimit_ne hcur)).2
    (dayLimit_ne hcur)
  simp only [dayLimit, fillDay, filled_filled] at hset
  exact h hset

theorem inside_bounds_again (htime : time.Valid) (hyear : snapshot.year = anyField) :
    Bound.Inside ((snapshot.isTimestampInsideRange currentTime time).2.bounds currentTime) time.date ↔
      Bound.Inside (snapshot.bounds currentTime) time.date := by
  obtain ⟨hnot, hmonth, hday, hhour⟩ := timestampGranularity_of_open hyear
  have hanswer : (snapshot.isTimestampInsideRange currentTime time).1 = true ↔ _ :=
    isTimestampInsideRange_iff hcur htime
  have hrejected : ∀ s', snapshot.isTimestampInsideRange currentTime time = (false, s') →
      ¬Bound.Inside (s'.bounds currentTime) time.date →
      (Bound.Inside ((snapshot.isTimestampInsideRange currentTime time).2.bounds currentTime) time.date ↔
        Bound.Inside (snapshot.bounds currentTime) time.date) := fun s' hs hout => by
    rw [hs] at hanswer ⊢
    exact iff_of_false hout fun hin => nomatch hanswer.2 hin
  have hsame : ∀ b s', snapshot.isTimestampInsideRange currentTime time = (b, s') →
      s'.bounds currentTime = snapshot.bounds currentTime →
      (Bound.Inside ((snapshot.isTimestampInsideRange currentTime time).2.bounds currentTime) time.date ↔
        Bound.Inside (snapshot.bounds currentTime) time.date) := fun b s' hs hb => by
    rw [hs, hb]
  match hg : snapshot.timestampGranularity with
  | .year => exact absurd hg hnot
  | .month =>
    have heval := (isTimestampInsideRange_at hg).trans (isMonthInsideRange_eq hcur htime)
    have hopen := Or.inl (b := snapshot.hour = anyField ∨ snapshot.minute = anyField) (hmonth hg).2
    by_cases hy : 1900 + time.tmYear ≤ snapshot.yearLimit currentTime
    · exact hsame _ _ (heval.trans (if_pos hy)) (bounds_fillMonth hcur hyear hg)
    · exact hrejected _ (heval.trans (if_neg hy)) (not_inside_fillYear hcur hopen hy)
  | .day =>
    have heval := (isTimestampInsideRange_at hg).trans (isDayInsideRange_eq hcur htime)
    have hopen := Or.inl (b := snapshot.minute = anyField) (hday hg).2
    by_cases hy : 1900 + time.tmYear ≤ snapshot.yearLimit currentTime
    · rw [if_pos hy] at heval
      by_cases hm : time.tmMon + 1 ≤ snapshot.monthLimit currentTime
      · exact hsame _ _ (heval.trans (if_pos hm)) (bounds_fillDay hcur hyear hg)
      · exact hrejected _ (heval.trans (if_neg hm)) (not_inside_fillMonth hcur (.inr hopen) hm)
    · exact hrejected _ (heval.trans (if_neg hy)) (not_inside_fillYear hcur (.inr hopen) hy)
  | .hour =>
    have heval := (isTimestampInsideRange_at hg).trans (isHourInsideRange_eq hcur htime)
    have hopen := Or.inr (a := snapshot.hour = anyField) (hhour hg).2.2
    by_cases hy : 1900 + time.tmYear ≤ snapshot.yearLimit currentTime
    · rw [if_pos hy] at heval
      by_cases hm : time.tmMon + 1 ≤ snapshot.monthLimit currentTime
      · rw [if_pos hm] at heval
        by_cases hd : time.tmMday ≤ snapshot.dayLimit currentTime
        · exact hsame _ _ (heval.trans (if_pos hd)) (bounds_fillHour hcur hyear hg)
        · exact hrejected _ (heval.trans (if_neg hd)) (not_inside_fillDay hcur hopen hd)
      · exact hrejected _ (heval.trans (if_neg hm)) (not_inside_fillMonth hcur (.inr hopen) hm)
    · exact hrejected _ (heval.trans (if_neg hy)) (not_inside_fillYear hcur (.inr hopen) hy)
  | .minute =>
    exact hsame (snapshot.isMinuteInsideRange time) snapshot
      (isTimestampInsideRange_at hg) rfl
  | .currentTimestamp =>
    exact hsame true snapshot (isTimestampInsideRange_at hg) rfl

end

theorem isTimestampInsideRange_snd_again {time' : Tm} (hcur : currentTime.Valid) (htime : time.Valid)
    (htime' : time'.Valid) :
    ((snapshot.isTimestampInsideRange currentTime time).2.isTimestampInsideRange currentTime time').2 =
      (snapshot.isTimestampInsideRange currentTime time).2 := by
  by_cases hyear : snapshot.year = anyField
  · have hlimit : snapshot.yearLimit currentTime ≠ anyField := yearLimit_ne hcur
    match hg : snapshot.timestampGranularity with
    | .year => exact absurd hg (timestampGranularity_of_open hyear).1
    | .month =>
      refine isTimestampInsideRange_snd_of_year hcur htime' ?_
      rw [(isTimestampInsideRange_at hg).trans (isMonthInsideRange_eq hcur htime)]
      split
      · exact hlimit
      · exact hlimit
    | .day =>
      refine isTimestampInsideRange_snd_of_year hcur htime' ?_
      rw [(isTimestampInsideRange_at hg).trans (isDayInsideRange_eq hcur htime)]
      split
      · split
        · exact hlimit
        · exact hlimit
      · exact hlimit
    | .hour =>
      refine isTimestampInsideRange_snd_of_year hcur htime' ?_
      rw [(isTimestampInsideRange_at hg).trans (isHourInsideRange_eq hcur htime)]
      split
      · split
        · split
          · exact hlimit
          · exact hlimit
        · exact hlimit
      · exact hlimit
    | .minute =>
      rw [isTimestampInsideRange_at hg]
      change (snapshot.isTimestampInsideRange currentTime time').2 = snapshot
      rw [isTimestampInsideRange_at hg]
      rfl
    | .currentTimestamp =>
      rw [isTimestampInsideRange_at hg]
      change (snapshot.isTimestampInsideRange currentTime time').2 = snapshot
      rw [isTimestampInsideRange_at hg]
      rfl
  · have hsame : ∀ t : Tm, t.Valid → (snapshot.isTimestampInsideRange currentTime t).2 = snapshot :=
      fun t ht => isTimestampInsideRange_snd_of_year hcur ht hyear
    rw [hsame time htime, hsame time' htime']

theorem isTimestampInsideRange_again (hcur : currentTime.Valid) (htime : time.Valid) :
    ((snapshot.isTimestampInsideRange currentTime time).2.isTimestampInsideRange currentTime time).1 =
      (snapshot.isTimestampInsideRange currentTime time).1 := by
  by_cases hyear : snapshot.year = anyField
  · rw [Bool.eq_iff_iff, isTimestampInsideRange_iff hcur htime, isTimestampInsideRange_iff hcur htime]
    exact inside_bounds_again hcur htime hyear
  · rw [isTimestampInsideRange_snd_of_year hcur htime hyear]

theorem evaluated_cons {times : List Tm} (hcur : currentTime.Valid) (htime : time.Valid)
    (htimes : ∀ t ∈ times, t.Valid) :
    snapshot.evaluated currentTime (time :: times) =
      (snapshot.isTimestampInsideRange currentTime time).2 := by
  rw [evaluated, List.foldl_cons]
  induction times with
  | nil => rfl
  | cons t times ih =>
    rw [List.foldl_cons, isTimestampInsideRange_snd_again hcur htime (htimes t (List.mem_cons_self ..))]
    exact ih fun u hu => htimes u (List.mem_cons_of_mem _ hu)

/-- An earlier time is let through with a later one, and a second evaluation repeats the answer of the
first one. -/
structure Coherent (snapshot : TimeRange) (conversion : LocalTime) (currentTime : Tm) : Prop where
  ordered : ∀ t₁ t₂, t₁ ≤ t₂ →
    (snapshot.isTimestampInsideRange currentTime (conversion.tm t₂)).1 = true →
    (snapshot.isTimestampInsideRange currentTime (conversion.tm t₁)).1 = true
  again : ∀ t ts,
    ((snapshot.evaluated currentTime ((t :: ts).map conversion.tm)).isTimestampInsideRange currentTime
      (conversion.tm t)).1 = (snapshot.isTimestampInsideRange currentTime (conversion.tm t)).1

variable (snapshot currentTime) in
theorem bounds_eq_dateBounds :
    ∃ year month day hour minute,
      snapshot.bounds currentTime = dateBounds year month day hour minute := by
  unfold bounds
  split
  · exact ⟨_, _, _, _, _, rfl⟩
  · exact ⟨_, _, _, _, _, rfl⟩
  · exact ⟨_, _, _, _, _, rfl⟩
  · exact ⟨_, _, _, _, _, rfl⟩
  · split
    · exact ⟨_, _, _, _, _, rfl⟩
    · exact ⟨_, _, _, _, _, rfl⟩
  · exact ⟨_, _, _, _, _, rfl⟩

theorem values_date {tm : Tm} (h : tm.Valid) : Bound.Values (snapshot.bounds currentTime) tm.date := by
  obtain ⟨year, month, day, hour, minute, heq⟩ :=
    bounds_eq_dateBounds snapshot currentTime
  have hmin := h.min
  have hhour := h.hour
  have hmday := h.mday
  have hmon := h.mon
  have hyear := h.year
  rw [heq]
  simp only [Bound.Values, dateBounds, Tm.date, List.forall₂_cons, List.Forall₂.nil, and_true]
  omega

theorem exists_date {xs : List Nat} (h : Bound.Values (snapshot.bounds currentTime) xs) :
    ∃ tm : Tm, tm.Valid ∧ tm.date = xs := by
  obtain ⟨year, month, day, hour, minute, heq⟩ := bounds_eq_dateBounds snapshot currentTime
  rw [heq] at h
  simp only [Bound.Values, dateBounds, List.forall₂_cons_left_iff, List.forall₂_nil_left_iff] at h
  obtain ⟨y, -, hy, ⟨mo, -, hmo, ⟨d, -, hd, ⟨hr, -, hhr, ⟨mi, -, hmi, rfl, rfl⟩, rfl⟩, rfl⟩, rfl⟩, rfl⟩ := h
  refine ⟨⟨mi, hr, d, mo - 1, y - 1900⟩, ⟨?_, ?_, ?_, ?_, ?_⟩, ?_⟩
  · exact hmi.2
  · exact hhr.2
  · exact hd
  · simp only
    omega
  · simp only
    omega
  · simp only [Tm.date, List.cons.injEq, and_true]
    omega

theorem coherent_of_settled {conversion : LocalTime} (hcur : currentTime.Valid)
    (h : Bound.Settled (snapshot.bounds currentTime)) : Coherent snapshot conversion currentTime where
  ordered := fun t₁ t₂ hle hin => by
    have h₁ := conversion.valid t₁
    have h₂ := conversion.valid t₂
    rw [isTimestampInsideRange_iff hcur h₂] at hin
    rw [isTimestampInsideRange_iff hcur h₁]
    exact Bound.closed_of_settled h _ _ (values_date h₁) (values_date h₂) (conversion.mono t₁ t₂ hle) hin
  again := fun t ts => by
    have hvalid : ∀ u ∈ ts.map conversion.tm, u.Valid := fun u hu => by
      obtain ⟨v, -, rfl⟩ := List.mem_map.1 hu
      exact conversion.valid v
    rw [List.map_cons, evaluated_cons hcur (conversion.valid t) hvalid]
    exact isTimestampInsideRange_again hcur (conversion.valid t)

end

end TimeRange

def LocalTime.steps (a b c : Tm) (ha : a.Valid) (hb : b.Valid) (hc : c.Valid)
    (hab : a.date ≤ b.date) (hbc : b.date ≤ c.date) : LocalTime where
  tm := fun t => if t.toNat = 0 then a else if t.toNat = 1 then b else c
  valid := fun t => by
    split
    · exact ha
    · split
      · exact hb
      · exact hc
  mono := fun t₁ t₂ hle => by
    have hle : t₁.toNat ≤ t₂.toNat := hle
    by_cases h₁ : t₁.toNat = 0
    · simp only [h₁, if_true]
      split
      · exact le_refl _
      · split
        · exact hab
        · exact le_trans hab hbc
    · by_cases h₂ : t₁.toNat = 1
      · rw [if_neg h₁, if_pos h₂, if_neg (by omega)]
        split
        · exact le_refl _
        · exact hbc
      · rw [if_neg h₁, if_neg h₂, if_neg (by omega), if_neg (by omega)]

namespace TimeRange

variable {snapshot : TimeRange} {currentTime : Tm}

theorem exists_conversion {a b c : Tm} (ha : a.Valid) (hb : b.Valid) (hc : c.Valid)
    (hab : a.date ≤ b.date) :
    ∃ (conversion : LocalTime) (now t₁ t₂ : UInt64), conversion.tm now = c ∧ conversion.tm t₁ = a ∧
      conversion.tm t₂ = b ∧ t₁ ≤ t₂ := by
  rcases le_total c.date a.date with hca | hac
  · exact ⟨.steps c a b hc ha hb hca hab, 0, 1, 2, rfl, rfl, rfl, by decide⟩
  · rcases le_total c.date b.date with hcb | hbc
    · exact ⟨.steps a c b ha hc hb hac hcb, 1, 0, 2, rfl, rfl, rfl, by decide⟩
    · exact ⟨.steps a b c ha hb hc hab hbc, 2, 0, 1, rfl, rfl, rfl, by decide⟩

theorem not_coherent_of_not_settled (hcur : currentTime.Valid)
    (h : ¬Bound.Settled (snapshot.bounds currentTime)) :
    ∃ (conversion : LocalTime) (now : UInt64), conversion.tm now = currentTime ∧
      ¬Coherent snapshot conversion currentTime := by
  have hroom : ∀ b ∈ snapshot.bounds currentTime, b.lo < b.hi := by
    obtain ⟨year, month, day, hour, minute, heq⟩ := bounds_eq_dateBounds snapshot currentTime
    rw [heq]
    simp [dateBounds]
  obtain ⟨xs, ys, hxs, hys, hle, hin, hout⟩ := Bound.exists_of_not_settled hroom h
  obtain ⟨a, ha, rfl⟩ := exists_date hxs
  obtain ⟨b, hb, rfl⟩ := exists_date hys
  obtain ⟨conversion, now, t₁, t₂, hnow, h₁, h₂, ht⟩ := exists_conversion ha hb hcur hle
  refine ⟨conversion, now, hnow, fun hco => hout ?_⟩
  have hordered := hco.ordered t₁ t₂ ht
  rw [h₁, h₂, isTimestampInsideRange_iff hcur ha, isTimestampInsideRange_iff hcur hb] at hordered
  exact hordered hin

/-- Earlier timestamps are let through with a later one exactly if no field is compared behind one
that leaves room. -/
theorem isTimestampInsideRange_coherent_iff (hcur : currentTime.Valid) :
    (∀ (conversion : LocalTime) (now : UInt64), conversion.tm now = currentTime →
        Coherent snapshot conversion currentTime) ↔
      Bound.Settled (snapshot.bounds currentTime) := by
  constructor
  · intro h
    by_contra hnot
    obtain ⟨conversion, now, hnow, hbad⟩ := not_coherent_of_not_settled hcur hnot
    exact hbad (h conversion now hnow)
  · exact fun h conversion _ _ => coherent_of_settled hcur h

/-- A range that names a year only. -/
theorem isTimestampInsideRange_coherent_2023 :
    (⟨0, 12, 10, 4, 126⟩ : Tm).date = [2026, 5, 10, 12, 0] ∧
    ∀ (conversion : LocalTime) (now : UInt64), conversion.tm now = ⟨0, 12, 10, 4, 126⟩ →
      Coherent ⟨anyField, anyField, anyField, anyField, 2023⟩ conversion ⟨0, 12, 10, 4, 126⟩ :=
  ⟨rfl, (isTimestampInsideRange_coherent_iff
    ⟨by decide, by decide, by decide, by decide, by decide⟩).2 (by decide)⟩

/-- Up to March 2023, January 2023 is let through and December 2022 is not. -/
theorem isTimestampInsideRange_rejects_2022 : ∃ conversion : LocalTime,
    (conversion.tm 0).date = [2022, 12, 15, 12, 30] ∧ (conversion.tm 1).date = [2023, 1, 15, 12, 30] ∧
    (conversion.tm 2).date = [2026, 5, 10, 12, 0] ∧
    ¬Coherent ⟨anyField, anyField, anyField, 3, 2023⟩ conversion (conversion.tm 2) := by
  refine ⟨.steps ⟨30, 12, 15, 11, 122⟩ ⟨30, 12, 15, 0, 123⟩ ⟨0, 12, 10, 4, 126⟩
    ⟨by decide, by decide, by decide, by decide, by decide⟩
    ⟨by decide, by decide, by decide, by decide, by decide⟩
    ⟨by decide, by decide, by decide, by decide, by decide⟩ (by decide) (by decide),
    rfl, rfl, rfl, fun h => ?_⟩
  exact absurd (h.ordered 0 1 (by decide) (by decide)) (by decide)

end TimeRange

end Ssdfs
