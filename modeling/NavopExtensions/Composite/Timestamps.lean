import NavopExtensions.Lib.Calendar
import NavopExtensions.Lib.Text

/-!
# Texts of timestamps

The Docker and the Elasticsearch provider write seconds and milliseconds since 1970 as
`YYYY-MM-DD HH:MM`, with a copy each of `civil_from_days`. The year of an era is first estimated, and the
estimate is corrected by two loops. The first of them stops one year early on the first day of a year
that begins in March, which is patched where the day is taken for a 29th of February; after a leap day
it is taken for a 30th (`civilFromDays_lost`). The hour of the Elasticsearch provider is not padded.
-/

namespace Navop

open Calendar

/-! ### The day of a number of days -/

/-- The days of an era before a year of it, where years begin in March. -/
def daysBefore (yoe : ℤ) : ℤ := 365 * yoe + yoe.tdiv 4 - yoe.tdiv 100

theorem lt_daysBefore_succ (yoe : ℤ) : daysBefore yoe < daysBefore (yoe + 1) := by
  unfold daysBefore
  simp only [Int.tdiv_eq_ediv, show Int.sign 4 = 1 from rfl, show Int.sign 100 = 1 from rfl]
  split_ifs <;> omega

/-- The first loop of `civil_from_days`. -/
def raiseYear (doe yoe : ℤ) : ℤ :=
  if daysBefore (yoe + 1) < doe then raiseYear doe (yoe + 1) else yoe
termination_by (doe - daysBefore yoe).toNat
decreasing_by
  have := lt_daysBefore_succ yoe
  omega

/-- The second loop of `civil_from_days`. -/
def lowerYear (doe yoe : ℤ) : ℤ :=
  if doe < daysBefore yoe then lowerYear doe (yoe - 1) else yoe
termination_by (daysBefore yoe - doe).toNat
decreasing_by
  have := lt_daysBefore_succ (yoe - 1)
  rw [Int.sub_add_cancel] at this
  omega

/-- `is_leap`: with the remainders of the source, which keep the sign. -/
def isLeapYear (year : ℤ) : Bool :=
  (year.tmod 4 = 0 && year.tmod 100 ≠ 0) || year.tmod 400 = 0

/-- The last steps of `civil_from_days`: the date of a day of a year that begins in March. -/
def civilDate (y doy : ℤ) : Date :=
  let mp := (5 * doy + 2).tdiv 153
  let d := doy - (153 * mp + 2).tdiv 5 + 1
  let m := mp + 3 - 12 * mp.tdiv 10
  let y := y + mp.tdiv 10
  if m = 2 ∧ d = 29 ∧ isLeapYear y = false then ⟨y, 3, 1⟩ else ⟨y, m.toNat, d.toNat⟩

/-- `civil_from_days`, of which both providers have a copy. -/
def civilFromDays (z : ℤ) : Date :=
  let z := z + 719468
  let era := (if z ≥ 0 then z else z - 146096).tdiv 146097
  let doe := z - era * 146097
  let yoe := lowerYear doe (raiseYear doe ((4 * doe).tdiv 1461))
  civilDate (yoe + era * 400) (doe - daysBefore yoe)

/-! ### The loops -/

theorem daysBefore_of_nonneg {yoe : ℤ} (h : 0 ≤ yoe) :
    daysBefore yoe = 365 * yoe + yoe / 4 - yoe / 100 := by
  rw [daysBefore, Int.tdiv_eq_ediv_of_nonneg h, Int.tdiv_eq_ediv_of_nonneg h]

/-- What the first loop leads to: it stops before a year that begins after the day or on it. -/
theorem raiseYear_spec {doe yoe : ℤ} (h : daysBefore yoe ≤ doe) :
    yoe ≤ raiseYear doe yoe ∧ daysBefore (raiseYear doe yoe) ≤ doe ∧
      doe ≤ daysBefore (raiseYear doe yoe + 1) ∧
      (raiseYear doe yoe = yoe ∨ daysBefore (raiseYear doe yoe) < doe) := by
  fun_induction raiseYear doe yoe with
  | case1 yoe hlt ih =>
    obtain ⟨hle, hbefore, hafter, hstop⟩ := ih hlt.le
    refine ⟨by omega, hbefore, hafter, .inr ?_⟩
    rcases hstop with hstop | hstop
    · rw [hstop]
      exact hlt
    · exact hstop
  | case2 yoe hge => exact ⟨le_rfl, h, not_lt.1 hge, .inl rfl⟩

/-- The second loop has nothing to do. -/
theorem lowerYear_of_le {doe yoe : ℤ} (h : daysBefore yoe ≤ doe) : lowerYear doe yoe = yoe := by
  rw [lowerYear, if_neg (not_lt.2 h)]

/-- The estimated year is the year of a day or the one before; it is too early, and stays so, on the
first day of a year, unless that is one of the first century and comes after a leap day. -/
theorem year_spec {doe : ℤ} (hpos : 0 ≤ doe) (hlt : doe < 146097) :
    let yoe := lowerYear doe (raiseYear doe ((4 * doe).tdiv 1461))
    (0 ≤ yoe ∧ yoe < 400) ∧ daysBefore yoe ≤ doe ∧
      (doe = daysBefore yoe → yoe % 4 = 0 ∧ yoe < 100) ∧
      (doe < daysBefore (yoe + 1) ∨
        doe = daysBefore (yoe + 1) ∧ ¬ ((yoe + 1) % 4 = 0 ∧ yoe + 1 < 100)) := by
  intro yoe
  have hestimate : (4 * doe).tdiv 1461 = 4 * doe / 1461 := Int.tdiv_eq_ediv_of_nonneg (by omega)
  -- the estimate is not too late, so that only the loop upwards does something
  have hbefore : daysBefore (4 * doe / 1461) ≤ doe := by
    rw [daysBefore_of_nonneg (by omega)]
    omega
  obtain ⟨hle, hbefore', hafter, hstop⟩ := raiseYear_spec hbefore
  have hyoe : yoe = raiseYear doe (4 * doe / 1461) := by
    rw [show yoe = lowerYear doe (raiseYear doe ((4 * doe).tdiv 1461)) from rfl, hestimate]
    exact lowerYear_of_le hbefore'
  rw [← hyoe] at hle hbefore' hafter hstop
  have hnonneg : 0 ≤ yoe := by omega
  rw [daysBefore_of_nonneg hnonneg] at hbefore' hstop ⊢
  rw [daysBefore_of_nonneg (by omega)] at hafter ⊢
  refine ⟨⟨hnonneg, by omega⟩, hbefore', by omega, ?_⟩
  -- the loop stops early only on the last day of a leap year
  rcases hafter.lt_or_eq with hafter | hafter
  · exact .inl hafter
  · exact .inr ⟨hafter, by omega⟩

/-! ### The date -/

/-- The days that come out as a 30th of February: the first of March of a leap year that is neither
the first of its era nor in its first century. -/
def Lost (days : ℤ) : Prop :=
  (ofDays days).month = 3 ∧ (ofDays days).day = 1 ∧ isLeap (ofDays days).year = true ∧
    100 < (ofDays days).year % 400

instance (days : ℤ) : Decidable (Lost days) := inferInstanceAs (Decidable (_ ∧ _))

theorem isLeapYear_eq (year : ℤ) : isLeapYear year = isLeap year := by
  have h4 : year.tmod 4 = 0 ↔ year % 4 = 0 := by
    rw [← Int.dvd_iff_tmod_eq_zero, Int.dvd_iff_emod_eq_zero]
  have h100 : year.tmod 100 = 0 ↔ year % 100 = 0 := by
    rw [← Int.dvd_iff_tmod_eq_zero, Int.dvd_iff_emod_eq_zero]
  have h400 : year.tmod 400 = 0 ↔ year % 400 = 0 := by
    rw [← Int.dvd_iff_tmod_eq_zero, Int.dvd_iff_emod_eq_zero]
  rw [isLeapYear, isLeap, Bool.eq_iff_iff]
  simp only [h4, h100, h400, ne_eq, decide_not, Bool.or_eq_true, Bool.and_eq_true,
    decide_eq_true_eq, Bool.not_eq_true', decide_eq_false_iff_not, Bool.decide_and, Bool.decide_or]
  omega

/-- The days before the first of March of a year. -/
theorem daysBeforeYear_march (year : ℤ) : daysBeforeYear year + (if isLeap year then 60 else 59)
    = 365 * year + year / 4 - year / 100 + year / 400 - 306 := by
  unfold daysBeforeYear
  split
  · next hleap =>
    rw [isLeap, decide_eq_true_eq] at hleap
    omega
  · next hleap =>
    rw [isLeap, decide_eq_true_eq] at hleap
    omega

/-- A month is in its table, and the days of the months before it. -/
theorem monthLengths_march {mp : ℤ} (hpos : 0 ≤ mp) (hlt : mp < 12) (leap : Bool) :
    let month := (mp + 3 - 12 * (mp / 10)).toNat
    1 ≤ month ∧ month ≤ 12 ∧
    ((monthLengths leap).take (month - 1)).sum
      = (153 * mp + 2) / 5 + (if mp < 10 then if leap then 60 else 59 else -306) ∧
    (if mp = 11 then (monthLengths leap).getD (month - 1) 0 = if leap then 29 else 28
      else (monthLengths leap).getD (month - 1) 0
        = ((153 * (mp + 1) + 2) / 5 - (153 * mp + 2) / 5 : ℤ)) := by
  cases leap <;> interval_cases mp <;> decide

/-- A day of a year that begins in March has its month and its day in it. -/
theorem march_spec {era yoe doy : ℤ} (hyoe : 0 ≤ yoe ∧ yoe < 400) (hpos : 0 ≤ doy)
    (hlt : doy < 365 ∨ doy = 365 ∧ isLeap (yoe + era * 400 + 1) = true) :
    let mp := (5 * doy + 2) / 153
    let date : Date := ⟨yoe + era * 400 + mp / 10, (mp + 3 - 12 * (mp / 10)).toNat,
      (doy - (153 * mp + 2) / 5 + 1).toNat⟩
    date.Valid ∧ date.toDays = era * 146097 + (365 * yoe + yoe / 4 - yoe / 100) + doy - 719468 := by
  intro mp date
  have hmp : 0 ≤ mp ∧ mp < 12 := by omega
  obtain ⟨hmonth, hmonth', hsum, hlength⟩ := monthLengths_march hmp.1 hmp.2 (isLeap date.year)
  -- the formula for months of a year that begins in March: the day is within its month
  have hday : (153 * mp + 2) / 5 ≤ doy ∧ (mp < 11 → doy < (153 * (mp + 1) + 2) / 5) ∧
      (mp = 11 → doy ≤ 365) := by
    omega
  refine ⟨⟨⟨hmonth, hmonth'⟩, ?_, ?_⟩, ?_⟩
  · show 1 ≤ (doy - (153 * mp + 2) / 5 + 1).toNat
    omega
  · show (doy - (153 * mp + 2) / 5 + 1).toNat
      ≤ (monthLengths (isLeap date.year)).getD ((mp + 3 - 12 * (mp / 10)).toNat - 1) 0
    -- the last month is February, which has its length from the year that follows
    split at hlength
    · next hlast =>
      rw [hlength, show date.year = yoe + era * 400 + 1 by
        show yoe + era * 400 + mp / 10 = _
        rw [hlast]
        rfl]
      rcases hlt with hlt | ⟨hlt, hleap⟩
      · split <;> omega
      · rw [if_pos hleap]
        omega
    · have := hday.2.1 (by omega)
      omega
  · have hmarch := daysBeforeYear_march (yoe + era * 400)
    have hnext := daysBeforeYear_succ (yoe + era * 400)
    have hyear : date.year = yoe + era * 400 + mp / 10 := rfl
    have hdays : ((doy - (153 * mp + 2) / 5 + 1).toNat : ℤ) = doy - (153 * mp + 2) / 5 + 1 := by omega
    show daysBeforeYear date.year + _ + (((doy - (153 * mp + 2) / 5 + 1).toNat : ℤ) - 1) - epoch = _
    rw [hdays, hsum, epoch]
    -- from March to December the year is the one that began in March, then the next one
    by_cases hfirst : mp < 10
    · rw [if_pos hfirst, hyear, show mp / 10 = 0 by omega, add_zero]
      omega
    · rw [if_neg hfirst, hyear, show mp / 10 = 1 by omega]
      rw [hnext]
      split at hmarch
      · next hleap =>
        rw [if_pos hleap]
        omega
      · next hleap =>
        rw [if_neg hleap]
        omega

/-- The year that the loops find for a day. -/
theorem civilFromDays_eq {days : ℤ} (hdays : 0 ≤ days) : ∃ era yoe doy, (0 ≤ yoe ∧ yoe < 400) ∧
    0 ≤ doy ∧ days = era * 146097 + daysBefore yoe + doy - 719468 ∧
    (doy = 0 → yoe % 4 = 0 ∧ yoe < 100) ∧
    (daysBefore yoe + doy < daysBefore (yoe + 1) ∨
      daysBefore yoe + doy = daysBefore (yoe + 1) ∧ ¬ ((yoe + 1) % 4 = 0 ∧ yoe + 1 < 100)) ∧
    daysBefore yoe + doy < 146097 ∧ civilFromDays days = civilDate (yoe + era * 400) doy := by
  -- the days from the first of March of the year 0 on, in eras of 400 years
  have hera : (if days + 719468 ≥ 0 then days + 719468 else days + 719468 - 146096).tdiv 146097
      = (days + 719468) / 146097 := by
    rw [if_pos (by omega), Int.tdiv_eq_ediv_of_nonneg (by omega)]
  have hdoe : days + 719468 - (days + 719468) / 146097 * 146097 = (days + 719468) % 146097 := by omega
  obtain ⟨hyoe, hbefore, hfirst, hafter⟩ :=
    @year_spec ((days + 719468) % 146097) (by omega) (by omega)
  refine ⟨(days + 719468) / 146097, _, _, hyoe, sub_nonneg.2 hbefore, by omega,
    fun heq => hfirst (sub_eq_zero.1 heq), ?_, by omega, ?_⟩
  · rw [add_sub_cancel]
    exact hafter
  · simp only [civilFromDays, hera, hdoe]

/-- The last steps in their usual range. -/
theorem civilDate_of_nonneg {y doy : ℤ} (h : 0 ≤ doy) : civilDate y doy =
    let mp := (5 * doy + 2) / 153
    let date : Date := ⟨y + mp / 10, (mp + 3 - 12 * (mp / 10)).toNat,
      (doy - (153 * mp + 2) / 5 + 1).toNat⟩
    if date.month = 2 ∧ date.day = 29 ∧ isLeap date.year = false then ⟨date.year, 3, 1⟩ else date := by
  have hmp : (5 * doy + 2).tdiv 153 = (5 * doy + 2) / 153 := Int.tdiv_eq_ediv_of_nonneg (by omega)
  simp only [civilDate, hmp, isLeapYear_eq]
  rw [Int.tdiv_eq_ediv_of_nonneg (by omega), Int.tdiv_eq_ediv_of_nonneg (by omega)]
  refine if_congr (and_congr ?_ (and_congr_left' ?_)) rfl rfl
  · omega
  · omega

theorem isLeap_era (year era : ℤ) : isLeap (year + era * 400) = isLeap year := by
  unfold isLeap
  rw [Int.add_mul_emod_self_right, show year + era * 400 = year + era * 100 * 4 by ring,
    Int.add_mul_emod_self_right, show year + era * 100 * 4 = year + era * 4 * 100 by ring,
    Int.add_mul_emod_self_right]

/-- A day of the year that was found. -/
theorem civilDate_of_lt {era yoe doy : ℤ} (hyoe : 0 ≤ yoe ∧ yoe < 400) (hpos : 0 ≤ doy)
    (hlt : doy < 365 ∨ doy = 365 ∧ isLeap (yoe + era * 400 + 1) = true) :
    civilDate (yoe + era * 400) doy
      = ofDays (era * 146097 + (365 * yoe + yoe / 4 - yoe / 100) + doy - 719468) := by
  obtain ⟨hvalid, htoDays⟩ := march_spec hyoe hpos hlt
  rw [civilDate_of_nonneg hpos, ← htoDays, ofDays_toDays hvalid]
  refine if_neg ?_
  rintro ⟨hmonth, hday, hleap⟩
  have hlength := hvalid.day.2
  rw [hmonth, hday, hleap] at hlength
  exact absurd hlength (show ¬ 29 ≤ 28 by decide)

/-- A first of March. -/
theorem ofDays_march {era yoe : ℤ} (hyoe : 0 ≤ yoe ∧ yoe < 400) :
    ofDays (era * 146097 + (365 * yoe + yoe / 4 - yoe / 100) - 719468) = ⟨yoe + era * 400, 3, 1⟩ := by
  have hdate := @civilDate_of_lt era yoe 0 hyoe le_rfl (.inl (by decide))
  rw [add_zero] at hdate
  rw [← hdate, civilDate_of_nonneg le_rfl]
  show (⟨yoe + era * 400 + 0, 3, 1⟩ : Date) = _
  rw [add_zero]

/-- Which first days of a year that begins in March are lost. -/
theorem lost_march {days era yoe : ℤ} (hyoe : 0 ≤ yoe ∧ yoe < 400)
    (hdays : days = era * 146097 + (365 * yoe + yoe / 4 - yoe / 100) - 719468) :
    Lost days ↔ isLeap yoe = true ∧ 100 < yoe := by
  rw [Lost, hdays, ofDays_march hyoe]
  dsimp only
  rw [isLeap_era, Int.add_mul_emod_self_right, Int.emod_eq_of_lt hyoe.1 hyoe.2]
  exact ⟨fun h => h.2.2, fun h => ⟨rfl, rfl, h⟩⟩

/-- Where the year is right, nothing is lost. -/
theorem not_lost_of_lt {days era yoe doy : ℤ} (hyoe : 0 ≤ yoe ∧ yoe < 400) (hpos : 0 ≤ doy)
    (hlt : doy < 365 ∨ doy = 365 ∧ isLeap (yoe + era * 400 + 1) = true)
    (hfirst : doy = 0 → yoe % 4 = 0 ∧ yoe < 100)
    (hdays : days = era * 146097 + (365 * yoe + yoe / 4 - yoe / 100) + doy - 719468) :
    ¬ Lost days := by
  intro hlost
  -- a lost day would be the first of its year of the calendar, which is what the start of a year excludes
  have hnone : doy = 0 := by
    obtain ⟨hvalid, htoDays⟩ := march_spec hyoe hpos hlt
    have hmonth := hlost.1
    have hday := hlost.2.1
    rw [hdays, ← htoDays, ofDays_toDays hvalid] at hmonth hday
    dsimp only at hmonth hday
    have hmp : (5 * doy + 2) / 153 = 0 := by
      have : (5 * doy + 2) / 153 < 12 := by omega
      generalize (5 * doy + 2) / 153 = mp at *
      omega
    rw [hmp] at hday
    omega
  rw [hnone, add_zero] at hdays
  have hyear := (lost_march hyoe hdays).1 hlost
  exact absurd (hfirst hnone).2 (by omega)

/-- The last steps for the day after a year. -/
theorem civilDate_of_next {y : ℤ} : civilDate y 366 = ⟨y + 1, 2, 30⟩ ∧
    (isLeap (y + 1) = false → civilDate y 365 = ⟨y + 1, 3, 1⟩) := by
  constructor
  · rw [civilDate_of_nonneg (by decide)]
    exact if_neg fun hpatch => absurd hpatch.2.1 (show ¬ (30 = 29) by decide)
  · intro hleap
    rw [civilDate_of_nonneg (by decide)]
    exact if_pos ⟨rfl, rfl, hleap⟩

/-- **What comes out**: the date of the day, or a 30th of February. -/
theorem civilFromDays_spec {days : ℤ} (hdays : 0 ≤ days) :
    civilFromDays days = if Lost days then ⟨(ofDays days).year, 2, 30⟩ else ofDays days := by
  obtain ⟨era, yoe, doy, hyoe, hpos, hsum, hfirst, hafter, hera, hcivil⟩ := civilFromDays_eq hdays
  rw [hcivil]
  rw [daysBefore_of_nonneg hyoe.1, daysBefore_of_nonneg (by omega)] at hafter
  rw [daysBefore_of_nonneg hyoe.1] at hsum hera
  have hleap : isLeap (yoe + era * 400 + 1) = isLeap (yoe + 1) := by
    rw [add_right_comm, isLeap_era]
  by_cases hin : doy < 365 ∨ doy = 365 ∧ isLeap (yoe + era * 400 + 1) = true
  · rw [if_neg (not_lost_of_lt hyoe hpos hin hfirst hsum), civilDate_of_lt hyoe hpos hin, ← hsum]
  · -- the day is the first one of the next year
    rw [hleap] at hin
    have hdecode : isLeap (yoe + 1) = true ↔
        (yoe + 1) % 4 = 0 ∧ ((yoe + 1) % 100 ≠ 0 ∨ (yoe + 1) % 400 = 0) := by
      rw [isLeap, decide_eq_true_eq]
    rw [hdecode] at hin
    obtain ⟨hlast, hlate⟩ := hafter.resolve_left fun hlt => by omega
    have hnext : 0 ≤ yoe + 1 ∧ yoe + 1 < 400 := by omega
    have hdate : days = era * 146097 + (365 * (yoe + 1) + (yoe + 1) / 4 - (yoe + 1) / 100)
        - 719468 := by
      omega
    have hlost := lost_march hnext hdate
    have hvalue : ofDays days = ⟨yoe + era * 400 + 1, 3, 1⟩ := by
      rw [hdate, ofDays_march hnext, add_right_comm]
    rw [hvalue]
    -- in a leap year one day too many has been counted, and the date is the 30th of February
    by_cases hyear : isLeap (yoe + 1) = true
    · obtain rfl : doy = 366 := by
        rw [hdecode] at hyear
        omega
      rw [if_pos (hlost.2 ⟨hyear, by rw [hdecode] at hyear; omega⟩)]
      exact civilDate_of_next.1
    · obtain rfl : doy = 365 := by
        rw [hdecode] at hyear
        omega
      rw [if_neg fun h => hyear (hlost.1 h).1]
      exact civilDate_of_next.2 (hleap.trans (Bool.eq_false_of_not_eq_true hyear))

/-! ### The providers -/

/-- A number of the width given, with its sign. -/
def paddedInt (width : ℕ) (n : ℤ) : List Char :=
  if n < 0 then '-' :: padded (width - 1) n.natAbs else padded width n.natAbs

namespace Docker

/-- `civil_from_days`. -/
def civilFromDays : ℤ → Date := Navop.civilFromDays

/-- `utc_format`: date, hour and minute, and a dash for what is not after the epoch. -/
def utcFormat (epoch : ℤ) : List Char :=
  if epoch ≤ 0 then ['-']
  else
    let days := epoch / 86400
    let secs := epoch % 86400
    let date := civilFromDays days
    let hour := (secs.tdiv 3600).toNat
    let minute := ((secs.tmod 3600).tdiv 60).toNat
    paddedInt 4 date.year ++ '-' :: padded 2 date.month ++ '-' :: padded 2 date.day
      ++ ' ' :: padded 2 hour ++ ':' :: padded 2 minute

end Docker

namespace Elasticsearch

/-- `civil_from_days`. -/
def civilFromDays : ℤ → Date := Navop.civilFromDays

/-- What `format_epoch_millis` looks at in a `serde_json::Value`. -/
inductive Value
  | integer (n : ℤ)
  | string (text : List Char)
  | other

/-- The milliseconds of a value. -/
def Value.millis? : Value → Option ℤ
  | .integer n => if -2 ^ 63 ≤ n ∧ n < 2 ^ 63 then some n else none
  | .string text => Text.parseI64 text
  | .other => none

/-- The text of `format_epoch_millis`: a dash unless the value is a number above zero. -/
def formatEpochMillis (value : Option Value) : List Char :=
  match (value.bind Value.millis?).filter fun millis => 0 < millis with
  | none => ['-']
  | some millis =>
    let epochSecs := millis / 1000
    let days := epochSecs / 86400
    let secs := epochSecs % 86400
    let date := civilFromDays days
    paddedInt 4 date.year ++ '-' :: padded 2 date.month ++ '-' :: padded 2 date.day
      ++ ' ' :: paddedInt 0 (secs.tdiv 3600) ++ ':' :: paddedInt 2 ((secs.tmod 3600).tdiv 60)

end Elasticsearch

/-- The date and the time of a second, as `YYYY-MM-DD HH:MM`. -/
def dateTime (seconds : ℤ) : List Char :=
  let date := ofDays (seconds / 86400)
  let secs := (seconds % 86400).toNat
  paddedInt 4 date.year ++ '-' :: padded 2 date.month ++ '-' :: padded 2 date.day
    ++ ' ' :: padded 2 (secs / 3600) ++ ':' :: padded 2 (secs % 3600 / 60)

/-- A calendar has a day, and right after it the next one. -/
structure Consecutive (civil : ℤ → Date) (days : ℤ) : Prop where
  valid : (civil days).Valid
  next_valid : (civil (days + 1)).Valid
  next : (civil (days + 1)).toDays = (civil days).toDays + 1

/-- A second is shown as what it is, and both calendars are sound there. -/
structure Shown (seconds : ℤ) : Prop where
  docker : Docker.utcFormat seconds = dateTime seconds
  elasticsearch : ∀ value millis, Elasticsearch.Value.millis? value = some millis →
    1000 * seconds ≤ millis → millis < 1000 * seconds + 1000 →
      Elasticsearch.formatEpochMillis (some value) = dateTime seconds
  docker_calendar : Consecutive Docker.civilFromDays (seconds / 86400)
  elasticsearch_calendar : Consecutive Elasticsearch.civilFromDays (seconds / 86400)

/-- **A calendar is sound** where no day is lost. -/
theorem consecutive_iff {days : ℤ} (hdays : 0 ≤ days) :
    Consecutive civilFromDays days ↔ ¬ Lost days ∧ ¬ Lost (days + 1) := by
  have hlengths : ∀ leap, ¬ 30 ≤ (monthLengths leap).getD (2 - 1) 0 := by decide
  -- the 30th of February is no date, so that neither of the two days may be lost
  have hinvalid : ∀ year, ¬ (⟨year, 2, 30⟩ : Date).Valid := fun year hvalid =>
    hlengths (isLeap year) hvalid.day.2
  have hspec := civilFromDays_spec hdays
  have hspec' := civilFromDays_spec (show 0 ≤ days + 1 by omega)
  constructor
  · rintro ⟨hvalid, hvalid', -⟩
    refine ⟨fun hlost => ?_, fun hlost => ?_⟩
    · rw [hspec, if_pos hlost] at hvalid
      exact hinvalid _ hvalid
    · rw [hspec', if_pos hlost] at hvalid'
      exact hinvalid _ hvalid'
  · rintro ⟨hkept, hkept'⟩
    rw [if_neg hkept] at hspec
    rw [if_neg hkept'] at hspec'
    obtain ⟨htoDays, hvalid⟩ := toDays_ofDays days
    obtain ⟨htoDays', hvalid'⟩ := toDays_ofDays (days + 1)
    exact ⟨hspec ▸ hvalid, hspec' ▸ hvalid', by rw [hspec, hspec', htoDays, htoDays']⟩

theorem paddedInt_of_nonneg (width : ℕ) {n : ℤ} (h : 0 ≤ n) :
    paddedInt width n = padded width n.toNat := by
  rw [paddedInt, if_neg (not_lt.2 h), show n.natAbs = n.toNat by omega]

/-- The hour and the minute of a second of a day. -/
theorem hour_minute {secs : ℤ} (h : 0 ≤ secs) :
    0 ≤ secs.tdiv 3600 ∧ 0 ≤ (secs.tmod 3600).tdiv 60 ∧
      (secs.tdiv 3600).toNat = secs.toNat / 3600 ∧
      ((secs.tmod 3600).tdiv 60).toNat = secs.toNat % 3600 / 60 := by
  rw [Int.tmod_eq_emod_of_nonneg h, Int.tdiv_eq_ediv_of_nonneg h,
    Int.tdiv_eq_ediv_of_nonneg (by omega)]
  omega

/-- Docker's text, where the day is not lost. -/
theorem utcFormat_eq {seconds : ℤ} (hpos : 0 < seconds) (hkept : ¬ Lost (seconds / 86400)) :
    Docker.utcFormat seconds = dateTime seconds := by
  have hdate : Docker.civilFromDays (seconds / 86400) = ofDays (seconds / 86400) := by
    rw [Docker.civilFromDays, civilFromDays_spec (by omega), if_neg hkept]
  obtain ⟨-, -, hhour, hminute⟩ := hour_minute (show 0 ≤ seconds % 86400 by omega)
  simp only [Docker.utcFormat, dateTime, if_neg (not_le.2 hpos), hdate, hhour, hminute]

/-- Elasticsearch's text, where the day is not lost: its hour is not padded. -/
theorem formatEpochMillis_eq {seconds millis : ℤ} {value : Elasticsearch.Value}
    (hvalue : value.millis? = some millis) (hpos : 0 < seconds) (hge : 1000 * seconds ≤ millis)
    (hlt : millis < 1000 * seconds + 1000) (hkept : ¬ Lost (seconds / 86400)) :
    Elasticsearch.formatEpochMillis (some value)
      = paddedInt 4 (ofDays (seconds / 86400)).year ++ '-' :: padded 2 (ofDays (seconds / 86400)).month
        ++ '-' :: padded 2 (ofDays (seconds / 86400)).day
        ++ ' ' :: padded 0 ((seconds % 86400).toNat / 3600)
        ++ ':' :: padded 2 ((seconds % 86400).toNat % 3600 / 60) := by
  have hdate : Elasticsearch.civilFromDays (seconds / 86400) = ofDays (seconds / 86400) := by
    rw [Elasticsearch.civilFromDays, civilFromDays_spec (by omega), if_neg hkept]
  obtain ⟨hhourPos, hminutePos, hhour, hminute⟩ :=
    hour_minute (show 0 ≤ seconds % 86400 by omega)
  -- the value counts milliseconds after the epoch, so that it is shown
  have hmillis : ((some value).bind Elasticsearch.Value.millis?).filter (fun millis => 0 < millis)
      = some millis := by
    rw [Option.bind_some, hvalue]
    exact if_pos (decide_eq_true (by omega))
  have hseconds : millis / 1000 = seconds := by omega
  simp only [Elasticsearch.formatEpochMillis, hmillis, hseconds, hdate,
    paddedInt_of_nonneg 0 hhourPos, paddedInt_of_nonneg 2 hminutePos, hhour, hminute]

/-- A number has two digits from ten on. -/
theorem padded_eq_iff {n : ℕ} (hn : n < 100) : padded 0 n = padded 2 n ↔ 10 ≤ n := by
  have hone := @Nat.length_toDigits_le_iff 10 n 1 (by decide) (by decide)
  have htwo := @Nat.length_toDigits_le_iff 10 n 2 (by decide) (by decide)
  unfold padded
  rw [Nat.zero_sub, List.replicate_zero, List.nil_append, List.self_eq_append_left,
    List.replicate_eq_nil_iff]
  omega

/-- **A second is shown as what it is** exactly from ten o'clock on, and where neither its day nor the
next one is lost. -/
theorem shown_iff {seconds : ℤ} (hpos : 0 < seconds) (hlt : 1000 * seconds < 2 ^ 62) :
    Shown seconds ↔
      36000 ≤ seconds % 86400 ∧ ¬ Lost (seconds / 86400) ∧ ¬ Lost (seconds / 86400 + 1) := by
  have hdays := @consecutive_iff (seconds / 86400) (by omega)
  have hhour : (seconds % 86400).toNat / 3600 < 100 ∧
      (10 ≤ (seconds % 86400).toNat / 3600 ↔ 36000 ≤ seconds % 86400) := by
    omega
  constructor
  -- the texts agree if the hour has two digits: it is written without padding
  · rintro ⟨-, htext, hcalendar, -⟩
    have hkept := hdays.1 hcalendar
    refine ⟨hhour.2.1 ((padded_eq_iff hhour.1).1 ?_), hkept⟩
    have hvalue : (Elasticsearch.Value.integer (1000 * seconds)).millis? = some (1000 * seconds) :=
      if_pos ⟨by omega, by omega⟩
    have heq := htext _ _ hvalue le_rfl (by omega)
    rw [formatEpochMillis_eq hvalue hpos le_rfl (by omega) hkept.1, dateTime] at heq
    simpa using heq
  · rintro ⟨hlate, hkept⟩
    refine ⟨utcFormat_eq hpos hkept.1, fun value millis hvalue hge hlt => ?_, hdays.2 hkept,
      hdays.2 hkept⟩
    rw [formatEpochMillis_eq hvalue hpos hge hlt hkept.1, dateTime,
      (padded_eq_iff hhour.1).2 (hhour.2.2 hlate)]

/-- The instant of the Elasticsearch provider's test. -/
theorem shown_tested : Shown 1700000000 :=
  (shown_iff (by decide) (by decide)).2 (by decide)

/-- **The first of March 1972 is a 30th of February**, and an hour before ten has one digit. -/
theorem lost_day : Docker.utcFormat 68299200 = "1972-02-30 12:00".toList ∧ ¬ Shown 68299200 ∧
    Elasticsearch.formatEpochMillis (some (.integer 1700010000000)) = "2023-11-15 1:00".toList := by
  have hlost : Docker.civilFromDays 790 = ⟨1972, 2, 30⟩ :=
    (civilFromDays_spec (by decide)).trans (by decide)
  have htext : Docker.utcFormat 68299200 = "1972-02-30 12:00".toList := by
    rw [Docker.utcFormat, if_neg (by decide), show (68299200 : ℤ) / 86400 = 790 from rfl]
    dsimp only
    rw [hlost]
    decide
  refine ⟨htext, fun hshown => ?_, ?_⟩
  · have heq := htext.symm.trans hshown.docker
    exact absurd heq (by decide)
  · rw [@formatEpochMillis_eq 1700010000 1700010000000 _ rfl (by decide) (by decide) (by decide)
      (by decide)]
    decide

end Navop
