import Mathlib

/-!
# Dates, times of day, and their texts

The proleptic Gregorian calendar, counted in days since 1970-01-01, and texts as in ISO 8601:
`toDays_ofDays` and `ofDays_toDays` are the calendar's round trips, and `readDate_isoDate`, `readTime_isoTime` are those of the
texts. Years from 0 to 9999 have four digits, others a sign and four digits or more. A fraction of a
second is written without zeros at its end.
-/

namespace Calendar

/-! ### Decimal numbers -/

/-- A number with zeros in front of it, up to a width. -/
def padded (width n : ℕ) : List Char :=
  List.replicate (width - (Nat.toDigits 10 n).length) '0' ++ Nat.toDigits 10 n

/-- The number that digits stand for. -/
def numberOf (digits : List Char) : ℕ := Nat.ofDigitChars 10 digits 0

@[simp] theorem numberOf_padded (width n : ℕ) : numberOf (padded width n) = n := by
  unfold numberOf padded
  rw [Nat.ofDigitChars_append, Nat.ofDigitChars_replicate_zero, Nat.mul_zero,
    Nat.ofDigitChars_ten_toDigits]

theorem isDigit_of_mem_padded {width n : ℕ} {c : Char} (hc : c ∈ padded width n) :
    c.isDigit = true := by
  rcases List.mem_append.mp hc with hzero | hdigit
  · rw [List.eq_of_mem_replicate hzero]
    rfl
  · exact Nat.isDigit_of_mem_toDigits (by decide) le_rfl hdigit

theorem length_padded {width n : ℕ} (hwidth : 0 < width) (hn : n < 10 ^ width) :
    (padded width n).length = width := by
  have hle : (Nat.toDigits 10 n).length ≤ width :=
    (Nat.length_toDigits_le_iff (by decide) hwidth).mpr hn
  unfold padded
  rw [List.length_append, List.length_replicate, Nat.sub_add_cancel hle]

/-- Two digits are written for a number below one hundred. -/
theorem padded_two {n : ℕ} (hn : n < 100) : ∃ c d, padded 2 n = [c, d] :=
  List.length_eq_two.mp (length_padded (by decide) hn)

theorem padded_ne_nil (width n : ℕ) : padded width n ≠ [] :=
  List.append_ne_nil_of_right_ne_nil _ Nat.toDigits_ne_nil

/-! ### Years and months -/

/-- A leap year has 366 days. -/
def isLeap (year : ℤ) : Bool := year % 4 = 0 ∧ (year % 100 ≠ 0 ∨ year % 400 = 0)

/-- The days between the beginning of the calendar and a year. -/
def daysBeforeYear (year : ℤ) : ℤ :=
  365 * (year - 1) + (year - 1) / 4 - (year - 1) / 100 + (year - 1) / 400

/-- The lengths of the months. -/
def monthLengths (leap : Bool) : List ℕ :=
  [31, if leap then 29 else 28, 31, 30, 31, 30, 31, 31, 30, 31, 30, 31]

/-- A date. -/
structure Date where
  year : ℤ
  month : ℕ
  day : ℕ
  deriving DecidableEq

/-- A date that there is. -/
structure Date.Valid (date : Date) : Prop where
  month : 1 ≤ date.month ∧ date.month ≤ 12
  day : 1 ≤ date.day ∧ date.day ≤ (monthLengths (isLeap date.year)).getD (date.month - 1) 0

/-- The days from the beginning of the calendar to 1970-01-01. -/
def epoch : ℤ := 719162

/-- The days from 1970-01-01 to a date. -/
def Date.toDays (date : Date) : ℤ :=
  daysBeforeYear date.year + ((monthLengths (isLeap date.year)).take (date.month - 1)).sum
    + (date.day - 1) - epoch

/-- The month and the day in it that a day of a year falls on. -/
def monthDay : List ℕ → ℕ → ℕ × ℕ
  | [], day => (0, day)
  | length :: lengths, day =>
    if day < length then (0, day)
    else ((monthDay lengths (day - length)).1 + 1, (monthDay lengths (day - length)).2)

/-- The year that a day falls into, and its place there, from 0. -/
def yearDay (n : ℤ) : ℤ × ℤ :=
  let inEra := n % 146097
  let century := min (inEra / 36524) 3
  let inCentury := inEra - 36524 * century
  let inCycle := inCentury % 1461
  let yearInCycle := min (inCycle / 365) 3
  (400 * (n / 146097) + 100 * century + 4 * (inCentury / 1461) + yearInCycle + 1,
    inCycle - 365 * yearInCycle)

/-- The date a number of days after 1970-01-01. -/
def ofDays (days : ℤ) : Date :=
  let (year, dayOfYear) := yearDay (days + epoch)
  let (month, day) := monthDay (monthLengths (isLeap year)) dayOfYear.toNat
  ⟨year, month + 1, day + 1⟩

theorem monthDay_spec {lengths : List ℕ} {day : ℕ} (hday : day < lengths.sum) :
    (monthDay lengths day).1 < lengths.length ∧
      (monthDay lengths day).2 < lengths.getD (monthDay lengths day).1 0 ∧
      (lengths.take (monthDay lengths day).1).sum + (monthDay lengths day).2 = day := by
  induction lengths generalizing day with
  | nil => exact absurd hday (Nat.not_lt_zero _)
  | cons length lengths ih =>
    unfold monthDay
    split
    · next hlt => exact ⟨Nat.succ_pos _, hlt, Nat.zero_add _⟩
    · next hge =>
      rw [List.sum_cons] at hday
      have hrest : day - length < lengths.sum := by omega
      obtain ⟨hmonth, hin, hsum⟩ := ih hrest
      refine ⟨Nat.succ_lt_succ hmonth, hin, ?_⟩
      dsimp only
      rw [List.take_succ_cons, List.sum_cons]
      omega

theorem sum_monthLengths (leap : Bool) :
    (monthLengths leap).sum = if leap then 366 else 365 := by
  cases leap <;> rfl

theorem yearDay_spec (n : ℤ) : 0 ≤ (yearDay n).2 ∧
    ((yearDay n).2 < 365 ∨ (yearDay n).2 = 365 ∧ isLeap (yearDay n).1 = true) ∧
    daysBeforeYear (yearDay n).1 + (yearDay n).2 = n := by
  unfold yearDay
  extract_lets inEra century inCentury inCycle yearInCycle
  generalize hyear : 400 * (n / 146097) + 100 * century + 4 * (inCentury / 1461) + yearInCycle + 1
    = year
  dsimp only
  -- the ranges from the era down to the day; the last century and the last cycle may be one day longer
  have hera : 0 ≤ inEra ∧ inEra < 146097 := by omega
  have hcentury : 0 ≤ century ∧ century ≤ 3 := by omega
  have hinCentury : 0 ≤ inCentury ∧ inCentury ≤ 36524 ∧ (inCentury = 36524 → century = 3) := by
    omega
  generalize hcycle : inCentury / 1461 = cycle at *
  have hcycles : 0 ≤ cycle ∧ cycle ≤ 24 := by omega
  have hsplit : inCentury = 1461 * cycle + inCycle := by omega
  have hinCycle : 0 ≤ inCycle ∧ inCycle < 1461 := by omega
  have hyearInCycle : 0 ≤ yearInCycle ∧ yearInCycle ≤ 3 ∧ 0 ≤ inCycle - 365 * yearInCycle ∧
      inCycle - 365 * yearInCycle ≤ 365 ∧
      (inCycle - 365 * yearInCycle = 365 → yearInCycle = 3 ∧ inCycle = 1460) := by
    omega
  -- the leap days before the year, counted by the three rules
  have hquarter : (year - 1) / 4 = 100 * (n / 146097) + 25 * century + cycle := by omega
  have hhundred : (year - 1) / 100 = 4 * (n / 146097) + century := by omega
  have hfour : (year - 1) / 400 = n / 146097 := by omega
  refine ⟨hyearInCycle.2.2.1, ?_, ?_⟩
  -- a day 365 exists in the last year of a cycle only, which is a leap year
  · by_cases hlast : inCycle - 365 * yearInCycle = 365
    · right
      refine ⟨hlast, ?_⟩
      unfold isLeap
      rw [decide_eq_true_eq]
      omega
    · left
      omega
  · unfold daysBeforeYear
    rw [hquarter, hhundred, hfour]
    omega

/-- **A number of days is that of its date.** -/
theorem toDays_ofDays (days : ℤ) : (ofDays days).toDays = days ∧ (ofDays days).Valid := by
  obtain ⟨hpos, hlt, hdays⟩ := yearDay_spec (days + epoch)
  unfold ofDays
  generalize yearDay (days + epoch) = place at *
  obtain ⟨year, dayOfYear⟩ := place
  dsimp only at hpos hlt hdays ⊢
  have hin : dayOfYear.toNat < (monthLengths (isLeap year)).sum := by
    rw [sum_monthLengths]
    rcases hlt with hlt | ⟨hlt, hleap⟩
    · split <;> omega
    · rw [hleap, if_pos rfl]
      omega
  obtain ⟨hmonth, hday, hsum⟩ := monthDay_spec hin
  refine ⟨?_, ⟨⟨Nat.succ_pos _, hmonth⟩, ⟨Nat.succ_pos _, hday⟩⟩⟩
  unfold Date.toDays
  dsimp only
  rw [Nat.add_sub_cancel]
  omega

/-! ### Dates by their days -/

theorem monthDay_of_lt {lengths : List ℕ} {month day : ℕ} (hday : day < lengths.getD month 0) :
    monthDay lengths ((lengths.take month).sum + day) = (month, day) := by
  induction lengths generalizing month with
  | nil => exact absurd hday (by simp)
  | cons length lengths ih =>
    cases month with
    | zero =>
      rw [List.getD_cons_zero] at hday
      simp [monthDay, hday]
    | succ month =>
      rw [List.getD_cons_succ] at hday
      rw [List.take_succ_cons, List.sum_cons, monthDay, if_neg (by omega),
        show length + (lengths.take month).sum + day - length = (lengths.take month).sum + day by omega,
        ih hday]

theorem daysBeforeYear_succ (year : ℤ) :
    daysBeforeYear (year + 1) = daysBeforeYear year + if isLeap year then 366 else 365 := by
  unfold daysBeforeYear
  split
  · next hleap =>
    rw [isLeap, decide_eq_true_eq] at hleap
    omega
  · next hleap =>
    rw [isLeap, decide_eq_true_eq] at hleap
    omega

theorem daysBeforeYear_mono {year year' : ℤ} (h : year ≤ year') :
    daysBeforeYear year ≤ daysBeforeYear year' := by
  unfold daysBeforeYear
  omega

/-- The year of a day, and the place of the day in it. -/
theorem yearDay_eq {n year day : ℤ} (hpos : 0 ≤ day) (hlt : day < if isLeap year then 366 else 365)
    (hn : daysBeforeYear year + day = n) : yearDay n = (year, day) := by
  obtain ⟨hpos', hlt', hn'⟩ := yearDay_spec n
  generalize yearDay n = place at *
  obtain ⟨year', day'⟩ := place
  dsimp only at hpos' hlt' hn'
  have hin : day' < if isLeap year' then 366 else 365 := by
    rcases hlt' with hlt' | ⟨hlt', hleap⟩
    · split <;> omega
    · rw [hleap, if_pos rfl]
      omega
  have hnext := daysBeforeYear_succ year
  have hnext' := daysBeforeYear_succ year'
  obtain hyear | rfl | hyear := lt_trichotomy year year'
  · have := daysBeforeYear_mono (show year + 1 ≤ year' by omega)
    omega
  · rw [show day' = day by omega]
  · have := daysBeforeYear_mono (show year' + 1 ≤ year by omega)
    omega

/-- **A date is that of its number of days.** -/
theorem ofDays_toDays {date : Date} (hvalid : date.Valid) : ofDays date.toDays = date := by
  obtain ⟨year, month, day⟩ := date
  obtain ⟨⟨hmonth, hmonth'⟩, hday, hday'⟩ := hvalid
  dsimp only at hmonth hmonth' hday hday'
  have hin : day - 1 < (monthLengths (isLeap year)).getD (month - 1) 0 := by omega
  have hplace := monthDay_of_lt hin
  -- the day of the year lies within the year
  have hsum : ((monthLengths (isLeap year)).take (month - 1)).sum + (day - 1)
      < (monthLengths (isLeap year)).sum := by
    have hsplit := List.sum_take_add_sum_drop (monthLengths (isLeap year)) (month - 1)
    have hlt : month - 1 < (monthLengths (isLeap year)).length := by
      change _ < 12
      omega
    rw [List.getD_eq_getElem _ _ hlt] at hin
    rw [List.drop_eq_getElem_cons hlt, List.sum_cons] at hsplit
    omega
  rw [sum_monthLengths] at hsum
  -- the year is found again from the days
  have hyear : yearDay (Date.toDays ⟨year, month, day⟩ + epoch)
      = (year, ((((monthLengths (isLeap year)).take (month - 1)).sum + (day - 1) : ℕ) : ℤ)) := by
    refine yearDay_eq (Int.natCast_nonneg _) ?_ ?_
    · split
      · next hleap => rw [if_pos hleap] at hsum; omega
      · next hleap => rw [if_neg hleap] at hsum; omega
    · unfold Date.toDays
      dsimp only
      omega
  rw [ofDays, hyear]
  dsimp only
  rw [Int.toNat_natCast, hplace]
  dsimp only
  rw [Nat.sub_add_cancel hmonth, Nat.sub_add_cancel hday]

/-! ### Texts -/

/-- The text of a year. -/
def isoYear (year : ℤ) : List Char :=
  if 0 ≤ year ∧ year ≤ 9999 then padded 4 year.natAbs
  else (if year < 0 then '-' else '+') :: padded 4 year.natAbs

/-- The text of a date. -/
def isoDate (date : Date) : List Char :=
  isoYear date.year ++ '-' :: padded 2 date.month ++ '-' :: padded 2 date.day

/-- A year and what follows it. -/
def readYear (text : List Char) : ℤ × List Char :=
  match text with
  | '-' :: rest => (-(numberOf (rest.takeWhile Char.isDigit)), rest.dropWhile Char.isDigit)
  | '+' :: rest => (numberOf (rest.takeWhile Char.isDigit), rest.dropWhile Char.isDigit)
  | rest => (numberOf (rest.takeWhile Char.isDigit), rest.dropWhile Char.isDigit)

/-- The date that a text stands for. -/
def readDate (text : List Char) : Option Date :=
  match readYear text with
  | (year, ['-', m, m', '-', d, d']) => some ⟨year, numberOf [m, m'], numberOf [d, d']⟩
  | _ => none

/-- A fraction of a second, in nanoseconds, without zeros at its end. -/
def isoFraction (nanos : ℕ) : List Char :=
  if nanos = 0 then [] else '.' :: (padded 9 nanos).rdropWhile (· = '0')

/-- The text of a time of day. -/
def isoTime (seconds nanos : ℕ) : List Char :=
  padded 2 (seconds / 3600) ++ ':' :: padded 2 (seconds % 3600 / 60) ++ ':' :: padded 2 (seconds % 60)
    ++ isoFraction nanos

/-- The nanoseconds that a fraction of a second stands for. -/
def readFraction : List Char → Option ℕ
  | [] => some 0
  | '.' :: digits => some (numberOf digits * 10 ^ (9 - digits.length))
  | _ => none

/-- The seconds and nanoseconds that a time of day stands for. -/
def readTime : List Char → Option (ℕ × ℕ)
  | h :: h' :: ':' :: m :: m' :: ':' :: s :: s' :: fraction =>
    (readFraction fraction).map fun nanos =>
      (3600 * numberOf [h, h'] + 60 * numberOf [m, m'] + numberOf [s, s'], nanos)
  | _ => none

theorem takeWhile_padded (width n : ℕ) {c : Char} (hc : c.isDigit = false) (rest : List Char) :
    (padded width n ++ c :: rest).takeWhile Char.isDigit = padded width n := by
  rw [List.takeWhile_append_of_pos fun _ => isDigit_of_mem_padded,
    List.takeWhile_cons_of_neg (by rw [hc]; exact Bool.false_ne_true), List.append_nil]

theorem dropWhile_padded (width n : ℕ) {c : Char} (hc : c.isDigit = false) (rest : List Char) :
    (padded width n ++ c :: rest).dropWhile Char.isDigit = c :: rest := by
  rw [List.dropWhile_append_of_pos fun _ => isDigit_of_mem_padded,
    List.dropWhile_cons_of_neg (by rw [hc]; exact Bool.false_ne_true)]

theorem readYear_isoYear (year : ℤ) {c : Char} (hc : c.isDigit = false) (rest : List Char) :
    readYear (isoYear year ++ c :: rest) = (year, c :: rest) := by
  have htake := takeWhile_padded 4 year.natAbs hc rest
  have hdrop := dropWhile_padded 4 year.natAbs hc rest
  unfold isoYear
  split
  · next hrange =>
    obtain ⟨d, digits, hdigits⟩ := List.exists_cons_of_ne_nil (padded_ne_nil 4 year.natAbs)
    -- a digit comes first, which is no sign
    have hd : d.isDigit = true := @isDigit_of_mem_padded 4 year.natAbs d (by simp [hdigits])
    unfold readYear
    split
    · next heq =>
      rw [hdigits] at heq
      rw [(List.cons.inj heq).1] at hd
      cases hd
    · next heq =>
      rw [hdigits] at heq
      rw [(List.cons.inj heq).1] at hd
      cases hd
    · rw [htake, hdrop, numberOf_padded, Int.natAbs_of_nonneg hrange.1]
  · next hrange =>
    split
    · next hneg =>
      change (-(numberOf ((padded 4 year.natAbs ++ c :: rest).takeWhile Char.isDigit) : ℤ),
        (padded 4 year.natAbs ++ c :: rest).dropWhile Char.isDigit) = _
      rw [htake, hdrop, numberOf_padded, Int.ofNat_natAbs_of_nonpos hneg.le, neg_neg]
    · next hpos =>
      change ((numberOf ((padded 4 year.natAbs ++ c :: rest).takeWhile Char.isDigit) : ℤ),
        (padded 4 year.natAbs ++ c :: rest).dropWhile Char.isDigit) = _
      rw [htake, hdrop, numberOf_padded, Int.natAbs_of_nonneg (not_lt.mp hpos)]

/-- **A date is read back.** -/
theorem readDate_isoDate {date : Date} (hvalid : date.Valid) : readDate (isoDate date) = some date := by
  -- month and day have two digits
  have hlengths : ∀ leap, ∀ length ∈ monthLengths leap, length < 100 := by
    intro leap
    cases leap <;> decide
  have hmonth : date.month < 100 := lt_of_le_of_lt hvalid.month.2 (by decide)
  have hday : date.day < 100 := by
    refine lt_of_le_of_lt hvalid.day.2 ?_
    have hlt : date.month - 1 < (monthLengths (isLeap date.year)).length := by
      have hle := hvalid.month
      change _ < 12
      omega
    rw [List.getD_eq_getElem _ _ hlt]
    exact hlengths _ _ (List.getElem_mem hlt)
  obtain ⟨m, m', hm⟩ := padded_two hmonth
  obtain ⟨d, d', hd⟩ := padded_two hday
  have hmonthNumber := hm ▸ numberOf_padded 2 date.month
  have hdayNumber := hd ▸ numberOf_padded 2 date.day
  unfold readDate isoDate
  rw [List.append_assoc, List.cons_append, readYear_isoYear date.year (by decide), hm, hd]
  change some (⟨date.year, numberOf [m, m'], numberOf [d, d']⟩ : Date) = _
  rw [hmonthNumber, hdayNumber]

theorem readFraction_isoFraction {nanos : ℕ} (hnanos : nanos < 1000000000) :
    readFraction (isoFraction nanos) = some nanos := by
  unfold isoFraction
  split
  · next hzero => rw [hzero]; rfl
  · have hlength : (padded 9 nanos).length = 9 := length_padded (by decide) hnanos
    -- the digits are those that are kept, and zeros
    have hzeros : (padded 9 nanos).rtakeWhile (· = '0')
        = List.replicate ((padded 9 nanos).rtakeWhile (· = '0')).length '0' := by
      refine List.eq_replicate_of_mem fun c hc => ?_
      have hzero := List.mem_rtakeWhile_imp hc
      exact of_decide_eq_true hzero
    have hsplit := List.rdropWhile_append_rtakeWhile (p := (· = '0')) (l := padded 9 nanos)
    have hlengths := congrArg List.length hsplit
    rw [List.length_append, hlength] at hlengths
    have hnumber := congrArg numberOf hsplit
    rw [numberOf_padded, hzeros] at hnumber
    unfold numberOf at hnumber
    rw [Nat.ofDigitChars_append, Nat.ofDigitChars_replicate_zero] at hnumber
    change some (numberOf _ * 10 ^ (9 - _)) = _
    unfold numberOf
    have hcount : 9 - ((padded 9 nanos).rdropWhile (· = '0')).length
        = ((padded 9 nanos).rtakeWhile (· = '0')).length := by
      omega
    rw [hcount, Nat.mul_comm, hnumber]

/-- **A time of day is read back.** -/
theorem readTime_isoTime {seconds nanos : ℕ} (hseconds : seconds < 86400)
    (hnanos : nanos < 1000000000) : readTime (isoTime seconds nanos) = some (seconds, nanos) := by
  have hhour : seconds / 3600 < 100 := by omega
  have hminute : seconds % 3600 / 60 < 100 := by omega
  have hsecond : seconds % 60 < 100 := by omega
  obtain ⟨h, h', hh⟩ := padded_two hhour
  obtain ⟨m, m', hm⟩ := padded_two hminute
  obtain ⟨s, s', hs⟩ := padded_two hsecond
  have hhourNumber := hh ▸ numberOf_padded 2 (seconds / 3600)
  have hminuteNumber := hm ▸ numberOf_padded 2 (seconds % 3600 / 60)
  have hsecondNumber := hs ▸ numberOf_padded 2 (seconds % 60)
  unfold isoTime
  rw [hh, hm, hs]
  change (readFraction (isoFraction nanos)).map (fun nanos =>
    (3600 * numberOf [h, h'] + 60 * numberOf [m, m'] + numberOf [s, s'], nanos)) = _
  rw [readFraction_isoFraction hnanos, hhourNumber, hminuteNumber, hsecondNumber, Option.map_some]
  congr 2
  omega

end Calendar
