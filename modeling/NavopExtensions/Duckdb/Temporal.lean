import NavopExtensions.Lib.Calendar

/-!
# Dates, timestamps and times of DuckDB

The texts that `value.rs` makes of them: every date and every timestamp has a text of its own, from which
it can be read back. A time of day is reduced modulo 24 hours, so that DuckDB's `24:00:00` has the text of
midnight, and all others have texts of their own (`temporal_injective_iff`).

A time of day is converted to microseconds first, by a multiplication in 64 bits that belongs to the
`duckdb` crate. For counts of seconds and of milliseconds it overflows far outside a day, and where it
does, there is no text.
-/

namespace Navop
namespace Duckdb
namespace Temporal

open Calendar

/-- `TimeUnit`: what a count of a time or of a timestamp counts. -/
inductive TimeUnit
  | second
  | millisecond
  | microsecond
  | nanosecond
  deriving DecidableEq

/-- `nanos_per_second`: the units in a second. -/
def TimeUnit.perSecond : TimeUnit → ℤ
  | .second => 1
  | .millisecond => 1000
  | .microsecond => 1000000
  | .nanosecond => 1000000000

/-- The name of a unit. -/
def TimeUnit.name : TimeUnit → List Char
  | .second => "Second".toList
  | .millisecond => "Millisecond".toList
  | .microsecond => "Microsecond".toList
  | .nanosecond => "Nanosecond".toList

/-- The number is one of 64 bits. -/
def IsInt64 (n : ℤ) : Prop := -2 ^ 63 ≤ n ∧ n < 2 ^ 63

instance (n : ℤ) : Decidable (IsInt64 n) := instDecidableAnd

/-- A count in microseconds, where what is less than one of them is left out. -/
def TimeUnit.micros : TimeUnit → ℤ → ℤ
  | .second, value => value * 1000000
  | .millisecond, value => value * 1000
  | .microsecond, value => value
  | .nanosecond, value => value.tdiv 1000

/-- The libraries: `chrono`, which has the dates of a range of its own, and `TimeUnit::to_micros` of
`duckdb`, which multiplies in 64 bits and fails where the product is too large. -/
structure Library where
  /-- The date a number of days after 1970-01-01, if `chrono` has it. -/
  dateOf : ℤ → Option Date
  dateOf_spec : ∀ days date, dateOf days = some date → date.toDays = days ∧ date.Valid
  /-- `TimeUnit::to_micros`, unless it overflows. -/
  toMicros : TimeUnit → ℤ → Option ℤ
  toMicros_spec : ∀ unit value, IsInt64 value →
    toMicros unit value = if IsInt64 (unit.micros value) then some (unit.micros value) else none

/-- `chrono` with the dates between two days. -/
def Library.ofRange (first last : ℤ) : Library where
  dateOf days := if first ≤ days ∧ days ≤ last then some (ofDays days) else none
  dateOf_spec := by
    intro days date h
    split at h
    · rw [← Option.some.inj h]
      exact toDays_ofDays days
    · cases h
  toMicros unit value := if IsInt64 (unit.micros value) then some (unit.micros value) else none
  toMicros_spec := fun _ _ _ => rfl

/-- The text of an integer. -/
def intText (n : ℤ) : List Char :=
  if n < 0 then '-' :: Nat.toDigits 10 n.natAbs else Nat.toDigits 10 n.natAbs

/-- `split_epoch`: whole seconds, rounded down, and the nanoseconds above them. -/
def splitEpoch (unit : TimeUnit) (value : ℤ) : ℤ × ℕ :=
  let seconds := value / unit.perSecond
  let units := value % unit.perSecond
  let nanosPerUnit := 1000000000 / unit.perSecond
  (seconds, (units * nanosPerUnit).toNat % 2 ^ 32)

/-- `append_fraction`, and the text before it. -/
def appendFraction (value : List Char) (nanos : ℕ) : List Char := value ++ isoFraction nanos

section Formats

variable (library : Library)

/-- `DateTime::from_timestamp` and `format_datetime`: no text for a date that is out of the library's
range. -/
def formatDatetime (seconds : ℤ) (nanos : ℕ) : Option (List Char) :=
  (library.dateOf (seconds / 86400)).map fun date =>
    isoDate date ++ ' ' :: isoTime (seconds % 86400).toNat nanos

/-- `format_timestamp`: date and time, or a placeholder with the count. -/
def formatTimestamp (unit : TimeUnit) (value : ℤ) : List Char :=
  let (seconds, nanos) := splitEpoch unit value
  match formatDatetime library seconds nanos with
  | some text => text
  | none => "Timestamp(".toList ++ unit.name ++ ", ".toList ++ intText value ++ ")".toList

/-- `format_date32`: the date, or a placeholder with the count of days. -/
def formatDate32 (days : ℤ) : List Char :=
  match library.dateOf days with
  | some date => isoDate date
  | none => "Date32(".toList ++ intText days ++ ")".toList

/-- `format_time64`; there is no text if the conversion to microseconds overflows. -/
def formatTime64 (unit : TimeUnit) (value : ℤ) : Option (List Char) := do
  let (_, nanos) := splitEpoch unit value
  let micros ← library.toMicros unit value
  let seconds := micros / 1000000
  let secondsOfDay := (seconds % 86400).toNat
  let hour := secondsOfDay / 3600
  let minute := secondsOfDay % 3600 / 60
  let second := secondsOfDay % 60
  some (appendFraction (padded 2 hour ++ ':' :: padded 2 minute ++ ':' :: padded 2 second) nanos)

end Formats

/-! ### Reading -/

/-- The day that the text of a date stands for. -/
def readDays (text : List Char) : Option ℤ := (readDate text).map Date.toDays

/-- The count that the text of a time stands for. -/
def readTimeCount (unit : TimeUnit) (text : List Char) : Option ℤ :=
  (readTime text).map fun (seconds, nanos) =>
    seconds * unit.perSecond + nanos / (1000000000 / unit.perSecond)

/-- The count that the text of a timestamp stands for. -/
def readTimestamp (unit : TimeUnit) (text : List Char) : Option ℤ :=
  match readDays (text.takeWhile (· ≠ ' ')), readTimeCount unit (text.dropWhile (· ≠ ' ')).tail with
  | some days, some count => some (days * (86400 * unit.perSecond) + count)
  | _, _ => none

/-! ### Splitting -/

variable {library : Library} {unit : TimeUnit}

theorem TimeUnit.perSecond_pos (unit : TimeUnit) : 0 < unit.perSecond := by
  cases unit <;> decide

/-- The multiplication of `split_epoch` stays below the nanoseconds of a second. -/
theorem units_mul_lt (unit : TimeUnit) (value : ℤ) :
    0 ≤ value % unit.perSecond * (1000000000 / unit.perSecond) ∧
      value % unit.perSecond * (1000000000 / unit.perSecond) < 1000000000 := by
  cases unit <;> dsimp only [TimeUnit.perSecond] <;> omega

theorem splitEpoch_spec (unit : TimeUnit) (value : ℤ) :
    (splitEpoch unit value).1 = value / unit.perSecond ∧
      (splitEpoch unit value).2 < 1000000000 ∧
      ((splitEpoch unit value).2 : ℤ) / (1000000000 / unit.perSecond) = value % unit.perSecond := by
  obtain ⟨hpos, hlt⟩ := units_mul_lt unit value
  have hnanos : ((splitEpoch unit value).2 : ℤ)
      = value % unit.perSecond * (1000000000 / unit.perSecond) := by
    unfold splitEpoch
    dsimp only
    omega
  refine ⟨rfl, by omega, ?_⟩
  rw [hnanos]
  refine Int.mul_ediv_cancel _ ?_
  cases unit <;> decide

/-- Seconds and units make up a count. -/
theorem seconds_add_units (unit : TimeUnit) (value : ℤ) :
    value / unit.perSecond * unit.perSecond + value % unit.perSecond = value :=
  Int.ediv_mul_add_emod value unit.perSecond

/-! ### Texts -/

theorem intText_injective : Function.Injective intText := by
  intro a b h
  have hdigits : ∀ {m n : ℕ}, Nat.toDigits 10 m = Nat.toDigits 10 n → m = n := by
    intro m n heq
    have hnumbers := congrArg (Nat.ofDigitChars 10 · 0) heq
    rwa [Nat.ofDigitChars_ten_toDigits, Nat.ofDigitChars_ten_toDigits] at hnumbers
  -- the sign is not a digit
  have hminus : ∀ {m n : ℕ}, '-' :: Nat.toDigits 10 m ≠ Nat.toDigits 10 n := by
    intro m n heq
    have hdigit : '-'.isDigit = true := by
      refine @Nat.isDigit_of_mem_toDigits 10 n '-' (by decide) le_rfl ?_
      rw [← heq]
      exact List.mem_cons_self
    exact absurd hdigit (by decide)
  unfold intText at h
  split at h
  · split at h
    · have heq := hdigits (List.cons.inj h).2
      omega
    · exact absurd h hminus
  · split at h
    · exact absurd h.symm hminus
    · have heq := hdigits h
      omega

theorem mem_isoDate {date : Date} {c : Char} (hc : c ∈ isoDate date) :
    c.isDigit = true ∨ c = '-' ∨ c = '+' := by
  unfold isoDate isoYear at hc
  rcases List.mem_append.mp hc with hc | hc
  · rcases List.mem_append.mp hc with hc | hc
    · split at hc
      · exact .inl (isDigit_of_mem_padded hc)
      · rcases List.mem_cons.mp hc with hsign | hc
        · split at hsign
          · exact .inr (.inl hsign)
          · exact .inr (.inr hsign)
        · exact .inl (isDigit_of_mem_padded hc)
    · rcases List.mem_cons.mp hc with hc | hc
      · exact .inr (.inl hc)
      · exact .inl (isDigit_of_mem_padded hc)
  · rcases List.mem_cons.mp hc with hc | hc
    · exact .inr (.inl hc)
    · exact .inl (isDigit_of_mem_padded hc)

/-- A text that begins with a date begins with a digit or a sign. -/
theorem isoDate_append_ne {date : Date} {rest text : List Char} {c : Char}
    (hc : ¬ (c.isDigit = true ∨ c = '-' ∨ c = '+')) : isoDate date ++ rest ≠ c :: text := by
  intro h
  refine hc (@mem_isoDate date c ?_)
  cases hdate : isoDate date with
  | nil =>
    unfold isoDate at hdate
    exact absurd (List.append_eq_nil_iff.mp hdate).2 (List.cons_ne_nil _ _)
  | cons d ds =>
    rw [hdate] at h
    rw [(List.cons.inj h).1]
    exact List.mem_cons_self

/-! ### Dates -/

theorem formatDate32_of_some {days : ℤ} {date : Date} (h : library.dateOf days = some date) :
    formatDate32 library days = isoDate date := by
  unfold formatDate32
  rw [h]

theorem formatDate32_of_none {days : ℤ} (h : library.dateOf days = none) :
    formatDate32 library days = "Date32(".toList ++ intText days ++ ")".toList := by
  unfold formatDate32
  rw [h]

/-- A date is read back. -/
theorem readDays_formatDate32 {days : ℤ} {date : Date} (h : library.dateOf days = some date) :
    readDays (formatDate32 library days) = some days := by
  obtain ⟨hdays, hvalid⟩ := library.dateOf_spec days date h
  unfold readDays
  rw [formatDate32_of_some h, readDate_isoDate hvalid, Option.map_some, hdays]

theorem formatDate32_injective : Function.Injective (formatDate32 library) := by
  intro a b h
  -- a day with a date is read back from its text
  cases ha : library.dateOf a with
  | some date =>
    cases hb : library.dateOf b with
    | some other =>
      have hread := (readDays_formatDate32 ha).symm.trans
        ((congrArg readDays h).trans (readDays_formatDate32 hb))
      exact Option.some.inj hread
    -- the placeholder is no date, and it carries the count of days
    | none =>
      rw [formatDate32_of_some ha, formatDate32_of_none hb, ← List.append_nil (isoDate date)] at h
      exact absurd h (isoDate_append_ne (by decide))
  | none =>
    cases hb : library.dateOf b with
    | some other =>
      rw [formatDate32_of_none ha, formatDate32_of_some hb, ← List.append_nil (isoDate other)] at h
      exact absurd h.symm (isoDate_append_ne (by decide))
    | none =>
      rw [formatDate32_of_none ha, formatDate32_of_none hb] at h
      exact intText_injective (List.append_cancel_left (List.append_cancel_right h))

/-! ### Times -/

theorem appendFraction_eq (seconds nanos : ℕ) :
    appendFraction (padded 2 (seconds / 3600) ++ ':' :: padded 2 (seconds % 3600 / 60)
      ++ ':' :: padded 2 (seconds % 60)) nanos = isoTime seconds nanos := rfl

/-- The count that a time's text stands for. -/
theorem readTimeCount_isoTime {seconds : ℤ} (hpos : 0 ≤ seconds) (hlt : seconds < 86400)
    (unit : TimeUnit) (value : ℤ) :
    readTimeCount unit (isoTime seconds.toNat (splitEpoch unit value).2)
      = some (seconds * unit.perSecond + value % unit.perSecond) := by
  obtain ⟨-, hnanos, hunits⟩ := splitEpoch_spec unit value
  unfold readTimeCount
  rw [readTime_isoTime (by omega) hnanos, Option.map_some]
  dsimp only
  rw [hunits, Int.toNat_of_nonneg hpos]

/-- Where the conversion to microseconds does not overflow, there is a text. -/
theorem isSome_formatTime64_iff {value : ℤ} (hvalue : IsInt64 value) :
    (formatTime64 library unit value).isSome = true ↔ IsInt64 (value * (1000000 / unit.perSecond)) := by
  -- the two units that multiply are the claim itself; dividing always stays in range
  have hmicros : IsInt64 (unit.micros value) ↔ IsInt64 (value * (1000000 / unit.perSecond)) := by
    unfold IsInt64 at hvalue ⊢
    cases unit with
    | second => exact Iff.rfl
    | millisecond => exact Iff.rfl
    | microsecond =>
      dsimp only [TimeUnit.micros, TimeUnit.perSecond]
      omega
    | nanosecond =>
      dsimp only [TimeUnit.micros, TimeUnit.perSecond]
      have hsign : Int.sign 1000 = 1 := rfl
      rw [Int.tdiv_eq_ediv, hsign]
      split <;> omega
  unfold formatTime64
  rw [library.toMicros_spec unit value hvalue]
  by_cases hfits : IsInt64 (unit.micros value)
  · rw [if_pos hfits]
    exact iff_of_true rfl (hmicros.1 hfits)
  · rw [if_neg hfits]
    exact iff_of_false Bool.false_ne_true fun h => hfits (hmicros.2 h)

/-- The text of a time that is no more than a day. -/
theorem formatTime64_eq {value : ℤ} (hpos : 0 ≤ value) (hle : value ≤ 86400 * unit.perSecond) :
    formatTime64 library unit value
      = some (isoTime (value / unit.perSecond % 86400).toNat (splitEpoch unit value).2) := by
  -- the numbers of a day are small, and its seconds are the same in every unit
  have hday : IsInt64 value ∧ IsInt64 (unit.micros value) ∧
      unit.micros value / 1000000 = value / unit.perSecond := by
    unfold IsInt64
    cases unit <;> dsimp only [TimeUnit.perSecond, TimeUnit.micros] at hle ⊢
    · omega
    · omega
    · omega
    · rw [Int.tdiv_eq_ediv_of_nonneg hpos]
      omega
  obtain ⟨hvalue, hmicros, hseconds⟩ := hday
  unfold formatTime64
  rw [library.toMicros_spec unit value hvalue, if_pos hmicros]
  change some (appendFraction (padded 2 ((unit.micros value / 1000000 % 86400).toNat / 3600) ++ ':' ::
    padded 2 ((unit.micros value / 1000000 % 86400).toNat % 3600 / 60) ++ ':' ::
    padded 2 ((unit.micros value / 1000000 % 86400).toNat % 60)) (splitEpoch unit value).2) = _
  rw [appendFraction_eq, hseconds]

theorem readTimeCount_formatTime64 {value : ℤ} (hpos : 0 ≤ value)
    (hle : value ≤ 86400 * unit.perSecond) :
    (formatTime64 library unit value).bind (readTimeCount unit)
      = some (value / unit.perSecond % 86400 * unit.perSecond + value % unit.perSecond) := by
  rw [formatTime64_eq hpos hle]
  exact readTimeCount_isoTime (Int.emod_nonneg _ (by decide)) (Int.emod_lt_of_pos _ (by decide)) _ _

/-- A time before the end of the day is read back. -/
theorem readTimeCount_of_lt {value : ℤ} (hpos : 0 ≤ value) (hlt : value < 86400 * unit.perSecond) :
    (formatTime64 library unit value).bind (readTimeCount unit) = some value := by
  have hseconds : value / unit.perSecond % 86400 = value / unit.perSecond := by
    refine Int.emod_eq_of_lt (Int.ediv_nonneg hpos unit.perSecond_pos.le) ?_
    exact Int.ediv_lt_of_lt_mul unit.perSecond_pos hlt
  rw [readTimeCount_formatTime64 hpos hlt.le, hseconds, seconds_add_units]

/-- The end of the day has the text of its beginning. -/
theorem formatTime64_endOfDay :
    formatTime64 library unit (86400 * unit.perSecond) = formatTime64 library unit 0 := by
  have hpos := unit.perSecond_pos
  rw [formatTime64_eq (by omega) le_rfl, formatTime64_eq le_rfl (by omega)]
  cases unit <;> rfl

/-- Different times have different texts, but for the two midnights. -/
theorem formatTime64_ne_iff {a b : ℤ} (ha : 0 ≤ a ∧ a ≤ 86400 * unit.perSecond)
    (hb : 0 ≤ b ∧ b ≤ 86400 * unit.perSecond) :
    (a ≠ b → formatTime64 library unit a ≠ formatTime64 library unit b)
      ↔ ¬ (a = 0 ∧ b = 86400 * unit.perSecond ∨ a = 86400 * unit.perSecond ∧ b = 0) := by
  have hpos := unit.perSecond_pos
  constructor
  · rintro hne (⟨rfl, rfl⟩ | ⟨rfl, rfl⟩)
    · exact hne (by omega) formatTime64_endOfDay.symm
    · exact hne (by omega) formatTime64_endOfDay
  · intro hnot hne htext
    have hread : (formatTime64 library unit a).bind (readTimeCount unit)
        = (formatTime64 library unit b).bind (readTimeCount unit) := by rw [htext]
    -- below the end of the day the count is read back, and the end of the day reads as midnight
    rcases lt_or_eq_of_le ha.2 with hlt | hend
    · rw [readTimeCount_of_lt ha.1 hlt] at hread
      rcases lt_or_eq_of_le hb.2 with hlt' | hend'
      · rw [readTimeCount_of_lt hb.1 hlt'] at hread
        exact hne (Option.some.inj hread)
      · rw [hend', formatTime64_endOfDay, readTimeCount_of_lt le_rfl (by omega)] at hread
        exact hnot (.inl ⟨Option.some.inj hread, hend'⟩)
    · rw [hend, formatTime64_endOfDay, readTimeCount_of_lt le_rfl (by omega)] at hread
      rcases lt_or_eq_of_le hb.2 with hlt' | hend'
      · rw [readTimeCount_of_lt hb.1 hlt'] at hread
        exact hnot (.inr ⟨hend, (Option.some.inj hread).symm⟩)
      · exact hne (hend.trans hend'.symm)

/-! ### Timestamps -/

theorem formatTimestamp_of_some {value : ℤ} {date : Date}
    (h : library.dateOf (value / unit.perSecond / 86400) = some date) :
    formatTimestamp library unit value
      = isoDate date
        ++ ' ' :: isoTime (value / unit.perSecond % 86400).toNat (splitEpoch unit value).2 := by
  have hdatetime : formatDatetime library (splitEpoch unit value).1 (splitEpoch unit value).2
      = some (isoDate date
        ++ ' ' :: isoTime (value / unit.perSecond % 86400).toNat (splitEpoch unit value).2) := by
    unfold formatDatetime
    rw [(splitEpoch_spec unit value).1, h]
    rfl
  unfold formatTimestamp
  dsimp only
  rw [hdatetime]

theorem formatTimestamp_of_none {value : ℤ}
    (h : library.dateOf (value / unit.perSecond / 86400) = none) :
    formatTimestamp library unit value
      = "Timestamp(".toList ++ unit.name ++ ", ".toList ++ intText value ++ ")".toList := by
  have hdatetime :
      formatDatetime library (splitEpoch unit value).1 (splitEpoch unit value).2 = none := by
    unfold formatDatetime
    rw [(splitEpoch_spec unit value).1, h]
    rfl
  unfold formatTimestamp
  dsimp only
  rw [hdatetime]

/-- A timestamp is read back. -/
theorem readTimestamp_formatTimestamp {value : ℤ} {date : Date}
    (h : library.dateOf (value / unit.perSecond / 86400) = some date) :
    readTimestamp unit (formatTimestamp library unit value) = some value := by
  obtain ⟨hdays, hvalid⟩ := library.dateOf_spec _ date h
  -- the first blank is the one between the date and the time
  have hspace : ∀ c ∈ isoDate date, decide (c ≠ ' ') = true := by
    intro c hc
    rw [decide_eq_true_eq]
    rintro rfl
    exact absurd (mem_isoDate hc) (by decide)
  rw [formatTimestamp_of_some h]
  unfold readTimestamp
  rw [List.takeWhile_append_of_pos hspace, List.dropWhile_append_of_pos hspace,
    List.takeWhile_cons_of_neg (by decide), List.dropWhile_cons_of_neg (by decide), List.append_nil,
    List.tail_cons, readTimeCount_isoTime (Int.emod_nonneg _ (by decide))
      (Int.emod_lt_of_pos _ (by decide))]
  unfold readDays
  rw [readDate_isoDate hvalid, Option.map_some, hdays]
  dsimp only
  congr 1
  -- days, seconds of the day and units of the second make up the count again
  have hday := Int.ediv_mul_add_emod (value / unit.perSecond) 86400
  calc value / unit.perSecond / 86400 * (86400 * unit.perSecond)
        + (value / unit.perSecond % 86400 * unit.perSecond + value % unit.perSecond)
      = (value / unit.perSecond / 86400 * 86400 + value / unit.perSecond % 86400)
        * unit.perSecond + value % unit.perSecond := by ring
    _ = value := by rw [hday, seconds_add_units]

theorem formatTimestamp_injective : Function.Injective (formatTimestamp library unit) := by
  intro a b h
  cases ha : library.dateOf (a / unit.perSecond / 86400) with
  | some date =>
    cases hb : library.dateOf (b / unit.perSecond / 86400) with
    | some other =>
      have hread := (readTimestamp_formatTimestamp ha).symm.trans
        ((congrArg (readTimestamp unit) h).trans (readTimestamp_formatTimestamp hb))
      exact Option.some.inj hread
    | none =>
      rw [formatTimestamp_of_some ha, formatTimestamp_of_none hb] at h
      -- a date begins with a digit or a sign, the placeholder with neither
      exact absurd h (isoDate_append_ne (by decide))
  | none =>
    cases hb : library.dateOf (b / unit.perSecond / 86400) with
    | some other =>
      rw [formatTimestamp_of_none ha, formatTimestamp_of_some hb] at h
      exact absurd h.symm (isoDate_append_ne (by decide))
    | none =>
      rw [formatTimestamp_of_none ha, formatTimestamp_of_none hb] at h
      exact intText_injective (List.append_cancel_left (List.append_cancel_right h))

/-- **Different dates, timestamps and times of day have different texts**, and those that `chrono` has are
read back from them; but the two midnights of a day have one text. The multiplication of `split_epoch`
never overflows; the one that `format_time64` makes of a count does so exactly where the count in
microseconds is no number of 64 bits, which is never for microseconds and nanoseconds, nor for any time of
a day. -/
theorem temporal_injective_iff (library : Library) (unit : TimeUnit) :
    (∀ a b, formatDate32 library a = formatDate32 library b → a = b) ∧
    (∀ days date, library.dateOf days = some date →
      readDays (formatDate32 library days) = some days) ∧
    (∀ a b, formatTimestamp library unit a = formatTimestamp library unit b → a = b) ∧
    (∀ value date, library.dateOf (value / unit.perSecond / 86400) = some date →
      readTimestamp unit (formatTimestamp library unit value) = some value) ∧
    (∀ value, 0 ≤ value % unit.perSecond * (1000000000 / unit.perSecond) ∧
      value % unit.perSecond * (1000000000 / unit.perSecond) < 1000000000) ∧
    (∀ value, IsInt64 value → ((formatTime64 library unit value).isSome = true
      ↔ IsInt64 (value * (1000000 / unit.perSecond)))) ∧
    (∀ value, 0 ≤ value → value < 86400 * unit.perSecond →
      (formatTime64 library unit value).bind (readTimeCount unit) = some value) ∧
    (∀ a b, 0 ≤ a ∧ a ≤ 86400 * unit.perSecond → 0 ≤ b ∧ b ≤ 86400 * unit.perSecond →
      ((a ≠ b → formatTime64 library unit a ≠ formatTime64 library unit b)
        ↔ ¬ (a = 0 ∧ b = 86400 * unit.perSecond ∨ a = 86400 * unit.perSecond ∧ b = 0))) :=
  ⟨fun _ _ h => formatDate32_injective h, fun _ _ => readDays_formatDate32,
    fun _ _ h => formatTimestamp_injective h, fun _ _ => readTimestamp_formatTimestamp,
    units_mul_lt unit, fun _ => isSome_formatTime64_iff, fun _ => readTimeCount_of_lt,
    fun _ _ => formatTime64_ne_iff⟩

/-- `24:00:00` has the text of `00:00:00`, and a count of seconds overflows. -/
theorem two_midnights :
    (¬ ∀ (library : Library) (unit : TimeUnit) (a b : ℤ), 0 ≤ a ∧ a ≤ 86400 * unit.perSecond →
      0 ≤ b ∧ b ≤ 86400 * unit.perSecond → a ≠ b →
      formatTime64 library unit a ≠ formatTime64 library unit b) ∧
    ¬ ∀ (library : Library) (unit : TimeUnit) (value : ℤ), IsInt64 value →
      (formatTime64 library unit value).isSome = true := by
  refine ⟨fun h => ?_, fun h => ?_⟩
  · have hdifferent := h (.ofRange 0 0) .microsecond 0 86400000000 (by decide) (by decide) (by decide)
    exact hdifferent formatTime64_endOfDay.symm
  · have hsome := h (.ofRange 0 0) .second 9223372036855 (by decide)
    rw [isSome_formatTime64_iff (by decide)] at hsome
    exact absurd hsome (by decide)

end Temporal
end Duckdb
end Navop
