import Mathlib.Algebra.Group.Nat.Defs
import Mathlib.Data.Int.Notation
import Mathlib.Data.Nat.Notation
import Mathlib.Tactic.Basic
import Mathlib.Tactic.SplitIfs

set_option relaxedAutoImplicit false
set_option autoImplicit false

/-!
# Dates and their text

An instant is a number of microseconds from the epoch. Its text has the date of the Gregorian
calendar and the time of the day in UTC; the date is computed from the number of the day, with years
that begin in March, so that the leap day is the last of its year.

## Main definitions

* `Numeric.Date.ofDays`, `Numeric.Date.days` — the date of a day, the number of a date.
* `Numeric.formatOffsetDatetime`, `Numeric.parseOffsetDatetime` — the text of an instant.

## Main results

* `Numeric.Date.days_ofDays` — a day is found again from its date.
* `Numeric.parseOffsetDatetime_format` — so is an instant from its text.
-/

namespace Numeric

/-! ## Dates -/

structure Date where
  year : ℤ
  month : ℤ
  day : ℤ
  deriving DecidableEq

namespace Date

/-- The year of a day within 400 years that begin in March, and its place in the year. -/
def ofEra (day : ℤ) : ℤ × ℤ :=
  let century := min (day / 36524) 3
  let inCentury := day - 36524 * century
  let cycle := inCentury / 1461
  let inCycle := inCentury - 1461 * cycle
  let year := min (inCycle / 365) 3
  (100 * century + 4 * cycle + year, inCycle - 365 * year)

/-- The month, by its place after March. -/
def monthOf (index : ℤ) : ℤ := if index < 10 then index + 3 else index - 9

/-- The place of a month after March. -/
def monthIndex (month : ℤ) : ℤ := if 2 < month then month - 3 else month + 9

/-- January and February belong to the year that began in March before. -/
def carry (month : ℤ) : ℤ := if month ≤ 2 then 1 else 0

/-- The date of a day, counted from the epoch. -/
def ofDays (n : ℤ) : Date :=
  let (year, day) := ofEra ((n + 719468) % 146097)
  let index := (5 * day + 2) / 153
  ⟨year + (n + 719468) / 146097 * 400 + carry (monthOf index), monthOf index,
    day - (153 * index + 2) / 5 + 1⟩

/-- The day of a date, counted from the epoch. -/
def days (d : Date) : ℤ :=
  let year := d.year - carry d.month
  let inEra := year % 400
  inEra * 365 + inEra / 4 - inEra / 100 + ((153 * monthIndex d.month + 2) / 5 + d.day - 1) +
    year / 400 * 146097 - 719468

lemma ofEra_spec {day : ℤ} (h : 0 ≤ day) (h' : day < 146097) :
    (0 ≤ (ofEra day).1 ∧ (ofEra day).1 ≤ 399) ∧ (0 ≤ (ofEra day).2 ∧ (ofEra day).2 ≤ 365) ∧
      (ofEra day).1 * 365 + (ofEra day).1 / 4 - (ofEra day).1 / 100 + (ofEra day).2 = day := by
  simp only [ofEra]
  -- each division leaves a remainder in the range of the next one
  have hc : 0 ≤ min (day / 36524) 3 ∧ min (day / 36524) 3 ≤ 3 ∧
      0 ≤ day - 36524 * min (day / 36524) 3 ∧ day - 36524 * min (day / 36524) 3 ≤ 36524 := by omega
  generalize min (day / 36524) 3 = c at hc ⊢
  obtain ⟨hc₀, hc₃, hr₀, hr⟩ := hc
  have hq : 0 ≤ (day - 36524 * c) / 1461 ∧ (day - 36524 * c) / 1461 ≤ 24 ∧
      0 ≤ day - 36524 * c - 1461 * ((day - 36524 * c) / 1461) ∧
      day - 36524 * c - 1461 * ((day - 36524 * c) / 1461) ≤ 1460 := by omega
  generalize (day - 36524 * c) / 1461 = q at hq ⊢
  obtain ⟨hq₀, hq₂, hs₀, hs⟩ := hq
  have hy : 0 ≤ min ((day - 36524 * c - 1461 * q) / 365) 3 ∧
      min ((day - 36524 * c - 1461 * q) / 365) 3 ≤ 3 ∧
      0 ≤ day - 36524 * c - 1461 * q - 365 * min ((day - 36524 * c - 1461 * q) / 365) 3 ∧
      day - 36524 * c - 1461 * q - 365 * min ((day - 36524 * c - 1461 * q) / 365) 3 ≤ 365 := by
    omega
  generalize min ((day - 36524 * c - 1461 * q) / 365) 3 = y at hy ⊢
  have hfour : (100 * c + 4 * q + y) / 4 = 25 * c + q := by omega
  have hhundred : (100 * c + 4 * q + y) / 100 = c := by omega
  omega

lemma month_spec (index : ℤ) (h : 0 ≤ index) (h' : index ≤ 11) :
    (1 ≤ monthOf index ∧ monthOf index ≤ 12) ∧ monthIndex (monthOf index) = index := by
  unfold monthIndex monthOf
  split_ifs <;> omega

/-- **A day is found again from its date.** -/
theorem days_ofDays (n : ℤ) : (ofDays n).days = n := by
  obtain ⟨⟨hy₀, hy⟩, ⟨hd₀, hd⟩, hday⟩ := ofEra_spec
    (Int.emod_nonneg (n + 719468) (by decide : (146097 : ℤ) ≠ 0))
    (Int.emod_lt_of_pos (n + 719468) (by decide))
  simp only [ofDays, days]
  generalize (ofEra ((n + 719468) % 146097)).1 = year at hy₀ hy hday ⊢
  generalize (ofEra ((n + 719468) % 146097)).2 = day at hd₀ hd hday ⊢
  obtain ⟨-, hindex⟩ := month_spec ((5 * day + 2) / 153) (by omega) (by omega)
  rw [hindex]
  generalize carry (monthOf ((5 * day + 2) / 153)) = k
  have hmod : (year + (n + 719468) / 146097 * 400 + k - k) % 400 = year := by omega
  have hdiv : (year + (n + 719468) / 146097 * 400 + k - k) / 400 = (n + 719468) / 146097 := by
    omega
  rw [hmod, hdiv]
  omega

lemma ofDays_bounds (n : ℤ) : (1 ≤ (ofDays n).month ∧ (ofDays n).month ≤ 12) ∧
    1 ≤ (ofDays n).day ∧ (ofDays n).day ≤ 31 := by
  obtain ⟨-, ⟨hd₀, hd⟩, -⟩ := ofEra_spec
    (Int.emod_nonneg (n + 719468) (by decide : (146097 : ℤ) ≠ 0))
    (Int.emod_lt_of_pos (n + 719468) (by decide))
  simp only [ofDays]
  generalize (ofEra ((n + 719468) % 146097)).2 = day at hd₀ hd ⊢
  have hindex : 0 ≤ (5 * day + 2) / 153 ∧ (5 * day + 2) / 153 ≤ 11 := by omega
  exact ⟨(month_spec _ hindex.1 hindex.2).1, by omega, by omega⟩

/-- The calendar has the date: it is the date of its day. -/
def Exists (d : Date) : Prop := ofDays d.days = d

instance (d : Date) : Decidable d.Exists := inferInstanceAs (Decidable (_ = _))

lemma ofDays_exists (n : ℤ) : (ofDays n).Exists := by rw [Exists, days_ofDays]

example : ofDays 11016 = ⟨2000, 2, 29⟩ := by decide

example : ¬ Exists ⟨1900, 2, 29⟩ := by decide

end Date

/-! ## Digits -/

/-- The character of a digit. -/
def digit (n : ℕ) : Char := Char.ofNat (48 + n % 10)

/-- The value of a digit. -/
def digitValue (c : Char) : Option ℕ := if c.isDigit then some (c.toNat - 48) else none

/-- A number with this many digits. -/
def digits : ℕ → ℕ → List Char
  | 0, _ => []
  | w + 1, n => digits w (n / 10) ++ [digit n]

/-- The number written with exactly this many digits, and the rest. -/
def exactDigits : ℕ → List Char → Option (ℕ × List Char)
  | 0, s => some (0, s)
  | w + 1, s => do
    let (n, s) ← exactDigits w s
    match s with
    | [] => none
    | c :: s => (digitValue c).map fun d => (10 * n + d, s)

lemma digitValue_digit (n : ℕ) : digitValue (digit n) = some (n % 10) := by
  have h : n % 10 < 10 := Nat.mod_lt n (by decide)
  unfold digit
  generalize n % 10 = d at h ⊢
  have hall : ∀ d < 10, digitValue (Char.ofNat (48 + d)) = some d := by decide
  exact hall d h

lemma exactDigits_digits {w n : ℕ} (h : n < 10 ^ w) (s : List Char) :
    exactDigits w (digits w n ++ s) = some (n, s) := by
  induction w generalizing n s with
  | zero =>
    obtain rfl : n = 0 := by simpa using h
    rfl
  | succ w ih =>
    have hlt : n / 10 < 10 ^ w := by
      rw [Nat.pow_succ] at h
      omega
    rw [exactDigits, digits, List.append_assoc, ih hlt]
    show (digitValue (digit n)).map _ = _
    rw [digitValue_digit, Option.map_some]
    congr 2
    omega

/-! ## The text of an instant -/

/-- The microseconds of a day. -/
def dayMicros : ℤ := 86400000000

/-- The text of a date and of the microseconds of its day. -/
def formatParts (date : Date) (time : ℕ) : List Char :=
  digits 4 date.year.toNat ++ '-' :: digits 2 date.month.toNat ++ '-' :: digits 2 date.day.toNat ++
    ' ' :: digits 2 (time / 3600000000) ++ ':' :: digits 2 (time / 60000000 % 60) ++
    ':' :: digits 2 (time / 1000000 % 60) ++ '.' :: digits 6 (time % 1000000) ++
    ['+', '0', '0', ':', '0', '0']

/-- `format_offset_datetime`, of an instant in UTC in a year of four digits. -/
def formatOffsetDatetime (t : ℤ) : List Char :=
  formatParts (Date.ofDays (t / dayMicros)) (t % dayMicros).toNat

/-- The rest after a character that is to come. -/
def literal (p : Char → Bool) : List Char → Option (List Char)
  | [] => none
  | c :: s => if p c then some s else none

/-- The first six digits of a fraction are microseconds; the others are passed over. -/
def fraction : ℕ → ℕ → List Char → ℕ × List Char
  | place, n, c :: s =>
    match digitValue c with
    | some d => fraction (place / 10) (n + place * d) s
    | none => (n, c :: s)
  | _, n, [] => (n, [])

/-- A fraction of RFC 3339, which may be left out. -/
def optionalFraction : List Char → Option (ℕ × List Char)
  | '.' :: c :: s => if c.isDigit then some (fraction 100000 0 (c :: s)) else none
  | '.' :: [] => none
  | s => some (0, s)

/-- A fraction of six digits. -/
def sixDigits (s : List Char) : Option (ℕ × List Char) := do exactDigits 6 (← literal (· = '.') s)

/-- The offset from UTC in seconds. -/
def offset (zulu : Bool) : List Char → Option (ℤ × List Char)
  | [] => none
  | sign :: s =>
    if zulu = true ∧ (sign = 'Z' ∨ sign = 'z') then some (0, s)
    else do
      let (hours, s) ← exactDigits 2 s
      let s ← literal (· = ':') s
      let (minutes, s) ← exactDigits 2 s
      let seconds : ℤ := hours * 3600 + minutes * 60
      if 23 < hours ∨ 59 < minutes then none
      else if sign = '+' then some (seconds, s)
      else if sign = '-' then some (-seconds, s)
      else none

/-- A text with a date, a separator, the time of the day and the offset. -/
def parseParts (separator : Char → Bool) (subsecond : List Char → Option (ℕ × List Char))
    (zulu : Bool) (s : List Char) : Option ℤ := do
  let (year, s) ← exactDigits 4 s
  let s ← literal (· = '-') s
  let (month, s) ← exactDigits 2 s
  let s ← literal (· = '-') s
  let (day, s) ← exactDigits 2 s
  let s ← literal separator s
  let (hour, s) ← exactDigits 2 s
  let s ← literal (· = ':') s
  let (minute, s) ← exactDigits 2 s
  let s ← literal (· = ':') s
  let (second, s) ← exactDigits 2 s
  let (micros, s) ← subsecond s
  let (offset, s) ← offset zulu s
  let date : Date := ⟨year, month, day⟩
  if s = [] ∧ date.Exists ∧ hour < 24 ∧ minute < 60 ∧ second < 60 then
    some ((date.days * 86400 + hour * 3600 + minute * 60 + second - offset) * 1000000 + micros)
  else none

/-- `parse_offset_datetime`: RFC 3339 with any separator, or the text that is written. -/
def parseOffsetDatetime (s : List Char) : Option ℤ :=
  (parseParts (fun _ => true) optionalFraction true s).or
    (parseParts (· = ' ') sixDigits false s)

/-- The instant is in a year of four digits. -/
def FourDigitYear (t : ℤ) : Prop :=
  0 ≤ (Date.ofDays (t / dayMicros)).year ∧ (Date.ofDays (t / dayMicros)).year < 10000

instance (t : ℤ) : Decidable (FourDigitYear t) := inferInstanceAs (Decidable (_ ∧ _))

@[simp] lemma literal_cons {p : Char → Bool} {c : Char} {s : List Char} (h : p c = true) :
    literal p (c :: s) = some s := if_pos h

lemma fraction_digits {n : ℕ} (h : n < 1000000) (s : List Char)
    (hs : s.head?.bind digitValue = none) :
    optionalFraction ('.' :: digits 6 n ++ s) = some (n, s) := by
  have hd : digits 6 n = [digit (n / 100000), digit (n / 10000), digit (n / 1000), digit (n / 100),
      digit (n / 10), digit n] := by
    simp only [digits, List.nil_append, List.cons_append, Nat.div_div_eq_div_mul]
  have hfirst : (digit (n / 100000)).isDigit = true := by
    have hv := digitValue_digit (n / 100000)
    unfold digitValue at hv
    split_ifs at hv with hd
    exact hd
  have hrest : ∀ place m, fraction place m s = (m, s) := by
    intro place m
    cases s with
    | nil => rfl
    | cons c s =>
      have hc : digitValue c = none := hs
      rw [fraction, hc]
  rw [hd]
  simp only [List.cons_append, List.nil_append, optionalFraction, hfirst, if_true, fraction,
    digitValue_digit, hrest]
  congr 2
  omega

/-- The text of a date that exists is read as the instant. -/
lemma parseParts_formatParts {date : Date} {micros : ℕ} (hexists : date.Exists)
    (hyear : 0 ≤ date.year ∧ date.year < 10000) (hmonth : 1 ≤ date.month ∧ date.month ≤ 12)
    (hday : 1 ≤ date.day ∧ date.day ≤ 31) (hmicros : micros < 86400000000) :
    parseParts (fun _ => true) optionalFraction true (formatParts date micros) =
      some (date.days * 86400000000 + micros) := by
  have hdate : (⟨(date.year.toNat : ℤ), (date.month.toNat : ℤ), (date.day.toNat : ℤ)⟩ : Date) =
      date := by
    cases date
    simp only [Date.mk.injEq]
    dsimp only at hyear hmonth hday
    omega
  have hyear' : date.year.toNat < 10 ^ 4 := by omega
  have hmonth' : date.month.toNat < 10 ^ 2 := by omega
  have hday' : date.day.toNat < 10 ^ 2 := by omega
  have hhour : micros / 3600000000 < 10 ^ 2 := by omega
  have hminute : micros / 60000000 % 60 < 10 ^ 2 := by omega
  have hsecond : micros / 1000000 % 60 < 10 ^ 2 := by omega
  have hfraction : optionalFraction ('.' :: digits 6 (micros % 1000000) ++
      ['+', '0', '0', ':', '0', '0']) = some (micros % 1000000, ['+', '0', '0', ':', '0', '0']) :=
    fraction_digits (by omega) _ rfl
  have hoffset : offset true ['+', '0', '0', ':', '0', '0'] = some (0, []) := by decide
  unfold formatParts
  simp only [List.append_assoc, List.cons_append] at hfraction ⊢
  refine Option.bind_eq_some_iff.2 ⟨_, exactDigits_digits hyear' _, ?_⟩
  refine Option.bind_eq_some_iff.2 ⟨_, literal_cons (by decide), ?_⟩
  refine Option.bind_eq_some_iff.2 ⟨_, exactDigits_digits hmonth' _, ?_⟩
  refine Option.bind_eq_some_iff.2 ⟨_, literal_cons (by decide), ?_⟩
  refine Option.bind_eq_some_iff.2 ⟨_, exactDigits_digits hday' _, ?_⟩
  refine Option.bind_eq_some_iff.2 ⟨_, literal_cons rfl, ?_⟩
  refine Option.bind_eq_some_iff.2 ⟨_, exactDigits_digits hhour _, ?_⟩
  refine Option.bind_eq_some_iff.2 ⟨_, literal_cons (by decide), ?_⟩
  refine Option.bind_eq_some_iff.2 ⟨_, exactDigits_digits hminute _, ?_⟩
  refine Option.bind_eq_some_iff.2 ⟨_, literal_cons (by decide), ?_⟩
  refine Option.bind_eq_some_iff.2 ⟨_, exactDigits_digits hsecond _, ?_⟩
  refine Option.bind_eq_some_iff.2 ⟨_, hfraction, ?_⟩
  refine Option.bind_eq_some_iff.2 ⟨_, hoffset, ?_⟩
  simp only [hdate, hexists, true_and]
  rw [if_pos (by omega)]
  congr 1
  omega

/-- **An instant is found again from its text.** -/
theorem parseOffsetDatetime_format {t : ℤ} (h : FourDigitYear t) :
    parseOffsetDatetime (formatOffsetDatetime t) = some t := by
  obtain ⟨hmonth, hday⟩ := Date.ofDays_bounds (t / dayMicros)
  have htime : (t % dayMicros).toNat < 86400000000 := by
    unfold dayMicros
    omega
  have hparts := parseParts_formatParts (Date.ofDays_exists (t / dayMicros)) h hmonth hday htime
  rw [Date.days_ofDays] at hparts
  have hsum : t / dayMicros * 86400000000 + ((t % dayMicros).toNat : ℤ) = t := by
    unfold dayMicros
    omega
  rw [parseOffsetDatetime, formatOffsetDatetime, hparts, hsum]
  rfl

example : String.ofList (formatOffsetDatetime 1728000000000001) =
    "2024-10-04 00:00:00.000001+00:00" := by decide +kernel

end Numeric
