import Mathlib.Algebra.Group.Nat.Defs
import Mathlib.Data.Nat.Basic
import Mathlib.Data.Option.Basic
import Mathlib.Order.Basic

/-!
# Datetimes and their ISO 8601 texts

A date and a time of day is kept as its microseconds since the first day of year 1, a
time zone as its offset. `isoformat` leaves a zero fraction out, and in an offset zero
seconds too; reading back what it writes gives the datetime again.
-/
namespace StoryReview

/-! ## Days -/

namespace Calendar

def isLeap (year : ℕ) : Bool := year % 4 = 0 ∧ (year % 100 ≠ 0 ∨ year % 400 = 0)

def daysInMonth (leap : Bool) (month : ℕ) : ℕ :=
  if month = 2 then (if leap then 29 else 28)
  else if month = 4 ∨ month = 6 ∨ month = 9 ∨ month = 11 then 30 else 31

def daysBeforeMonth (leap : Bool) : ℕ → ℕ
  | 0 | 1 => 0
  | month + 1 => daysBeforeMonth leap month + daysInMonth leap month

def daysBeforeYear (year : ℕ) : ℕ :=
  (year - 1) * 365 + (year - 1) / 4 - (year - 1) / 100 + (year - 1) / 400

/-- Days since the first day of year 1. -/
def dayNumber (year month day : ℕ) : ℕ :=
  daysBeforeYear year + daysBeforeMonth (isLeap year) month + (day - 1)

def IsDate (year month day : ℕ) : Prop :=
  1 ≤ year ∧ 1 ≤ month ∧ month ≤ 12 ∧ 1 ≤ day ∧ day ≤ daysInMonth (isLeap year) month

instance (year month day : ℕ) : Decidable (IsDate year month day) :=
  inferInstanceAs (Decidable (_ ∧ _))

theorem IsDate.day_lt {year month day : ℕ} (h : IsDate year month day) : day < 100 := by
  obtain ⟨-, -, -, -, hday⟩ := h
  unfold daysInMonth at hday
  split_ifs at hday <;> omega

/-- The month and day of a day of the year. -/
def monthDay (leap : Bool) (n : ℕ) : ℕ × ℕ :=
  let month := (n + 50) / 32
  if n < daysBeforeMonth leap month then (month - 1, n - daysBeforeMonth leap (month - 1) + 1)
  else (month, n - daysBeforeMonth leap month + 1)

/-- The year of a day and its number in that year. -/
def yearDay (n : ℕ) : ℕ × ℕ :=
  let n400 := n / 146097
  let n100 := n % 146097 / 36524
  let n4 := n % 146097 % 36524 / 1461
  let n1 := n % 146097 % 36524 % 1461 / 365
  let year := n400 * 400 + n100 * 100 + n4 * 4 + n1 + 1
  if n1 = 4 ∨ n100 = 4 then (year - 1, 365)
  else (year, n % 146097 % 36524 % 1461 % 365)

theorem monthDay_isDate (leap : Bool) (n : ℕ) (hn : n < if leap then 366 else 365) :
    1 ≤ (monthDay leap n).1 ∧ (monthDay leap n).1 ≤ 12 ∧ 1 ≤ (monthDay leap n).2 ∧
      (monthDay leap n).2 ≤ daysInMonth leap (monthDay leap n).1 ∧
      daysBeforeMonth leap (monthDay leap n).1 + ((monthDay leap n).2 - 1) = n := by
  revert n leap
  decide +kernel

/-- Day `k` of the year is the `n`-th day. -/
def IsYearDay (n year k : ℕ) : Prop :=
  1 ≤ year ∧ k < (if isLeap year then 366 else 365) ∧ daysBeforeYear year + k = n

/-- A year by its places in the cycles of 400, 100 and 4 years. -/
theorem isYearDay_cycles {n a b c d k : ℕ} (hb : b < 4) (hc : c < 25) (hd : d < 4)
    (hk : k < if d = 3 ∧ (c ≠ 24 ∨ b = 3) then 366 else 365)
    (hn : n = a * 146097 + b * 36524 + c * 1461 + d * 365 + k) :
    IsYearDay n (a * 400 + b * 100 + c * 4 + d + 1) k := by
  have h4 : (a * 400 + b * 100 + c * 4 + d) / 4 = a * 100 + b * 25 + c := by omega
  have h100 : (a * 400 + b * 100 + c * 4 + d) / 100 = a * 4 + b := by omega
  have h400 : (a * 400 + b * 100 + c * 4 + d) / 400 = a := by omega
  have hleap : isLeap (a * 400 + b * 100 + c * 4 + d + 1) = true ↔
      d = 3 ∧ (c ≠ 24 ∨ b = 3) := by
    unfold isLeap
    rw [decide_eq_true_eq]
    omega
  refine ⟨Nat.le_add_left _ _, ?_, ?_⟩
  · simpa only [hleap] using hk
  · rw [daysBeforeYear, Nat.add_sub_cancel, h4, h100, h400]
    omega

theorem isYearDay_yearDay (n : ℕ) : IsYearDay n (yearDay n).1 (yearDay n).2 := by
  unfold yearDay
  dsimp only
  generalize ha : n / 146097 = a
  generalize hb : n % 146097 / 36524 = b
  generalize hc : n % 146097 % 36524 / 1461 = c
  generalize hd : n % 146097 % 36524 % 1461 / 365 = d
  have hlast : n % 146097 < 146097 := Nat.mod_lt n (by omega)
  by_cases hcentury : b = 4
  · -- the last day of 400 years
    rw [if_pos (.inr hcentury)]
    have hyear : a * 400 + b * 100 + c * 4 + d + 1 - 1 = a * 400 + 3 * 100 + 24 * 4 + 3 + 1 := by
      omega
    dsimp only
    rw [hyear]
    refine isYearDay_cycles (b := 3) (c := 24) (d := 3) (by omega) (by omega) (by omega) ?_ ?_
    · decide
    · omega
  · by_cases hyears : d = 4
    · -- the last day of a leap year
      rw [if_pos (.inl hyears)]
      have hyear : a * 400 + b * 100 + c * 4 + d + 1 - 1 = a * 400 + b * 100 + c * 4 + 3 + 1 := by
        omega
      dsimp only
      rw [hyear]
      have hleap : c ≠ 24 ∨ b = 3 := by omega
      refine isYearDay_cycles (by omega) (by omega) (by decide) ?_ (by omega)
      rw [if_pos ⟨rfl, hleap⟩]
      decide
    · rw [if_neg (by omega)]
      refine isYearDay_cycles (by omega) (by omega) (by omega) ?_ (by omega)
      split_ifs <;> omega

/-- The date of a day. -/
def date (n : ℕ) : ℕ × ℕ × ℕ :=
  let (year, k) := yearDay n
  let (month, day) := monthDay (isLeap year) k
  (year, month, day)

theorem isDate_date (n : ℕ) : IsDate (date n).1 (date n).2.1 (date n).2.2 := by
  obtain ⟨hyear, hday, -⟩ := isYearDay_yearDay n
  obtain ⟨h₁, h₂, h₃, h₄, -⟩ := monthDay_isDate _ _ hday
  exact ⟨hyear, h₁, h₂, h₃, h₄⟩

theorem dayNumber_date (n : ℕ) : dayNumber (date n).1 (date n).2.1 (date n).2.2 = n := by
  obtain ⟨-, hday, hnumber⟩ := isYearDay_yearDay n
  obtain ⟨-, -, -, -, hmonth⟩ := monthDay_isDate _ _ hday
  calc dayNumber (date n).1 (date n).2.1 (date n).2.2
      = daysBeforeYear (yearDay n).1 + (daysBeforeMonth (isLeap (yearDay n).1) (date n).2.1 +
          ((date n).2.2 - 1)) := Nat.add_assoc _ _ _
    _ = daysBeforeYear (yearDay n).1 + (yearDay n).2 := congrArg _ hmonth
    _ = n := hnumber

/-- The last day of year 9999 is day 3652058. -/
theorem year_le {n : ℕ} (hn : n < 3652059) : (date n).1 ≤ 9999 := by
  obtain ⟨-, -, hnumber⟩ := isYearDay_yearDay n
  change (yearDay n).1 ≤ 9999
  unfold daysBeforeYear at hnumber
  omega

end Calendar

/-! ## Decimals of fixed width -/

namespace Decimal

def digit (n : ℕ) : Char := .ofNat (48 + n)

def digitValue (c : Char) : Option ℕ :=
  if 48 ≤ c.toNat ∧ c.toNat ≤ 57 then some (c.toNat - 48) else none

/-- The last `width` digits of a number, zeros in front. -/
def digits : (width n : ℕ) → List Char
  | 0, _ => []
  | width + 1, n => digit (n / 10 ^ width % 10) :: digits width n

/-- Read `width` digits behind those of `value`. -/
def read : (width value : ℕ) → List Char → Option (ℕ × List Char)
  | 0, value, cs => some (value, cs)
  | _ + 1, _, [] => none
  | width + 1, value, c :: cs => (digitValue c).bind fun d => read width (value * 10 + d) cs

theorem digitValue_digit {n : ℕ} (hn : n < 10) : digitValue (digit n) = some n := by
  revert n
  decide

theorem read_digits (width value n : ℕ) (rest : List Char) :
    read width value (digits width n ++ rest) =
      some (value * 10 ^ width + n % 10 ^ width, rest) := by
  induction width generalizing value with
  | zero => simp [digits, read, Nat.mod_one]
  | succ width ih =>
      rw [digits, List.cons_append, read, digitValue_digit (Nat.mod_lt _ (by omega)),
        Option.bind_some, ih, Nat.add_mul, Nat.mul_assoc, ← Nat.pow_succ', Nat.add_assoc,
        Nat.mod_pow_succ, Nat.mul_comm (10 ^ width), Nat.add_comm (n % 10 ^ width)]

theorem read_digits_of_lt {width n : ℕ} (hn : n < 10 ^ width) (rest : List Char) :
    read width 0 (digits width n ++ rest) = some (n, rest) := by
  rw [read_digits, Nat.mod_eq_of_lt hn, Nat.zero_mul, Nat.zero_add]

@[simp] theorem length_digits (width n : ℕ) : (digits width n).length = width := by
  induction width with
  | zero => rfl
  | succ width ih => rw [digits, List.length_cons, ih]

/-- Every character of a decimal is a digit. -/
theorem mem_digits {width n : ℕ} {c : Char} (hc : c ∈ digits width n) : ∃ d < 10, c = digit d := by
  induction width with
  | zero => cases hc
  | succ width ih =>
      rcases List.mem_cons.mp hc with rfl | hc
      · exact ⟨_, Nat.mod_lt _ (by omega), rfl⟩
      · exact ih hc

end Decimal

/-! ## Texts -/

/-- `wall` are the microseconds since the first day of year 1 as a clock in its time zone
shows them, `utcoffset` is the zone's offset in microseconds. -/
structure Datetime where
  wall : ℕ
  utcoffset : Option ℤ
  wall_lt : wall < 3652059 * 86400000000
  utcoffset_lt : ∀ offset ∈ utcoffset, offset.natAbs < 86400000000
deriving DecidableEq

namespace Datetime
open Decimal

/-- `HH:MM`. -/
def hoursMinutes (t : ℕ) : List Char :=
  digits 2 (t / 3600000000) ++ ':' :: digits 2 (t / 60000000 % 60)

/-- `SS` and the fraction if there is one. -/
def seconds (t : ℕ) : List Char :=
  digits 2 (t / 1000000 % 60) ++
    if t % 1000000 = 0 then [] else '.' :: digits 6 (t % 1000000)

def isoDate (n : ℕ) : List Char :=
  let (year, month, day) := Calendar.date n
  digits 4 year ++ '-' :: (digits 2 month ++ '-' :: digits 2 day)

def isoOffset (offset : ℤ) : List Char :=
  (if offset < 0 then '-' else '+') :: (hoursMinutes offset.natAbs ++
    if offset.natAbs % 60000000 = 0 then [] else ':' :: seconds offset.natAbs)

def isoformat (d : Datetime) : List Char :=
  isoDate (d.wall / 86400000000) ++ 'T' :: (hoursMinutes (d.wall % 86400000000) ++
    ':' :: (seconds (d.wall % 86400000000) ++ d.utcoffset.elim [] isoOffset))

def expect (c : Char) : List Char → Option (List Char)
  | [] => none
  | c' :: cs => if c' = c then some cs else none

def readHoursMinutes (cs : List Char) : Option (ℕ × List Char) := do
  let (hours, cs) ← read 2 0 cs
  let cs ← expect ':' cs
  let (minutes, cs) ← read 2 0 cs
  if hours < 24 ∧ minutes < 60 then some (hours * 3600000000 + minutes * 60000000, cs) else none

def readFraction (cs : List Char) : Option (ℕ × List Char) :=
  match cs with
  | '.' :: cs => read 6 0 cs
  | cs => some (0, cs)

def readSeconds (cs : List Char) : Option (ℕ × List Char) := do
  let (whole, cs) ← read 2 0 cs
  let (fraction, cs) ← readFraction cs
  if whole < 60 then some (whole * 1000000 + fraction, cs) else none

def readDate (cs : List Char) : Option (ℕ × List Char) := do
  let (year, cs) ← read 4 0 cs
  let cs ← expect '-' cs
  let (month, cs) ← read 2 0 cs
  let cs ← expect '-' cs
  let (day, cs) ← read 2 0 cs
  if Calendar.IsDate year month day then some (Calendar.dayNumber year month day, cs) else none

/-- The absolute offset, up to the end of the text. -/
def readOffset (cs : List Char) : Option ℕ := do
  let (minutes, cs) ← readHoursMinutes cs
  match cs with
  | [] => some minutes
  | cs => do
      let cs ← expect ':' cs
      let (seconds, cs) ← readSeconds cs
      if cs = [] then some (minutes + seconds) else none

def readZone (cs : List Char) : Option (Option ℤ) :=
  match cs with
  | [] => some none
  | '+' :: cs => (readOffset cs).map fun (offset : ℕ) => some (offset : ℤ)
  | '-' :: cs => (readOffset cs).map fun (offset : ℕ) => some (-(offset : ℤ))
  | _ => none

def make (wall : ℕ) (utcoffset : Option ℤ) : Option Datetime :=
  if h : wall < 3652059 * 86400000000 ∧ ∀ offset ∈ utcoffset, offset.natAbs < 86400000000 then
    some ⟨wall, utcoffset, h.1, h.2⟩
  else none

/-- The texts that `isoformat` writes. -/
def readIsoformat (cs : List Char) : Option Datetime := do
  let (day, cs) ← readDate cs
  let cs ← expect 'T' cs
  let (minutes, cs) ← readHoursMinutes cs
  let cs ← expect ':' cs
  let (seconds, cs) ← readSeconds cs
  let utcoffset ← readZone cs
  make (day * 86400000000 + (minutes + seconds)) utcoffset

/-- `other` reads the further forms of ISO 8601. -/
def fromisoformat (other : List Char → Option Datetime) (cs : List Char) : Option Datetime :=
  (readIsoformat cs).orElse fun _ => other cs

/-! ### Round trip -/

variable {rest : List Char}

theorem expect_cons (c : Char) (cs : List Char) : expect c (c :: cs) = some cs := if_pos rfl

theorem readHoursMinutes_append {t : ℕ} (ht : t < 86400000000) :
    readHoursMinutes (hoursMinutes t ++ rest) = some (t / 60000000 * 60000000, rest) := by
  have hhours : t / 3600000000 < 24 := by omega
  have hminutes : t / 60000000 % 60 < 60 := by omega
  have hvalue : t / 3600000000 * 3600000000 + t / 60000000 % 60 * 60000000 =
      t / 60000000 * 60000000 := by omega
  unfold readHoursMinutes hoursMinutes
  simp only [List.append_assoc, List.cons_append, Option.bind_eq_bind, Option.bind_some,
    expect_cons, read_digits_of_lt (show t / 3600000000 < 10 ^ 2 by omega),
    read_digits_of_lt (show t / 60000000 % 60 < 10 ^ 2 by omega),
    if_pos (And.intro hhours hminutes), hvalue]

theorem readFraction_append {n : ℕ} (hn : n < 1000000) (hrest : rest.head? ≠ some '.') :
    readFraction ((if n = 0 then [] else '.' :: digits 6 n) ++ rest) = some (n, rest) := by
  split_ifs with hzero
  · rw [hzero, List.nil_append]
    unfold readFraction
    split
    · exact absurd rfl hrest
    · rfl
  · exact read_digits_of_lt hn rest

theorem readSeconds_append {t : ℕ} (hrest : rest.head? ≠ some '.') :
    readSeconds (seconds t ++ rest) = some (t % 60000000, rest) := by
  have hwhole : t / 1000000 % 60 < 60 := by omega
  have hvalue : t / 1000000 % 60 * 1000000 + t % 1000000 = t % 60000000 := by omega
  unfold readSeconds seconds
  simp only [List.append_assoc, Option.bind_eq_bind, Option.bind_some,
    read_digits_of_lt (show t / 1000000 % 60 < 10 ^ 2 by omega),
    readFraction_append (show t % 1000000 < 1000000 by omega) hrest, if_pos hwhole, hvalue]

theorem readDate_append {n : ℕ} (hn : n < 3652059) :
    readDate (isoDate n ++ rest) = some (n, rest) := by
  have hdate := Calendar.isDate_date n
  have hyear := Calendar.year_le hn
  have hnumber := Calendar.dayNumber_date n
  unfold readDate isoDate
  generalize Calendar.date n = date at hdate hyear hnumber
  obtain ⟨year, month, day⟩ := date
  dsimp only at hdate hyear hnumber ⊢
  have hday : day < 10 ^ 2 := hdate.day_lt
  simp only [List.append_assoc, List.cons_append, Option.bind_eq_bind, Option.bind_some,
    expect_cons, read_digits_of_lt (show year < 10 ^ 4 by omega),
    read_digits_of_lt (show month < 10 ^ 2 from (hdate.2.2.1.trans_lt (by decide))),
    read_digits_of_lt hday, if_pos hdate, hnumber]

theorem readOffset_isoOffset {n : ℕ} (hn : n < 86400000000) :
    readOffset (hoursMinutes n ++ if n % 60000000 = 0 then [] else ':' :: seconds n) = some n := by
  unfold readOffset
  rw [readHoursMinutes_append hn, Option.bind_eq_bind, Option.bind_some]
  dsimp only
  split_ifs with hzero
  · have hvalue : n / 60000000 * 60000000 = n := by omega
    simp only [hvalue]
  · have hseconds : readSeconds (seconds n ++ []) = some (n % 60000000, []) :=
      readSeconds_append (by simp)
    rw [List.append_nil] at hseconds
    have hvalue : n / 60000000 * 60000000 + n % 60000000 = n := by omega
    simp only [expect_cons, hseconds, Option.bind_eq_bind, Option.bind_some, if_true, hvalue]

theorem readZone_isoOffset {offset : ℤ} (h : offset.natAbs < 86400000000) :
    readZone (isoOffset offset) = some (some offset) := by
  unfold isoOffset
  by_cases hneg : offset < 0
  · have hvalue : -(offset.natAbs : ℤ) = offset := by omega
    simp only [if_pos hneg, readZone, readOffset_isoOffset h, Option.map_some, hvalue]
  · have hvalue : (offset.natAbs : ℤ) = offset := by omega
    simp only [if_neg hneg, readZone, readOffset_isoOffset h, Option.map_some, hvalue]

theorem isoOffset_head (offset : ℤ) : (isoOffset offset).head? ≠ some '.' := by
  unfold isoOffset
  split_ifs <;> simp

theorem readIsoformat_isoformat (d : Datetime) : readIsoformat d.isoformat = some d := by
  have hday : d.wall / 86400000000 < 3652059 := Nat.div_lt_of_lt_mul (by
    rw [Nat.mul_comm]
    exact d.wall_lt)
  have htime : d.wall % 86400000000 < 86400000000 := Nat.mod_lt _ (by omega)
  have hzone : readZone (d.utcoffset.elim [] isoOffset) = some d.utcoffset := by
    cases hoffset : d.utcoffset with
    | none => rfl
    | some offset => exact readZone_isoOffset (d.utcoffset_lt offset hoffset)
  have hhead : (d.utcoffset.elim [] isoOffset).head? ≠ some '.' := by
    cases d.utcoffset with
    | none => exact fun h => nomatch h
    | some offset => exact isoOffset_head offset
  unfold readIsoformat isoformat
  simp only [Option.bind_eq_bind, Option.bind_some, expect_cons, readDate_append hday,
    readHoursMinutes_append htime, readSeconds_append hhead, hzone, Nat.div_add_mod']
  exact dif_pos ⟨d.wall_lt, d.utcoffset_lt⟩

/-- Reading what was written, whatever other forms are read. -/
theorem fromisoformat_isoformat (other : List Char → Option Datetime) (d : Datetime) :
    fromisoformat other d.isoformat = some d := by
  rw [fromisoformat, readIsoformat_isoformat]
  rfl

/-! ### The characters of a text -/

/-- A digit or one of the separators. -/
def IsIso (c : Char) : Prop := (∃ n < 10, c = digit n) ∨ c ∈ ['-', 'T', ':', '.', '+']

theorem isIso_digits {width n : ℕ} : ∀ c ∈ digits width n, IsIso c := fun _ hc =>
  .inl (mem_digits hc)

theorem isIso_append {xs ys : List Char} (hxs : ∀ c ∈ xs, IsIso c) (hys : ∀ c ∈ ys, IsIso c) :
    ∀ c ∈ xs ++ ys, IsIso c := fun c hc => (List.mem_append.mp hc).elim (hxs c) (hys c)

theorem isIso_cons {x : Char} {xs : List Char} (hx : x ∈ ['-', 'T', ':', '.', '+'])
    (hxs : ∀ c ∈ xs, IsIso c) : ∀ c ∈ x :: xs, IsIso c := by
  intro c hc
  rcases List.mem_cons.mp hc with rfl | hc
  · exact .inr hx
  · exact hxs c hc

theorem isIso_hoursMinutes (t : ℕ) : ∀ c ∈ hoursMinutes t, IsIso c :=
  isIso_append isIso_digits (isIso_cons (by decide) isIso_digits)

theorem isIso_seconds (t : ℕ) : ∀ c ∈ seconds t, IsIso c := by
  refine isIso_append isIso_digits ?_
  split_ifs
  · exact fun c hc => nomatch hc
  · exact isIso_cons (by decide) isIso_digits

theorem isIso_isoOffset (offset : ℤ) : ∀ c ∈ isoOffset offset, IsIso c := by
  have hseconds : ∀ c ∈ if offset.natAbs % 60000000 = 0 then ([] : List Char)
      else ':' :: seconds offset.natAbs, IsIso c := by
    split_ifs
    · exact fun c hc => nomatch hc
    · exact isIso_cons (by decide) (isIso_seconds _)
  refine isIso_cons ?_ (isIso_append (isIso_hoursMinutes _) hseconds)
  split_ifs <;> decide

theorem isIso_isoformat (d : Datetime) : ∀ c ∈ d.isoformat, IsIso c := by
  have hzone : ∀ c ∈ d.utcoffset.elim [] isoOffset, IsIso c := by
    cases d.utcoffset with
    | none => exact fun c hc => nomatch hc
    | some offset => exact isIso_isoOffset offset
  have hdate : ∀ c ∈ isoDate (d.wall / 86400000000), IsIso c :=
    isIso_append isIso_digits (isIso_cons (by decide)
      (isIso_append isIso_digits (isIso_cons (by decide) isIso_digits)))
  exact isIso_append hdate (isIso_cons (by decide) (isIso_append (isIso_hoursMinutes _)
    (isIso_cons (by decide) (isIso_append (isIso_seconds _) hzone))))

@[simp] theorem length_hoursMinutes (t : ℕ) : (hoursMinutes t).length = 5 := by
  simp [hoursMinutes]

theorem length_seconds_le (t : ℕ) : (seconds t).length ≤ 9 := by
  unfold seconds
  split_ifs <;> simp

theorem length_isoOffset_le (offset : ℤ) : (isoOffset offset).length ≤ 16 := by
  have hseconds := length_seconds_le offset.natAbs
  unfold isoOffset
  split_ifs <;> simp <;> omega

/-- The longest text has a fraction of a second in the time and in the offset. -/
theorem length_isoformat_le (d : Datetime) : d.isoformat.length ≤ 42 := by
  have hzone : (d.utcoffset.elim [] isoOffset).length ≤ 16 := by
    cases d.utcoffset with
    | none => exact Nat.zero_le _
    | some offset => exact length_isoOffset_le offset
  have hseconds := length_seconds_le (d.wall % 86400000000)
  simp only [isoformat, isoDate, List.length_append, List.length_cons, length_digits,
    length_hoursMinutes]
  omega

theorem isoformat_ne_nil (d : Datetime) : d.isoformat ≠ [] := by
  apply List.ne_nil_of_length_pos
  simp only [isoformat, List.length_append, List.length_cons]
  omega

/-! ### Instants -/

/-- The instant as the database driver gives it. -/
def utc (t : ℕ) : Option Datetime := make t (some 0)

/-- Microseconds since the first day of year 1 in UTC. -/
def instant (d : Datetime) : ℤ := d.wall - d.utcoffset.getD 0

theorem exists_utc {t : ℕ} (ht : t < 3652059 * 86400000000) :
    ∃ d, utc t = some d ∧ d.utcoffset = some 0 ∧ d.instant = t := by
  have hmake : utc t = some ⟨t, some 0, ht, by simp⟩ :=
    dif_pos ⟨ht, by simp⟩
  exact ⟨_, hmake, rfl, Int.sub_zero _⟩

end Datetime
end StoryReview
