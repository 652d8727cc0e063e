import Astrate.GoLib.Strconv

/-!
# Instants and RFC 3339

A `time.Time` as the instant it denotes, in nanoseconds since the Unix epoch, with the proleptic
Gregorian calendar on the days from 0001-01-01 on. `formatMilli` is the layout
`2006-01-02T15:04:05.000Z07:00` in UTC, `parseRFC3339Nano` is `time.Parse` with the layout
`time.RFC3339Nano` and its leniencies. `parseRFC3339Nano_formatMilli` says that a printed instant of
the years 1 to 9999 is read back, cut off to the millisecond.
-/

set_option autoImplicit false

namespace Astrate.GoLib

/-- An instant. -/
structure Time where
  nanos : Int
  deriving DecidableEq, Repr

namespace Time

/-- `Truncate(time.Millisecond)`, for instants from year 1 on. -/
def truncateMilli (t : Time) : Time := ⟨t.nanos - t.nanos % 1000000⟩

/-- `Truncate(time.Microsecond)`, for instants from year 1 on. -/
def truncateMicro (t : Time) : Time := ⟨t.nanos - t.nanos % 1000⟩

/-- `UnixMilli`. -/
def unixMilli (t : Time) : Int := t.nanos / 1000000

/-- `time.UnixMilli`. -/
def ofUnixMilli (ms : Int) : Time := ⟨ms * 1000000⟩

/-- The Unix day number of 0001-01-01. -/
def epochDay : Int := -719162

/-! ## The calendar -/

/-- In the Gregorian calendar. -/
def isLeap (y : Int) : Bool := y % 4 == 0 && (y % 100 != 0 || y % 400 == 0)

/-- Days from 0001-01-01 to the first day of a year. -/
def daysBeforeYear (y : Int) : Int :=
  365 * (y - 1) + (y - 1) / 4 - (y - 1) / 100 + (y - 1) / 400

/-- Days of a year before a month. -/
def daysBeforeMonth (leap : Bool) (m : Nat) : Nat :=
  [0, 31, 59, 90, 120, 151, 181, 212, 243, 273, 304, 334].getD (m - 1) 365 +
    if leap && decide (2 < m) then 1 else 0

/-- `daysIn`. -/
def daysIn (leap : Bool) (m : Nat) : Nat :=
  if m = 2 then if leap then 29 else 28
  else if m = 4 ∨ m = 6 ∨ m = 9 ∨ m = 11 then 30 else 31

/-- Days from 0001-01-01 to a date. -/
def daysFromCivil (y : Int) (m d : Nat) : Int :=
  daysBeforeYear y + daysBeforeMonth (isLeap y) m + d - 1

/-- The month of a day of the year. -/
def monthOf (leap : Bool) (yday : Nat) : Nat :=
  ((List.range 12).filter fun i => daysBeforeMonth leap (i + 1) ≤ yday).length

/-- A number of days cut into cycles of 400, 100, 4 and 1 years, and the day of the year. -/
structure YearParts where
  n400 : Nat
  n100 : Nat
  n4 : Nat
  n1 : Nat
  yday : Nat

/-- The loop-free cut of `absDate`; the last century of a cycle and the last year of four are one
day longer than their share. -/
def yearParts (d : Nat) : YearParts :=
  let r := d % 146097
  let n100 := if r / 36524 = 4 then 3 else r / 36524
  let r := r - 36524 * n100
  let n4 := r / 1461
  let r := r % 1461
  let n1 := if r / 365 = 4 then 3 else r / 365
  ⟨d / 146097, n100, n4, n1, r - 365 * n1⟩

/-- The year, from 1 on. -/
def YearParts.year (p : YearParts) : Nat := 400 * p.n400 + 100 * p.n100 + 4 * p.n4 + p.n1 + 1

/-! ## Printing -/

/-- Days from 0001-01-01 on and seconds of the day. -/
def civilDay (t : Time) : Nat := (t.nanos / 1000000000 / 86400 - epochDay).toNat

/-- In UTC. -/
def secondOfDay (t : Time) : Nat := (t.nanos / 1000000000 % 86400).toNat

/-- The date as `2006-01-02`. -/
def formatDate (d : Nat) : Bytes :=
  let p := yearParts d
  let leap := isLeap p.year
  let m := monthOf leap p.yday
  fixedDigits 4 p.year ++ 45 :: (fixedDigits 2 m ++ 45 :: fixedDigits 2 (p.yday - daysBeforeMonth leap m + 1))

/-- The time of day as `15:04:05`. -/
def formatClock (s : Nat) : Bytes :=
  fixedDigits 2 (s / 3600) ++ 58 :: (fixedDigits 2 (s / 60 % 60) ++ 58 :: fixedDigits 2 (s % 60))

/-- `Format` with the layout `2006-01-02T15:04:05.000Z07:00`, in UTC. -/
def formatMilli (t : Time) : Bytes :=
  formatDate t.civilDay ++ 84 :: (formatClock t.secondOfDay ++ 46 ::
    (fixedDigits 3 (t.nanos / 1000000 % 1000).toNat ++ [90]))

/-! ## Parsing -/

/-- `getnum`: two digits, or one when the width is not fixed. -/
def getnum (fixed : Bool) : Bytes → Option (Nat × Bytes)
  | [] => none
  | c :: s =>
    if isDigit c then
      match s with
      | [] => if fixed then none else some (digitVal c, [])
      | c' :: s' =>
        if isDigit c' then some (digitVal c * 10 + digitVal c', s')
        else if fixed then none else some (digitVal c, c' :: s')
    else none

/-- The four digits of a year. -/
def getYear : Bytes → Option (Nat × Bytes)
  | a :: b :: c :: d :: s =>
    if isDigit a && isDigit b && isDigit c && isDigit d then
      some (((digitVal a * 10 + digitVal b) * 10 + digitVal c) * 10 + digitVal d, s)
    else none
  | _ => none

/-- A fixed octet of the layout. -/
def skipByte (b : UInt8) : Bytes → Option Bytes
  | [] => none
  | c :: s => if c = b then some s else none

/-- The optional fraction: a period or a comma and digits, of which nine count. -/
def getFraction (s : Bytes) : Nat × Bytes :=
  match s with
  | sep :: c :: rest =>
    if (sep = 46 ∨ sep = 44) ∧ isDigit c then
      let ds := ((c :: rest).takeWhile isDigit).take 9
      (ds.foldl (fun a d => a * 10 + digitVal d) 0 * 10 ^ (9 - ds.length), (c :: rest).dropWhile isDigit)
    else (0, s)
  | _ => (0, s)

/-- The offset from UTC in seconds: `Z`, or a signed time of day. -/
def getZone : Bytes → Option (Int × Bytes)
  | 90 :: s => some (0, s)
  | sign :: h1 :: h2 :: 58 :: m1 :: m2 :: s => do
      let (hr, _) ← getnum true [h1, h2]
      let (mm, _) ← getnum true [m1, m2]
      if hr > 24 ∨ mm > 60 then none
      else if sign = 43 then some (((hr * 60 + mm) * 60 : Nat), s)
      else if sign = 45 then some (-((hr * 60 + mm) * 60 : Nat), s)
      else none
  | _ => none

/-- A calendar date as it is written. -/
structure Date where
  year : Nat
  month : Nat
  day : Nat

/-- A time of day as it is written. -/
structure Clock where
  hour : Nat
  minute : Nat
  second : Nat

/-- The part `2006-01-02T` of the layout. -/
def getDate (s : Bytes) : Option (Date × Bytes) := do
  let y ← getYear s
  let s ← skipByte 45 y.2
  let m ← getnum true s
  let s ← skipByte 45 m.2
  let d ← getnum true s
  let s ← skipByte 84 d.2
  some (⟨y.1, m.1, d.1⟩, s)

/-- The part `15:04:05` of the layout; the hour is not of fixed width. -/
def getClock (s : Bytes) : Option (Clock × Bytes) := do
  let h ← getnum false s
  let s ← skipByte 58 h.2
  let m ← getnum true s
  let s ← skipByte 58 m.2
  let s ← getnum true s
  some (⟨h.1, m.1, s.1⟩, s.2)

/-- The day exists. -/
def Date.Valid (d : Date) : Prop :=
  1 ≤ d.month ∧ d.month ≤ 12 ∧ 1 ≤ d.day ∧ d.day ≤ daysIn (isLeap d.year) d.month

/-- The time of day exists. -/
def Clock.Valid (c : Clock) : Prop := c.hour < 24 ∧ c.minute < 60 ∧ c.second < 60

instance (d : Date) : Decidable d.Valid := inferInstanceAs (Decidable (_ ∧ _))

instance (c : Clock) : Decidable c.Valid := inferInstanceAs (Decidable (_ ∧ _))

/-- The instant of a date, a time of day and a fraction at an offset from UTC. -/
def ofFields (d : Date) (c : Clock) (nanos : Nat) (offset : Int) : Time :=
  let days := daysFromCivil d.year d.month d.day + epochDay
  let seconds := days * 86400 + (c.hour * 3600 + c.minute * 60 + c.second : Nat) - offset
  ⟨seconds * 1000000000 + nanos⟩

/-- `time.Parse` with the layout `time.RFC3339Nano`. -/
def parseRFC3339Nano (s : Bytes) : Option Time := do
  let d ← getDate s
  let c ← getClock d.2
  let z ← getZone (getFraction c.2).2
  if z.2 = [] ∧ d.1.Valid ∧ c.1.Valid then some (ofFields d.1 c.1 (getFraction c.2).1 z.1)
  else none

/-! ## Dates -/

/-- The bounds of the cycles, and their sum. -/
structure YearParts.Proper (p : YearParts) (d : Nat) : Prop where
  n100_le : p.n100 ≤ 3
  n4_le : p.n4 ≤ 24
  n1_le : p.n1 ≤ 3
  yday_le : p.yday ≤ 365
  -- A year of 366 days is the last of four, and no century's last unless it is the cycle's.
  leap : p.yday = 365 → p.n1 = 3 ∧ (p.n4 = 24 → p.n100 = 3)
  sum : 146097 * p.n400 + 36524 * p.n100 + 1461 * p.n4 + 365 * p.n1 + p.yday = d

theorem yearParts_proper (d : Nat) : (yearParts d).Proper d := by
  constructor <;> simp only [yearParts] <;> split_ifs <;> omega

variable {d n : Nat} {p : YearParts}

theorem isLeap_year (h : p.Proper d) :
    isLeap p.year = true ↔ p.n1 = 3 ∧ (p.n4 = 24 → p.n100 = 3) := by
  have h100 := h.n100_le
  have h4 := h.n4_le
  have h1 := h.n1_le
  simp only [isLeap, YearParts.year, Bool.and_eq_true, Bool.or_eq_true, beq_iff_eq, bne_iff_ne]
  push_cast
  omega

theorem daysBeforeYear_year (h : p.Proper d) :
    daysBeforeYear p.year + p.yday = d := by
  have h100 := h.n100_le
  have h4 := h.n4_le
  have h1 := h.n1_le
  have hsum := h.sum
  simp only [daysBeforeYear, YearParts.year]
  push_cast
  omega

theorem yday_lt (h : p.Proper d) : p.yday < 365 + if isLeap p.year then 1 else 0 := by
  have hle := h.yday_le
  by_cases hyday : p.yday = 365
  · rw [if_pos ((isLeap_year h).2 (h.leap hyday))]
    omega
  · omega

/-- The month and the day of a day of the year. -/
theorem monthOf_spec {leap : Bool} {yday : Nat} (h : yday < 365 + if leap then 1 else 0) :
    (1 ≤ monthOf leap yday ∧ monthOf leap yday ≤ 12) ∧
      daysBeforeMonth leap (monthOf leap yday) ≤ yday ∧
      yday - daysBeforeMonth leap (monthOf leap yday) + 1 ≤ daysIn leap (monthOf leap yday) := by
  revert h
  cases leap with
  | true =>
    have : ∀ yday < 366, (1 ≤ monthOf true yday ∧ monthOf true yday ≤ 12) ∧
        daysBeforeMonth true (monthOf true yday) ≤ yday ∧
        yday - daysBeforeMonth true (monthOf true yday) + 1 ≤ daysIn true (monthOf true yday) := by
      decide +kernel
    exact this yday
  | false =>
    have : ∀ yday < 365, (1 ≤ monthOf false yday ∧ monthOf false yday ≤ 12) ∧
        daysBeforeMonth false (monthOf false yday) ≤ yday ∧
        yday - daysBeforeMonth false (monthOf false yday) + 1 ≤
          daysIn false (monthOf false yday) := by
      decide +kernel
    exact this yday

/-! ## Reading fixed digits -/

theorem isDigit_digitByte_mod (n : Nat) : isDigit (digitByte (n % 10)) = true :=
  isDigit_digitByte (Nat.mod_lt _ (by decide))

theorem digitVal_digitByte_mod (n : Nat) : digitVal (digitByte (n % 10)) = n % 10 :=
  digitVal_digitByte (Nat.mod_lt _ (by decide))

theorem getnum_fixedDigits (fixed : Bool) (h : n < 100) (s : Bytes) :
    getnum fixed (fixedDigits 2 n ++ s) = some (n, s) := by
  simp only [fixedDigits, List.cons_append, List.nil_append, getnum, isDigit_digitByte_mod,
    if_true, digitVal_digitByte_mod, Option.some.injEq, Prod.mk.injEq, and_true]
  omega

theorem getYear_fixedDigits (h : n < 10000) (s : Bytes) :
    getYear (fixedDigits 4 n ++ s) = some (n, s) := by
  simp only [fixedDigits, List.cons_append, List.nil_append, getYear, isDigit_digitByte_mod,
    Bool.and_self, if_true, digitVal_digitByte_mod, Option.some.injEq, Prod.mk.injEq, and_true]
  omega

theorem getFraction_fixedDigits (h : n < 1000) (s : Bytes) :
    getFraction (46 :: (fixedDigits 3 n ++ 90 :: s)) = (n * 1000000, 90 :: s) := by
  have hz : isDigit 90 = false := rfl
  simp only [fixedDigits, List.cons_append, List.nil_append, getFraction,
    isDigit_digitByte_mod, true_or, and_self, if_true, List.takeWhile_cons, hz,
    Bool.false_eq_true, if_false, List.dropWhile_cons, List.take_succ_cons, List.take_nil,
    List.foldl_cons, List.foldl_nil, digitVal_digitByte_mod, List.length_cons, List.length_nil,
    Prod.mk.injEq, and_true]
  omega

/-! ## Reading a printed instant -/

/-- The years 1 to 9999. -/
def Window (t : Time) : Prop :=
  epochDay * 86400 * 1000000000 ≤ t.nanos ∧ t.nanos < (epochDay + 3652059) * 86400 * 1000000000

theorem daysIn_le (leap : Bool) (m : Nat) : daysIn leap m ≤ 31 := by
  unfold daysIn
  split_ifs <;> omega

/-- The printed date of a day number of the years 1 to 9999 is read back. -/
theorem getDate_formatDate (hn : n < 3652059) (s : Bytes) :
    ∃ d : Date, getDate (formatDate n ++ 84 :: s) = some (d, s) ∧ d.Valid ∧
      daysFromCivil d.year d.month d.day = n := by
  have hp := yearParts_proper n
  obtain ⟨hmonth, hbefore, hin⟩ := monthOf_spec (yday_lt hp)
  have hdays := daysBeforeYear_year hp
  have h31 := daysIn_le (isLeap (yearParts n).year)
    (monthOf (isLeap (yearParts n).year) (yearParts n).yday)
  have hy : (yearParts n).year < 10000 := by
    simp only [daysBeforeYear] at hdays
    omega
  refine ⟨⟨(yearParts n).year, monthOf (isLeap (yearParts n).year) (yearParts n).yday, _⟩, ?_,
    ⟨hmonth.1, hmonth.2, Nat.succ_pos _, hin⟩, ?_⟩
  · simp only [getDate, formatDate, List.append_assoc, List.cons_append, getYear_fixedDigits hy,
      getnum_fixedDigits _ (Nat.lt_of_le_of_lt hmonth.2 (by decide : 12 < 100)),
      getnum_fixedDigits _ (Nat.lt_of_le_of_lt (hin.trans h31) (by decide : 31 < 100)), skipByte,
      if_true, Option.bind_eq_bind, Option.bind_some]
  · simp only [daysFromCivil]
    omega

/-- The printed time of day is read back. -/
theorem getClock_formatClock (hn : n < 86400) (s : Bytes) :
    getClock (formatClock n ++ s) = some (⟨n / 3600, n / 60 % 60, n % 60⟩, s) := by
  simp only [getClock, formatClock, List.append_assoc, List.cons_append,
    getnum_fixedDigits _ (show n / 3600 < 100 by omega),
    getnum_fixedDigits _ (show n / 60 % 60 < 100 by omega),
    getnum_fixedDigits _ (show n % 60 < 100 by omega), skipByte, if_true, Option.bind_eq_bind,
    Option.bind_some]

/-- A printed instant of the years 1 to 9999 is read back, without what is below a millisecond. -/
theorem parseRFC3339Nano_formatMilli {t : Time} (h : t.Window) :
    parseRFC3339Nano t.formatMilli = some t.truncateMilli := by
  obtain ⟨hmin, hmax⟩ := h
  simp only [epochDay] at hmin hmax
  have hday : t.civilDay < 3652059 := by
    simp only [civilDay, epochDay]
    omega
  have hsod : t.secondOfDay < 86400 := by
    simp only [secondOfDay]
    omega
  have hms : (t.nanos / 1000000 % 1000).toNat < 1000 := by omega
  obtain ⟨d, hdate, hvalid, hcivil⟩ := getDate_formatDate hday
    (formatClock t.secondOfDay ++ 46 :: (fixedDigits 3 (t.nanos / 1000000 % 1000).toNat ++ [90]))
  have hclock : Clock.Valid
      ⟨t.secondOfDay / 3600, t.secondOfDay / 60 % 60, t.secondOfDay % 60⟩ := by
    simp only [Clock.Valid]
    omega
  have hinstant : ofFields d ⟨t.secondOfDay / 3600, t.secondOfDay / 60 % 60, t.secondOfDay % 60⟩
      ((t.nanos / 1000000 % 1000).toNat * 1000000) 0 = t.truncateMilli := by
    simp only [ofFields, hcivil, truncateMilli, civilDay, secondOfDay, epochDay, Time.mk.injEq]
    omega
  rw [parseRFC3339Nano, formatMilli, hdate]
  simp only [Option.bind_eq_bind, Option.bind_some, getClock_formatClock hsod,
    getFraction_fixedDigits hms, getZone, hvalid, hclock, and_self, if_true, hinstant]

end Time

end Astrate.GoLib
