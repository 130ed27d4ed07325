import TradingBroker.Lib.Numerals

/-!
# Dates and times

The part of Python's `datetime` a program needs that reads a time, moves it to another
zone and shows it: wall-clock times of the years 1 to 9999, `isoformat` and
`fromisoformat`, and the shift by an offset, which leaves that range or does not.

A time is civil, that is, its fields are within the calendar, and instants are counted
in microseconds, so that a shift is an addition. What is shown in UTC is read back to
the same instant.
-/

namespace TradingBroker.Lib.Datetime

open Numerals

/-! ## The calendar -/

def isLeap (year : Nat) : Bool := year % 4 == 0 && (year % 100 != 0 || year % 400 == 0)

/-- The lengths of the months. -/
def monthLengths (year : Nat) : List Nat :=
  [31, if isLeap year then 29 else 28, 31, 30, 31, 30, 31, 31, 30, 31, 30, 31]

/-- The days before the first of January. -/
def daysBeforeYear (year : Nat) : Nat :=
  (year - 1) * 365 + (year - 1) / 4 - (year - 1) / 100 + (year - 1) / 400

def isDate (year month day : Nat) : Bool :=
  1 ≤ year && year ≤ 9999 && 1 ≤ month && 1 ≤ day &&
    ((monthLengths year)[month - 1]?).any fun n => day ≤ n

/-- A wall-clock time. -/
structure Civil where
  year : Nat
  month : Nat
  day : Nat
  hour : Nat
  minute : Nat
  second : Nat
  microsecond : Nat
  date : isDate year month day = true
  clock : hour < 24 ∧ minute < 60 ∧ second < 60 ∧ microsecond < 1000000
  deriving DecidableEq

/-- `datetime(..)`, `none` being the `ValueError`. -/
def Civil.of (year month day hour minute second microsecond : Nat) : Option Civil :=
  if h : isDate year month day = true ∧
      hour < 24 ∧ minute < 60 ∧ second < 60 ∧ microsecond < 1000000 then
    some ⟨year, month, day, hour, minute, second, microsecond, h.1, h.2⟩
  else none

/-- The days since the first of January of the year 1. -/
def Civil.days (c : Civil) : Nat :=
  daysBeforeYear c.year + ((monthLengths c.year).take (c.month - 1)).foldl Nat.add 0 + (c.day - 1)

def Civil.microseconds (c : Civil) : Int :=
  (((c.days * 24 + c.hour) * 60 + c.minute) * 60 + c.second) * 1000000 + c.microsecond

/-- The month and the day of a day of the year, the months before it counted in. -/
def monthDay (month : Nat) : List Nat → Nat → Nat × Nat
  | [], n => (month, n + 1)
  | length :: lengths, n =>
      if n < length then (month, n + 1) else monthDay (month + 1) lengths (n - length)

/-- The date a number of days after the first of January of the year 1. -/
def ofDays (n : Nat) : Nat × Nat × Nat :=
  let (n400, n) := (n / 146097, n % 146097)
  let (n100, n) := (n / 36524, n % 36524)
  let (n4, n) := (n / 1461, n % 1461)
  let (n1, n) := (n / 365, n % 365)
  let year := n400 * 400 + n100 * 100 + n4 * 4 + n1 + 1
  if n1 = 4 ∨ n100 = 4 then (year - 1, 12, 31) else (year, monthDay 1 (monthLengths year) n)

/-- The time so many microseconds after the first midnight, `none` if it is not one of
the years a `datetime` has. -/
def ofMicroseconds (t : Int) : Option Civil :=
  if t < 0 then none
  else
    let seconds := t.toNat / 1000000
    let (year, month, day) := ofDays (seconds / 86400)
    Civil.of year month day (seconds / 3600 % 24) (seconds / 60 % 60) (seconds % 60)
      (t.toNat % 1000000)

/-- `c + timedelta(microseconds=offset)`, `none` being the `OverflowError`. -/
def Civil.shift (c : Civil) (offset : Int) : Option Civil :=
  ofMicroseconds (c.microseconds + offset)

/-! ## As text -/

/-- `%Y-%m-%d`. -/
def Civil.dateText (c : Civil) : List Char :=
  lastDigits 4 c.year ++ '-' :: (lastDigits 2 c.month ++ '-' :: lastDigits 2 c.day)

/-- `%H:%M:%S`. -/
def Civil.clockText (c : Civil) : List Char :=
  lastDigits 2 c.hour ++ ':' :: (lastDigits 2 c.minute ++ ':' :: lastDigits 2 c.second)

/-- `isoformat()` of a time without a zone. -/
def Civil.isoformat (c : Civil) : List Char :=
  c.dateText ++ 'T' :: (c.clockText ++
    if c.microsecond = 0 then [] else '.' :: lastDigits 6 c.microsecond)

/-! ## Reading it -/

/-- The next `n` digits, after `value`. -/
def readDigits : Nat → Nat → List Char → Option (Nat × List Char)
  | 0, value, cs => some (value, cs)
  | _ + 1, _, [] => none
  | n + 1, value, c :: cs =>
      if c.isDigit then readDigits n (10 * value + (c.toNat - 48)) cs else none

def expect (c : Char) : List Char → Option (List Char)
  | [] => none
  | d :: ds => if d = c then some ds else none

/-- `.ffffff`, if it is there. -/
def readFraction : List Char → Option (Nat × List Char)
  | '.' :: cs => readDigits 6 0 cs
  | cs => some (0, cs)

/-- `:SS` and a fraction, if they are there, in microseconds. -/
def readSeconds : List Char → Option (Nat × List Char)
  | ':' :: cs => do
      let (second, cs) ← readDigits 2 0 cs
      let (fraction, cs) ← readFraction cs
      return (second * 1000000 + fraction, cs)
  | cs => some (0, cs)

/-- The offset behind its sign, which ends the text, in microseconds. -/
def readOffset (cs : List Char) : Option Int := do
  let (hour, cs) ← readDigits 2 0 cs
  let cs ← expect ':' cs
  let (minute, cs) ← readDigits 2 0 cs
  let (rest, cs) ← readSeconds cs
  if cs = [] ∧ (hour * 60 + minute) * 60000000 + rest < 86400000000 then
    return ((hour * 60 + minute) * 60000000 + rest : Nat)
  else none

/-- The zone at the end of the text, `some none` if there is none. -/
def readZone : List Char → Option (Option Int)
  | [] => some none
  | '+' :: cs => (readOffset cs).map some
  | '-' :: cs => (readOffset cs).map fun offset => some (-offset)
  | _ => none

/-- `datetime.fromisoformat`, of the texts `isoformat` writes; `none` is the
`ValueError`. -/
def fromisoformat (cs : List Char) : Option (Civil × Option Int) := do
  let (year, cs) ← readDigits 4 0 cs
  let cs ← expect '-' cs
  let (month, cs) ← readDigits 2 0 cs
  let cs ← expect '-' cs
  let (day, cs) ← readDigits 2 0 cs
  let cs ← expect 'T' cs
  let (hour, cs) ← readDigits 2 0 cs
  let cs ← expect ':' cs
  let (minute, cs) ← readDigits 2 0 cs
  let cs ← expect ':' cs
  let (second, cs) ← readDigits 2 0 cs
  let (microsecond, cs) ← readFraction cs
  let zone ← readZone cs
  let c ← Civil.of year month day hour minute second microsecond
  return (c, zone)

/-! ## What is written is read -/

theorem digit_of_lt {d : Nat} (h : d < 10) :
    (Nat.digitChar d).isDigit = true ∧ (Nat.digitChar d).toNat - 48 = d := by
  have : d = 0 ∨ d = 1 ∨ d = 2 ∨ d = 3 ∨ d = 4 ∨ d = 5 ∨ d = 6 ∨ d = 7 ∨ d = 8 ∨ d = 9 := by
    omega
  rcases this with rfl | rfl | rfl | rfl | rfl | rfl | rfl | rfl | rfl | rfl <;> decide

theorem readDigits_succ {n : Nat} : ∀ {value w d : Nat} {cs ds : List Char}, d < 10 →
    readDigits n value cs = some (w, Nat.digitChar d :: ds) →
      readDigits (n + 1) value cs = some (10 * w + d, ds) := by
  induction n with
  | zero =>
      intro value w d cs ds hd h
      cases h
      obtain ⟨hdigit, hval⟩ := digit_of_lt hd
      rw [readDigits, if_pos hdigit, hval, readDigits]
  | succ n ih =>
      intro value w d cs ds hd h
      cases cs with
      | nil => cases h
      | cons c cs =>
          rw [readDigits] at h ⊢
          split at h
          · next hc =>
              rw [if_pos hc]
              exact ih hd h
          · cases h

/-- Digits that are written in full are read back, after what was read before them. -/
theorem readDigits_lastDigits (n value v : Nat) (cs : List Char) (hv : v < tenPow n) :
    readDigits n value (lastDigits n v ++ cs) = some (value * tenPow n + v, cs) := by
  induction n generalizing v cs with
  | zero =>
      have hzero : v = 0 := Nat.lt_one_iff.1 hv
      rw [hzero, tenPow, Nat.mul_one]
      rfl
  | succ n ih =>
      rw [tenPow] at hv
      have hread := ih (v / 10) (Nat.digitChar (v % 10) :: cs) (by omega)
      rw [lastDigits, List.append_assoc, List.singleton_append,
        readDigits_succ (Nat.mod_lt v (by decide)) hread, tenPow]
      refine congrArg (fun w => some (w, cs)) ?_
      rw [Nat.mul_add, Nat.mul_left_comm, Nat.add_assoc, Nat.div_add_mod]

theorem Civil.bounds (c : Civil) : c.year < 10000 ∧ c.month < 100 ∧ c.day < 100 := by
  have h := c.date
  simp only [isDate, Bool.and_eq_true, decide_eq_true_eq] at h
  obtain ⟨⟨⟨⟨-, hyear⟩, hmonth⟩, -⟩, hday⟩ := h
  cases hlength : (monthLengths c.year)[c.month - 1]? with
  | none =>
      rw [hlength] at hday
      cases hday
  | some n =>
      rw [hlength, Option.any_some, decide_eq_true_eq] at hday
      have hindex : c.month - 1 < 12 := (List.getElem?_eq_some_iff.1 hlength).1
      have hn : n ≤ 31 := by
        have hmem := List.mem_of_getElem? hlength
        have hall : ∀ b :
          Bool, ∀ n ∈ [31, if b then 29 else 28, 31, 30, 31, 30, 31, 31, 30, 31, 30, 31],
            n ≤ 31 := by decide
        exact hall (isLeap c.year) n hmem
      omega

theorem Civil.of_self (c : Civil) :
    Civil.of c.year c.month c.day c.hour c.minute c.second c.microsecond = some c := by
  rw [Civil.of, dif_pos ⟨c.date, c.clock⟩]

/-- The zone `isoformat` writes for UTC. -/
def utcText : List Char := ['+', '0', '0', ':', '0', '0']

theorem readFraction_utc (c : Civil) :
    readFraction
      ((if c.microsecond = 0 then [] else '.' :: lastDigits 6 c.microsecond) ++ utcText) =
      some (c.microsecond, utcText) := by
  split
  · next hzero =>
      rw [hzero]
      rfl
  · rw [List.cons_append, readFraction, readDigits_lastDigits _ _ _ _ c.clock.2.2.2, Nat.zero_mul,
      Nat.zero_add]

/-- A time in UTC comes back from its `isoformat`. -/
theorem fromisoformat_utc (c : Civil) :
    fromisoformat (c.isoformat ++ utcText) = some (c, some 0) := by
  obtain ⟨hyear, hmonth, hday⟩ := c.bounds
  obtain ⟨hhour, hminute, hsecond, -⟩ := c.clock
  have hhour' : c.hour < 100 := by omega
  have hminute' : c.minute < 100 := by omega
  have hsecond' : c.second < 100 := by omega
  have hzone : readZone utcText = some (some 0) := rfl
  unfold fromisoformat Civil.isoformat Civil.dateText Civil.clockText
  simp only [List.append_assoc, List.cons_append]
  rw [readDigits_lastDigits 4 0 _ _ hyear]
  simp only [bind, Option.bind, expect, if_true]
  rw [readDigits_lastDigits 2 0 _ _ hmonth]
  simp only [if_true]
  rw [readDigits_lastDigits 2 0 _ _ hday]
  simp only [if_true]
  rw [readDigits_lastDigits 2 0 _ _ hhour']
  simp only [if_true]
  rw [readDigits_lastDigits 2 0 _ _ hminute']
  simp only [if_true]
  rw [readDigits_lastDigits 2 0 _ _ hsecond']
  simp only [readFraction_utc, hzone, Nat.zero_mul, Nat.zero_add, Civil.of_self]
  rfl

end TradingBroker.Lib.Datetime
