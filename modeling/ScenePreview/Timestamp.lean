import ScenePreview.Text.Scan

/-!
# Points in time

A point in time is a date and a time of day in UTC, to the nanosecond. It is written as
`YYYY-MM-DDTHH:MM:SS[.fraction]Z`; what is read may have blanks around its parts, shorter
numbers and any offset from UTC.

## Main definitions

* `Date`, `Date.next`, `Date.prev` — calendar days.
* `Timestamp`, `Timestamp.render` — a point in time and its written form.
* `Timestamp.parse?` — the reader.
-/

namespace ScenePreview

/-! ### Calendar days -/

/-- A day of the proleptic Gregorian calendar. -/
structure Date where
  /-- The year; there is a year zero. -/
  year : Int
  /-- The month, from one. -/
  month : Nat
  /-- The day of the month, from one. -/
  day : Nat
  deriving Repr, DecidableEq

namespace Date

/-- Whether a year has a 29th of February. -/
def isLeapYear (year : Int) : Bool :=
  year % 4 == 0 && (year % 100 != 0 || year % 400 == 0)

/-- The number of days of a month. -/
def daysInMonth (year : Int) (month : Nat) : Nat :=
  if month = 2 then (if isLeapYear year then 29 else 28)
  else if month = 4 ∨ month = 6 ∨ month = 9 ∨ month = 11 then 30
  else 31

/-- The first and the last year that dates reach. -/
def minYear : Int := -262143

/-- The last year that dates reach. -/
def maxYear : Int := 262142

/-- Whether the month and the day exist and the year is in reach. -/
def IsValid (d : Date) : Prop :=
  minYear ≤ d.year ∧ d.year ≤ maxYear ∧ 1 ≤ d.month ∧ d.month ≤ 12 ∧ 1 ≤ d.day
    ∧ d.day ≤ daysInMonth d.year d.month

instance (d : Date) : Decidable d.IsValid := by unfold IsValid; infer_instance

/-- The day after. -/
def next (d : Date) : Date :=
  if d.day < daysInMonth d.year d.month then { d with day := d.day + 1 }
  else if d.month < 12 then ⟨d.year, d.month + 1, 1⟩
  else ⟨d.year + 1, 1, 1⟩

/-- The day before. -/
def prev (d : Date) : Date :=
  if 1 < d.day then { d with day := d.day - 1 }
  else if 1 < d.month then ⟨d.year, d.month - 1, daysInMonth d.year (d.month - 1)⟩
  else ⟨d.year - 1, 12, 31⟩

end Date

/-! ### Points in time -/

/-- A date with a time of day. A second 60 is a leap second. -/
structure Moment where
  /-- The day. -/
  date : Date
  /-- The hour. -/
  hour : Nat
  /-- The minute. -/
  minute : Nat
  /-- The second. -/
  second : Nat
  /-- The nanosecond. -/
  nano : Nat := 0
  deriving Repr, DecidableEq

namespace Moment

/-- Whether the date and the time of day exist. -/
def IsValid (m : Moment) : Prop :=
  m.date.IsValid ∧ m.hour < 24 ∧ m.minute < 60 ∧ m.second ≤ 60 ∧ m.nano < 1000000000

instance (m : Moment) : Decidable m.IsValid := by unfold IsValid; infer_instance

/-- The moment a number of minutes earlier, for less than a day. -/
def minutesEarlier (m : Moment) (minutes : Int) : Moment :=
  let t : Int := m.hour * 60 + m.minute - minutes
  let (date, t) :=
    if t < 0 then (m.date.prev, t + 1440)
    else if 1440 ≤ t then (m.date.next, t - 1440)
    else (m.date, t)
  { m with date, hour := (t / 60).toNat, minute := (t % 60).toNat }

end Moment

/-- A point in time: a moment of UTC that exists. -/
structure Timestamp where
  /-- The moment in UTC. -/
  utc : Moment
  /-- It exists. -/
  valid : utc.IsValid
  deriving Repr, DecidableEq

namespace Timestamp

/-- The point in time at which clocks of UTC show a moment, if it exists. -/
def ofUtc? (m : Moment) : Option Timestamp := if h : m.IsValid then some ⟨m, h⟩ else none

/-- The first moment of 1970. -/
def epoch : Timestamp := ⟨⟨⟨1970, 1, 1⟩, 0, 0, 0, 0⟩, by decide⟩

instance : Inhabited Timestamp := ⟨epoch⟩

/-! ### The written form -/

/-- A year: four digits from 0 to 9999, else a sign and at least four digits. -/
def renderYear (year : Int) : List Char :=
  if 0 ≤ year ∧ year ≤ 9999 then Text.padded 4 year.toNat
  else (if year < 0 then '-' else '+') :: Text.padded 4 year.natAbs

/-- A fraction of a second: none, or the fewest of three, six and nine digits that are exact. -/
def renderFraction (nano : Nat) : List Char :=
  if nano = 0 then []
  else if nano % 1000000 = 0 then '.' :: Text.padded 3 (nano / 1000000)
  else if nano % 1000 = 0 then '.' :: Text.padded 6 (nano / 1000)
  else '.' :: Text.padded 9 nano

/-- The characters of a point in time. -/
def renderChars (t : Timestamp) : List Char :=
  let m := t.utc
  renderYear m.date.year ++ '-' :: Text.padded 2 m.date.month ++ '-' :: Text.padded 2 m.date.day
    ++ 'T' :: Text.padded 2 m.hour ++ ':' :: Text.padded 2 m.minute
    ++ ':' :: Text.padded 2 m.second ++ renderFraction m.nano ++ ['Z']

/-- A point in time as text. -/
def render (t : Timestamp) : String := String.ofList t.renderChars

/-! ### The reader -/

open Text (Scan)

/-- Reads a year: at most four digits, or a sign and any number of digits. -/
def scanYear : Scan Int := do
  Scan.blanks
  match ← Scan.peek with
  | some '-' =>
    Scan.char '-'
    let ds ← Scan.digits (← Scan.rest).length
    return -(Text.ofDigits ds : Int)
  | some '+' =>
    Scan.char '+'
    let ds ← Scan.digits (← Scan.rest).length
    return Text.ofDigits ds
  | _ =>
    let ds ← Scan.digits 4
    return Text.ofDigits ds

/-- Reads a separator, blanks allowed before it. -/
def separator (c : Char) : Scan Unit := do
  Scan.blanks
  Scan.char c

/-- Reads a day. -/
def scanDate : Scan Date := do
  let year ← scanYear
  separator '-'
  let month ← Scan.number 2
  separator '-'
  let day ← Scan.number 2
  return ⟨year, month, day⟩

/-- Reads a fraction of a second, if a dot announces one: its first nine digits count. -/
def scanFraction : Scan Nat := do
  match ← Scan.peek with
  | some '.' =>
    Scan.char '.'
    let ds ← Scan.digits 9
    Scan.skipWhile Char.isDigit
    return Text.ofDigits ds * Nat.pow 10 (9 - ds.length)
  | _ => return 0

/-- Reads a number of exactly two digits. -/
def twoDigits : Scan Nat := do
  let a ← Scan.satisfy Char.isDigit
  let b ← Scan.satisfy Char.isDigit
  return Text.ofDigits [a, b]

/-- The signs of an offset: east of UTC or not. -/
def offsetSign? (c : Char) : Option Bool :=
  if c = '+' then some true
  else if c = '-' ∨ c = '\u2212' then some false
  else none

/-- Reads `UTC` in any case. -/
def scanUtc : Scan Unit := do
  let _ ← Scan.satisfy (fun c => c.toUpper == 'U')
  let _ ← Scan.satisfy (fun c => c.toUpper == 'T')
  let _ ← Scan.satisfy (fun c => c.toUpper == 'C')
  return ()

/-- Reads an offset of hours and minutes with its sign, in minutes. -/
def scanSignedOffset : Scan Int := do
  let sign ← Scan.satisfy (fun c => (offsetSign? c).isSome)
  let hours ← twoDigits
  Scan.skipWhile (fun c => c == ':' || Text.isBlank c)
  let minutes ← twoDigits
  if minutes ≥ 60 ∨ hours ≥ 24 then failure
  let total : Int := hours * 60 + minutes
  return if offsetSign? sign = some true then total else -total

/-- Reads the offset from UTC, in minutes. -/
def scanOffset : Scan Int := do
  Scan.blanks
  match ← Scan.peek with
  | some c =>
    if c = 'Z' ∨ c = 'z' then do
      Scan.char c
      return 0
    else if c.toUpper = 'U' then do
      scanUtc
      return 0
    else scanSignedOffset
  | none => failure

/-- Reads a point in time, at any offset from UTC. -/
def scan : Scan Timestamp := do
  let date ← scanDate
  let _ ← Scan.satisfy (fun c => c == 'T' || c == 't' || c == ' ')
  let hour ← Scan.number 2
  separator ':'
  let minute ← Scan.number 2
  separator ':'
  let second ← Scan.number 2
  let nano ← scanFraction
  let offset ← scanOffset
  Scan.blanks
  let here : Moment := ⟨date, hour, minute, second, nano⟩
  if here.IsValid then
    match ofUtc? (here.minutesEarlier offset) with
    | some t => return t
    | none => failure
  else failure

/-- The point in time that a text spells. -/
def parse? (s : String) : Option Timestamp := scan.all? s.toList

end Timestamp

end ScenePreview
