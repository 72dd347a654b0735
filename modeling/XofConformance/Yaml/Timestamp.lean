import XofConformance.Text.Basic
import XofConformance.Yaml.Cursor
import XofConformance.Yaml.Fault

/-!
# Points in time

A date, or a date and a time of day that may have an offset from universal time. What is written
in this form need not exist: reading and checking are two steps.
-/

namespace XofConformance.Yaml

/-- A day. -/
structure Date where
  year : Nat
  month : Nat
  day : Nat
  deriving DecidableEq

/-- A time of day, its offset in seconds if it has one. -/
structure TimeOfDay where
  hour : Nat
  minute : Nat
  second : Nat
  microsecond : Nat
  offset : Option Int
  deriving DecidableEq

/-- A point in time; without a time of day it is a date. -/
structure Timestamp where
  date : Date
  time : Option TimeOfDay
  deriving DecidableEq

namespace Timestamp

/-! ## Reading -/

/-- Between `least` and `most` digits, as many as there are, and what follows. -/
def digits? (least most : Nat) (t : Text) : Option (Nat × Text) :=
  let digits := (t.take most).takeWhile Text.isDigit
  if digits.length < least then none
  else some (Text.decimalValue digits, t.drop digits.length)

/-- What follows a code point. -/
def after? (c : CodePoint) : Text → Option Text
  | d :: rest => if d = c then some rest else none
  | [] => none

/-- The first six digits of a fraction as microseconds. -/
def microseconds (digits : Text) : Nat :=
  Text.decimalValue ((digits ++ List.replicate 6 0x30).take 6)

/-- An offset, or nothing. -/
def offset? (t : Text) : Option (Option Int) :=
  match t.dropWhile isBlank with
  | [] => if t.isEmpty then some none else none
  | c :: rest =>
    if c = 0x5A then if rest.isEmpty then some (some 0) else none
    else if c = 0x2B ∨ c = 0x2D then do
      let (hours, rest) ← digits? 1 2 rest
      let minutes ←
        if rest.isEmpty then some 0
        else do
          let (minutes, rest) ← digits? 2 2 (← after? 0x3A rest)
          if rest.isEmpty then some minutes else none
      let seconds : Int := 3600 * hours + 60 * minutes
      return some (if c = 0x2D then -seconds else seconds)
    else none

/-- A time of day after a `T` or blanks. -/
def time? (t : Text) : Option TimeOfDay := do
  let rest ← match t with
    | [] => none
    | c :: rest =>
      if c = 0x54 ∨ c = 0x74 then some rest
      else if isBlank c then some (rest.dropWhile isBlank)
      else none
  let (hour, rest) ← digits? 1 2 rest
  let (minute, rest) ← digits? 2 2 (← after? 0x3A rest)
  let (second, rest) ← digits? 2 2 (← after? 0x3A rest)
  let (fraction, rest) := match after? 0x2E rest with
    | some rest => (rest.takeWhile Text.isDigit, rest.dropWhile Text.isDigit)
    | none => ([], rest)
  let offset ← offset? rest
  return { hour, minute, second, microsecond := microseconds fraction, offset }

/-- A point in time, and whether its month and day are written with two digits each. -/
def read? (t : Text) : Option (Timestamp × Bool) := do
  let (year, rest) ← digits? 4 4 t
  let rest ← after? 0x2D rest
  let (month, afterMonth) ← digits? 1 2 rest
  let rest' ← after? 0x2D afterMonth
  let (day, afterDay) ← digits? 1 2 rest'
  let full := rest.length == afterMonth.length + 2 && rest'.length == afterDay.length + 2
  let date : Date := { year, month, day }
  if afterDay.isEmpty then return ({ date, time := none }, full)
  else return ({ date, time := some (← time? afterDay) }, full)

/-- A plain scalar is spelled as a point in time: a date alone has two digits for month and
day. -/
def isWritten (t : Text) : Bool :=
  match read? t with
  | some (stamp, full) => full || stamp.time.isSome
  | none => false

/-! ## Checking -/

/-- The year has a day more. -/
def isLeap (year : Nat) : Bool := year % 4 == 0 && (year % 100 != 0 || year % 400 == 0)

/-- The number of days of a month. -/
def daysIn (year month : Nat) : Nat :=
  if month = 2 then (if isLeap year then 29 else 28)
  else if month = 4 ∨ month = 6 ∨ month = 9 ∨ month = 11 then 30
  else 31

/-- The day is in the calendar. -/
def Date.isReal (d : Date) : Bool :=
  1 ≤ d.year && 1 ≤ d.month && d.month ≤ 12 && 1 ≤ d.day && d.day ≤ daysIn d.year d.month

/-- The time is one of a day, and its offset is less than a day. -/
def TimeOfDay.isReal (t : TimeOfDay) : Bool :=
  t.hour < 24 && t.minute < 60 && t.second < 60 && t.offset.all fun o => o.natAbs < 86400

/-- The value of a scalar that is to be a point in time. -/
def ofText (t : Text) : Except ReadFault Timestamp :=
  match read? t with
  | none => .error (.scalar .notTime)
  | some (stamp, _) =>
    if Date.isReal stamp.date && stamp.time.all TimeOfDay.isReal then .ok stamp
    else .error (.scalar .malformed)

/-! ## Order and text -/

/-- The number of days before a date, counted from the beginning of the calendar. -/
def Date.days (d : Date) : Nat :=
  let y := d.year - 1
  let months := (List.range (d.month - 1)).foldl (fun n m => n + daysIn d.year (m + 1)) 0
  365 * y + y / 4 - y / 100 + y / 400 + months + d.day

/-- Microseconds from the beginning of the calendar, the offset taken off. -/
def instant (d : Date) (t : TimeOfDay) : Int :=
  ((Date.days d * 86400 + t.hour * 3600 + t.minute * 60 + t.second : Nat) - t.offset.getD 0)
    * 1000000 + t.microsecond

/-- An offset as it is shown. -/
def offsetText (offset : Int) : Text :=
  if offset = 0 then "datetime.timezone.utc"
  else Text.concat ["datetime.timezone(datetime.timedelta(",
    if offset < 0 then "days=-1, seconds=" else "seconds=",
    Text.ofInt (if offset < 0 then offset + 86400 else offset), "))"]

/-- The numbers of a time of day as they are shown: zeros at the end are left out. -/
def timeNumbers (t : TimeOfDay) : List Nat :=
  [t.hour, t.minute]
    ++ if t.microsecond ≠ 0 then [t.second, t.microsecond]
      else if t.second ≠ 0 then [t.second] else []

/-- A point in time as it is shown. -/
def text (stamp : Timestamp) : Text :=
  let date := [stamp.date.year, stamp.date.month, stamp.date.day]
  match stamp.time with
  | none => Text.concat ["datetime.date(", Text.join ", " (date.map Text.ofNat), ")"]
  | some t =>
    let zone := match t.offset with
      | some o => [Text.concat ["tzinfo=", offsetText o]]
      | none => []
    Text.concat ["datetime.datetime(",
      Text.join ", " ((date ++ timeNumbers t).map Text.ofNat ++ zone), ")"]

end Timestamp

end XofConformance.Yaml
