namespace CompletionServer

structure Date where
  year : Nat
  month : Nat
  day : Nat
deriving DecidableEq

/-- A time of day on a date. The offset from universal time, where one is known, is counted in
minutes. -/
structure Moment where
  date : Date
  hour : Nat
  minute : Nat
  second : Nat
  microsecond : Nat
  offset : Option Int
deriving DecidableEq

inductive CalendarError where
  | year (found : Nat)
  | month
  | day
  | hour
  | minute
  | second
  | offset (minutes : Int)
deriving DecidableEq

namespace Calendar

def isLeap (year : Nat) : Bool :=
  year % 4 == 0 && (year % 100 != 0 || year % 400 == 0)

def monthLengths (year : Nat) : List Nat :=
  [31, if isLeap year then 29 else 28, 31, 30, 31, 30, 31, 31, 30, 31, 30, 31]

def monthLength (year month : Nat) : Nat :=
  (monthLengths year).getD (month - 1) 0

def daysBeforeMonth (year month : Nat) : Nat :=
  ((monthLengths year).take (month - 1)).foldl (· + ·) 0

def daysBeforeYear (year : Nat) : Nat :=
  let past := year - 1
  past * 365 + past / 4 - past / 100 + past / 400

def minutesInDay : Int := 1440

/-- A length of time in whole minutes, written as days and seconds. -/
def showLength (minutes : Int) : String :=
  let days := minutes.fdiv minutesInDay
  let seconds := minutes.fmod minutesInDay * 60
  let parts := (if days = 0 then [] else [s!"days={days}"]) ++
    if seconds = 0 then [] else [s!"seconds={seconds}"]
  "datetime.timedelta(" ++ (if parts.isEmpty then "0" else ", ".intercalate parts) ++ ")"

def showOffset (minutes : Int) : String :=
  if minutes = 0 then "datetime.timezone.utc"
  else "datetime.timezone(" ++ showLength minutes ++ ")"

end Calendar

open Calendar

namespace CalendarError

def message : CalendarError → String
  | year found => s!"year {found} is out of range"
  | month => "month must be in 1..12"
  | day => "day is out of range for month"
  | hour => "hour must be in 0..23"
  | minute => "minute must be in 0..59"
  | second => "second must be in 0..59"
  | offset minutes =>
    "offset must be a timedelta strictly between -timedelta(hours=24) and timedelta(hours=24), " ++
      "not " ++ showLength minutes ++ "."

end CalendarError

namespace Date

def check (d : Date) : Except CalendarError Date :=
  if d.year = 0 then .error (.year d.year)
  else if d.month = 0 ∨ 12 < d.month then .error .month
  else if d.day = 0 ∨ monthLength d.year d.month < d.day then .error .day
  else .ok d

def ordinal (d : Date) : Nat :=
  daysBeforeYear d.year + daysBeforeMonth d.year d.month + d.day

def display (d : Date) : String :=
  s!"datetime.date({d.year}, {d.month}, {d.day})"

end Date

namespace Moment

/-- The offset is looked at first, then the parts from the year down. -/
def check (m : Moment) : Except CalendarError Moment := do
  match m.offset with
  | some minutes =>
    if minutes ≤ -minutesInDay ∨ minutesInDay ≤ minutes then throw (.offset minutes)
  | none => pure ()
  discard m.date.check
  if 23 < m.hour then throw .hour
  if 59 < m.minute then throw .minute
  if 59 < m.second then throw .second
  return m

/-- Microseconds since the first day, by the clock that the moment is read from. -/
def clock (m : Moment) : Int :=
  (((m.date.ordinal * 24 + m.hour) * 60 + m.minute) * 60 + m.second) * 1000000 + m.microsecond

/-- Moments with an offset are the same if they are simultaneous; one without an offset is the same
as none that has one. -/
def same (a b : Moment) : Bool :=
  match a.offset, b.offset with
  | none, none => a.clock == b.clock
  | some x, some y => a.clock - x * 60000000 == b.clock - y * 60000000
  | _, _ => false

/-- Seconds are left out if they and everything below them are zero. -/
def display (m : Moment) : String :=
  s!"datetime.datetime({m.date.year}, {m.date.month}, {m.date.day}, {m.hour}, {m.minute}" ++
    (if m.second = 0 ∧ m.microsecond = 0 then "" else s!", {m.second}") ++
    (if m.microsecond = 0 then "" else s!", {m.microsecond}") ++
    (match m.offset with
      | some minutes => ", tzinfo=" ++ showOffset minutes
      | none => "") ++ ")"

end Moment

end CompletionServer
