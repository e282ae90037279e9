import ApiCompiler.Text.Digits
import ApiCompiler.Text.Segments

/-!
Calendar dates, times of day and instants, with the order in which their parts are checked.
-/

namespace ApiCompiler

inductive CalendarFault
  | year (value : Nat)
  | month
  | day
  | hour
  | minute
  | second
  | offset (seconds : Int)
  deriving DecidableEq

structure Date where
  year : Nat
  month : Nat
  day : Nat
  deriving DecidableEq

structure ClockTime where
  hour : Nat
  minute : Nat
  second : Nat
  micro : Nat
  deriving DecidableEq

/-- A date and time of day, with its offset from universal time in seconds if it has one. -/
structure Timestamp where
  date : Date
  time : ClockTime
  offset : Option Int
  deriving DecidableEq

namespace Calendar

def isLeapYear (year : Nat) : Bool :=
  year % 4 = 0 && (year % 100 ≠ 0 || year % 400 = 0)

def daysInMonth (year month : Nat) : Nat :=
  if month = 2 then (if isLeapYear year then 29 else 28)
  else if month = 4 || month = 6 || month = 9 || month = 11 then 30
  else 31

/-- Days from the first day of year one to the first day of a year. -/
def daysBeforeYear (year : Nat) : Nat :=
  let past := year - 1
  past * 365 + past / 4 - past / 100 + past / 400

def padded (width n : Nat) : List Char :=
  let digits := Text.decimal n
  List.replicate (width - digits.length) '0' ++ digits

end Calendar

def Date.make (year month day : Nat) : Except CalendarFault Date :=
  if year < 1 || 9999 < year then .error (.year year)
  else if month < 1 || 12 < month then .error .month
  else if day < 1 || Calendar.daysInMonth year month < day then .error .day
  else .ok ⟨year, month, day⟩

def ClockTime.make (hour minute second micro : Nat) : Except CalendarFault ClockTime :=
  if 23 < hour then .error .hour
  else if 59 < minute then .error .minute
  else if 59 < second then .error .second
  else .ok ⟨hour, minute, second, micro⟩

/-- Days since the first day of year one. -/
def Date.ordinal (d : Date) : Nat :=
  (List.range (d.month - 1)).foldl (fun days m => days + Calendar.daysInMonth d.year (m + 1))
    (Calendar.daysBeforeYear d.year) + d.day

/-- Microseconds since the start of year one, in universal time. -/
def Timestamp.instant (t : Timestamp) : Int :=
  let seconds : Int :=
    (t.date.ordinal * 86400 + t.time.hour * 3600 + t.time.minute * 60 + t.time.second : Nat)
  (seconds - t.offset.getD 0) * 1000000 + t.time.micro

/-- Two instants agree; without an offset on both sides or neither they never do. -/
def Timestamp.sameInstant (a b : Timestamp) : Bool :=
  a.offset.isSome = b.offset.isSome && a.instant = b.instant

open Calendar in
def Date.text (d : Date) : List Char :=
  padded 4 d.year ++ '-' :: padded 2 d.month ++ '-' :: padded 2 d.day

open Calendar in
def ClockTime.text (t : ClockTime) : List Char :=
  padded 2 t.hour ++ ':' :: padded 2 t.minute ++ ':' :: padded 2 t.second ++
    (if t.micro = 0 then [] else '.' :: padded 6 t.micro)

open Calendar in
/-- An offset as sign, hours and minutes, with seconds if there are any. -/
def offsetText (seconds : Int) : List Char :=
  let n := seconds.natAbs
  (if seconds < 0 then '-' else '+') :: padded 2 (n / 3600) ++ ':' :: padded 2 (n / 60 % 60) ++
    (if n % 60 = 0 then [] else ':' :: padded 2 (n % 60))

def Timestamp.text (separator : Char) (t : Timestamp) : List Char :=
  t.date.text ++ separator :: t.time.text ++
    match t.offset with
    | none => []
    | some seconds => offsetText seconds

end ApiCompiler
