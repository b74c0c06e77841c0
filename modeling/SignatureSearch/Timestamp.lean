/-
# `Timestamp` — points in time as texts

A point in time is written as date, a `T`, the time of day, microseconds only
if there are any, and the offset from universal time if one is known.  Records
carry such a text with a `Z` after it.  It is read with or without the marks
between the digits, with the minutes and seconds left out, and with a date by
year, week and day of the week.
-/
namespace SignatureSearch

structure Date where
  year : Nat
  month : Nat
  day : Nat
deriving DecidableEq, Repr

namespace Date

def isLeap (year : Nat) : Bool :=
  year % 4 = 0 && (year % 100 ≠ 0 || year % 400 = 0)

def monthLengths (year : Nat) : List Nat :=
  [31, if isLeap year then 29 else 28, 31, 30, 31, 30, 31, 31, 30, 31, 30, 31]

def yearLength (year : Nat) : Nat :=
  if isLeap year then 366 else 365

/-- The number of days before a year, from the year one on. -/
def daysBefore (year : Nat) : Nat :=
  let past := year - 1
  365 * past + past / 4 - past / 100 + past / 400

/-- The month and the day of the month, `n` days after the first day of month `month`, given the
lengths of the months from there on. -/
def monthDay (n month : Nat) : List Nat → Nat × Nat
  | length :: rest => if n < length then (month, n + 1) else monthDay (n - length) (month + 1) rest
  | [] => (month, n + 1)

/-- The day that comes so many days after the first of a year. -/
def ofYearDay (year n : Nat) : Date :=
  let (month, day) := monthDay n 1 (monthLengths year)
  ⟨year, month, day⟩

/-- The day of a week of a year, both counted from one.  The first week is the one with the year's
first Thursday, so it may start before the year does, and the last one may end after it. -/
def ofWeek (year week day : Nat) : Date :=
  let weekday := daysBefore year % 7
  let days := 7 * (week - 1) + (day - 1) + if weekday > 3 then 7 else 0
  if days < weekday then ofYearDay (year - 1) (yearLength (year - 1) + days - weekday)
  else if days - weekday < yearLength year then ofYearDay year (days - weekday)
  else ofYearDay (year + 1) (days - weekday - yearLength year)

end Date

/-- A point in time: its day, and the digits of its other parts. -/
structure Timestamp where
  date : Date
  /-- Hour, minute and second, as far as they are given. -/
  clock : List Char
  /-- The fraction of the second. -/
  fraction : List Char
  /-- The offset from universal time: its sign, hours, minutes and seconds as far as given, and the
  fraction of its second. -/
  offset : Option (Char × List Char × List Char)
deriving DecidableEq, Repr

namespace Timestamp

/-- A sign, or the letter for universal time: what an offset starts with. -/
def startsOffset (c : Char) : Bool :=
  c = '+' || c = '-' || c = 'Z'

/-- What stands between the seconds and their fraction. -/
def startsFraction (c : Char) : Bool :=
  c = '.' || c = ','

def digits (cs : List Char) : List Char :=
  cs.filter (·.isDigit)

/-- The digits up to the whole seconds, six at most, and those of the fraction. -/
def cutFraction (cs : List Char) : List Char × List Char :=
  let whole := digits (cs.takeWhile (!startsFraction ·))
  (whole.take 6, whole.drop 6 ++ digits (cs.dropWhile (!startsFraction ·)))

/-- Reads an offset; the letter for universal time is the offset zero. -/
def readOffset : List Char → Option (Char × List Char × List Char)
  | [] => none
  | 'Z' :: _ => some ('+', [], [])
  | sign :: rest => some (sign, cutFraction rest)

def number (cs : List Char) : Nat :=
  (digits cs).foldl (fun n c => 10 * n + (c.toNat - '0'.toNat)) 0

/-- How many characters the date takes.  Where the digits after a week could belong to it or to the
time, they belong to the time. -/
def dateLength (cs : List Char) : Nat :=
  let isDigitAt (i : Nat) : Bool := ((cs.drop i).head?.map (·.isDigit)).getD false
  match cs.drop 4 with
  | '-' :: 'W' :: rest =>
    if (rest.drop 2).head? = some '-' && !isDigitAt 10 then 10 else 8
  | '-' :: _ => 10
  | 'W' :: _ =>
    let run := ((cs.drop 7).takeWhile (·.isDigit)).length
    if run ≤ 1 then 7 + run else if run % 2 = 1 then 7 else 8
  | _ => 8

/-- Reads a date: by year, month and day, or by year, week and day of the week. -/
def readDate (cs : List Char) : Date :=
  let year := number (cs.take 4)
  let rest := digits (cs.drop 4)
  let first := number (rest.take 2)
  let second := rest.drop 2
  if cs.contains 'W' then .ofWeek year first (if second.isEmpty then 1 else number second)
  else ⟨year, first, number second⟩

/-- Reads the parts of a point in time. -/
def ofText (s : String) : Timestamp :=
  let length := dateLength s.toList
  let time := s.toList.drop (length + 1)
  let (clock, fraction) := cutFraction (time.takeWhile (!startsOffset ·))
  { date := readDate (s.toList.take length)
    clock, fraction
    offset := readOffset (time.dropWhile (!startsOffset ·)) }

/-- Digits with zeros after them, so many in all. -/
def padded (n : Nat) (cs : List Char) : List Char :=
  cs.take n ++ List.replicate (n - cs.length) '0'

/-- A number in digits, so many at least. -/
def numeral (width n : Nat) : List Char :=
  let cs := Nat.toDigits 10 n
  List.replicate (width - cs.length) '0' ++ cs

/-- Digits in pairs, with a colon between the pairs. -/
def paired : List Char → List Char
  | a :: b :: c :: rest => a :: b :: ':' :: paired (c :: rest)
  | cs => cs

def dateText (d : Date) : List Char :=
  numeral 4 d.year ++ '-' :: numeral 2 d.month ++ '-' :: numeral 2 d.day

/-- A fraction of a second: nothing if it is zero, else a point and six digits. -/
def microseconds (fraction : List Char) : List Char :=
  let cs := padded 6 fraction
  if cs.all (· == '0') then [] else '.' :: cs

/-- The text of an offset: its seconds only if there are any.  An offset of less than a second is
zero, and zero is positive. -/
def offsetText : Option (Char × List Char × List Char) → List Char
  | none => []
  | some (sign, cs, fraction) =>
    let cs := padded 6 cs
    let fraction := microseconds fraction
    if cs.all (· == '0') then '+' :: paired (cs.take 4)
    else if (cs.drop 4).all (· == '0') && fraction.isEmpty then sign :: paired (cs.take 4)
    else sign :: paired cs ++ fraction

def text (t : Timestamp) : String :=
  String.ofList (dateText t.date ++ 'T' :: paired (padded 6 t.clock) ++ microseconds t.fraction
    ++ offsetText t.offset)

/-- The text that records carry. -/
def mark (t : Timestamp) : String :=
  t.text ++ "Z"

end Timestamp
end SignatureSearch
