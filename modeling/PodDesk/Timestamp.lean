import PodDesk.Number.Decimal

/-!
# Points in time

A point in time is a number of seconds since the start of 1970. It is read from and written as a
date and a time of day with an offset, as RFC 3339 has it; a fraction of a second is dropped.
-/

namespace PodDesk

/-- Seconds since the start of 1970, negative before it. -/
structure Timestamp where
  seconds : Int
  deriving DecidableEq, Repr, Inhabited

namespace Timestamp

/-- `isLeap year` says whether the year has a 29th of February. -/
def isLeap (year : Nat) : Bool :=
  year % 4 = 0 && (year % 100 ≠ 0 || year % 400 = 0)

/-- `daysInMonth year month` is the number of days of the month. -/
def daysInMonth (year month : Nat) : Nat :=
  if month = 2 then (if isLeap year then 29 else 28)
  else if month = 4 ∨ month = 6 ∨ month = 9 ∨ month = 11 then 30
  else 31

/-- `daysBeforeYear year` counts the days from the start of year 0 to the start of the year. -/
def daysBeforeYear (year : Nat) : Nat :=
  365 * year + (year + 3) / 4 - (year + 99) / 100 + (year + 399) / 400

/-- `daysBeforeMonth year month` counts the days from the start of the year to the start of the
month. -/
def daysBeforeMonth (year month : Nat) : Nat :=
  ((List.range (month - 1)).map fun m => daysInMonth year (m + 1)).foldl (· + ·) 0

/-- `dayNumber` counts the days from the start of 1970 to a date. -/
def dayNumber (year month day : Nat) : Int :=
  (daysBeforeYear year + daysBeforeMonth year month + (day - 1) : Nat) - (719528 : Int)

/-- Up to `width` digits, at least one, and what follows. -/
def number? (width : Nat) (cs : List Char) : Option (Nat × List Char) :=
  let digits := (cs.take width).takeWhile Decimal.isDigit
  if digits.isEmpty then none else some (Decimal.value digits, cs.drop digits.length)

/-- `mark? wanted` reads the wanted character, and leaves what follows. -/
def mark? (wanted : Char) : List Char → Option (List Char)
  | [] => none
  | c :: cs => if c = wanted then some cs else none

/-- `afterFraction? cs` is what follows an optional fraction; a point must have a digit after it. -/
def afterFraction? (cs : List Char) : Option (List Char) :=
  match cs with
  | '.' :: digits =>
    if (digits.takeWhile Decimal.isDigit).isEmpty then none
    else some (digits.dropWhile Decimal.isDigit)
  | cs => some cs

/-- An offset from universal time in seconds: `Z`, or a sign with two digits of hours and two of
minutes. -/
def offset? (cs : List Char) : Option Int :=
  match cs with
  | ['Z'] => some 0
  | ['z'] => some 0
  | sign :: h₁ :: h₂ :: rest =>
    let minutes := match rest with
      | ':' :: minutes => minutes
      | minutes => minutes
    if (sign = '+' ∨ sign = '-') ∧ minutes.length = 2 then do
      let h ← Decimal.natural? [h₁, h₂]
      let m ← Decimal.natural? minutes
      if h ≤ 23 ∧ m ≤ 59 then
        let seconds : Int := (h * 3600 + m * 60 : Nat)
        some (if sign = '-' then -seconds else seconds)
      else none
    else none
  | _ => none

/-- `ofText? s` is the point in time that a text names. -/
def ofText? (s : String) : Option Timestamp := do
  let (year, cs) ← number? 4 s.toList
  let (month, cs) ← number? 2 (← mark? '-' cs)
  let (day, cs) ← number? 2 (← mark? '-' cs)
  let cs ← (mark? 'T' cs).or (mark? 't' cs)
  let (hour, cs) ← number? 2 cs
  let (minute, cs) ← number? 2 (← mark? ':' cs)
  let (second, cs) ← number? 2 (← mark? ':' cs)
  let offset ← offset? (← afterFraction? cs)
  if 1 ≤ month ∧ month ≤ 12 ∧ 1 ≤ day ∧ day ≤ daysInMonth year month ∧ hour ≤ 23 ∧ minute ≤ 59
      ∧ second ≤ 60 then
    some ⟨dayNumber year month day * 86400 + (hour * 3600 + minute * 60 + min second 59 : Nat)
      - offset⟩
  else none

/-- `padded width n` writes `n` with leading zeros up to the width. -/
def padded (width n : Nat) : String :=
  let digits := toString n
  String.ofList (List.replicate (width - digits.length) '0') ++ digits

/-- `yearOfDay days` is the year of a day number that is counted from the start of year 0, and the
day within the year. -/
def yearOfDay (days : Nat) : Nat × Nat :=
  let guess := days / 366
  let year := guess + ((List.range (guess / 366 + 3)).filter fun k =>
    daysBeforeYear (guess + k + 1) ≤ days).length
  (year, days - daysBeforeYear year)

/-- `monthOfDay year day` is the month of a day within a year, and the day within the month, both
counted from 1. -/
def monthOfDay (year day : Nat) : Nat × Nat :=
  let month := 1 + ((List.range 11).filter fun m => daysBeforeMonth year (m + 2) ≤ day).length
  (month, day - daysBeforeMonth year month + 1)

/-- `t.toText` writes a point in time, in universal time. -/
def toText (t : Timestamp) : String :=
  let days := (t.seconds.fdiv 86400 + 719528).toNat
  let rest := (t.seconds.fmod 86400).toNat
  let (year, dayOfYear) := yearOfDay days
  let (month, day) := monthOfDay year dayOfYear
  padded 4 year ++ "-" ++ padded 2 month ++ "-" ++ padded 2 day ++ "T" ++ padded 2 (rest / 3600)
    ++ ":" ++ padded 2 (rest / 60 % 60) ++ ":" ++ padded 2 (rest % 60) ++ "Z"

end Timestamp

end PodDesk
