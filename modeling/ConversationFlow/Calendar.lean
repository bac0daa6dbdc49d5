import ConversationFlow.Template

/-!
# The calendar

The date of a day that is counted from 1 January 1970, and the time of day of a second.
Years are counted off one by one, and then the months of the year that is left.
-/

namespace ConversationFlow.Calendar

def isLeap (year : Nat) : Bool := (year % 4 == 0 && year % 100 != 0) || year % 400 == 0

/-- The lengths of the months of a year. -/
def monthLengths (year : Nat) : List Nat :=
  [31, if isLeap year then 29 else 28, 31, 30, 31, 30, 31, 31, 30, 31, 30, 31]

def yearLength (year : Nat) : Nat := if isLeap year then 366 else 365

/-- The year of a day that is counted from the start of a year, and the day within it. -/
def yearOf (year day : Nat) : Nat × Nat :=
  if day < yearLength year then (year, day) else yearOf (year + 1) (day - yearLength year)
termination_by day
decreasing_by
  have : 0 < yearLength year := by unfold yearLength; split <;> omega
  omega

/-- The month of a day that is counted from the start of a month, and the day within it. -/
def monthOf (month day : Nat) : List Nat → Nat × Nat
  | [] => (month, day)
  | length :: rest =>
    if day < length then (month, day) else monthOf (month + 1) (day - length) rest

/-- The year, the month and the day of a day, all counted from 1. -/
def dateOf (day : Nat) : Nat × Nat × Nat :=
  let (year, day) := yearOf 1970 day
  let (month, day) := monthOf 1 day (monthLengths year)
  (year, month, day + 1)

/-- A number in at least the given number of digits. -/
def digits (width n : Nat) : Text :=
  let t := Text.ofNat n
  List.replicate (width - t.length) '0' ++ t

/-- The moment of a second. -/
def moment (seconds : Nat) : Variables.Moment :=
  let (year, month, day) := dateOf (seconds / 86400)
  let date := digits 4 year ++ '-' :: digits 2 month ++ '-' :: digits 2 day
  let time := seconds % 86400
  let clock :=
    digits 2 (time / 3600) ++ ':' :: digits 2 (time / 60 % 60) ++ ':' :: digits 2 (time % 60)
  ⟨date, date ++ ' ' :: clock⟩

end ConversationFlow.Calendar
