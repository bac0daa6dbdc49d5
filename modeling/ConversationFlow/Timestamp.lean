import ConversationFlow.Text.Basic

/-!
# Timestamps

A timestamp is a date, a time of day and an offset from universal time. Blanks may
stand around the numbers, a `T` or a space separates date and time, and the offset is a
`Z`, `UTC`, or a signed number of hours and minutes. In universal time it lies between the
beginning of the year -262143 and the end of the year 262142.
-/

namespace ConversationFlow.Timestamp

/-- A number of at most `width` digits, and the text after it. -/
private def digits? (width : Nat) (t : Text) : Option (Nat × Text) :=
  let digits := (t.take width).takeWhile Text.isDigit
  (Text.toNat? digits).map fun n => (n, t.drop digits.length)

/-- A number of at most two digits, which blanks may precede. -/
private def number? (t : Text) : Option (Nat × Text) := digits? 2 (Text.trimStart t)

/-- A year of four digits, or of any number of digits right after a sign. -/
private def year? (t : Text) : Option (Int × Text) :=
  match Text.trimStart t with
  | '-' :: t => (digits? t.length t).map fun (n, t) => (-(n : Int), t)
  | '+' :: t => (digits? t.length t).map fun (n, t) => ((n : Int), t)
  | t => (digits? 4 t).map fun (n, t) => ((n : Int), t)

/-- The text after a separator, which blanks may precede. -/
private def afterSeparator? (c : Char) (t : Text) : Option Text :=
  Text.after? [c] (Text.trimStart t)

private def isLeapYear (y : Int) : Bool := (y % 4 == 0 && y % 100 != 0) || y % 400 == 0

private def daysOfMonth (y : Int) (month : Nat) : Nat :=
  if month = 2 then if isLeapYear y then 29 else 28
  else if month = 4 || month = 6 || month = 9 || month = 11 then 30
  else 31

/-- Which of the days that can be written a date is, if it is the first or the last one. -/
private inductive Extreme where
  | first
  | last
deriving DecidableEq

/-- Whether a date is the first or the last one, and the text after it. -/
private def date? (t : Text) : Option (Option Extreme × Text) := do
  let (y, t) ← year? t
  let (month, t) ← number? (← afterSeparator? '-' t)
  let (day, t) ← number? (← afterSeparator? '-' t)
  guard (-262143 ≤ y && y ≤ 262142)
  guard (1 ≤ month && month ≤ 12 && 1 ≤ day && day ≤ daysOfMonth y month)
  return (if y = -262143 && month = 1 && day = 1 then some .first
    else if y = 262142 && month = 12 && day = 31 then some .last
    else none, t)

/-- The text after the fraction of a second, if there is one. -/
private def afterFraction? : Text → Option Text
  | '.' :: c :: t => if Text.isDigit c then some (t.dropWhile Text.isDigit) else none
  | ['.'] => none
  | t => some t

/-- The second of the day, and the text after a time of day. A leap second belongs to the second
before it. -/
private def time? (t : Text) : Option (Int × Text) := do
  let (hour, t) ← number? t
  let (minute, t) ← number? (← afterSeparator? ':' t)
  let (second, t) ← number? (← afterSeparator? ':' t)
  guard (hour < 24 && minute < 60 && second ≤ 60)
  return ((hour * 3600 + minute * 60 + min second 59 : Nat), ← afterFraction? t)

private def digitValue (c : Char) : Nat := c.toNat - '0'.toNat

/-- An offset of less than a day in seconds, and the text after it. -/
private def offset? (t : Text) : Option (Int × Text) :=
  match t with
  | 'Z' :: t | 'z' :: t => some (0, t)
  | sign :: a :: b :: t =>
    if Text.lowerAscii [sign, a, b] = ['u', 't', 'c'] then some (0, t)
    else if sign = '+' || sign = '-' || sign = '−' then
      match t.dropWhile fun c => c = ':' || Text.isBlank c with
      | c :: d :: t =>
        if [a, b, c, d].all Text.isDigit && c < '6' && (a < '2' || (a = '2' && b < '4')) then
          let minutes := (10 * digitValue a + digitValue b) * 60 + 10 * digitValue c + digitValue d
          let seconds : Int := (60 * minutes : Nat)
          some (if sign = '+' then seconds else -seconds, t)
        else none
      | _ => none
    else none
  | _ => none

/-- Whether a text is a timestamp. -/
def isValid (t : Text) : Bool :=
  let rest? : Option Text := do
    let (extreme, t) ← date? t
    let t ← match t with
      | c :: t => if c = 'T' || c = 't' || c = ' ' then some t else none
      | [] => none
    let (second, t) ← time? t
    let (offset, t) ← offset? (Text.trimStart t)
    guard (extreme ≠ some .first || 0 ≤ second - offset)
    guard (extreme ≠ some .last || second - offset < 86400)
    return t
  rest?.any Text.allBlank

end ConversationFlow.Timestamp
