import ConversationFlow.Decimal
import ConversationFlow.Text.Case
import ConversationFlow.Value.Basic

/-!
# Scalar values

Counts, flags and percentages as directives write them. A percentage may be
written as one (`75%`), as a whole number (`75`) or as a fraction (`0.75`).
-/

namespace ConversationFlow

/-- A whole number below `2 ^ 32`, which may carry a plus sign. -/
def Count.ofText? (t : Text) : Option Nat :=
  (Text.toNat? (match t with | '+' :: t => t | t => t)).filter fun n => n < wordSize 32

/-- A count, which blanks may surround. -/
def Count.read (value : Text) : Except ValueError Nat :=
  match Count.ofText? (Text.trim value) with
  | some n => .ok n
  | none => .error .countExpected

/-- A yes or a no, in any of its spellings. -/
def Flag.read (value : Text) (whenEmpty : Bool) : Except ValueError Bool :=
  let v := Text.lower (Text.trim value)
  if v.isEmpty then .ok whenEmpty
  else if ["true", "yes", "on", "1"].any fun s => v = s.toList then .ok true
  else if ["false", "no", "off", "0"].any fun s => v = s.toList then .ok false
  else .error .flagExpected

namespace Percent

/-- Reads a percentage as a fraction from 0 to 1. A number without a point, or beyond one,
counts hundredths. -/
def read (value : Text) : Except ValueError Float :=
  let v := Text.trim value
  if v.isEmpty then .error .percentExpected
  else
    let (number, percent) : Text × Bool :=
      match Text.before? ['%'] v with
      | some n => (Text.trim n, true)
      | none => (v, false)
    match Decimal.toFloat? number with
    | none => .error .notNumber
    | some n =>
      if !n.isFinite || n < 0.0 then .error .negativeNumber
      else
        let fraction := if percent || !number.contains '.' || n > 1.0 then n / 100.0 else n
        if fraction > 1.0 then .error .overHundredPercent else .ok fraction

/-- A fraction as a percentage: a whole number if it is one up to a billionth. -/
def text (fraction : Float) : Text :=
  let hundredths := fraction * 100.0
  if (hundredths - hundredths.round).abs < 1e-9 then
    Text.ofInt hundredths.round.toInt64.toInt ++ "%"
  else Decimal.ofFloat hundredths ++ "%"

end Percent

/-- The name before the first `=` and the text after it; the name may not be empty. -/
def Assignment.split? (word : Text) : Option (Text × Text) :=
  match Text.cutAt? '=' word with
  | some (name, value) => if name.isEmpty then none else some (name, value)
  | none => none

/-- An assignment whose name is taken without the blanks around it. -/
def Assignment.read (word : Text) : Except ValueError (Text × Text) :=
  match Text.cutAt? '=' word with
  | some (name, value) =>
    if Text.allBlank name then .error (.assignmentInstead word) else .ok (Text.trim name, value)
  | none => .error (.assignmentInstead word)

end ConversationFlow
