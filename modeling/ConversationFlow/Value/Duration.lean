import ConversationFlow.Text.Case
import ConversationFlow.Value.Basic

/-!
# Durations

A duration counts nanoseconds. It is read as a whole number with a unit and
written in seconds, or in milliseconds where seconds do not suffice.
-/

namespace ConversationFlow

/-- A length of time. -/
structure Duration where
  nanos : Nat
deriving DecidableEq, Inhabited

namespace Duration

def ofSeconds (n : Nat) : Duration := ⟨n * 1000000000⟩

def ofMillis (n : Nat) : Duration := ⟨n * 1000000⟩

/-- Whole seconds. -/
def seconds (d : Duration) : Nat := d.nanos / 1000000000

/-- Nanoseconds beyond the whole seconds. -/
def subNanos (d : Duration) : Nat := d.nanos % 1000000000

/-- Whole milliseconds. -/
def millis (d : Duration) : Nat := d.nanos / 1000000

/-- The duration of a number and a unit. Seconds are counted in a word of 64 bits, where the product
with a unit wraps around. -/
def ofUnit (n : Nat) (unit : Text) : Except ValueError Duration :=
  if ["", "s", "sec", "secs"].any fun u => unit = u.toList then .ok (ofSeconds n)
  else if unit = "ms".toList then .ok (ofMillis n)
  else if ["m", "min", "mins"].any fun u => unit = u.toList then .ok (ofSeconds (n * 60 % wordSize 64))
  else if unit = "h".toList then .ok (ofSeconds (n * 3600 % wordSize 64))
  else .error (.unknownUnit unit)

/-- Reads a whole number below `2 ^ 64` and a unit, seconds if there is none. -/
def read (value : Text) : Except ValueError Duration :=
  let v := Text.lower (Text.trim value)
  match Text.toNat? (v.takeWhile Text.isDigit) with
  | some n =>
    if n < wordSize 64 then ofUnit n (Text.trim (v.dropWhile Text.isDigit))
    else .error .durationExpected
  | none => .error .durationExpected

/-- Seconds if they suffice and are not zero, else milliseconds. -/
def text (d : Duration) : Text :=
  if d.millis % 1000 ≠ 0 ∨ d.seconds = 0 then Text.ofNat d.millis ++ "ms"
  else Text.ofNat d.seconds ++ "s"

private def trimZeros (t : Text) : Text := (t.reverse.dropWhile (· = '0')).reverse

/-- A number of units with the fraction that is left, without zeros at its end. -/
private def withFraction (nanos unit digits : Nat) : Text :=
  let fraction := Text.ofNat (nanos % unit)
  let padded := List.replicate (digits - fraction.length) '0' ++ fraction
  let shown := trimZeros padded
  Text.ofNat (nanos / unit) ++ if shown.isEmpty then [] else '.' :: shown

/-- The duration in the largest unit, down from seconds, of which it holds at least one. -/
def inLargestUnit (d : Duration) : Text :=
  if 1000000000 ≤ d.nanos then withFraction d.nanos 1000000000 9 ++ "s"
  else if 1000000 ≤ d.nanos then withFraction d.nanos 1000000 6 ++ "ms"
  else if 1000 ≤ d.nanos then withFraction d.nanos 1000 3 ++ "µs"
  else Text.ofNat d.nanos ++ "ns"

end Duration

end ConversationFlow
